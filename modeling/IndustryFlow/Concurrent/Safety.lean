import IndustryFlow.Concurrent.Program

/-!
# Safety of a program beside other users of its stores

`Program.Safe` says that a program keeps an invariant of the stores and gives
its guarantee at every call, whatever the others do between two calls as long
as it stays within `rely`.  A program that crashes keeps the invariant too:
every call has to establish it before the program goes on.
-/

namespace Concurrent

/-- The terms on which a program shares its stores. -/
structure Contract (Shared Op Choice : Type) where
  invariant : Shared → Prop
  /-- The calls a run is restricted to. -/
  allowed : Shared → Op → Choice → Prop
  /-- What the others do between two calls of the program. -/
  rely : Shared → Shared → Prop
  /-- What one call of the program does. -/
  guarantee : Shared → Shared → Prop
  rely_refl : ∀ shared, rely shared shared
  rely_trans : ∀ {first second third}, rely first second →
    rely second third → rely first third

variable {Op : Type} {Reply : Op → Type} {Error Answer Result : Type}
variable {Shared Choice : Type}

namespace Program

/-- `exec shared op choice` is the reply to a call and the stores after it,
or `none` when the call cannot have that outcome. -/
def Safe (exec : Shared → (op : Op) → Choice → Option (Reply op × Shared))
    (contract : Contract Shared Op Choice)
    (post : Except Error Answer → Shared → Prop) :
    Program Op Reply Error Answer → Shared → Prop
  | .done answer, shared => ∀ later, contract.invariant later →
      contract.rely shared later → post (.ok answer) later
  | .fail error, shared => ∀ later, contract.invariant later →
      contract.rely shared later → post (.error error) later
  | .call op next, shared => ∀ later, contract.invariant later →
      contract.rely shared later → ∀ choice reply after,
        contract.allowed later op choice →
        exec later op choice = some (reply, after) →
          contract.invariant after ∧ contract.guarantee later after ∧
            (next reply).Safe exec contract post after

variable {exec : Shared → (op : Op) → Choice → Option (Reply op × Shared)}
variable {contract : Contract Shared Op Choice}

/-- Safety survives what the others do. -/
theorem Safe.stable {post : Except Error Answer → Shared → Prop}
    {program : Program Op Reply Error Answer} {shared later : Shared}
    (safe : program.Safe exec contract post shared)
    (changed : contract.rely shared later) :
    program.Safe exec contract post later := by
  cases program with
  | done answer =>
      exact fun last holds more =>
        safe last holds (contract.rely_trans changed more)
  | fail error =>
      exact fun last holds more =>
        safe last holds (contract.rely_trans changed more)
  | call op next =>
      exact fun last holds more =>
        safe last holds (contract.rely_trans changed more)

theorem Safe.bind {middle : Except Error Answer → Shared → Prop}
    {post : Except Error Result → Shared → Prop}
    {program : Program Op Reply Error Answer}
    {continuation : Answer → Program Op Reply Error Result}
    {shared : Shared} (holds : contract.invariant shared)
    (first : program.Safe exec contract middle shared)
    (answered : ∀ answer later, contract.invariant later →
      middle (.ok answer) later →
        (continuation answer).Safe exec contract post later)
    (failed : ∀ error later, middle (.error error) later →
      post (.error error) later) :
    (program >>= continuation).Safe exec contract post shared := by
  induction program generalizing shared with
  | done answer =>
      exact answered answer shared holds
        (first shared holds (contract.rely_refl shared))
  | fail error =>
      exact fun later kept changed =>
        failed error later (first later kept changed)
  | call op next induction =>
      intro later kept changed choice reply after permitted executed
      obtain ⟨keptAfter, given, rest⟩ :=
        first later kept changed choice reply after permitted executed
      exact ⟨keptAfter, given, induction reply keptAfter rest⟩

theorem Safe.mono {strong weak : Except Error Answer → Shared → Prop}
    {program : Program Op Reply Error Answer} {shared : Shared}
    (safe : program.Safe exec contract strong shared)
    (implies : ∀ result later, contract.invariant later →
      strong result later → weak result later) :
    program.Safe exec contract weak shared := by
  induction program generalizing shared with
  | done answer =>
      exact fun later kept changed =>
        implies _ later kept (safe later kept changed)
  | fail error =>
      exact fun later kept changed =>
        implies _ later kept (safe later kept changed)
  | call op next induction =>
      intro later kept changed choice reply after permitted executed
      obtain ⟨keptAfter, given, rest⟩ :=
        safe later kept changed choice reply after permitted executed
      exact ⟨keptAfter, given, induction reply rest⟩

/-- Where what the program does is within `rely` too, its last state is
related to its first. -/
theorem Safe.tracks (given : ∀ {before after},
      contract.guarantee before after → contract.rely before after)
    {post : Except Error Answer → Shared → Prop}
    {program : Program Op Reply Error Answer} {shared : Shared}
    (safe : program.Safe exec contract post shared) :
    program.Safe exec contract (fun result later =>
      post result later ∧ contract.rely shared later) shared := by
  induction program generalizing shared with
  | done answer =>
      exact fun later holds changed => ⟨safe later holds changed, changed⟩
  | fail error =>
      exact fun later holds changed => ⟨safe later holds changed, changed⟩
  | call op next induction =>
      intro later holds changed choice reply after permitted executed
      obtain ⟨kept, guaranteed, rest⟩ :=
        safe later holds changed choice reply after permitted executed
      refine ⟨kept, guaranteed, (induction reply rest).mono ?_⟩
      intro result last _ ⟨ended, within⟩
      exact ⟨ended, contract.rely_trans changed
        (contract.rely_trans (given guaranteed) within)⟩

/-- A program all of whose calls keep the contract by themselves. -/
theorem Always.safe {possible : ∀ op, Reply op → Prop} {calls : Op → Prop}
    {post : Except Error Answer → Prop}
    {program : Program Op Reply Error Answer}
    (always : program.Always possible calls post)
    (keeps : ∀ op, calls op → ∀ shared choice reply after,
      contract.invariant shared → contract.allowed shared op choice →
      exec shared op choice = some (reply, after) →
        contract.invariant after ∧ contract.guarantee shared after ∧
          possible op reply)
    (shared : Shared) :
    program.Safe exec contract (fun result _ => post result) shared := by
  induction program generalizing shared with
  | done answer => exact fun _ _ _ => always
  | fail error => exact fun _ _ _ => always
  | call op next induction =>
      intro later holds _ choice reply after permitted executed
      have ⟨kept, given, admitted⟩ := keeps op always.1 later choice reply
        after holds permitted executed
      exact ⟨kept, given, induction reply (always.2 reply admitted) after⟩

/-- The program on its own: every call in turn, nothing in between. -/
def alone (exec : Shared → (op : Op) → Option (Reply op × Shared)) :
    Program Op Reply Error Answer → Shared →
      Option (Except Error Answer × Shared)
  | .done answer, shared => some (.ok answer, shared)
  | .fail error, shared => some (.error error, shared)
  | .call op next, shared => (exec shared op).bind fun executed =>
      (next executed.1).alone exec executed.2

theorem alone_call {exec : Shared → (op : Op) → Option (Reply op × Shared)}
    {op : Op} {shared after : Shared} {reply : Reply op}
    (executed : exec shared op = some (reply, after))
    (next : Reply op → Program Op Reply Error Answer) :
    (call op next).alone exec shared = (next reply).alone exec after := by
  simp [alone, executed]

theorem alone_bind (exec : Shared → (op : Op) → Option (Reply op × Shared))
    (program : Program Op Reply Error Answer)
    (continuation : Answer → Program Op Reply Error Result)
    (shared : Shared) :
    (program >>= continuation).alone exec shared =
      (program.alone exec shared).bind fun ran =>
        match ran.1 with
        | .ok answer => (continuation answer).alone exec ran.2
        | .error error => some (.error error, ran.2) := by
  induction program generalizing shared with
  | done answer => rfl
  | fail error => rfl
  | call op next induction =>
      simp only [call_bind, alone, Option.bind_assoc, induction]

theorem Safe.alone {choice : Choice}
    {post : Except Error Answer → Shared → Prop}
    {program : Program Op Reply Error Answer} {shared after : Shared}
    {result : Except Error Answer}
    (safe : program.Safe exec contract post shared)
    (holds : contract.invariant shared)
    (allowed : ∀ later op, contract.allowed later op choice)
    (ran : program.alone (fun later op => exec later op choice) shared =
      some (result, after)) :
    contract.invariant after ∧ post result after := by
  induction program generalizing shared with
  | done answer =>
      cases ran
      exact ⟨holds, safe _ holds (contract.rely_refl _)⟩
  | fail error =>
      cases ran
      exact ⟨holds, safe _ holds (contract.rely_refl _)⟩
  | call op next induction =>
      obtain ⟨⟨reply, middle⟩, executed, rest⟩ :=
        Option.bind_eq_some_iff.mp ran
      obtain ⟨kept, -, safeAfter⟩ := safe shared holds
        (contract.rely_refl _) choice reply middle (allowed _ _) executed
      exact induction reply safeAfter kept rest

/-- What is left of the program after these outcomes of its calls, nothing in
between; a program that dies is left with a call. -/
def follow (exec : Shared → (op : Op) → Choice → Option (Reply op × Shared)) :
    Program Op Reply Error Answer → Shared → List Choice →
      Option (Program Op Reply Error Answer × Shared)
  | program, shared, [] => some (program, shared)
  | .call op next, shared, choice :: choices =>
      (exec shared op choice).bind fun executed =>
        (next executed.1).follow exec executed.2 choices
  | _, _, _ :: _ => none

theorem Safe.follow {post : Except Error Answer → Shared → Prop}
    {program left : Program Op Reply Error Answer} {shared after : Shared}
    {choices : List Choice}
    (safe : program.Safe exec contract post shared)
    (holds : contract.invariant shared)
    (allowed : ∀ later op choice, contract.allowed later op choice)
    (followed : program.follow exec shared choices = some (left, after)) :
    contract.invariant after ∧ left.Safe exec contract post after := by
  induction choices generalizing program shared with
  | nil =>
      rw [Program.follow] at followed
      cases followed
      exact ⟨holds, safe⟩
  | cons choice choices induction =>
      cases program with
      | done answer => cases followed
      | fail error => cases followed
      | call op next =>
          obtain ⟨⟨reply, middle⟩, executed, rest⟩ :=
            Option.bind_eq_some_iff.mp followed
          obtain ⟨kept, -, safeAfter⟩ := safe shared holds
            (contract.rely_refl _) choice reply middle (allowed _ _ _)
            executed
          exact induction safeAfter kept rest

end Program

/-- The terms of a program that nothing interferes with. -/
def Contract.lone (invariant : Shared → Prop) :
    Contract Shared Op Choice where
  invariant := invariant
  allowed _ _ _ := True
  rely := Eq
  guarantee _ _ := True
  rely_refl _ := rfl
  rely_trans := Eq.trans

namespace Program

section Lone

variable {exec : Shared → (op : Op) → Choice → Option (Reply op × Shared)}
variable {invariant : Shared → Prop}
variable {post : Except Error Answer → Shared → Prop}

theorem Safe.lone_done {answer : Answer} {shared : Shared}
    (ends : post (.ok answer) shared) :
    (Program.done answer : Program Op Reply Error Answer).Safe exec
      (.lone invariant) post shared := by
  rintro later - rfl
  exact ends

theorem Safe.lone_fail {error : Error} {shared : Shared}
    (ends : post (.error error) shared) :
    (Program.fail error : Program Op Reply Error Answer).Safe exec
      (.lone invariant) post shared := by
  rintro later - rfl
  exact ends

theorem Safe.lone_call {op : Op}
    {next : Reply op → Program Op Reply Error Answer} {shared : Shared}
    (one : ∀ choice reply after,
      exec shared op choice = some (reply, after) →
        invariant after ∧
          (next reply).Safe exec (.lone invariant) post after) :
    (Program.call op next).Safe exec (.lone invariant) post shared := by
  rintro later - rfl choice reply after - executed
  obtain ⟨kept, rest⟩ := one choice reply after executed
  exact ⟨kept, trivial, rest⟩

end Lone

end Program

end Concurrent
