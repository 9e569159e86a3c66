import IndustryFlow.Concurrent.Program

/-!
# The order of a program's calls

Whether a program may still make one call before another, what a reply rules
out, and which calls stand right behind a reply that lets them.  A program may
be carried over to other stores, and its error may become its answer.
-/

namespace Concurrent.Program

variable {Op : Type} {Reply : Op → Type} {Error Answer Result : Type}

/-! ## Programs from programs -/

/-- The program with its error as an answer. -/
def attempt : Program Op Reply Error Answer →
    Program Op Reply Error (Except Error Answer)
  | .done answer => .done (.ok answer)
  | .fail error => .done (.error error)
  | .call op next => .call op fun reply => (next reply).attempt

section Lift

variable {Store : Type} {StoreReply : Store → Type} {Failure : Type}

/-- The program over other stores, where a call may raise. -/
def lift (place : Op → Store)
    (view : ∀ op, StoreReply (place op) → Except Failure (Reply op))
    (raise : Error → Failure) :
    Program Op Reply Error Answer → Program Store StoreReply Failure Answer
  | .done answer => .done answer
  | .fail error => .fail (raise error)
  | .call op next => .call (place op) fun reply =>
      match view op reply with
      | .ok seen => (next seen).lift place view raise
      | .error failure => .fail failure

end Lift

/-! ## A call before another -/

/-- Some path makes a call of `target` before one of `stops`. -/
def Reaches (target stops : Op → Prop) :
    Program Op Reply Error Answer → Prop
  | .done _ => False
  | .fail _ => False
  | .call op next => target op ∨
      (¬stops op ∧ ∃ reply, (next reply).Reaches target stops)

/-- After every reply that `clears`, the rest does not reach its target. -/
def Careful (target stops : Op → Prop) (clears : ∀ op, Reply op → Prop) :
    Program Op Reply Error Answer → Prop
  | .done _ => True
  | .fail _ => True
  | .call op next => ∀ reply,
      (clears op reply → ¬(next reply).Reaches target stops) ∧
        (next reply).Careful target stops clears

/-- A `guarded` call stands right behind a reply that `opens`, or is the first
one where the program is `ready` for it. -/
def Guards (guarded : Op → Prop) (opens : ∀ op, Reply op → Prop) :
    Prop → Program Op Reply Error Answer → Prop
  | _, .done _ => True
  | _, .fail _ => True
  | ready, .call op next => (guarded op → ready) ∧
      ∀ reply, (next reply).Guards guarded opens (opens op reply)

variable {target stops : Op → Prop} {clears : ∀ op, Reply op → Prop}
variable {guarded : Op → Prop} {opens : ∀ op, Reply op → Prop}

theorem Reaches.bind {program : Program Op Reply Error Answer}
    {continuation : Answer → Program Op Reply Error Result}
    (reaches : (program >>= continuation).Reaches target stops) :
    program.Reaches target stops ∨
      ∃ answer, (continuation answer).Reaches target stops := by
  induction program with
  | done answer => exact .inr ⟨answer, reaches⟩
  | fail error => exact reaches.elim
  | call op next induction =>
      rcases reaches with now | ⟨passed, reply, later⟩
      · exact .inl (.inl now)
      · rcases induction reply later with first | second
        · exact .inl (.inr ⟨passed, reply, first⟩)
        · exact .inr second

theorem Reaches.attempt {program : Program Op Reply Error Answer}
    (reaches : program.attempt.Reaches target stops) :
    program.Reaches target stops := by
  induction program with
  | done answer => exact reaches
  | fail error => exact reaches
  | call op next induction =>
      rcases reaches with now | ⟨passed, reply, later⟩
      · exact .inl now
      · exact .inr ⟨passed, reply, induction reply later⟩

/-- A program that makes no call of the target does not reach it. -/
theorem Always.not_reaches {possible : ∀ op, Reply op → Prop}
    {post : Except Error Answer → Prop}
    {program : Program Op Reply Error Answer}
    (always : program.Always possible (fun op => ¬target op) post)
    (all : ∀ op reply, possible op reply) :
    ¬program.Reaches target stops := by
  induction program with
  | done answer => exact id
  | fail error => exact id
  | call op next induction =>
      rintro (now | ⟨-, reply, later⟩)
      · exact always.1 now
      · exact induction reply (always.2 reply (all op reply)) later

/-- And so every reply may clear what follows it. -/
theorem Always.careful {possible : ∀ op, Reply op → Prop}
    {post : Except Error Answer → Prop}
    {program : Program Op Reply Error Answer}
    (always : program.Always possible (fun op => ¬target op) post)
    (all : ∀ op reply, possible op reply) :
    program.Careful target stops clears := by
  induction program with
  | done answer => trivial
  | fail error => trivial
  | call op next induction =>
      intro reply
      have rest := always.2 reply (all op reply)
      exact ⟨fun _ => rest.not_reaches all, induction reply rest⟩

theorem Careful.bind {program : Program Op Reply Error Answer}
    {continuation : Answer → Program Op Reply Error Result}
    (first : program.Careful target stops clears)
    (rest : ∀ answer, (continuation answer).Careful target stops clears)
    (idle : ∀ answer, ¬(continuation answer).Reaches target stops) :
    (program >>= continuation).Careful target stops clears := by
  induction program with
  | done answer => exact rest answer
  | fail error => trivial
  | call op next induction =>
      intro reply
      obtain ⟨cleared, careful⟩ := first reply
      refine ⟨?_, induction reply careful⟩
      intro clear reaches
      rcases reaches.bind with before | ⟨answer, after⟩
      · exact cleared clear before
      · exact idle answer after

theorem Careful.attempt {program : Program Op Reply Error Answer}
    (careful : program.Careful target stops clears) :
    program.attempt.Careful target stops clears := by
  induction program with
  | done answer => trivial
  | fail error => trivial
  | call op next induction =>
      intro reply
      obtain ⟨cleared, rest⟩ := careful reply
      exact ⟨fun clear reaches => cleared clear reaches.attempt,
        induction reply rest⟩

/-- A program that makes no guarded call. -/
theorem Always.guards {possible : ∀ op, Reply op → Prop}
    {post : Except Error Answer → Prop}
    {program : Program Op Reply Error Answer}
    (always : program.Always possible (fun op => ¬guarded op) post)
    (all : ∀ op reply, possible op reply) (ready : Prop) :
    program.Guards guarded opens ready := by
  induction program generalizing ready with
  | done answer => trivial
  | fail error => trivial
  | call op next induction =>
      refine ⟨fun now => absurd now always.1, fun reply => ?_⟩
      exact induction reply (always.2 reply (all op reply)) _

theorem Guards.mono {program : Program Op Reply Error Answer}
    {few many : Prop} (guards : program.Guards guarded opens few)
    (implies : few → many) : program.Guards guarded opens many := by
  cases program with
  | done answer => trivial
  | fail error => trivial
  | call op next => exact ⟨fun now => implies (guards.1 now), guards.2⟩

theorem Guards.bind {program : Program Op Reply Error Answer}
    {continuation : Answer → Program Op Reply Error Result} {ready : Prop}
    (first : program.Guards guarded opens ready)
    (rest : ∀ answer, (continuation answer).Guards guarded opens False) :
    (program >>= continuation).Guards guarded opens ready := by
  induction program generalizing ready with
  | done answer => exact (rest answer).mono False.elim
  | fail error => trivial
  | call op next induction =>
      exact ⟨first.1, fun reply => induction reply (first.2 reply)⟩

theorem Guards.attempt {program : Program Op Reply Error Answer}
    {ready : Prop} (guards : program.Guards guarded opens ready) :
    program.attempt.Guards guarded opens ready := by
  induction program generalizing ready with
  | done answer => trivial
  | fail error => trivial
  | call op next induction =>
      exact ⟨guards.1, fun reply => induction reply (guards.2 reply)⟩

theorem Always.attempt {possible : ∀ op, Reply op → Prop}
    {allowed : Op → Prop} {post : Except Error Answer → Prop}
    {program : Program Op Reply Error Answer}
    (always : program.Always possible allowed post) :
    program.attempt.Always possible allowed fun _ => True := by
  induction program with
  | done answer => trivial
  | fail error => trivial
  | call op next induction =>
      exact ⟨always.1, fun reply admitted =>
        induction reply (always.2 reply admitted)⟩

section Lift

variable {Store : Type} {StoreReply : Store → Type} {Failure : Type}
variable {place : Op → Store}
variable {view : ∀ op, StoreReply (place op) → Except Failure (Reply op)}
variable {raise : Error → Failure} {aim bars : Store → Prop}

theorem Reaches.lift {program : Program Op Reply Error Answer}
    (reaches : (program.lift place view raise).Reaches aim bars) :
    program.Reaches (fun op => aim (place op)) fun op => bars (place op) := by
  induction program with
  | done answer => exact reaches
  | fail error => exact reaches
  | call op next induction =>
      rw [Program.lift] at reaches
      rcases reaches with now | ⟨passed, reply, later⟩
      · exact .inl now
      · dsimp only at later
        split at later
        · rename_i seen _
          exact .inr ⟨passed, seen, induction seen later⟩
        · exact later.elim

/-- What the stores' replies clear, the replies behind them clear. -/
theorem Careful.lift {program : Program Op Reply Error Answer}
    {signs : ∀ op, StoreReply op → Prop}
    (careful : program.Careful (fun op => aim (place op))
      (fun op => bars (place op)) clears)
    (signed : ∀ op reply seen, view op reply = .ok seen →
      signs (place op) reply → clears op seen) :
    (program.lift place view raise).Careful aim bars signs := by
  induction program with
  | done answer => trivial
  | fail error => trivial
  | call op next induction =>
      rw [Program.lift]
      intro reply
      dsimp only
      split
      · rename_i seen viewed
        obtain ⟨cleared, rest⟩ := careful seen
        refine ⟨fun sign reaches => ?_, induction seen rest⟩
        exact cleared (signed op reply seen viewed sign) reaches.lift
      · exact ⟨fun _ => id, trivial⟩

theorem Always.lift {program : Program Op Reply Error Answer}
    {allowed : Store → Prop}
    (always : program.Always (fun _ _ => True)
      (fun op => allowed (place op)) fun _ => True) :
    (program.lift place view raise).Always (fun _ _ => True) allowed
      fun _ => True := by
  induction program with
  | done answer => trivial
  | fail error => trivial
  | call op next induction =>
      rw [Program.lift]
      refine ⟨always.1, fun reply _ => ?_⟩
      dsimp only
      split
      · exact induction _ (always.2 _ trivial)
      · trivial

end Lift

end Concurrent.Program
