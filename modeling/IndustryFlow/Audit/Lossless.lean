import IndustryFlow.Audit.Settled

/-!
# No event is lost and none is recorded twice

In every run of any number of passes, an entry that was appended can still be
delivered, is in the table once, or was counted for what it holds.  A pass
whose database answers writes its whole batch but the rows that are refused
themselves.
-/

namespace IndustryFlow.Audit

open Concurrent

variable {Fields Event : Type} {config : Config Fields Event}

/-! ## Batches with refused rows -/

/-- The database answers: it commits the rows or refuses what they hold. -/
def Choice.judged : Choice → Bool
  | .lost _ => false
  | .fail _ => false
  | _ => true

/-- The replies of a database that answers. -/
def Answered : (op : Op Event) → Reply Fields op → Prop
  | .record _, .raised exc => exc.caught = true
  | _, _ => True

theorem exec_answered {store after : Store Fields Event} {op : Op Event}
    {choice : Choice} {reply : Reply Fields op}
    (judged : choice.judged = true)
    (executed : exec config store op choice = some (reply, after)) :
    Answered op reply := by
  cases op with
  | record rows =>
      rcases exec_record executed with ⟨rfl, -⟩ | ⟨exc, rfl, caught, -⟩ |
        ⟨exc, rfl, uncaught, -⟩
      · trivial
      · exact caught
      · cases choice with
        | plain => cases executed
        | claim ids => cases executed
        | commit =>
            simp only [exec] at executed
            split at executed
            · cases executed
            · cases executed
        | lost exc => cases judged
        | refuse other =>
            simp only [exec] at executed
            split at executed
            · rename_i refused
              cases executed
              exact refused.2
            · cases executed
        | fail exc => cases judged
  | autoclaim => trivial
  | readGroup => trivial
  | countUnreadable id => trivial
  | countRefused id => trivial
  | discard ids => trivial

/-- Some refusal of a row. -/
def refusal : Exc :=
  ⟨true, [some "23514"]⟩

/-- Every call can be answered. -/
theorem exec_answers (config : Config Fields Event)
    (store : Store Fields Event) (op : Op Event) :
    ∃ choice, choice.judged = true ∧
      (exec config store op choice).isSome = true := by
  cases op with
  | autoclaim => exact ⟨.claim [], rfl, by simp [exec]⟩
  | record rows =>
      by_cases refuses : rows.any (config.refuses ·.2) = true
      · have caught : refusal.caught = true := by decide +kernel
        exact ⟨.refuse refusal, rfl, by simp only [exec, refuses, caught,
          and_self, if_true, Option.isSome_some]⟩
      · exact ⟨.commit, rfl, by simp only [exec, refuses, if_false,
          Bool.false_eq_true, Option.isSome_some]⟩
  | readGroup => exact ⟨.plain, rfl, rfl⟩
  | countUnreadable id => exact ⟨.plain, rfl, rfl⟩
  | countRefused id => exact ⟨.plain, rfl, rfl⟩
  | discard ids => exact ⟨.plain, rfl, rfl⟩

theorem readEntries_answers (config : Config Fields Event)
    (entries : List (Nat × Fields)) :
    (readEntries config entries).Always Answered (fun _ => True)
      (fun result => ∃ rows, result = .ok rows) := by
  induction entries with
  | nil => exact ⟨[], rfl⟩
  | cons entry entries induction =>
      obtain ⟨id, fields⟩ := entry
      unfold readEntries
      cases config.read fields with
      | some event =>
          refine Program.Always.bind induction ?_ ?_
          · exact fun rows _ => ⟨_, rfl⟩
          · rintro error ⟨rows, wrong⟩
            cases wrong
      | none => exact ⟨trivial, fun _ _ => induction⟩

theorem writeAlone_answers (rows : List (Nat × Event)) :
    (writeAlone rows : Drain Fields Event Unit).Always Answered
      (fun _ => True) (fun result => result = .ok ()) := by
  induction rows with
  | nil => rfl
  | cons row rows induction =>
      refine ⟨trivial, ?_⟩
      rintro (_ | exc) answered
      · exact induction
      · change (if exc.caught then
          (countRefused row.1 >>= fun _ => writeAlone rows)
          else Program.fail (.raised exc)).Always _ _ _
        rw [if_pos (show exc.caught = true from answered)]
        exact ⟨trivial, fun _ _ => induction⟩

/-- A batch is written to its end, whatever rows of it are refused. -/
theorem writeBatch_answers (config : Config Fields Event)
    (entries : List (Nat × Fields)) :
    (writeBatch config entries).Always Answered (fun _ => True)
      (fun result => result = .ok (entries.map Prod.fst)) := by
  refine Program.Always.bind (readEntries_answers config entries) ?_ ?_
  · intro rows _
    dsimp only
    split
    · rfl
    · refine ⟨trivial, ?_⟩
      rintro (_ | exc) answered
      · rfl
      · change (if exc.caught then
          (writeAlone rows >>= fun _ => pure (entries.map Prod.fst))
          else Program.fail (.raised exc)).Always _ _ _
        rw [if_pos (show exc.caught = true from answered)]
        refine Program.Always.bind (writeAlone_answers rows) ?_ nofun
        exact fun _ _ => rfl
  · rintro error ⟨rows, wrong⟩
    cases wrong

theorem finishPass_answers (config : Config Fields Event)
    (entries : List (Nat × Fields)) :
    (finishPass config entries).Always Answered (fun _ => True)
      (fun result => result = .ok entries.length) := by
  unfold finishPass
  split
  · rename_i empty
    cases List.isEmpty_iff.mp empty
    rfl
  · refine Program.Always.bind (writeBatch_answers config entries) ?_ nofun
    intro ack same
    cases same
    split
    · exact congrArg Except.ok (List.length_map _)
    · exact ⟨trivial, fun _ _ => congrArg Except.ok (List.length_map _)⟩

/-! ## Runs -/

/-- The entry is still to be delivered, is in the table exactly once, or was
counted for what it holds. -/
def Accounted (config : Config Fields Event) (store : Store Fields Event)
    (id : Nat) (fields : Fields) : Prop :=
  ((id, fields) ∈ store.stream ∧
      (store.unread ≤ id ∨ id ∈ store.pending)) ∨
    (∃ event, config.read fields = some event ∧
      (id, event) ∈ store.table ∧
      (store.table.map Prod.fst).count id = 1) ∨
    (config.read fields = none ∧ id ∈ store.unreadable) ∨
    ∃ event, config.read fields = some event ∧
      config.refuses event = true ∧ id ∈ store.refused

theorem Consistent.accounted {store : Store Fields Event}
    (consistent : Consistent config store) {id : Nat} {fields : Fields}
    (held : store.appended[id]? = some fields) :
    Accounted config store id fields := by
  rcases consistent.kept id fields held with inside | settled
  · exact .inl ⟨inside, consistent.deliverable _ inside⟩
  · obtain ⟨found, same, fate⟩ := settled
    rw [held] at same
    cases same
    rcases fate with unreadable | ⟨event, read, written | refused⟩
    · exact .inr (.inr (.inl unreadable))
    · refine .inr (.inl ⟨event, read, written, ?_⟩)
      have member : id ∈ store.table.map Prod.fst :=
        List.mem_map_of_mem written
      rw [consistent.once.count, if_pos member]
    · exact .inr (.inr (.inr ⟨event, read, refused⟩))

/-- A state of the stream and the table with its passes. -/
abbrev Passes (Fields Event : Type) :=
  Pool (Store Fields Event) Pass (Op Event) (Reply Fields) Failed Nat

abbrev Happening (Fields : Type) :=
  PoolEvent Pass Choice (Append Fields)

def Sound (config : Config Fields Event) (pool : Passes Fields Event) :
    Prop :=
  Pool.Kept (drains config) (contract config) (fun _ _ _ => True) pool

theorem empty_consistent (config : Config Fields Event) :
    Consistent config (Store.empty Fields Event) where
  held := nofun
  ordered := List.Pairwise.nil
  bound := Nat.le_refl 0
  deliverable := nofun
  kept := nofun
  rows := nofun
  once := List.nodup_nil

theorem step_sound {pool next : Passes Fields Event}
    {event : Happening Fields} (sound : Sound config pool)
    (taken : Pool.step (drains config) pool event = some next) :
    Sound config next ∧ Grows pool.shared next.shared := by
  have permitted : Pool.Allowed (fun _ => True) (contract config) pool
      event := by
    cases event with
    | spawn pass => trivial
    | step index choice => exact fun _ _ _ _ => trivial
    | abort index => trivial
    | lose index choice => exact fun _ _ _ _ => trivial
    | environment fields => trivial
  refine Pool.step_keeps gives_grows ?_ ?_ ?_ sound permitted taken
  · exact fun _ store _ _ => drainOnce_safe config store
  · exact fun _ _ _ => trivial
  · intro store fields after consistent changed
    cases changed
    exact ⟨append_consistent consistent fields, append_grows store fields⟩

theorem run_sound {final : Passes Fields Event}
    {events : List (Happening Fields)}
    (ran : run (Pool.step (drains config))
      (.start (.empty Fields Event)) events = some final) :
    Sound config final := by
  have start : Sound config (.start (.empty Fields Event)) := by
    refine ⟨empty_consistent config, ?_⟩
    intro thread member
    cases member
  refine run_preserves (Sound config) ?_ start ran
  intro pool event next sound taken
  exact (step_sound sound taken).1

/-- A step that removes an entry from the stream finds it settled. -/
theorem step_leaves {pool next : Passes Fields Event}
    {event : Happening Fields} (sound : Sound config pool)
    (taken : Pool.step (drains config) pool event = some next)
    {entry : Nat × Fields} (member : entry ∈ pool.shared.stream)
    (gone : entry ∉ next.shared.stream) :
    Settled config pool.shared entry.1 := by
  have called {index : Nat} {choice : Choice} {pass : Pass} {op : Op Event}
      {rest : Reply Fields op → Drain Fields Event Nat}
      {reply : Reply Fields op} {after : Store Fields Event}
      (running : pool.threads[index]? = some ⟨pass, .call op rest⟩)
      (executed : exec config pool.shared op choice = some (reply, after)) :
      Gives config pool.shared after := by
    have safe := sound.safe _ (List.mem_of_getElem? running)
    exact (safe pool.shared sound.holds (Grows.refl _) choice reply after
      trivial executed).2.1
  cases Pool.stepped taken with
  | spawn pass => exact absurd member gone
  | step running executed => exact (called running executed).2 _ member gone
  | abort running => exact absurd member gone
  | lose running executed => exact (called running executed).2 _ member gone
  | environment changed =>
      cases changed
      exact absurd (List.mem_append_left _ member) gone

/-- Nothing happens to the pass but answers of its stores. -/
def Undisturbed (index : Nat) : Happening Fields → Prop
  | .step other choice => other = index → choice.judged = true
  | .abort other => other ≠ index
  | .lose other _ => other ≠ index
  | _ => True

/-- The pass can go on, or has answered with all of its entries settled. -/
def Completes (config : Config Fields Event) (index : Nat)
    (entries : List (Nat × Fields)) (pool : Passes Fields Event) : Prop :=
  ∃ pass program, pool.threads[index]? = some ⟨pass, program⟩ ∧
    ((∃ op rest choice, program = .call op rest ∧ choice.judged = true ∧
        (exec config pool.shared op choice).isSome = true) ∨
      program = .done entries.length ∧
        ∀ entry ∈ entries, Settled config pool.shared entry.1)

/-- What is left of the pass settles its entries and does not fail. -/
def Completing (config : Config Fields Event) (index : Nat)
    (entries : List (Nat × Fields)) (pool : Passes Fields Event) : Prop :=
  ∃ pass program, pool.threads[index]? = some ⟨pass, program⟩ ∧
    program.Safe (exec config) (contract config) (PassPost config entries)
      pool.shared ∧
    program.Always Answered (fun _ => True)
      (fun result => result = .ok entries.length)

theorem step_completing {index : Nat} {entries : List (Nat × Fields)}
    {pool next : Passes Fields Event} {event : Happening Fields}
    (sound : Sound config pool)
    (completing : Completing config index entries pool)
    (undisturbed : Undisturbed index event)
    (taken : Pool.step (drains config) pool event = some next) :
    Completing config index entries next := by
  obtain ⟨pass, program, present, safe, answers⟩ := completing
  have grows := (step_sound sound taken).2
  have apart (still : next.threads[index]? = some ⟨pass, program⟩) :
      Completing config index entries next :=
    ⟨pass, program, still, safe.stable grows, answers⟩
  cases Pool.stepped taken with
  | spawn request =>
      apply apart
      have inside := (List.getElem?_eq_some_iff.mp present).1
      exact (List.getElem?_append_left inside).trans present
  | environment changed => exact apart present
  | abort running =>
      exact apart ((List.getElem?_set_ne undisturbed).trans present)
  | lose running executed =>
      exact apart ((List.getElem?_set_ne undisturbed).trans present)
  | @step other choice request op rest reply after running executed =>
      by_cases own : other = index
      · subst own
        rw [present] at running
        cases running
        have bound := (List.getElem?_eq_some_iff.mp present).1
        have answered := exec_answered (undisturbed rfl) executed
        have kept := safe pool.shared sound.holds (Grows.refl _) choice reply
          after trivial executed
        exact ⟨pass, rest reply, List.getElem?_set_self bound, kept.2.2,
          answers.2 reply answered⟩
      · exact apart ((List.getElem?_set_ne own).trans present)

theorem Completing.completes {index : Nat} {entries : List (Nat × Fields)}
    {pool : Passes Fields Event} (sound : Sound config pool)
    (completing : Completing config index entries pool) :
    Completes config index entries pool := by
  obtain ⟨pass, program, present, safe, answers⟩ := completing
  refine ⟨pass, program, present, ?_⟩
  cases program with
  | done answer =>
      right
      exact ⟨congrArg _ (Except.ok.inj answers),
        safe pool.shared sound.holds (Grows.refl _)⟩
  | fail error => cases answers
  | call op rest =>
      left
      obtain ⟨choice, judged, executes⟩ := exec_answers config pool.shared op
      exact ⟨op, rest, choice, rfl, judged, executes⟩

theorem run_completes {index : Nat} {pass : Pass}
    {entries : List (Nat × Fields)} {pool last : Passes Fields Event}
    {more : List (Happening Fields)} (sound : Sound config pool)
    (reading : pool.threads[index]? =
      some ⟨pass, finishPass config entries⟩)
    (taken : Taken pool.shared entries)
    (undisturbed : ∀ event ∈ more, Undisturbed index event)
    (ran : run (Pool.step (drains config)) pool more = some last) :
    Completes config index entries last := by
  have start : Sound config pool ∧ Completing config index entries pool :=
    ⟨sound, pass, _, reading, finishPass_safe sound.holds taken,
      finishPass_answers config entries⟩
  have final := run_preserves_along
    (fun pool => Sound config pool ∧ Completing config index entries pool)
    (fun pool event next kept allowed stepped =>
      ⟨(step_sound kept.1 stepped).1,
        step_completing kept.1 kept.2 allowed stepped⟩)
    start (Along.of_forall (Pool.step (drains config)) pool undisturbed) ran
  exact final.2.completes final.1

/-- The event is not one of the pass. -/
def Elsewhere (index : Nat) : Happening Fields → Prop
  | .step other _ => other ≠ index
  | .abort other => other ≠ index
  | .lose other _ => other ≠ index
  | _ => True

theorem step_elsewhere {index : Nat} {pool next : Passes Fields Event}
    {event : Happening Fields}
    {thread : Thread Pass (Op Event) (Reply Fields) Failed Nat}
    (present : pool.threads[index]? = some thread)
    (elsewhere : Elsewhere index event)
    (taken : Pool.step (drains config) pool event = some next) :
    next.threads[index]? = some thread := by
  cases Pool.stepped taken with
  | spawn request =>
      have inside := (List.getElem?_eq_some_iff.mp present).1
      exact (List.getElem?_append_left inside).trans present
  | step running executed =>
      exact (List.getElem?_set_ne elsewhere).trans present
  | abort running => exact (List.getElem?_set_ne elsewhere).trans present
  | lose running executed =>
      exact (List.getElem?_set_ne elsewhere).trans present
  | environment changed => exact present

theorem run_elsewhere {index : Nat} {pool last : Passes Fields Event}
    {others : List (Happening Fields)}
    {thread : Thread Pass (Op Event) (Reply Fields) Failed Nat}
    (sound : Sound config pool)
    (present : pool.threads[index]? = some thread)
    (elsewhere : ∀ event ∈ others, Elsewhere index event)
    (ran : run (Pool.step (drains config)) pool others = some last) :
    Sound config last ∧ Grows pool.shared last.shared ∧
      last.threads[index]? = some thread := by
  refine run_preserves_along (fun later => Sound config later ∧
    Grows pool.shared later.shared ∧ later.threads[index]? = some thread)
    ?_ ⟨sound, Grows.refl _, present⟩
    (Along.of_forall (Pool.step (drains config)) pool elsewhere) ran
  intro state event next ⟨kept, grown, still⟩ allowed taken
  obtain ⟨after, grows⟩ := step_sound kept taken
  exact ⟨after, grown.trans grows, step_elsewhere still allowed taken⟩

/-- A step of a pass, by its call. -/
theorem step_call {index : Nat} {pool next : Passes Fields Event}
    {pass : Pass} {op : Op Event} {choice : Choice}
    {rest : Reply Fields op → Drain Fields Event Nat}
    (running : pool.threads[index]? = some ⟨pass, .call op rest⟩)
    (taken : Pool.step (drains config) pool (.step index choice) =
      some next) :
    ∃ reply, exec config pool.shared op choice = some (reply, next.shared) ∧
      next.threads[index]? = some ⟨pass, rest reply⟩ := by
  have bound := (List.getElem?_eq_some_iff.mp running).1
  cases Pool.stepped taken with
  | step found executed =>
      rw [running] at found
      cases found
      exact ⟨_, executed, List.getElem?_set_self bound⟩

/-- A pass that claims the entries `ids`, reads new ones after other events,
and is answered from then on, gets all of its batch written but what is
refused itself. -/
theorem pass_completes {index : Nat} {pass : Pass} {ids : List Nat}
    {pool middle last : Passes Fields Event}
    {others more : List (Happening Fields)} (sound : Sound config pool)
    (starting : pool.threads[index]? = some ⟨pass, drainOnce config⟩)
    (elsewhere : ∀ event ∈ others, Elsewhere index event)
    (claims : run (Pool.step (drains config)) pool
      (.step index (.claim ids) :: others) = some middle)
    (undisturbed : ∀ event ∈ more, Undisturbed index event)
    (reads : run (Pool.step (drains config)) middle
      (.step index .plain :: more) = some last) :
    Completes config index
      (pool.shared.stream.filter (·.1 ∈ ids) ++ middle.shared.fresh)
      last := by
  obtain ⟨first, claimed, between⟩ := run_cons.mp claims
  obtain ⟨second, read, rest⟩ := run_cons.mp reads
  rw [drainOnce_eq] at starting
  obtain ⟨reply, executed, waiting⟩ := step_call starting claimed
  have same : reply = pool.shared.stream.filter (·.1 ∈ ids) ∧
      first.shared = pool.shared := by
    simp only [exec] at executed
    split at executed
    · obtain ⟨same, unchanged⟩ := Prod.mk.inj (Option.some.inj executed)
      exact ⟨same.symm, unchanged.symm⟩
    · cases executed
  obtain ⟨rfl, unchanged⟩ := same
  obtain ⟨kept, grown, still⟩ := run_elsewhere (step_sound sound claimed).1
    waiting elsewhere between
  rw [unchanged] at grown
  obtain ⟨fresh, delivered, finishing⟩ := step_call still read
  obtain ⟨rfl, -⟩ := Prod.mk.inj (Option.some.inj delivered)
  obtain ⟨after, grows⟩ := step_sound kept read
  refine run_completes after finishing ?_ undisturbed rest
  intro entry member
  rcases List.mem_append.mp member with old | new
  · have inside := (List.mem_filter.mp old).1
    exact (grown.trans grows).appended _ _ (sound.holds.held entry inside)
  · exact grows.appended _ _ (kept.holds.held entry (fresh_mem new))

/-- Whatever was appended is still to be delivered, recorded once or counted;
it leaves the stream only once it is settled; and refused rows hold back no
other entry of their batch. -/
theorem nothing_lost (config : Config Fields Event)
    (events : List (Happening Fields)) (final : Passes Fields Event)
    (ran : run (Pool.step (drains config))
      (.start (.empty Fields Event)) events = some final) :
    (∀ id fields, final.shared.appended[id]? = some fields →
      Accounted config final.shared id fields) ∧
    (final.shared.table.map Prod.fst).Nodup ∧
    (∀ event next, Pool.step (drains config) final event = some next →
      ∀ entry ∈ final.shared.stream, entry ∉ next.shared.stream →
        Settled config final.shared entry.1) ∧
    ∀ index pass ids others middle more last,
      final.threads[index]? = some ⟨pass, drainOnce config⟩ →
      (∀ event ∈ others, Elsewhere index event) →
      run (Pool.step (drains config)) final
        (.step index (.claim ids) :: others) = some middle →
      (∀ event ∈ more, Undisturbed index event) →
      run (Pool.step (drains config)) middle
        (.step index .plain :: more) = some last →
      Completes config index
        (final.shared.stream.filter (·.1 ∈ ids) ++ middle.shared.fresh)
        last := by
  have sound := run_sound ran
  refine ⟨fun id fields held => sound.holds.accounted held,
    sound.holds.once, ?_, ?_⟩
  · intro event next taken entry member gone
    exact step_leaves sound taken member gone
  · intro index pass ids others middle more last starting elsewhere claims
      undisturbed reads
    exact pass_completes sound starting elsewhere claims undisturbed reads

/-- Zero cannot be read, and the table refuses nine. -/
def numbers : Config Nat Nat where
  read number := if number = 0 then none else some number
  refuses number := number == 9

/-- Of four entries the first pass writes one before it dies. -/
def crashed : List (Happening Nat) :=
  [.environment 1, .environment 0, .environment 9, .environment 2,
    .spawn "first", .step 0 (.claim []), .step 0 .plain, .step 0 .plain,
    .step 0 (.refuse refusal), .step 0 .commit,
    .step 0 (.refuse refusal), .abort 0]

/-- The second pass writes its batch around the refused row. -/
theorem nothing_lost_crashed : ∃ final middle last : Passes Nat Nat,
    run (Pool.step (drains numbers)) (.start (.empty Nat Nat))
      (crashed ++ [.spawn "second"]) = some final ∧
    final.shared.table = [(0, 1)] ∧
    last.shared.table = [(0, 1), (3, 2)] ∧
    last.shared.stream = [] ∧
    Completes numbers 1
      (final.shared.stream.filter (·.1 ∈ [0, 1, 2, 3]) ++
        middle.shared.fresh) last := by
  let step := Pool.step (drains numbers)
  let joined (pool : Passes Nat Nat) : Passes Nat Nat :=
    ⟨pool.shared, pool.threads ++ [⟨"second", drainOnce numbers⟩]⟩
  let more : List (Happening Nat) := [.step 1 .plain,
    .step 1 (.refuse refusal), .step 1 .commit, .step 1 (.refuse refusal),
    .step 1 .plain, .step 1 .commit, .step 1 .plain]
  have ran : ((run step (.start (.empty Nat Nat)) crashed).any fun pool =>
      (run step (joined pool) [.step 1 (.claim [0, 1, 2, 3])]).any
        fun middle =>
          (run step middle (.step 1 .plain :: more)).any fun last =>
            decide (pool.threads.length = 1 ∧
              pool.shared.table = [(0, 1)] ∧
              last.shared.table = [(0, 1), (3, 2)] ∧
              last.shared.stream = [])) = true := by
    decide +kernel
  obtain ⟨pool, reached, ran⟩ := (Option.any_eq_true _ _).mp ran
  obtain ⟨middle, claims, ran⟩ := (Option.any_eq_true _ _).mp ran
  obtain ⟨last, reads, ran⟩ := (Option.any_eq_true _ _).mp ran
  obtain ⟨one, before, after, emptied⟩ := of_decide_eq_true ran
  have final : run step (.start (.empty Nat Nat))
      (crashed ++ [.spawn "second"]) = some (joined pool) :=
    run_append.mpr ⟨pool, reached, run_cons.mpr ⟨joined pool, rfl, rfl⟩⟩
  have starting : (joined pool).threads[1]? =
      some ⟨"second", drainOnce numbers⟩ := by
    have last := List.getElem?_concat_length (l := pool.threads)
      (a := ⟨"second", drainOnce numbers⟩)
    rw [one] at last
    exact last
  have undisturbed : ∀ event ∈ more, Undisturbed 1 event := by
    simp [more, Undisturbed, Choice.judged]
  exact ⟨joined pool, middle, last, final, before, after, emptied,
    (nothing_lost numbers _ _ final).2.2.2 1 "second" [0, 1, 2, 3] [] middle
      more last starting nofun claims undisturbed reads⟩

end IndustryFlow.Audit
