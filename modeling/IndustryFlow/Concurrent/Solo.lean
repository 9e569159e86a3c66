import IndustryFlow.Concurrent.Run
import IndustryFlow.Concurrent.Safety

/-!
# One program at a time

A job whose runs never overlap: a run starts when no other is under way, each
of its calls is one step, and it may die before a call, or after a call whose
reply it never sees.  Between two calls the environment uses the same stores.
-/

namespace Concurrent

variable {Op : Type} {Reply : Op → Type} {Error Answer : Type}
variable {Shared Choice Change : Type}

/-- The stores, and what is left of the current run of the job. -/
structure Solo (Shared Op : Type) (Reply : Op → Type)
    (Error Answer : Type) where
  shared : Shared
  running : Program Op Reply Error Answer

inductive SoloEvent (Choice Change : Type) where
  | start
  | step (choice : Choice)
  | crash
  /-- The call takes effect and the run dies without its reply. -/
  | lose (choice : Choice)
  | environment (change : Change)
deriving DecidableEq

namespace Solo

/-- The job, its stores and what the environment does to them. -/
structure System (Shared Op : Type) (Reply : Op → Type)
    (Error Answer Choice Change : Type) where
  job : Program Op Reply Error Answer
  /-- What a run leaves when it dies. -/
  dead : Error
  exec : Shared → (op : Op) → Choice → Option (Reply op × Shared)
  change : Shared → Change → Option Shared

variable (system : System Shared Op Reply Error Answer Choice Change)

def step (state : Solo Shared Op Reply Error Answer) :
    SoloEvent Choice Change → Option (Solo Shared Op Reply Error Answer)
  | .start =>
      if state.running.Finished then
        some { state with running := system.job }
      else none
  | .step choice =>
      match state.running with
      | .call op next => (system.exec state.shared op choice).map
          fun executed => ⟨executed.2, next executed.1⟩
      | _ => none
  | .crash => some { state with running := .fail system.dead }
  | .lose choice =>
      match state.running with
      | .call op _ => (system.exec state.shared op choice).map
          fun executed => ⟨executed.2, .fail system.dead⟩
      | _ => none
  | .environment change => (system.change state.shared change).map
      fun shared => { state with shared }

/-- The event makes this call of the current run. -/
def Makes (state : Solo Shared Op Reply Error Answer)
    (event : SoloEvent Choice Change) (op : Op) (choice : Choice) : Prop :=
  (event = .step choice ∨ event = .lose choice) ∧
    state.running.next? = some op

instance [DecidableEq Op] [DecidableEq Choice] [DecidableEq Change]
    (state : Solo Shared Op Reply Error Answer)
    (event : SoloEvent Choice Change) (op : Op) (choice : Choice) :
    Decidable (state.Makes event op choice) :=
  inferInstanceAs (Decidable (_ ∧ _))

/-- The call an event makes is one the contract allows. -/
def Allowed (contract : Contract Shared Op Choice)
    (state : Solo Shared Op Reply Error Answer)
    (event : SoloEvent Choice Change) : Prop :=
  ∀ op choice, state.Makes event op choice →
    contract.allowed state.shared op choice

/-- The invariant with a run that is safe from here on. -/
structure Kept (contract : Contract Shared Op Choice)
    (state : Solo Shared Op Reply Error Answer) : Prop where
  holds : contract.invariant state.shared
  safe : state.running.Safe system.exec contract (fun _ _ => True)
    state.shared

/-- The invariant with a run that ends as `post` says. -/
structure Fulfils (contract : Contract Shared Op Choice)
    (post : Except Error Answer → Shared → Prop)
    (state : Solo Shared Op Reply Error Answer) : Prop where
  holds : contract.invariant state.shared
  safe : state.running.Safe system.exec contract post state.shared

variable {system} {contract : Contract Shared Op Choice}
variable {post : Except Error Answer → Shared → Prop}

/-- A job that is safe whenever it starts, beside an environment that keeps
the invariant within `rely`: one event keeps the invariant, and the stores
change by the guarantee of a call or by the environment. -/
theorem step_fulfils
    (starts : ∀ shared, contract.invariant shared →
      system.job.Safe system.exec contract post shared)
    (dies : ∀ shared, contract.invariant shared →
      post (.error system.dead) shared)
    {state next : Solo Shared Op Reply Error Answer}
    {event : SoloEvent Choice Change}
    (changes : ∀ change after, event = .environment change →
      system.change state.shared change = some after →
        contract.invariant after ∧ contract.rely state.shared after)
    (fulfils : Fulfils system contract post state)
    (permitted : Allowed contract state event)
    (stepped : step system state event = some next) :
    Fulfils system contract post next ∧
      ((∀ change, event ≠ .environment change) →
        contract.guarantee state.shared next.shared ∨
          next.shared = state.shared) ∧
      (∀ change, event = .environment change →
        contract.rely state.shared next.shared) := by
  obtain ⟨shared, running⟩ := state
  obtain ⟨holds, safe⟩ := fulfils
  cases event with
  | start =>
      simp only [step] at stepped
      split at stepped
      · cases stepped
        exact ⟨⟨holds, starts shared holds⟩, fun _ => .inr rfl, nofun⟩
      · cases stepped
  | step choice =>
      cases running with
      | done answer => simp [step] at stepped
      | fail error => simp [step] at stepped
      | call op rest =>
          simp only [step, Option.map_eq_some_iff] at stepped
          obtain ⟨⟨reply, after⟩, executed, rfl⟩ := stepped
          obtain ⟨keptAfter, given, safeAfter⟩ := safe shared holds
            (contract.rely_refl _) choice reply after
            (permitted op choice ⟨.inl rfl, rfl⟩) executed
          exact ⟨⟨keptAfter, safeAfter⟩, fun _ => .inl given, nofun⟩
  | crash =>
      cases stepped
      exact ⟨⟨holds, fun later kept _ => dies later kept⟩,
        fun _ => .inr rfl, nofun⟩
  | lose choice =>
      cases running with
      | done answer => simp [step] at stepped
      | fail error => simp [step] at stepped
      | call op rest =>
          simp only [step, Option.map_eq_some_iff] at stepped
          obtain ⟨⟨reply, after⟩, executed, rfl⟩ := stepped
          obtain ⟨keptAfter, given, -⟩ := safe shared holds
            (contract.rely_refl _) choice reply after
            (permitted op choice ⟨.inr rfl, rfl⟩) executed
          exact ⟨⟨keptAfter, fun later kept _ => dies later kept⟩,
            fun _ => .inl given, nofun⟩
  | environment change =>
      simp only [step, Option.map_eq_some_iff] at stepped
      obtain ⟨after, changed, rfl⟩ := stepped
      obtain ⟨keptAfter, within⟩ := changes change after rfl changed
      exact ⟨⟨keptAfter, safe.stable within⟩,
        fun own => absurd rfl (own change), fun _ _ => within⟩

theorem step_keeps
    (starts : ∀ shared, contract.invariant shared →
      system.job.Safe system.exec contract (fun _ _ => True) shared)
    (changes : ∀ shared change after, contract.invariant shared →
      system.change shared change = some after →
        contract.invariant after ∧ contract.rely shared after)
    {state next : Solo Shared Op Reply Error Answer}
    {event : SoloEvent Choice Change} (kept : Kept system contract state)
    (permitted : Allowed contract state event)
    (stepped : step system state event = some next) :
    Kept system contract next ∧
      (contract.guarantee state.shared next.shared ∨
        contract.rely state.shared next.shared) := by
  obtain ⟨⟨holds, safe⟩, own, others⟩ := step_fulfils starts
    (fun _ _ => trivial)
    (fun change after _ changed =>
      changes state.shared change after kept.holds changed)
    ⟨kept.holds, kept.safe⟩ permitted stepped
  refine ⟨⟨holds, safe⟩, ?_⟩
  by_cases environment : ∃ change, event = .environment change
  · obtain ⟨change, same⟩ := environment
    exact .inr (others change same)
  · rcases own (not_exists.mp environment) with given | same
    · exact .inl given
    · rw [same]
      exact .inr (contract.rely_refl _)

/-- What every call keeps, and what the environment does, every event keeps. -/
theorem step_shared (invariant : Shared → Prop)
    {state next : Solo Shared Op Reply Error Answer}
    {event : SoloEvent Choice Change}
    (calls : ∀ op choice reply after,
      system.exec state.shared op choice = some (reply, after) →
        invariant after)
    (changes : ∀ change after, event = .environment change →
      system.change state.shared change = some after → invariant after)
    (holds : invariant state.shared)
    (stepped : step system state event = some next) :
    invariant next.shared := by
  obtain ⟨shared, running⟩ := state
  cases event with
  | start =>
      simp only [step] at stepped
      split at stepped
      · cases stepped
        exact holds
      · cases stepped
  | step choice =>
      cases running with
      | done answer => simp [step] at stepped
      | fail error => simp [step] at stepped
      | call op rest =>
          obtain ⟨⟨reply, after⟩, executed, rfl⟩ :=
            Option.map_eq_some_iff.mp stepped
          exact calls op choice reply after executed
  | crash =>
      cases stepped
      exact holds
  | lose choice =>
      cases running with
      | done answer => simp [step] at stepped
      | fail error => simp [step] at stepped
      | call op rest =>
          obtain ⟨⟨reply, after⟩, executed, rfl⟩ :=
            Option.map_eq_some_iff.mp stepped
          exact calls op choice reply after executed
  | environment change =>
      obtain ⟨after, changed, rfl⟩ := Option.map_eq_some_iff.mp stepped
      exact changes change after rfl changed

theorem run_start {shared : Shared}
    {running : Program Op Reply Error Answer}
    {final : Solo Shared Op Reply Error Answer}
    {events : List (SoloEvent Choice Change)} (finished : running.Finished)
    (rest : run (step system) ⟨shared, system.job⟩ events = some final) :
    run (step system) ⟨shared, running⟩ (.start :: events) =
      some final :=
  run_cons.mpr ⟨⟨shared, system.job⟩, if_pos finished, rest⟩

theorem run_step {shared after : Shared} {op : Op} {reply : Reply op}
    {next : Reply op → Program Op Reply Error Answer} {choice : Choice}
    {final : Solo Shared Op Reply Error Answer}
    {events : List (SoloEvent Choice Change)}
    (executed : system.exec shared op choice = some (reply, after))
    (rest : run (step system) ⟨after, next reply⟩ events = some final) :
    run (step system) ⟨shared, .call op next⟩ (.step choice :: events) =
      some final := by
  refine run_cons.mpr ⟨⟨after, next reply⟩, ?_, rest⟩
  simp [step, executed]

theorem run_environment {shared after : Shared} {changes : List Change}
    (running : Program Op Reply Error Answer)
    (changed : run system.change shared changes = some after) :
    run (step system) ⟨shared, running⟩
      (changes.map SoloEvent.environment) = some ⟨after, running⟩ := by
  induction changes generalizing shared with
  | nil =>
      cases changed
      rfl
  | cons change changes induction =>
      obtain ⟨middle, moved, rest⟩ := run_cons.mp changed
      refine run_cons.mpr ⟨⟨middle, running⟩, ?_, induction rest⟩
      simp [step, moved]

end Solo

end Concurrent
