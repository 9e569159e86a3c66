import Mathlib.Data.List.Basic
import Mathlib.Logic.Relation

/-!
# Runs of a step function

A system is a partial step function on its states: `step state event` is
`none` when the event cannot happen there.  A run is a list of events, and
`Along` restricts a run to events taken in states that allow them.
-/

namespace Concurrent

variable {State Event : Type}

/-- The state after a list of events, if all of them can happen in turn. -/
def run (step : State → Event → Option State) :
    State → List Event → Option State
  | state, [] => some state
  | state, event :: events =>
      (step state event).bind fun next => run step next events

/-- Every event of the run is taken in a state that allows it. -/
def Along (step : State → Event → Option State)
    (allowed : State → Event → Prop) : State → List Event → Prop
  | _, [] => True
  | state, event :: events => allowed state event ∧
      ∀ next, step state event = some next → Along step allowed next events

instance Along.decidable (step : State → Event → Option State)
    (allowed : State → Event → Prop)
    [∀ state event, Decidable (allowed state event)] :
    (state : State) → (events : List Event) →
      Decidable (Along step allowed state events)
  | _, [] => .isTrue trivial
  | state, event :: events =>
      match stepped : step state event with
      | none => decidable_of_iff (allowed state event)
          ⟨fun permitted => ⟨permitted, by simp [stepped]⟩, And.left⟩
      | some next =>
          have := Along.decidable step allowed next events
          decidable_of_iff
            (allowed state event ∧ Along step allowed next events)
            (by simp [Along, stepped])

/-- Some event of the run is taken in a state where `happens` says so. -/
def Sometime (step : State → Event → Option State)
    (happens : State → Event → Prop) : State → List Event → Prop
  | _, [] => False
  | state, event :: events => happens state event ∨
      ∃ next, step state event = some next ∧
        Sometime step happens next events

instance Sometime.decidable (step : State → Event → Option State)
    (happens : State → Event → Prop)
    [∀ state event, Decidable (happens state event)] :
    (state : State) → (events : List Event) →
      Decidable (Sometime step happens state events)
  | _, [] => .isFalse id
  | state, event :: events =>
      match stepped : step state event with
      | none => decidable_of_iff (happens state event)
          (by simp [Sometime, stepped])
      | some next =>
          have := Sometime.decidable step happens next events
          decidable_of_iff
            (happens state event ∨ Sometime step happens next events)
            (by simp [Sometime, stepped])

@[simp] theorem run_nil (step : State → Event → Option State)
    (state : State) : run step state [] = some state := rfl

theorem run_cons {step : State → Event → Option State}
    {state final : State} {event : Event} {events : List Event} :
    run step state (event :: events) = some final ↔
      ∃ next, step state event = some next ∧
        run step next events = some final :=
  Option.bind_eq_some_iff

theorem run_append {step : State → Event → Option State}
    {state final : State} {first second : List Event} :
    run step state (first ++ second) = some final ↔
      ∃ middle, run step state first = some middle ∧
        run step middle second = some final := by
  induction first generalizing state with
  | nil => simp
  | cons event first induction =>
      simp only [List.cons_append, run_cons, induction]
      constructor
      · rintro ⟨next, stepped, middle, before, after⟩
        exact ⟨middle, ⟨next, stepped, before⟩, after⟩
      · rintro ⟨middle, ⟨next, stepped, before⟩, after⟩
        exact ⟨next, stepped, middle, before, after⟩

theorem Along.of_forall (step : State → Event → Option State)
    {allowed : Event → Prop} (state : State) {events : List Event}
    (all : ∀ event ∈ events, allowed event) :
    Along step (fun _ event => allowed event) state events := by
  induction events generalizing state with
  | nil => trivial
  | cons event events induction =>
      obtain ⟨head, tail⟩ := List.forall_mem_cons.mp all
      exact ⟨head, fun next _ => induction next tail⟩

theorem Along.append {step : State → Event → Option State}
    {allowed : State → Event → Prop} {state middle : State}
    {first second : List Event}
    (along : Along step allowed state (first ++ second))
    (before : run step state first = some middle) :
    Along step allowed state first ∧ Along step allowed middle second := by
  induction first generalizing state with
  | nil =>
      simp only [run_nil, Option.some.injEq] at before
      subst before
      exact ⟨trivial, along⟩
  | cons event first induction =>
      obtain ⟨next, stepped, rest⟩ := run_cons.mp before
      obtain ⟨head, tail⟩ := along
      refine ⟨⟨head, ?_⟩, (induction (tail next stepped) rest).2⟩
      intro other otherStepped
      rw [stepped] at otherStepped
      cases otherStepped
      exact (induction (tail next stepped) rest).1

/-- The invariant rule for a run all of whose steps are allowed. -/
theorem run_preserves_along {step : State → Event → Option State}
    {allowed : State → Event → Prop} (invariant : State → Prop)
    (preserved : ∀ state event next, invariant state →
      allowed state event → step state event = some next → invariant next)
    {state final : State} {events : List Event}
    (holds : invariant state) (along : Along step allowed state events)
    (ran : run step state events = some final) : invariant final := by
  induction events generalizing state with
  | nil =>
      simp only [run_nil, Option.some.injEq] at ran
      exact ran ▸ holds
  | cons event events induction =>
      obtain ⟨next, stepped, rest⟩ := run_cons.mp ran
      exact induction (preserved state event next holds along.1 stepped)
        (along.2 next stepped) rest

/-- The invariant rule: what one step preserves, every run preserves. -/
theorem run_preserves {step : State → Event → Option State}
    (invariant : State → Prop)
    (preserved : ∀ state event next, invariant state →
      step state event = some next → invariant next)
    {state final : State} {events : List Event}
    (holds : invariant state)
    (ran : run step state events = some final) : invariant final := by
  induction events generalizing state with
  | nil =>
      simp only [run_nil, Option.some.injEq] at ran
      exact ran ▸ holds
  | cons event events induction =>
      obtain ⟨next, stepped, rest⟩ := run_cons.mp ran
      exact induction (preserved state event next holds stepped) rest

/-- What one step preserves holds at every step of a run. -/
theorem Along.of_invariant {step : State → Event → Option State}
    {invariant : State → Prop}
    (preserved : ∀ state event next, invariant state →
      step state event = some next → invariant next)
    {state : State} (holds : invariant state) (events : List Event) :
    Along step (fun state _ => invariant state) state events := by
  induction events generalizing state with
  | nil => trivial
  | cons event events induction =>
      exact ⟨holds, fun next stepped =>
        induction (preserved state event next holds stepped)⟩

/-- Two conditions that agree under an invariant agree along every run. -/
theorem Along.congr {step : State → Event → Option State}
    {invariant : State → Prop} {first second : State → Event → Prop}
    (preserved : ∀ state event next, invariant state →
      step state event = some next → invariant next)
    (same : ∀ state event, invariant state →
      (first state event ↔ second state event))
    {state : State} (holds : invariant state) (events : List Event) :
    Along step first state events ↔ Along step second state events := by
  induction events generalizing state with
  | nil => exact Iff.rfl
  | cons event events induction =>
      refine and_congr (same state event holds) (forall_congr' fun next => ?_)
      exact forall_congr' fun stepped =>
        induction (preserved state event next holds stepped)

theorem Along.mono {step : State → Event → Option State}
    {first second : State → Event → Prop} {state : State}
    {events : List Event} (along : Along step first state events)
    (implies : ∀ state event, first state event → second state event) :
    Along step second state events := by
  induction events generalizing state with
  | nil => trivial
  | cons event events induction =>
      exact ⟨implies state event along.1, fun next stepped =>
        induction (along.2 next stepped)⟩

theorem Along.and {step : State → Event → Option State}
    {first second : State → Event → Prop} {state : State}
    {events : List Event} (left : Along step first state events)
    (right : Along step second state events) :
    Along step (fun state event => first state event ∧ second state event)
      state events := by
  induction events generalizing state with
  | nil => trivial
  | cons event events induction =>
      exact ⟨⟨left.1, right.1⟩, fun next stepped =>
        induction (left.2 next stepped) (right.2 next stepped)⟩

/-- What holds of every case that ever happens holds at every step. -/
theorem Along.of_sometime {Case : Type} {step : State → Event → Option State}
    {happens : Case → State → Event → Prop} {good : Case → Prop}
    {state : State} {events : List Event}
    (all : ∀ case, Sometime step (happens case) state events → good case) :
    Along step (fun state event => ∀ case, happens case state event →
      good case) state events := by
  induction events generalizing state with
  | nil => trivial
  | cons event events induction =>
      refine ⟨fun case now => all case (.inl now), fun next stepped => ?_⟩
      exact induction fun case later => all case (.inr ⟨next, stepped, later⟩)

/-- A run with an event at which something happens, cut at that event. -/
theorem Sometime.split {step : State → Event → Option State}
    {happens : State → Event → Prop} {state final : State}
    {events : List Event} (sometime : Sometime step happens state events)
    (ran : run step state events = some final) :
    ∃ before event after at_ next,
      run step state before = some at_ ∧ happens at_ event ∧
        step at_ event = some next ∧ run step next after = some final := by
  induction events generalizing state with
  | nil => exact sometime.elim
  | cons event events induction =>
      obtain ⟨next, stepped, rest⟩ := run_cons.mp ran
      rcases sometime with now | ⟨other, same, later⟩
      · exact ⟨[], event, events, state, next, rfl, now, stepped, rest⟩
      · rw [stepped] at same
        cases same
        obtain ⟨before, found, after, middle, last, reached, here, taken,
          remaining⟩ := induction later rest
        exact ⟨event :: before, found, after, middle, last,
          run_cons.mpr ⟨next, stepped, reached⟩, here, taken, remaining⟩

/-- A preorder that every step respects relates the ends of every run. -/
theorem run_relates {step : State → Event → Option State}
    {invariant : State → Prop} (relates : State → State → Prop)
    (refl : ∀ state, relates state state)
    (trans : ∀ {first second third}, relates first second →
      relates second third → relates first third)
    (preserved : ∀ state event next, invariant state →
      step state event = some next →
        invariant next ∧ relates state next)
    {state final : State} {events : List Event}
    (holds : invariant state)
    (ran : run step state events = some final) : relates state final := by
  induction events generalizing state with
  | nil =>
      simp only [run_nil, Option.some.injEq] at ran
      exact ran ▸ refl state
  | cons event events induction =>
      obtain ⟨next, stepped, rest⟩ := run_cons.mp ran
      obtain ⟨kept, related⟩ := preserved state event next holds stepped
      exact trans related (induction kept rest)

end Concurrent
