import IndustryFlow.Concurrent.Run
import Mathlib.Data.List.Induction
import Mathlib.Logic.Function.Basic

/-!
# What a run has come through

An invariant may speak of the events so far, and of states that the run has
left behind.
-/

namespace Concurrent

variable {State Event : Type} {step : State → Event → Option State}

/-- What a table of a state holds once one entry is written. -/
theorem update_eq_some {Key Value : Type} [DecidableEq Key]
    {table : Key → Option Value} {key other : Key} {entry : Option Value}
    {found : Value}
    (present : Function.update table key entry other = some found) :
    (other = key ∧ entry = some found) ∨
      (other ≠ key ∧ table other = some found) := by
  by_cases same : other = key
  · rw [same, Function.update_self] at present
    exact .inl ⟨same, present⟩
  · rw [Function.update_of_ne same] at present
    exact .inr ⟨same, present⟩

/-- The invariant rule for what also depends on the events so far. -/
theorem run_history {start final : State} {events : List Event}
    (invariant : List Event → State → Prop) (begins : invariant [] start)
    (preserved : ∀ past state event next,
      run step start past = some state → invariant past state →
      step state event = some next → invariant (past ++ [event]) next)
    (ran : run step start events = some final) : invariant events final := by
  induction events using List.reverseRecOn generalizing final with
  | nil =>
      cases ran
      exact begins
  | append_singleton past event induction =>
      obtain ⟨middle, before, last⟩ := run_append.mp ran
      obtain ⟨next, stepped, same⟩ := run_cons.mp last
      cases same
      exact preserved past middle event final before (induction before) stepped

theorem Sometime.append {happens : State → Event → Prop} {start : State}
    {past : List Event} (sometime : Sometime step happens start past)
    (more : List Event) : Sometime step happens start (past ++ more) := by
  induction past generalizing start with
  | nil => exact sometime.elim
  | cons event past induction =>
      rcases sometime with now | ⟨next, stepped, later⟩
      · exact .inl now
      · exact .inr ⟨next, stepped, induction later⟩

theorem Sometime.last {happens : State → Event → Prop} {start state : State}
    {past : List Event} {event : Event}
    (ran : run step start past = some state) (now : happens state event) :
    Sometime step happens start (past ++ [event]) := by
  induction past generalizing start with
  | nil =>
      cases ran
      exact .inl now
  | cons first past induction =>
      obtain ⟨next, stepped, rest⟩ := run_cons.mp ran
      exact .inr ⟨next, stepped, induction rest⟩

end Concurrent
