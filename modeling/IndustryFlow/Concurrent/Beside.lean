import IndustryFlow.Concurrent.Pool

/-!
# What the other requests did

`beside` replays a run without one of its requests: every value that a step of
another request or of the environment changed, and none that the request's own
steps changed.  A request that has put everything back leaves the stores as
this replay does.
-/

namespace Concurrent.Pool

variable {Shared Request Op : Type} {Reply : Op → Type}
variable {Error Answer Choice Change Key Value : Type} [DecidableEq Value]

/-- The event is one of the request. -/
def own (index : Nat) : PoolEvent Request Choice Change → Bool
  | .step other _ | .abort other | .lose other _ => other = index
  | _ => false

/-- The values after an event, if they were `seen` before it. -/
def besideStep (view : Shared → Key → Value) (index : Nat)
    (before : Shared) (event : PoolEvent Request Choice Change)
    (after : Shared) (seen : Key → Value) : Key → Value :=
  if own index event then seen
  else fun key => if view after key = view before key then seen key
    else view after key

/-- The values at the end of a run, the request's own changes left out. -/
def beside
    (system : System Shared Request Op Reply Error Answer Choice Change)
    (view : Shared → Key → Value) (index : Nat) :
    Pool Shared Request Op Reply Error Answer →
      List (PoolEvent Request Choice Change) → (Key → Value) → Key → Value
  | _, [], seen => seen
  | pool, event :: events, seen =>
      match step system pool event with
      | none => seen
      | some next => beside system view index next events
          (besideStep view index pool.shared event next.shared seen)

/-- The invariant rule for a run and its replay. -/
theorem run_beside
    {system : System Shared Request Op Reply Error Answer Choice Change}
    {view : Shared → Key → Value} {index : Nat}
    {allowed : Pool Shared Request Op Reply Error Answer →
      PoolEvent Request Choice Change → Prop}
    (invariant : Pool Shared Request Op Reply Error Answer →
      (Key → Value) → Prop)
    (preserved : ∀ pool event next seen, invariant pool seen →
      allowed pool event → step system pool event = some next →
        invariant next
          (besideStep view index pool.shared event next.shared seen))
    {pool final : Pool Shared Request Op Reply Error Answer}
    {events : List (PoolEvent Request Choice Change)} {seen : Key → Value}
    (holds : invariant pool seen)
    (along : Along (step system) allowed pool events)
    (ran : run (step system) pool events = some final) :
    invariant final (beside system view index pool events seen) := by
  induction events generalizing pool seen with
  | nil =>
      simp only [run_nil, Option.some.injEq] at ran
      exact ran ▸ holds
  | cons event events induction =>
      obtain ⟨next, taken, rest⟩ := run_cons.mp ran
      simp only [beside, taken]
      exact induction (preserved pool event next seen holds along.1 taken)
        (along.2 next taken) rest

end Concurrent.Pool
