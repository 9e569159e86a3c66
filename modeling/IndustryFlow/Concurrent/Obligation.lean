import IndustryFlow.Concurrent.Pool

/-!
# Debts between two stores

A request that changes one store may owe a second write to another.  The debt
is visible in the stores (`owed`) and in the program of the request that will
pay it (`Owes`).  If every incurring call is followed by a settling one, no
debt is left once all requests have answered.
-/

namespace Concurrent

variable {Op : Type} {Reply : Op → Type} {Error Answer : Type}

namespace Program

/-- A settling call lies ahead on every path whose replies are `possible`. -/
def Owes (possible : ∀ op, Reply op → Prop) (settles : Op → Prop) :
    Program Op Reply Error Answer → Prop
  | .done _ => False
  | .fail _ => False
  | .call op next => settles op ∨
      ∀ reply, possible op reply → (next reply).Owes possible settles

/-- After every call that incurs a debt the program owes it. -/
def Incurs (possible incurs : ∀ op, Reply op → Prop)
    (settles : Op → Prop) : Program Op Reply Error Answer → Prop
  | .done _ => True
  | .fail _ => True
  | .call op next => ∀ reply, possible op reply →
      (incurs op reply → (next reply).Owes possible settles) ∧
        (next reply).Incurs possible incurs settles

end Program

namespace Pool

variable {Shared Request Choice Change : Type}

/-- Requests come and take steps whose choices are `orderly`; none dies. -/
def Orderly (orderly : Choice → Prop) :
    PoolEvent Request Choice Change → Prop
  | .spawn _ => True
  | .step _ choice => orderly choice
  | _ => False

/-- The debts of the stores against those of the running requests. -/
structure Accounted (possible incurs : ∀ op, Reply op → Prop)
    (settles : Op → Prop) (owed : Shared → Prop)
    (pool : Pool Shared Request Op Reply Error Answer) : Prop where
  incurs : ∀ thread ∈ pool.threads,
    thread.program.Incurs possible incurs settles
  owes : owed pool.shared → ∃ thread ∈ pool.threads,
    thread.program.Owes possible settles

variable
  {system : System Shared Request Op Reply Error Answer Choice Change}
variable {orderly : Choice → Prop}
variable {possible incurs : ∀ op, Reply op → Prop} {settles : Op → Prop}
variable {owed : Shared → Prop}

theorem step_accounted
    (codes : ∀ request,
      (system.code request).Incurs possible incurs settles)
    (calls : ∀ shared op choice reply after, orderly choice →
      system.exec shared op choice = some (reply, after) →
        possible op reply ∧ (settles op → ¬owed after) ∧
          (owed after → owed shared ∨ incurs op reply))
    {pool next : Pool Shared Request Op Reply Error Answer}
    {event : PoolEvent Request Choice Change}
    (accounted : pool.Accounted possible incurs settles owed)
    (permitted : Orderly orderly event)
    (taken : step system pool event = some next) :
    next.Accounted possible incurs settles owed := by
  cases stepped taken with
  | spawn request =>
      constructor
      · intro thread member
        rcases List.mem_append.mp member with before | new
        · exact accounted.incurs thread before
        · cases List.mem_singleton.mp new
          exact codes request
      · intro debt
        obtain ⟨thread, member, owes⟩ := accounted.owes debt
        exact ⟨thread, List.mem_append_left _ member, owes⟩
  | abort running => exact absurd permitted id
  | lose running executed => exact absurd permitted id
  | environment changed => exact absurd permitted id
  | @step index choice request op rest reply after running executed =>
      obtain ⟨admitted, settled, raised⟩ :=
        calls pool.shared op choice reply after permitted executed
      have own := accounted.incurs _ (List.mem_of_getElem? running)
        reply admitted
      have bound := (List.getElem?_eq_some_iff.mp running).1
      constructor
      · intro thread member
        rcases List.mem_or_eq_of_mem_set member with before | rfl
        · exact accounted.incurs thread before
        · exact own.2
      · intro debt
        rcases raised debt with before | now
        · obtain ⟨thread, member, owes⟩ := accounted.owes before
          obtain ⟨other, found⟩ := List.mem_iff_getElem?.mp member
          by_cases same : other = index
          · subst same
            rw [running] at found
            cases found
            rcases owes with settles | ahead
            · exact absurd debt (settled settles)
            · exact ⟨_, List.mem_set bound _, ahead reply admitted⟩
          · refine ⟨thread, ?_, owes⟩
            apply List.mem_of_getElem?
            rw [List.getElem?_set_ne (Ne.symm same)]
            exact found
        · exact ⟨_, List.mem_set bound _, own.1 now⟩

/-- No debt is left when all requests have answered. -/
theorem Accounted.settled
    {pool : Pool Shared Request Op Reply Error Answer}
    (accounted : pool.Accounted possible incurs settles owed)
    (rest : pool.AtRest) : ¬owed pool.shared := by
  intro debt
  obtain ⟨thread, member, owes⟩ := accounted.owes debt
  have finished := rest thread member
  cases program : thread.program with
  | done answer => simp [program, Program.Owes] at owes
  | fail error => simp [program, Program.Owes] at owes
  | call op next =>
      simp [program, Program.Finished, Program.next?] at finished

end Pool

end Concurrent
