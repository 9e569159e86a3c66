import IndustryFlow.Concurrent.Beside

/-!
# Requests that are refused before they write

A program refuses `early` when no path leads from one of its writes to an error
that refuses.  Then no step of a request that ends so changes what the others
see.
-/

namespace Concurrent

namespace Program

variable {Op : Type} {Reply : Op → Type} {Error Answer Result : Type}

/-- No path ends in an error that refuses. -/
def Unrefused (refuses : Error → Prop)
    (program : Program Op Reply Error Answer) : Prop :=
  program.Always (fun _ _ => True) (fun _ => True)
    (fun result => ∀ error, result = .error error → ¬refuses error)

/-- No path from a write ends in an error that refuses. -/
def RefusesEarly (writes : Op → Prop) (refuses : Error → Prop) :
    Program Op Reply Error Answer → Prop
  | .done _ => True
  | .fail _ => True
  | .call op next => ∀ reply,
      (writes op → (next reply).Unrefused refuses) ∧
        (next reply).RefusesEarly writes refuses

variable {writes : Op → Prop} {refuses : Error → Prop}

/-- A program without writes may refuse wherever it likes. -/
theorem Always.refusesEarly {possible : ∀ op, Reply op → Prop}
    {post : Except Error Answer → Prop}
    {program : Program Op Reply Error Answer}
    (always : program.Always possible (fun op => ¬writes op) post)
    (all : ∀ op reply, possible op reply) :
    program.RefusesEarly writes refuses := by
  induction program with
  | done answer => trivial
  | fail error => trivial
  | call op next induction =>
      intro reply
      refine ⟨fun now => absurd now always.1, ?_⟩
      exact induction reply (always.2 reply (all op reply))

/-- So may a program that never refuses write wherever it likes. -/
theorem Unrefused.refusesEarly {program : Program Op Reply Error Answer}
    (unrefused : program.Unrefused refuses) :
    program.RefusesEarly writes refuses := by
  induction program with
  | done answer => trivial
  | fail error => trivial
  | call op next induction =>
      intro reply
      have rest := unrefused.2 reply trivial
      exact ⟨fun _ => rest, induction reply rest⟩

/-- The checks come first, and what follows them may write. -/
theorem RefusesEarly.bind {program : Program Op Reply Error Answer}
    {continuation : Answer → Program Op Reply Error Result}
    (first : program.Always (fun _ _ => True) (fun op => ¬writes op)
      (fun _ => True))
    (rest : ∀ answer, (continuation answer).RefusesEarly writes refuses) :
    (program >>= continuation).RefusesEarly writes refuses := by
  induction program with
  | done answer => exact rest answer
  | fail error => trivial
  | call op next induction =>
      intro reply
      exact ⟨fun now => absurd now first.1,
        induction reply (first.2 reply trivial)⟩

end Program

namespace Pool

variable {Shared Request Op : Type} {Reply : Op → Type}
variable {Error Answer Choice Change View : Type}
variable
  {system : System Shared Request Op Reply Error Answer Choice Change}
variable {writes : Op → Prop} {refuses : Error → Prop}

/-- Whether the request's program has this property. -/
def At (index : Nat)
    (property : Program Op Reply Error Answer → Prop)
    (pool : Pool Shared Request Op Reply Error Answer) : Prop :=
  ∃ thread, pool.threads[index]? = some thread ∧ property thread.program

theorem step_unrefused (dead : ¬refuses system.dead) {index : Nat}
    {pool next : Pool Shared Request Op Reply Error Answer}
    {event : PoolEvent Request Choice Change}
    (unrefused : At index (Program.Unrefused refuses) pool)
    (taken : step system pool event = some next) :
    At index (Program.Unrefused refuses) next := by
  obtain ⟨thread, found, held⟩ := unrefused
  have died : (Program.fail system.dead :
      Program Op Reply Error Answer).Unrefused refuses := by
    intro error same
    cases same
    exact dead
  have replaced {other : Nat} {changed : Thread Request Op Reply Error Answer}
      {shared : Shared} (there : other < pool.threads.length)
      (own : other = index → changed.program.Unrefused refuses) :
      At index (Program.Unrefused refuses)
        (⟨shared, pool.threads.set other changed⟩ :
          Pool Shared Request Op Reply Error Answer) := by
    by_cases same : other = index
    · subst same
      exact ⟨changed, List.getElem?_set_self there, own rfl⟩
    · exact ⟨thread, (List.getElem?_set_ne same).trans found, held⟩
  cases stepped taken with
  | spawn request =>
      have inside := (List.getElem?_eq_some_iff.mp found).1
      exact ⟨thread, (List.getElem?_append_left inside).trans found, held⟩
  | step running executed =>
      apply replaced (List.getElem?_eq_some_iff.mp running).1
      rintro rfl
      rw [running] at found
      cases found
      exact held.2 _ trivial
  | abort running =>
      exact replaced (List.getElem?_eq_some_iff.mp running).1
        fun _ => died
  | lose running executed =>
      exact replaced (List.getElem?_eq_some_iff.mp running).1
        fun _ => died
  | environment changed => exact ⟨thread, found, held⟩

/-- Every request refuses early. -/
def AllEarly (writes : Op → Prop) (refuses : Error → Prop)
    (pool : Pool Shared Request Op Reply Error Answer) : Prop :=
  ∀ thread ∈ pool.threads, thread.program.RefusesEarly writes refuses

theorem step_allEarly
    (early : ∀ request, (system.code request).RefusesEarly writes refuses)
    {pool next : Pool Shared Request Op Reply Error Answer}
    {event : PoolEvent Request Choice Change}
    (all : AllEarly writes refuses pool)
    (taken : step system pool event = some next) :
    AllEarly writes refuses next := by
  have replaced {index : Nat} {changed : Thread Request Op Reply Error Answer}
      (own : changed.program.RefusesEarly writes refuses) :
      ∀ thread ∈ pool.threads.set index changed,
        thread.program.RefusesEarly writes refuses := by
    intro thread member
    rcases List.mem_or_eq_of_mem_set member with before | rfl
    · exact all thread before
    · exact own
  cases stepped taken with
  | spawn request =>
      intro thread member
      rcases List.mem_append.mp member with before | last
      · exact all thread before
      · cases List.mem_singleton.mp last
        exact early request
  | step running executed =>
      have own := all _ (List.mem_of_getElem? running)
      exact replaced (own _).2
  | abort running => exact replaced trivial
  | lose running executed => exact replaced trivial
  | environment changed => exact all

/-- The step is not one of the request, or leaves the view as it is. -/
def Idle (system : System Shared Request Op Reply Error Answer Choice Change)
    (view : Shared → View) (index : Nat)
    (pool : Pool Shared Request Op Reply Error Answer)
    (event : PoolEvent Request Choice Change) : Prop :=
  own index event = true → ∀ next, step system pool event = some next →
    view next.shared = view pool.shared

/-- A step of a request either changes nothing that is seen, or the request is
not refused any more. -/
theorem step_idle {view : Shared → View}
    (dead : ¬refuses system.dead)
    (quiet : ∀ shared op choice reply after, ¬writes op →
      system.exec shared op choice = some (reply, after) →
        view after = view shared)
    {index : Nat} {pool next : Pool Shared Request Op Reply Error Answer}
    {event : PoolEvent Request Choice Change}
    (all : AllEarly writes refuses pool) (mine : own index event = true)
    (taken : step system pool event = some next) :
    view next.shared = view pool.shared ∨
      At index (Program.Unrefused refuses) next := by
  cases stepped taken with
  | spawn request => cases mine
  | @step other choice request op rest reply after running executed =>
      obtain rfl : other = index := by simpa [own] using mine
      by_cases writing : writes op
      · right
        have there := (List.getElem?_eq_some_iff.mp running).1
        have early := all _ (List.mem_of_getElem? running)
        exact ⟨_, List.getElem?_set_self there, (early reply).1 writing⟩
      · exact .inl (quiet _ _ _ _ _ writing executed)
  | abort running => exact .inl rfl
  | @lose other choice request op rest reply after running executed =>
      obtain rfl : other = index := by simpa [own] using mine
      right
      have there := (List.getElem?_eq_some_iff.mp running).1
      refine ⟨_, List.getElem?_set_self there, ?_⟩
      intro error same
      cases same
      exact dead
  | environment changed => cases mine

theorem run_unrefused (dead : ¬refuses system.dead) {index : Nat}
    {pool final : Pool Shared Request Op Reply Error Answer}
    {events : List (PoolEvent Request Choice Change)}
    (unrefused : At index (Program.Unrefused refuses) pool)
    (ran : run (step system) pool events = some final) :
    At index (Program.Unrefused refuses) final :=
  run_preserves (At index (Program.Unrefused refuses))
    (fun _ _ _ held taken => step_unrefused dead held taken) unrefused ran

/-- No step of a request that ends in a refusal changes what is seen. -/
theorem run_idle {view : Shared → View} (dead : ¬refuses system.dead)
    (early : ∀ request, (system.code request).RefusesEarly writes refuses)
    (quiet : ∀ shared op choice reply after, ¬writes op →
      system.exec shared op choice = some (reply, after) →
        view after = view shared)
    {index : Nat} {pool final : Pool Shared Request Op Reply Error Answer}
    {events : List (PoolEvent Request Choice Change)}
    (all : AllEarly writes refuses pool)
    (ran : run (step system) pool events = some final)
    {request : Request} {error : Error} (refused : refuses error)
    (ended : final.threads[index]? = some ⟨request, .fail error⟩) :
    Along (step system) (Idle system view index) pool events := by
  induction events generalizing pool with
  | nil => trivial
  | cons event events induction =>
      obtain ⟨next, taken, rest⟩ := run_cons.mp ran
      refine ⟨?_, ?_⟩
      · intro mine other same
        rw [taken] at same
        cases same
        rcases step_idle dead quiet all mine taken with idle | unrefused
        · exact idle
        · obtain ⟨thread, found, held⟩ := run_unrefused dead unrefused rest
          rw [ended] at found
          cases found
          exact absurd refused (held error rfl)
      · intro other same
        rw [taken] at same
        cases same
        exact induction (step_allEarly early all taken) rest

end Pool

end Concurrent
