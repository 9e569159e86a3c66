import IndustryFlow.Concurrent.Pool

/-!
# Rights that are never doubled

A right lies in the stores or with one running request.  A reply may hand a
right out (`takes`) and a call may put it back (`gives`); a program is affine
when it puts back only what it holds.  Then there is never more than one of
each right, and a right taken by a program that puts nothing back is gone for
good (`Lapsed`).
-/

namespace Concurrent

variable {Right Op : Type} {Reply : Op → Type} {Error Answer Result : Type}

structure Rights (Right Op : Type) (Reply : Op → Type) where
  takes : ∀ op, Reply op → Right → Prop
  gives : Op → Right → Prop

namespace Program

variable {rights : Rights Right Op Reply}

/-- The program makes no call that puts a right back. -/
def Keeps (rights : Rights Right Op Reply)
    (program : Program Op Reply Error Answer) : Prop :=
  program.Always (fun _ _ => True) (fun op => ∀ right, ¬rights.gives op right)
    (fun _ => True)

/-- The program puts back only rights that it holds at that time. -/
def Affine (rights : Rights Right Op Reply) :
    Program Op Reply Error Answer → (Right → Prop) → Prop
  | .done _, _ => True
  | .fail _, _ => True
  | .call op next, held => (∀ right, rights.gives op right → held right) ∧
      ∀ reply, (next reply).Affine rights fun right =>
        (held right ∧ ¬rights.gives op right) ∨ rights.takes op reply right

theorem Affine.mono {program : Program Op Reply Error Answer}
    {few many : Right → Prop} (affine : program.Affine rights few)
    (more : ∀ right, few right → many right) :
    program.Affine rights many := by
  induction program generalizing few many with
  | done answer => trivial
  | fail error => trivial
  | call op next induction =>
      refine ⟨fun right gives => more right (affine.1 right gives), ?_⟩
      intro reply
      refine induction reply (affine.2 reply) ?_
      intro right own
      rcases own with ⟨held, kept⟩ | taken
      · exact .inl ⟨more right held, kept⟩
      · exact .inr taken

theorem Affine.call {op : Op}
    {next : Reply op → Program Op Reply Error Answer} {held : Right → Prop}
    (puts : ∀ right, rights.gives op right → held right)
    (rest : ∀ reply, (next reply).Affine rights fun right =>
      (held right ∧ ¬rights.gives op right) ∨
        rights.takes op reply right) :
    (perform op >>= next).Affine rights held :=
  ⟨puts, rest⟩

theorem Affine.skip {op : Op}
    {next : Reply op → Program Op Reply Error Answer} {held : Right → Prop}
    (none : ∀ right, ¬rights.gives op right)
    (rest : ∀ reply, (next reply).Affine rights held) :
    (perform op >>= next).Affine rights held :=
  ⟨fun right gives => absurd gives (none right), fun reply =>
    (rest reply).mono fun right own => .inl ⟨own, none right⟩⟩

theorem Affine.bind {program : Program Op Reply Error Answer}
    {continuation : Answer → Program Op Reply Error Result}
    {held : Right → Prop} (keeps : program.Keeps rights)
    (rest : ∀ answer, (continuation answer).Affine rights held) :
    (program >>= continuation).Affine rights held := by
  induction program generalizing held with
  | done answer => exact rest answer
  | fail error => trivial
  | call op next induction =>
      refine ⟨fun right gives => absurd gives (keeps.1 right), ?_⟩
      intro reply
      refine induction reply (keeps.2 reply trivial) fun answer => ?_
      exact (rest answer).mono fun right own => .inl ⟨own, keeps.1 right⟩

theorem Keeps.affine {program : Program Op Reply Error Answer}
    (keeps : program.Keeps rights) (held : Right → Prop) :
    program.Affine rights held := by
  induction program generalizing held with
  | done answer => trivial
  | fail error => trivial
  | call op next induction =>
      exact ⟨fun right gives => absurd gives (keeps.1 right),
        fun reply => induction reply (keeps.2 reply trivial) _⟩

theorem Affine.seq {program : Program Op Reply Error Answer}
    {continuation : Answer → Program Op Reply Error Result}
    {held : Right → Prop} (affine : program.Affine rights held)
    (rest : ∀ answer, (continuation answer).Keeps rights) :
    (program >>= continuation).Affine rights held := by
  induction program generalizing held with
  | done answer => exact (rest answer).affine held
  | fail error => trivial
  | call op next induction =>
      exact ⟨affine.1, fun reply => induction reply (affine.2 reply)⟩

theorem Keeps.call {op : Op}
    {next : Reply op → Program Op Reply Error Answer}
    (none : ∀ right, ¬rights.gives op right)
    (rest : ∀ reply, (next reply).Keeps rights) :
    (perform op >>= next).Keeps rights :=
  ⟨none, fun reply _ => rest reply⟩

theorem Keeps.bind {program : Program Op Reply Error Answer}
    {continuation : Answer → Program Op Reply Error Result}
    (keeps : program.Keeps rights)
    (rest : ∀ answer, (continuation answer).Keeps rights) :
    (program >>= continuation).Keeps rights :=
  Always.bind keeps (fun answer _ => rest answer) (fun _ _ => trivial)

end Program

namespace Pool

variable {Shared Request Choice Change : Type}
variable {system :
  System Shared Request Op Reply Error Answer Choice Change}
variable (rights : Rights Right Op Reply) (stock : Shared → Right → Nat)
variable (made : Shared → Right → Prop)

/-- What calls and changes do to the rights in the stores. -/
structure Conserves
    (system : System Shared Request Op Reply Error Answer Choice Change) :
    Prop where
  made_kept : ∀ {shared op choice reply after},
    system.exec shared op choice = some (reply, after) →
      ∀ right, made shared right → made after right
  taken : ∀ {shared op choice reply after},
    system.exec shared op choice = some (reply, after) →
      ∀ right, rights.takes op reply right →
        stock after right < stock shared right ∨
          ¬made shared right ∧ made after right ∧
            stock after right ≤ stock shared right
  grown : ∀ {shared op choice reply after},
    system.exec shared op choice = some (reply, after) →
      ∀ right, stock after right ≤ stock shared right ∨
        rights.gives op right ∧ stock after right ≤ stock shared right + 1
  changed : ∀ {shared change after},
    system.change shared change = some after →
      ∀ right, stock after right ≤ stock shared right ∧
        (made shared right → made after right)

/-- Every right lies in the stores once, or with the one request that holds
it, or nowhere. -/
structure Exclusive (held : Nat → Right → Prop)
    (pool : Pool Shared Request Op Reply Error Answer) : Prop where
  affine : ∀ index (thread : Thread Request Op Reply Error Answer),
    pool.threads[index]? = some thread →
      thread.program.Affine rights (held index)
  single : ∀ first second right, held first right → held second right →
    first = second
  absent : ∀ index right, held index right →
    stock pool.shared right = 0 ∧ made pool.shared right
  stock_le : ∀ right, stock pool.shared right ≤ 1
  stock_made : ∀ right, 0 < stock pool.shared right →
    made pool.shared right
  bounded : ∀ index right, held index right → index < pool.threads.length

/-- Nobody has the right, and nobody can get it. -/
def Lapsed (right : Right)
    (pool : Pool Shared Request Op Reply Error Answer) : Prop :=
  ∃ held, Exclusive rights stock made held pool ∧
    (∀ index, ¬held index right) ∧ stock pool.shared right = 0 ∧
    made pool.shared right

variable {rights stock made}

/-- A call by the request at `index`, which keeps the rights `own`. -/
private theorem Exclusive.call
    {pool : Pool Shared Request Op Reply Error Answer}
    {held : Nat → Right → Prop}
    (conserves : Conserves rights stock made system)
    (exclusive : Exclusive rights stock made held pool) {index : Nat}
    {request : Request} {op : Op}
    {next : Reply op → Program Op Reply Error Answer}
    (running : pool.threads[index]? = some ⟨request, .call op next⟩)
    {choice : Choice} {reply : Reply op} {after : Shared}
    (executed : system.exec pool.shared op choice = some (reply, after))
    {changed : Thread Request Op Reply Error Answer} {own : Right → Prop}
    (affine : changed.program.Affine rights own)
    (kept : ∀ right, own right →
      (held index right ∧ ¬rights.gives op right) ∨
        rights.takes op reply right) :
    Exclusive rights stock made (Function.update held index own)
      ⟨after, pool.threads.set index changed⟩ := by
  have gives := (exclusive.affine index _ running).1
  have grown (right : Right) : stock after right ≤ stock pool.shared right ∨
      held index right ∧ stock after right ≤ 1 := by
    rcases conserves.grown executed right with fewer | ⟨put, one⟩
    · exact .inl fewer
    · have own := gives right put
      have none_yet := (exclusive.absent index right own).1
      exact .inr ⟨own, by omega⟩
  have ownNew (right : Right) (mine : own right) :
      stock after right = 0 ∧ made after right ∧
        ∀ other, other ≠ index → ¬held other right := by
    have le := exclusive.stock_le right
    rcases kept right mine with ⟨before, unput⟩ | taken
    · have ⟨zero, known⟩ := exclusive.absent index right before
      refine ⟨?_, conserves.made_kept executed right known, ?_⟩
      · rcases conserves.grown executed right with fewer | ⟨put, -⟩
        · omega
        · exact absurd put unput
      · exact fun other different theirs =>
          different (exclusive.single other index right theirs before)
    · rcases conserves.taken executed right taken with
        drawn | ⟨unmade, known, fewer⟩
      · have before := exclusive.stock_made right (by omega)
        refine ⟨by omega, conserves.made_kept executed right before, ?_⟩
        intro other _ theirs
        have := (exclusive.absent other right theirs).1
        omega
      · have zero : ¬0 < stock pool.shared right :=
          fun positive => unmade (exclusive.stock_made right positive)
        exact ⟨by omega, known, fun other _ theirs =>
          unmade (exclusive.absent other right theirs).2⟩
  have others (other : Nat) (different : other ≠ index) (right : Right)
      (theirs : held other right) :
      stock after right = 0 ∧ made after right := by
    have ⟨zero, known⟩ := exclusive.absent other right theirs
    refine ⟨?_, conserves.made_kept executed right known⟩
    rcases grown right with fewer | ⟨mine, -⟩
    · omega
    · exact absurd (exclusive.single other index right theirs mine) different
  have bound := (List.getElem?_eq_some_iff.mp running).1
  constructor
  · intro other thread found
    rcases getElem?_set_cases found with ⟨rfl, rfl⟩ | ⟨different, before⟩
    · rw [Function.update_self]
      exact affine
    · rw [Function.update_of_ne (Ne.symm different)]
      exact exclusive.affine other thread before
  · intro first second right left right'
    by_cases one : first = index
    · by_cases two : second = index
      · rw [one, two]
      · rw [one, Function.update_self] at left
        rw [Function.update_of_ne two] at right'
        exact absurd right' ((ownNew right left).2.2 second two)
    · rw [Function.update_of_ne one] at left
      by_cases two : second = index
      · rw [two, Function.update_self] at right'
        exact absurd left ((ownNew right right').2.2 first one)
      · rw [Function.update_of_ne two] at right'
        exact exclusive.single first second right left right'
  · intro other right theirs
    by_cases same : other = index
    · rw [same, Function.update_self] at theirs
      exact ⟨(ownNew right theirs).1, (ownNew right theirs).2.1⟩
    · rw [Function.update_of_ne same] at theirs
      exact others other same right theirs
  · intro right
    have le := exclusive.stock_le right
    rcases grown right with fewer | ⟨-, one⟩
    · exact Nat.le_trans fewer le
    · exact one
  · intro right (positive : 0 < stock after right)
    refine conserves.made_kept executed right ?_
    rcases grown right with fewer | ⟨mine, -⟩
    · exact exclusive.stock_made right (by omega)
    · exact (exclusive.absent index right mine).2
  · intro other right theirs
    simp only [List.length_set]
    by_cases same : other = index
    · rw [same]
      exact bound
    · rw [Function.update_of_ne same] at theirs
      exact exclusive.bounded other right theirs

private theorem Exclusive.spawn
    {pool : Pool Shared Request Op Reply Error Answer}
    {held : Nat → Right → Prop}
    (exclusive : Exclusive rights stock made held pool)
    {thread : Thread Request Op Reply Error Answer}
    (affine : thread.program.Affine rights fun _ => False) :
    Exclusive rights stock made held
      ⟨pool.shared, pool.threads ++ [thread]⟩ := by
  refine { exclusive with affine := ?_, bounded := ?_ }
  · intro index other found
    rcases getElem?_concat_cases found with before | ⟨-, rfl⟩
    · exact exclusive.affine index other before
    · exact affine.mono fun right never => never.elim
  · intro index right own
    have := exclusive.bounded index right own
    simp only [List.length_append, List.length_singleton]
    omega

private theorem Exclusive.changed
    {pool : Pool Shared Request Op Reply Error Answer}
    {held : Nat → Right → Prop}
    (conserves : Conserves rights stock made system)
    (exclusive : Exclusive rights stock made held pool) {change : Change}
    {after : Shared}
    (changed : system.change pool.shared change = some after) :
    Exclusive rights stock made held ⟨after, pool.threads⟩ := by
  refine { exclusive with absent := ?_, stock_le := ?_, stock_made := ?_ }
  · intro index right own
    have ⟨zero, known⟩ := exclusive.absent index right own
    have ⟨fewer, still⟩ := conserves.changed changed right
    exact ⟨by simp only; omega, still known⟩
  · intro right
    have le := exclusive.stock_le right
    have fewer := (conserves.changed changed right).1
    exact Nat.le_trans fewer le
  · intro right (positive : 0 < stock after right)
    have ⟨fewer, still⟩ := conserves.changed changed right
    exact still (exclusive.stock_made right (by omega))

/-- The request at `index` dies with what it holds. -/
private theorem Exclusive.drop
    {pool : Pool Shared Request Op Reply Error Answer}
    {held : Nat → Right → Prop}
    (exclusive : Exclusive rights stock made held pool) {index : Nat}
    {request : Request} {error : Error} :
    Exclusive rights stock made
      (Function.update held index fun _ => False)
      ⟨pool.shared, pool.threads.set index ⟨request, .fail error⟩⟩ := by
  have others {other : Nat} {right : Right}
      (own : Function.update held index (fun _ => False) other right) :
      held other right := by
    by_cases same : other = index
    · rw [same, Function.update_self] at own
      exact own.elim
    · rwa [Function.update_of_ne same] at own
  constructor
  · intro other thread found
    rcases getElem?_set_cases found with ⟨rfl, rfl⟩ | ⟨different, before⟩
    · trivial
    · rw [Function.update_of_ne (Ne.symm different)]
      exact exclusive.affine other thread before
  · exact fun first second right left other =>
      exclusive.single first second right (others left) (others other)
  · exact fun other right own => exclusive.absent other right (others own)
  · exact exclusive.stock_le
  · exact exclusive.stock_made
  · intro other right own
    rw [List.length_set]
    exact exclusive.bounded other right (others own)

/-- One event, with the rights that the requests hold after it. -/
private theorem Exclusive.event
    {pool next : Pool Shared Request Op Reply Error Answer}
    {event : PoolEvent Request Choice Change} {held : Nat → Right → Prop}
    (conserves : Conserves rights stock made system)
    (codes : ∀ request,
      (system.code request).Affine rights fun _ => False)
    (exclusive : Exclusive rights stock made held pool)
    (taken : step system pool event = some next) :
    ∃ after, Exclusive rights stock made after next ∧
      ∀ index right, after index right → held index right ∨
        (stock next.shared right < stock pool.shared right ∨
          ¬made pool.shared right) := by
  cases stepped taken with
  | spawn request =>
      exact ⟨held, exclusive.spawn (codes request),
        fun _ _ own => .inl own⟩
  | @step index choice request op rest reply after running executed =>
      have affine := (exclusive.affine index _ running).2 reply
      refine ⟨_, exclusive.call conserves running executed affine
        fun _ own => own, ?_⟩
      intro other right own
      by_cases same : other = index
      · rw [same, Function.update_self] at own
        rcases own with ⟨before, -⟩ | taken
        · exact .inl (same ▸ before)
        · rcases conserves.taken executed right taken with fewer | new
          · exact .inr (.inl fewer)
          · exact .inr (.inr new.1)
      · rw [Function.update_of_ne same] at own
        exact .inl own
  | @abort index request op rest running =>
      refine ⟨_, exclusive.drop, ?_⟩
      intro other right own
      by_cases same : other = index
      · rw [same, Function.update_self] at own
        exact own.elim
      · rw [Function.update_of_ne same] at own
        exact .inl own
  | @lose index choice request op rest reply after running executed =>
      refine ⟨_, exclusive.call conserves running executed
        (show Program.Affine rights (Program.fail system.dead)
          (fun _ => False) from trivial) (fun _ never => never.elim), ?_⟩
      intro other right own
      by_cases same : other = index
      · rw [same, Function.update_self] at own
        exact own.elim
      · rw [Function.update_of_ne same] at own
        exact .inl own
  | environment changed =>
      exact ⟨held, exclusive.changed conserves changed,
        fun _ _ own => .inl own⟩

/-- What nobody holds is not put back. -/
private theorem Exclusive.unheld
    {pool next : Pool Shared Request Op Reply Error Answer}
    {event : PoolEvent Request Choice Change} {held : Nat → Right → Prop}
    {right : Right} (conserves : Conserves rights stock made system)
    (exclusive : Exclusive rights stock made held pool)
    (nobody : ∀ index, ¬held index right)
    (taken : step system pool event = some next) :
    stock next.shared right ≤ stock pool.shared right ∧
      (made pool.shared right → made next.shared right) := by
  have called {index : Nat} {request : Request} {op : Op} {choice : Choice}
      {rest : Reply op → Program Op Reply Error Answer} {reply : Reply op}
      {after : Shared}
      (running : pool.threads[index]? = some ⟨request, .call op rest⟩)
      (executed : system.exec pool.shared op choice = some (reply, after)) :
      stock after right ≤ stock pool.shared right ∧
        (made pool.shared right → made after right) := by
    refine ⟨?_, conserves.made_kept executed right⟩
    rcases conserves.grown executed right with fewer | ⟨put, -⟩
    · exact fewer
    · exact absurd ((exclusive.affine index _ running).1 right put)
        (nobody index)
  cases stepped taken with
  | spawn request => exact ⟨Nat.le_refl _, id⟩
  | step running executed => exact called running executed
  | abort running => exact ⟨Nat.le_refl _, id⟩
  | lose running executed => exact called running executed
  | environment changed => exact conserves.changed changed right

/-- Every right is in one place at most. -/
def Linear (rights : Rights Right Op Reply) (stock : Shared → Right → Nat)
    (made : Shared → Right → Prop)
    (pool : Pool Shared Request Op Reply Error Answer) : Prop :=
  ∃ held, Exclusive rights stock made held pool

theorem start_linear {shared : Shared}
    (single : ∀ right, stock shared right ≤ 1)
    (known : ∀ right, 0 < stock shared right → made shared right) :
    Linear rights stock made
      (start shared : Pool Shared Request Op Reply Error Answer) := by
  refine ⟨fun _ _ => False, ?_, ?_, ?_, single, known, ?_⟩
  · intro index thread found
    cases found
  · exact fun _ _ _ never => never.elim
  · exact fun _ _ never => never.elim
  · exact fun _ _ never => never.elim

theorem step_linear
    {pool next : Pool Shared Request Op Reply Error Answer}
    {event : PoolEvent Request Choice Change}
    (conserves : Conserves rights stock made system)
    (codes : ∀ request,
      (system.code request).Affine rights fun _ => False)
    (linear : Linear rights stock made pool)
    (taken : step system pool event = some next) :
    Linear rights stock made next := by
  obtain ⟨held, exclusive⟩ := linear
  obtain ⟨after, still, -⟩ := exclusive.event conserves codes taken
  exact ⟨after, still⟩

/-- A request that takes a right and puts nothing back makes it lapse. -/
theorem step_lapses
    {pool next : Pool Shared Request Op Reply Error Answer} {index : Nat}
    {choice : Choice} {request : Request} {op : Op}
    {rest : Reply op → Program Op Reply Error Answer} {right : Right}
    (conserves : Conserves rights stock made system)
    (linear : Linear rights stock made pool)
    (running : pool.threads[index]? = some ⟨request, .call op rest⟩)
    (keeps : ∀ reply, (rest reply).Keeps rights)
    (takes : ∀ reply after,
      system.exec pool.shared op choice = some (reply, after) →
        rights.takes op reply right)
    (taken : step system pool (.step index choice) = some next) :
    Lapsed rights stock made right next := by
  obtain ⟨held, exclusive⟩ := linear
  cases stepped taken with
  | @step _ _ request' op' rest' reply after running' executed =>
      rw [running] at running'
      cases running'
      have own := takes reply after executed
      have mine := exclusive.call conserves running executed
        (show Program.Affine rights
          (Thread.mk request (rest reply)).program _ from
          (keeps reply).affine _) (fun _ own => own)
      have ⟨zero, known⟩ := mine.absent index right
        (by rw [Function.update_self]; exact .inr own)
      refine ⟨_, exclusive.call conserves running executed
        ((keeps reply).affine fun _ => False) (fun _ never => never.elim),
        ?_, zero, known⟩
      intro other theirs
      by_cases same : other = index
      · rw [same, Function.update_self] at theirs
        exact theirs
      · rw [Function.update_of_ne same] at theirs
        refine same (mine.single other index right ?_ ?_)
        · rwa [Function.update_of_ne same]
        · rw [Function.update_self]
          exact .inr own

theorem step_lapsed
    {pool next : Pool Shared Request Op Reply Error Answer}
    {event : PoolEvent Request Choice Change} {right : Right}
    (conserves : Conserves rights stock made system)
    (codes : ∀ request,
      (system.code request).Affine rights fun _ => False)
    (lapsed : Lapsed rights stock made right pool)
    (taken : step system pool event = some next) :
    Lapsed rights stock made right next := by
  obtain ⟨held, exclusive, nobody, zero, known⟩ := lapsed
  have ⟨fewer, still⟩ := exclusive.unheld conserves (nobody ·) taken
  obtain ⟨after, kept, origin⟩ := exclusive.event conserves codes taken
  refine ⟨after, kept, ?_, by omega, still known⟩
  intro index own
  rcases origin index right own with before | drawn | unmade
  · exact nobody index before
  · omega
  · exact unmade known

end Pool

end Concurrent
