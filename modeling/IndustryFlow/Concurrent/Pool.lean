import IndustryFlow.Concurrent.Run
import IndustryFlow.Concurrent.Safety

/-!
# Requests served at the same time

Any number of requests run interleaved, each call of each of them one step.
A request may die before a call or after a call whose reply it never sees;
`environment` is everything else that happens to the stores.
-/

namespace Concurrent

/-- A request and what is left of its program. -/
structure Thread (Request Op : Type) (Reply : Op → Type)
    (Error Answer : Type) where
  request : Request
  program : Program Op Reply Error Answer

/-- The stores, and the requests in the order they came. -/
structure Pool (Shared Request Op : Type) (Reply : Op → Type)
    (Error Answer : Type) where
  shared : Shared
  threads : List (Thread Request Op Reply Error Answer)

inductive PoolEvent (Request Choice Change : Type) where
  | spawn (request : Request)
  | step (index : Nat) (choice : Choice)
  /-- The request dies before its next call. -/
  | abort (index : Nat)
  /-- The next call takes effect and the request dies without its reply. -/
  | lose (index : Nat) (choice : Choice)
  | environment (change : Change)
deriving DecidableEq

namespace Pool

/-- The code of the requests, their stores and the environment. -/
structure System (Shared Request Op : Type) (Reply : Op → Type)
    (Error Answer Choice Change : Type) where
  code : Request → Program Op Reply Error Answer
  /-- What a request leaves when it dies. -/
  dead : Error
  exec : Shared → (op : Op) → Choice → Option (Reply op × Shared)
  change : Shared → Change → Option Shared

variable {Shared Request Op : Type} {Reply : Op → Type}
variable {Error Answer Choice Change : Type}

/-- No request yet. -/
def start (shared : Shared) :
    Pool Shared Request Op Reply Error Answer :=
  ⟨shared, []⟩

/-- All requests have answered or died. -/
def AtRest (pool : Pool Shared Request Op Reply Error Answer) : Prop :=
  ∀ thread ∈ pool.threads, thread.program.Finished

instance (pool : Pool Shared Request Op Reply Error Answer) :
    Decidable pool.AtRest :=
  inferInstanceAs (Decidable (∀ _ ∈ _, _))

variable
  (system : System Shared Request Op Reply Error Answer Choice Change)

def step (pool : Pool Shared Request Op Reply Error Answer) :
    PoolEvent Request Choice Change →
      Option (Pool Shared Request Op Reply Error Answer)
  | .spawn request => some { pool with
      threads := pool.threads ++ [⟨request, system.code request⟩] }
  | .step index choice =>
      match pool.threads[index]? with
      | some ⟨request, .call op next⟩ =>
          (system.exec pool.shared op choice).map fun executed =>
            ⟨executed.2, pool.threads.set index
              ⟨request, next executed.1⟩⟩
      | _ => none
  | .abort index =>
      match pool.threads[index]? with
      | some ⟨request, .call _ _⟩ => some { pool with
          threads := pool.threads.set index ⟨request, .fail system.dead⟩ }
      | _ => none
  | .lose index choice =>
      match pool.threads[index]? with
      | some ⟨request, .call op _⟩ =>
          (system.exec pool.shared op choice).map fun executed =>
            ⟨executed.2, pool.threads.set index
              ⟨request, .fail system.dead⟩⟩
      | _ => none
  | .environment change => (system.change pool.shared change).map
      fun shared => { pool with shared }

/-- Everything one event can do. -/
inductive Stepped (pool : Pool Shared Request Op Reply Error Answer) :
    PoolEvent Request Choice Change →
      Pool Shared Request Op Reply Error Answer → Prop where
  | spawn (request : Request) :
      Stepped pool (.spawn request)
        ⟨pool.shared, pool.threads ++ [⟨request, system.code request⟩]⟩
  | step {index : Nat} {choice : Choice} {request : Request} {op : Op}
      {next : Reply op → Program Op Reply Error Answer}
      {reply : Reply op} {after : Shared}
      (running : pool.threads[index]? = some ⟨request, .call op next⟩)
      (executed : system.exec pool.shared op choice =
        some (reply, after)) :
      Stepped pool (.step index choice)
        ⟨after, pool.threads.set index ⟨request, next reply⟩⟩
  | abort {index : Nat} {request : Request} {op : Op}
      {next : Reply op → Program Op Reply Error Answer}
      (running : pool.threads[index]? = some ⟨request, .call op next⟩) :
      Stepped pool (.abort index)
        ⟨pool.shared, pool.threads.set index ⟨request, .fail system.dead⟩⟩
  | lose {index : Nat} {choice : Choice} {request : Request} {op : Op}
      {next : Reply op → Program Op Reply Error Answer}
      {reply : Reply op} {after : Shared}
      (running : pool.threads[index]? = some ⟨request, .call op next⟩)
      (executed : system.exec pool.shared op choice =
        some (reply, after)) :
      Stepped pool (.lose index choice)
        ⟨after, pool.threads.set index ⟨request, .fail system.dead⟩⟩
  | environment {change : Change} {after : Shared}
      (changed : system.change pool.shared change = some after) :
      Stepped pool (.environment change) ⟨after, pool.threads⟩

variable {system}

theorem stepped {pool next : Pool Shared Request Op Reply Error Answer}
    {event : PoolEvent Request Choice Change}
    (taken : step system pool event = some next) :
    Stepped system pool event next := by
  cases event with
  | spawn request =>
      cases taken
      exact .spawn request
  | step index choice =>
      simp only [step] at taken
      split at taken
      · rename_i running
        obtain ⟨⟨reply, after⟩, executed, rfl⟩ :=
          Option.map_eq_some_iff.mp taken
        exact .step running executed
      · cases taken
  | abort index =>
      simp only [step] at taken
      split at taken
      · rename_i running
        cases taken
        exact .abort running
      · cases taken
  | lose index choice =>
      simp only [step] at taken
      split at taken
      · rename_i running
        obtain ⟨⟨reply, after⟩, executed, rfl⟩ :=
          Option.map_eq_some_iff.mp taken
        exact .lose running executed
      · cases taken
  | environment change =>
      obtain ⟨after, changed, rfl⟩ := Option.map_eq_some_iff.mp taken
      exact .environment changed

/-- What every call and every change of the environment keeps, every event
keeps. -/
theorem step_shared {invariant : Shared → Prop}
    (calls : ∀ shared op choice reply after, invariant shared →
      system.exec shared op choice = some (reply, after) →
        invariant after)
    (changes : ∀ shared change after, invariant shared →
      system.change shared change = some after → invariant after)
    {pool next : Pool Shared Request Op Reply Error Answer}
    {event : PoolEvent Request Choice Change}
    (holds : invariant pool.shared)
    (taken : step system pool event = some next) :
    invariant next.shared := by
  cases stepped taken with
  | spawn request => exact holds
  | step running executed => exact calls _ _ _ _ _ holds executed
  | abort running => exact holds
  | lose running executed => exact calls _ _ _ _ _ holds executed
  | environment changed => exact changes _ _ _ holds changed

/-! ## Requests from one point on -/

theorem getElem?_set_cases {Item : Type} {items : List Item}
    {index other : Nat} {item found : Item}
    (looked : (items.set index item)[other]? = some found) :
    (index = other ∧ found = item) ∨
      (index ≠ other ∧ items[other]? = some found) := by
  rw [List.getElem?_set] at looked
  split at looked
  · rename_i same
    split at looked
    · exact .inl ⟨same, (Option.some.inj looked).symm⟩
    · cases looked
  · rename_i different
    exact .inr ⟨different, looked⟩

theorem getElem?_concat_cases {Item : Type} {items : List Item}
    {index : Nat} {item found : Item}
    (looked : (items ++ [item])[index]? = some found) :
    items[index]? = some found ∨
      (index = items.length ∧ found = item) := by
  rw [List.getElem?_append] at looked
  split at looked
  · exact .inl looked
  · rename_i beyond
    rw [List.getElem?_singleton] at looked
    split at looked
    · rename_i last
      exact .inr ⟨by omega, (Option.some.inj looked).symm⟩
    · cases looked

/-- A request stays in its place, and one that has ended stays as it is. -/
theorem step_request {pool next : Pool Shared Request Op Reply Error Answer}
    {event : PoolEvent Request Choice Change} {index : Nat}
    {thread : Thread Request Op Reply Error Answer}
    (found : pool.threads[index]? = some thread)
    (taken : step system pool event = some next) :
    ∃ changed, next.threads[index]? = some changed ∧
      changed.request = thread.request ∧
      (thread.program.Finished → changed = thread) := by
  have replaced {other : Nat} {request : Request} {op : Op}
      {rest : Reply op → Program Op Reply Error Answer}
      (running : pool.threads[other]? = some ⟨request, .call op rest⟩)
      (program : Program Op Reply Error Answer) :
      ∃ changed, (pool.threads.set other ⟨request, program⟩)[index]? =
        some changed ∧ changed.request = thread.request ∧
          (thread.program.Finished → changed = thread) := by
    by_cases same : other = index
    · subst same
      rw [running] at found
      cases found
      refine ⟨⟨request, program⟩, ?_, rfl, fun never => nomatch never⟩
      rw [List.getElem?_set_self (List.getElem?_eq_some_iff.mp running).1]
    · refine ⟨thread, ?_, rfl, fun _ => rfl⟩
      rw [List.getElem?_set_ne same]
      exact found
  cases stepped taken with
  | spawn request =>
      have inside := (List.getElem?_eq_some_iff.mp found).1
      refine ⟨thread, ?_, rfl, fun _ => rfl⟩
      rw [List.getElem?_append_left inside]
      exact found
  | step running executed => exact replaced running _
  | abort running => exact replaced running _
  | lose running executed => exact replaced running _
  | environment changed => exact ⟨thread, found, rfl, fun _ => rfl⟩

/-- `claim` holds of the requests that came from `first` on. -/
def Later (first : Nat)
    (claim : Thread Request Op Reply Error Answer → Prop)
    (pool : Pool Shared Request Op Reply Error Answer) : Prop :=
  ∀ index thread, first ≤ index → pool.threads[index]? = some thread →
    claim thread

theorem later_length
    (claim : Thread Request Op Reply Error Answer → Prop)
    (pool : Pool Shared Request Op Reply Error Answer) :
    Later pool.threads.length claim pool := by
  intro index thread recent found
  have := (List.getElem?_eq_some_iff.mp found).1
  omega

theorem step_later {first : Nat}
    {claim : Thread Request Op Reply Error Answer → Prop}
    {pool next : Pool Shared Request Op Reply Error Answer}
    {event : PoolEvent Request Choice Change}
    (starts : ∀ request, claim ⟨request, system.code request⟩)
    (dies : ∀ request, claim ⟨request, .fail system.dead⟩)
    (steps : ∀ index choice request op rest reply after, first ≤ index →
      event = .step index choice →
      pool.threads[index]? = some ⟨request, .call op rest⟩ →
      system.exec pool.shared op choice = some (reply, after) →
      claim ⟨request, .call op rest⟩ → claim ⟨request, rest reply⟩)
    (later : Later first claim pool)
    (taken : step system pool event = some next) :
    Later first claim next := by
  have replaced {index : Nat}
      {changed : Thread Request Op Reply Error Answer}
      (own : first ≤ index → claim changed) :
      Later first claim ⟨next.shared, pool.threads.set index changed⟩ := by
    intro other thread recent found
    rcases getElem?_set_cases found with ⟨same, rfl⟩ | ⟨-, before⟩
    · exact own (same ▸ recent)
    · exact later other thread recent before
  cases stepped taken with
  | spawn request =>
      intro index thread recent found
      rcases getElem?_concat_cases found with before | ⟨-, rfl⟩
      · exact later index thread recent before
      · exact starts request
  | step running executed =>
      exact replaced fun recent => steps _ _ _ _ _ _ _ recent rfl running
        executed (later _ _ recent running)
  | abort running => exact replaced fun _ => dies _
  | lose running executed => exact replaced fun _ => dies _
  | environment changed => exact later

/-! ## Requests that rely on each other -/

/-- Only `welcome` requests come, and calls are as the contract allows. -/
def Allowed (welcome : Request → Prop)
    (contract : Contract Shared Op Choice)
    (pool : Pool Shared Request Op Reply Error Answer) :
    PoolEvent Request Choice Change → Prop
  | .spawn request => welcome request
  | .step index choice | .lose index choice =>
      ∀ request op next,
        pool.threads[index]? = some ⟨request, .call op next⟩ →
          contract.allowed pool.shared op choice
  | _ => True

/-- The invariant, with every request safe from here on. -/
structure Kept
    (system : System Shared Request Op Reply Error Answer Choice Change)
    (contract : Contract Shared Op Choice)
    (post : Request → Except Error Answer → Shared → Prop)
    (pool : Pool Shared Request Op Reply Error Answer) : Prop where
  holds : contract.invariant pool.shared
  safe : ∀ thread ∈ pool.threads,
    thread.program.Safe system.exec contract (post thread.request)
      pool.shared

variable {contract : Contract Shared Op Choice}
variable {post : Request → Except Error Answer → Shared → Prop}

/-- An answer is as its request promises. -/
theorem Kept.answered {pool : Pool Shared Request Op Reply Error Answer}
    (kept : Kept system contract post pool) {request : Request}
    {answer : Answer} (member : ⟨request, .done answer⟩ ∈ pool.threads) :
    post request (.ok answer) pool.shared :=
  kept.safe _ member pool.shared kept.holds (contract.rely_refl _)

theorem Kept.failed {pool : Pool Shared Request Op Reply Error Answer}
    (kept : Kept system contract post pool) {request : Request}
    {error : Error} (member : ⟨request, .fail error⟩ ∈ pool.threads) :
    post request (.error error) pool.shared :=
  kept.safe _ member pool.shared kept.holds (contract.rely_refl _)

/-- Requests that are safe when they come, and whose guarantee the others can
rely on, stay safe beside each other. -/
theorem step_keeps
    (given : ∀ {before after}, contract.guarantee before after →
      contract.rely before after)
    {welcome : Request → Prop}
    (starts : ∀ request shared, welcome request →
      contract.invariant shared → (system.code request).Safe system.exec
        contract (post request) shared)
    (dies : ∀ request shared, contract.invariant shared →
      post request (.error system.dead) shared)
    (changes : ∀ shared change after, contract.invariant shared →
      system.change shared change = some after →
        contract.invariant after ∧ contract.rely shared after)
    {pool next : Pool Shared Request Op Reply Error Answer}
    {event : PoolEvent Request Choice Change}
    (kept : Kept system contract post pool)
    (permitted : Allowed welcome contract pool event)
    (taken : step system pool event = some next) :
    Kept system contract post next ∧
      contract.rely pool.shared next.shared := by
  have others {after : Shared} (within : contract.rely pool.shared after)
      {index : Nat} {changed : Thread Request Op Reply Error Answer}
      (own : changed.program.Safe system.exec contract
        (post changed.request) after) :
      ∀ thread ∈ pool.threads.set index changed,
        thread.program.Safe system.exec contract (post thread.request)
          after := by
    intro thread member
    rcases List.mem_or_eq_of_mem_set member with before | rfl
    · exact (kept.safe thread before).stable within
    · exact own
  have dead (request : Request) (shared : Shared) :
      (Program.fail system.dead : Program Op Reply Error Answer).Safe
        system.exec contract (post request) shared :=
    fun later holds _ => dies request later holds
  cases stepped taken with
  | spawn request =>
      refine ⟨⟨kept.holds, ?_⟩, contract.rely_refl _⟩
      intro thread member
      rcases List.mem_append.mp member with before | new
      · exact kept.safe thread before
      · cases List.mem_singleton.mp new
        exact starts request pool.shared permitted kept.holds
  | step running executed =>
      obtain ⟨holds, guaranteed, rest⟩ :=
        kept.safe _ (List.mem_of_getElem? running) pool.shared kept.holds
          (contract.rely_refl _) _ _ _ (permitted _ _ _ running) executed
      exact ⟨⟨holds, others (given guaranteed) rest⟩, given guaranteed⟩
  | abort running =>
      exact ⟨⟨kept.holds, others (contract.rely_refl _) (dead _ _)⟩,
        contract.rely_refl _⟩
  | lose running executed =>
      obtain ⟨holds, guaranteed, -⟩ :=
        kept.safe _ (List.mem_of_getElem? running) pool.shared kept.holds
          (contract.rely_refl _) _ _ _ (permitted _ _ _ running) executed
      exact ⟨⟨holds, others (given guaranteed) (dead _ _)⟩,
        given guaranteed⟩
  | environment changed =>
      obtain ⟨holds, within⟩ := changes _ _ _ kept.holds changed
      exact ⟨⟨holds, fun thread member =>
        (kept.safe thread member).stable within⟩, within⟩

end Pool

end Concurrent
