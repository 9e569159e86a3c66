import IndustryFlow.Concurrent.Pool
import IndustryFlow.Tenancy.Names

/-!
# The company status cache

One process of the gateway checks whether a company is active: first the
suspension marker in the shared store, then its cache of the registry's flag,
then the registry.  Nothing is atomic but the code between two awaits.  Times
are readings of the monotonic clock.  `past` records every moment there was and
is not read by the code.
-/

namespace IndustryFlow.CompanyStatus

open Concurrent

/-- The registry and the markers at a time. -/
structure Moment where
  now : Nat
  active : String → Bool
  marked : String → Bool

/-- What the cache holds of a company. -/
structure Cached where
  key : String
  active : Bool
  expires : Nat
deriving DecidableEq

structure Settings where
  /-- `COMPANY_STATUS_CACHE_SECONDS`. -/
  cacheSeconds : Nat
  /-- `_CACHE_MAX_COMPANIES`, which is 4096. -/
  cacheMaxCompanies : Nat

structure Process where
  moment : Moment
  /-- The least recently checked company first. -/
  cache : List Cached
  past : List Moment

def start (moment : Moment) : Process :=
  ⟨moment, [], [moment]⟩

namespace Process

def became (process : Process) (moment : Moment) : Process :=
  { process with moment, past := process.past ++ [moment] }

/-- `_cache.get`, of an entry that has not expired. -/
def lookup (process : Process) (key : String) : Option Bool :=
  ((process.cache.find? (·.key = key)).filter
    (process.moment.now < ·.expires)).map Cached.active

/-- `_cache.move_to_end`. -/
def moveToEnd (process : Process) (key : String) : Process :=
  { process with
    cache := process.cache.filter (·.key ≠ key) ++
      process.cache.filter (·.key = key) }

/-- `_cache.pop`. -/
def drop (process : Process) (key : String) : Process :=
  { process with cache := process.cache.filter (·.key ≠ key) }

/-- The entry goes to the end, and the first ones go while there are too
many. -/
def remember (settings : Settings) (process : Process) (entry : Cached) :
    Process :=
  let cache := process.cache.filter (·.key ≠ entry.key) ++ [entry]
  { process with
    cache := cache.drop (cache.length - settings.cacheMaxCompanies) }

end Process

/-! ## The operations -/

/-- When a call starts; `position` is that of its moment. -/
structure Started where
  position : Nat
  now : Nat
deriving DecidableEq

inductive Op where
  | begins
  | markerExists (key : String)
  | lookup (key : String)
  | readIsActive (key : String)
  | remember (entry : Cached)
  | drop (key : String)
  | clear
  | setMarker (key : String) (suspended : Bool)
deriving DecidableEq

/-- A store that cannot be read replies `none`. -/
def Reply : Op → Type
  | .begins => Started
  | .markerExists _ | .readIsActive _ => Option Bool
  | .lookup _ => Nat × Option Bool
  | _ => Unit

inductive Error where
  | database
  | dead
deriving DecidableEq

inductive Choice where
  | answers
  | fails
deriving DecidableEq

variable (settings : Settings)

def exec (process : Process) :
    (op : Op) → Choice → Option (Reply op × Process)
  | .begins, _ =>
      some (⟨process.past.length - 1, process.moment.now⟩, process)
  | .markerExists key, .answers =>
      some (some (process.moment.marked key), process)
  | .markerExists _, .fails => some (none, process)
  | .lookup key, _ =>
      some ((process.moment.now, process.lookup key),
        if (process.lookup key).isSome then process.moveToEnd key
        else process)
  | .readIsActive key, .answers =>
      some (some (process.moment.active key), process)
  | .readIsActive _, .fails => some (none, process)
  | .remember entry, _ => some ((), process.remember settings entry)
  | .drop key, _ => some ((), process.drop key)
  | .clear, _ => some ((), { process with cache := [] })
  | .setMarker key suspended, _ =>
      some ((), process.became { process.moment with
        marked := Function.update process.moment.marked key suspended })

/-! ## The code -/

abbrev Handler := Program Op Reply Error

variable (other : List Char → Option Int)

/-- `_canonical`. -/
def canonical (companyId : String) : Option String :=
  (Tenancy.Names.canonicalCompanyId other companyId).toOption

/-- `_marked_suspended`. -/
def markedSuspended (key : String) : Handler Bool := do
  let found ← Program.perform (Op.markerExists key)
  pure (found.getD false)

/-- `_read_is_active`. -/
def readIsActive (key : String) : Handler Bool := do
  let row ← Program.perform (Op.readIsActive key)
  match row with
  | none => .fail .database
  | some active => pure active

/-- What follows a cache without the company: the expiry is that of the time
before the registry is read. -/
def refresh (key : String) (now : Nat) : Handler Bool := do
  let active ← readIsActive key
  Program.perform (Op.remember ⟨key, active, now + settings.cacheSeconds⟩)
  pure active

/-- What follows the marker's absence. -/
def cachedActive (key : String) : Handler Bool := do
  let (now, cached) ← Program.perform (Op.lookup key)
  match cached with
  | some active => pure active
  | none => refresh settings key now

/-- `is_company_active`. -/
def isCompanyActive (companyId : String) : Handler Bool :=
  match canonical other companyId with
  | none => pure false
  | some key => do
      let marked ← markedSuspended key
      if marked then pure false else cachedActive settings key

/-- `forget`. -/
def forget (companyId : String) : Handler Unit :=
  match canonical other companyId with
  | none => pure ()
  | some key => Program.perform (Op.drop key)

inductive Request where
  | isActive (companyId : String)
  | forget (companyId : String)
  | clear
  /-- `mark_suspended` and `clear_suspended`. -/
  | mark (companyId : String) (suspended : Bool)
deriving DecidableEq

inductive Answer where
  | active (started : Started) (active : Bool)
  | done
deriving DecidableEq

/-- The call, with when it started. -/
def code : Request → Handler Answer
  | .isActive companyId => do
      let started ← Program.perform Op.begins
      let active ← isCompanyActive settings other companyId
      pure (.active started active)
  | .forget companyId => do
      forget other companyId
      pure .done
  | .clear => do
      Program.perform Op.clear
      pure .done
  | .mark companyId suspended => do
      Program.perform (Op.setMarker companyId suspended)
      pure .done

/-! ## The process and what is around it -/

inductive Change where
  | passes (now : Nat)
  | registry (key : String) (active : Bool)
  | marker (key : String) (suspended : Bool)
  | evict (key : String)
deriving DecidableEq

def change (process : Process) : Change → Option Process
  | .passes now =>
      if process.moment.now ≤ now then
        some (process.became { process.moment with now })
      else none
  | .registry key active => some (process.became { process.moment with
      active := Function.update process.moment.active key active })
  | .marker key suspended => some (process.became { process.moment with
      marked := Function.update process.moment.marked key suspended })
  | .evict key => some (process.drop key)

abbrev Gateway := Pool Process Request Op Reply Error Answer

abbrev Event := PoolEvent Request Choice Change

def gateway : Pool.System Process Request Op Reply Error Answer Choice
    Change where
  code := code settings other
  dead := .dead
  exec := exec settings
  change := change

/-- The marker store can be read. -/
def MarkerReadable (pool : Gateway) (event : Event) : Prop :=
  ∀ index, event = .step index .fails ∨ event = .lose index .fails →
    ∀ request key next, pool.threads[index]? ≠
      some ⟨request, .call (.markerExists key) next⟩

end IndustryFlow.CompanyStatus
