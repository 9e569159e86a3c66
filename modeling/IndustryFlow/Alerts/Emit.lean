import IndustryFlow.Concurrent.Pool
import Mathlib.Algebra.Order.Ring.Int

/-!
# Emitting an alert

`emit` is the rules engine's `_emit`: the replica's cache is asked first, then
the database decides in one transaction, under an advisory lock on the alert's
scope, whether an alert of that scope already lies within the window.  Times
are in microseconds.  SHA-1 UUIDs, the lock digest and the rendering of times
are parameters.
-/

namespace IndustryFlow.Alerts

open Concurrent

/-- A canonical identifier.  The text of a UUID is not empty and has no bar,
which is all the names built from it rely on. -/
structure Identifier where
  text : String
  nonempty : text ≠ ""
  barless : '|' ∉ text.toList
deriving DecidableEq

def optionalText : Option Identifier → String
  | none => ""
  | some identifier => identifier.text

/-- Deduplication scopes: one per rule, sensor and equipment, and one per
model for retrain recommendations. -/
inductive Scope where
  | alert (company rule : Identifier) (sensor equipment : Option Identifier)
  | retrain (company model : Identifier)
deriving DecidableEq

namespace Scope

def company : Scope → Identifier
  | .alert company _ _ _ => company
  | .retrain company _ => company

/-- The scope's parts as `_emit` joins them. -/
def parts : Scope → List String
  | .alert company rule sensor equipment =>
      [company.text, rule.text, optionalText sensor, optionalText equipment]
  | .retrain company model => [company.text, "retrain", model.text]

/-- The scope's parts as `save_alert_once` joins them for the lock. -/
def lockParts : Scope → List String
  | .alert _ rule sensor equipment =>
      ["alert", rule.text, optionalText sensor, optionalText equipment]
  | .retrain _ model => ["retrain", model.text]

end Scope

def retrainRecommended : String := "retrain_recommended"

/-- An alert as the evaluators build it.  Doubles are bit patterns. -/
structure Alert where
  company : Identifier
  rule : Identifier
  sensor : Option Identifier
  equipment : Option Identifier
  site : Option String
  triggeredAt : Int
  detectionType : String
  thresholdValue : Option UInt64
  actualValue : Option UInt64
  condition : Option String
  model : Option Identifier
  anomalyScore : Option UInt64
  severity : String
  message : String
deriving DecidableEq

/-- What `_emit` is called with: a recommendation names its model and carries
the recommendation's condition, and no other alert carries it. -/
inductive Emission where
  | alert (alert : Alert) (other : alert.condition ≠ some retrainRecommended)
  | retrain (alert : Alert) (model : Identifier)
      (named : alert.model = some model)
      (condition : alert.condition = some retrainRecommended)
deriving DecidableEq

namespace Emission

def content : Emission → Alert
  | .alert written _ => written
  | .retrain written _ _ _ => written

def scope : Emission → Scope
  | .alert written _ => .alert written.company written.rule
      written.sensor written.equipment
  | .retrain written model _ _ => .retrain written.company model

def triggeredAt (emission : Emission) : Int :=
  emission.content.triggeredAt

end Emission

structure Config where
  cooldown : Nat
  retrainCooldown : Nat
  dedupCacheMax : Nat
  digest : String → Int
  uuid5 : String → String
  isoformat : Int → String

namespace Config

def window (config : Config) : Scope → Int
  | .alert _ _ _ _ => config.cooldown
  | .retrain _ _ => config.retrainCooldown

/-- The name under `deterministic_alert_id`. -/
def alertName (config : Config) (scope : Scope) (triggeredAt : Int) :
    String :=
  "|".intercalate scope.parts ++ "|" ++ config.isoformat triggeredAt

def deterministicAlertId (config : Config) (scope : Scope)
    (triggeredAt : Int) : String :=
  config.uuid5 (config.alertName scope triggeredAt)

end Config

/-- `tenancy.schema_name`. -/
def schemaName (company : Identifier) : String :=
  "tenant_" ++ String.ofList (company.text.toList.map fun char =>
    if char = '-' then '_' else char)

def Config.dedupLockKey (config : Config) (scope : Scope) : Int :=
  config.digest (schemaName scope.company ++ "|" ++
    "|".intercalate scope.lockParts)

/-- A row of a tenant's `alerts` table. -/
structure Row where
  alertId : String
  alert : Alert
deriving DecidableEq

namespace Row

def triggeredAt (row : Row) : Int :=
  row.alert.triggeredAt

/-- The scope condition of the window query. -/
def InScope (row : Row) : Scope → Prop
  | .alert company rule sensor equipment =>
      row.alert.company = company ∧ row.alert.rule = rule ∧
        row.alert.sensor = sensor ∧ row.alert.equipment = equipment ∧
        row.alert.condition ≠ some retrainRecommended
  | .retrain company model =>
      row.alert.company = company ∧ row.alert.model = some model ∧
        row.alert.condition = some retrainRecommended

instance (row : Row) : (scope : Scope) → Decidable (row.InScope scope)
  | .alert _ _ _ _ => inferInstanceAs (Decidable (_ ∧ _))
  | .retrain _ _ => inferInstanceAs (Decidable (_ ∧ _))

end Row

/-- The deduplication cache of one replica, least recently used first. -/
abbrev Cache := List (Scope × Int)

namespace Cache

def find (cache : Cache) (scope : Scope) : Option Int :=
  (List.find? (fun entry => entry.1 = scope) cache).map Prod.snd

/-- `_remember`. -/
def remember (cache : Cache) (capacity : Nat) (scope : Scope) (time : Int) :
    Cache :=
  let moved := cache.filter (fun entry => entry.1 ≠ scope) ++ [(scope, time)]
  moved.drop (moved.length - capacity)

end Cache

structure Stores where
  /-- The committed rows of all tenants. -/
  rows : List Row
  /-- The next transaction. -/
  next : Nat
  /-- The open transactions. -/
  opened : List Nat
  /-- Advisory locks with the transactions that hold them. -/
  locks : List (Int × Nat)
  /-- Rows inserted by open transactions. -/
  pending : List (Nat × Row)
  caches : Nat → Cache

namespace Stores

def empty : Stores :=
  ⟨[], 0, [], [], [], fun _ => []⟩

/-- The rows the transaction has inserted. -/
def waiting (stores : Stores) (transaction : Nat) : List Row :=
  (stores.pending.filter fun entry => entry.1 = transaction).map Prod.snd

/-- The rows a statement of the transaction sees. -/
def visible (stores : Stores) (transaction : Nat) : List Row :=
  stores.rows ++ stores.waiting transaction

/-- The event times of the scope's rows strictly within the window. -/
def priors (rows : List Row) (scope : Scope) (time window : Int) :
    List Int :=
  (rows.filter fun row => row.InScope scope ∧
    time - window < row.triggeredAt ∧
      row.triggeredAt < time + window).map Row.triggeredAt

/-- The primary key `(alert_id, triggered_at)` of the tenant's table. -/
def samePrimaryKey (left right : Row) : Prop :=
  left.alert.company = right.alert.company ∧
    left.alertId = right.alertId ∧ left.triggeredAt = right.triggeredAt

instance (left right : Row) : Decidable (samePrimaryKey left right) :=
  inferInstanceAs (Decidable (_ ∧ _))

/-- The transaction ends, and its locks with it. -/
def close (stores : Stores) (transaction : Nat) : Stores :=
  { stores with
    opened := stores.opened.filter (· ≠ transaction)
    locks := stores.locks.filter fun lock => lock.2 ≠ transaction
    pending := stores.pending.filter fun entry => entry.1 ≠ transaction }

def commit (stores : Stores) (transaction : Nat) : Stores :=
  { stores.close transaction with rows := stores.visible transaction }

def insert (stores : Stores) (transaction : Nat) (row : Row) : Stores :=
  { stores with pending := stores.pending ++ [(transaction, row)] }

end Stores

inductive Op where
  | cachedWithin (replica : Nat) (scope : Scope) (time window : Int)
  | begin
  | advisoryLock (transaction : Nat) (key : Int)
  | saveOnce (transaction : Nat) (row : Row) (scope : Scope) (window : Int)
  | commit (transaction : Nat)
  | remember (replica : Nat) (scope : Scope) (time : Int)
deriving DecidableEq

/-- A database call replies `none` when its transaction has been ended. -/
abbrev Reply : Op → Type
  | .cachedWithin _ _ _ _ => Bool
  | .begin => Nat
  | .advisoryLock _ _ => Option Unit
  | .saveOnce _ _ _ _ => Option (Bool × Option Int)
  | .commit _ => Option Unit
  | .remember _ _ _ => Unit

/-- `_cached_within`. -/
def cachedWithin (cache : Cache) (scope : Scope) (time window : Int) : Bool :=
  match cache.find scope with
  | none => false
  | some last => |time - last| < window

/-- The window query and the insert, one statement.  It waits for another
transaction that has inserted the same primary key. -/
def saveOnce (stores : Stores) (transaction : Nat) (row : Row)
    (scope : Scope) (window : Int) :
    Option ((Bool × Option Int) × Stores) :=
  let visible := stores.visible transaction
  match (Stores.priors visible scope row.triggeredAt window).max? with
  | some prior => some ((false, some prior), stores)
  | none =>
      if ∃ other ∈ stores.pending, other.1 ≠ transaction ∧
          Stores.samePrimaryKey other.2 row then none
      else if ∃ other ∈ visible, Stores.samePrimaryKey other row then
        some ((false, none), stores)
      else some ((true, none), stores.insert transaction row)

def exec (config : Config) (stores : Stores) :
    (op : Op) → Unit → Option (Reply op × Stores)
  | .cachedWithin replica scope time window, _ =>
      some (cachedWithin (stores.caches replica) scope time window, stores)
  | .begin, _ => some (stores.next, { stores with
      next := stores.next + 1
      opened := stores.next :: stores.opened })
  | .advisoryLock transaction key, _ =>
      if transaction ∉ stores.opened then some (none, stores)
      else if ∃ lock ∈ stores.locks, lock.1 = key ∧ lock.2 ≠ transaction then
        none
      else some (some (), { stores with
        locks := (key, transaction) :: stores.locks })
  | .saveOnce transaction row scope window, _ =>
      if transaction ∉ stores.opened then some (none, stores)
      else (saveOnce stores transaction row scope window).map
        fun saved => (some saved.1, saved.2)
  | .commit transaction, _ =>
      if transaction ∉ stores.opened then some (none, stores)
      else some (some (), stores.commit transaction)
  | .remember replica scope time, _ =>
      some ((), { stores with
        caches := Function.update stores.caches replica
          ((stores.caches replica).remember config.dedupCacheMax scope
            time) })

/-- What happens beside the emits: the database ends a transaction whose
worker is gone, and a restarted replica starts with an empty cache. -/
inductive Change where
  | rollback (transaction : Nat)
  | restart (replica : Nat)
deriving DecidableEq

def change (stores : Stores) : Change → Option Stores
  | .rollback transaction => some (stores.close transaction)
  | .restart replica => some { stores with
      caches := Function.update stores.caches replica [] }

inductive EmitError where
  /-- The database or its connection failed. -/
  | database
  | died
deriving DecidableEq

abbrev Emit := Program Op Reply EmitError

def orRaise {Answer : Type} : Option Answer → Emit Answer
  | some answer => .done answer
  | none => .fail .database

abbrev askCache (replica : Nat) (scope : Scope) (time window : Int) :
    Emit Bool :=
  Program.perform (Op.cachedWithin replica scope time window)

abbrev beginTransaction : Emit Nat :=
  Program.perform Op.begin

abbrev advisoryLock (transaction : Nat) (key : Int) : Emit (Option Unit) :=
  Program.perform (Op.advisoryLock transaction key)

abbrev saveStatement (transaction : Nat) (row : Row) (scope : Scope)
    (window : Int) : Emit (Option (Bool × Option Int)) :=
  Program.perform (Op.saveOnce transaction row scope window)

abbrev commit (transaction : Nat) : Emit (Option Unit) :=
  Program.perform (Op.commit transaction)

abbrev remember (replica : Nat) (scope : Scope) (time : Int) : Emit Unit :=
  Program.perform (Op.remember replica scope time)

/-- The row an emission is written as. -/
def Config.row (config : Config) (emission : Emission) : Row where
  alertId := config.deterministicAlertId emission.scope emission.triggeredAt
  alert := emission.content

/-- `save_alert_once`. -/
def saveAlertOnce (config : Config) (emission : Emission) :
    Emit (Bool × Option Int) := do
  let transaction ← beginTransaction
  let locked ← advisoryLock transaction (config.dedupLockKey emission.scope)
  orRaise locked
  let saved ← saveStatement transaction (config.row emission) emission.scope
    (config.window emission.scope)
  let answer ← orRaise saved
  let committed ← commit transaction
  orRaise committed
  pure answer

/-- `_emit` on one replica: whether a row was written. -/
def emit (config : Config) (replica : Nat) (emission : Emission) :
    Emit Bool := do
  let cached ← askCache replica emission.scope emission.triggeredAt
    (config.window emission.scope)
  if cached then pure false
  else do
    let (inserted, prior) ← saveAlertOnce config emission
    if inserted then do
      remember replica emission.scope emission.triggeredAt
      pure true
    else
      match prior with
      | some time => do
          remember replica emission.scope time
          pure false
      | none => pure false

structure Request where
  replica : Nat
  emission : Emission
deriving DecidableEq

/-- The emits of any number of replicas. -/
def engine (config : Config) :
    Pool.System Stores Request Op Reply EmitError Bool Unit Change where
  code request := emit config request.replica request.emission
  dead := .died
  exec := exec config
  change := change

end IndustryFlow.Alerts
