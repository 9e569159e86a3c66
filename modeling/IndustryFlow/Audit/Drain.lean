import IndustryFlow.Concurrent.Pool

/-!
# The writer of the capability-use record

The planes append events to a stream; any number of drain consumers take them
from it, write them to a table that is keyed by the stream's own ids, and
acknowledge and delete what they have written.  One pass is `drainOnce`.  A
pass whose Redis call fails, and a consumer that crashes, dies before or after
the call; a database call answers, refuses its rows, or fails with or without
having committed.  Nothing is trimmed.
-/

namespace IndustryFlow.Audit

open Concurrent

/-! ## Exceptions -/

/-- An exception: whether it is a `DBAPIError`, and its `sqlstate` followed by
those of the exceptions that it wraps. -/
structure Exc where
  dbapi : Bool
  states : List (Option String)
deriving DecidableEq

/-- `_sqlstate`. -/
def sqlstate (exc : Exc) : Option String :=
  exc.states.findSome? fun code => code.filter (· ≠ "")

/-- `_row_fault`. -/
def rowFault (exc : Exc) : Bool :=
  match sqlstate exc with
  | some code => (code.toList.take 2 = ['2', '2']) ||
      (code.toList.take 2 = ['2', '3'])
  | none => false

/-- A row fault that the writer catches. -/
def Exc.caught (exc : Exc) : Bool :=
  exc.dbapi && rowFault exc

/-! ## Stores -/

section

variable (Fields Event : Type)

/-- `read` is what an entry says, if the contract reads it; `refuses` is what
the table refuses as data or against a constraint. -/
structure Config where
  read : Fields → Option Event
  refuses : Event → Bool

/-- The stream with its consumer group, the table, and the entries that were
counted.  An entry's id is its place among all that were ever appended. -/
structure Store where
  appended : List Fields
  stream : List (Nat × Fields)
  /-- Entries from here on were not yet read by the group. -/
  unread : Nat
  pending : List Nat
  table : List (Nat × Event)
  unreadable : List Nat
  refused : List Nat

def Store.empty : Store Fields Event :=
  ⟨[], [], 0, [], [], [], []⟩

end

variable {Fields Event : Type}

/-- `BATCH`. -/
def batch : Nat := 500

/-- `INSERT … ON CONFLICT (stream_id) DO NOTHING`. -/
def insertRow (table : List (Nat × Event)) (row : Nat × Event) :
    List (Nat × Event) :=
  if row.1 ∈ table.map Prod.fst then table else table ++ [row]

namespace Store

/-- `XADD` without a bound. -/
def append (store : Store Fields Event) (fields : Fields) :
    Store Fields Event :=
  { store with
    appended := store.appended ++ [fields]
    stream := store.stream ++ [(store.appended.length, fields)] }

/-- What `XREADGROUP … >` delivers. -/
def fresh (store : Store Fields Event) : List (Nat × Fields) :=
  (store.stream.filter (store.unread ≤ ·.1)).take batch

def deliver (store : Store Fields Event) : Store Fields Event :=
  { store with
    unread := match store.fresh.getLast? with
      | some entry => entry.1 + 1
      | none => store.unread
    pending := store.pending ++ store.fresh.map Prod.fst }

/-- `record_capability_use` for each row, in one transaction. -/
def record (store : Store Fields Event) (rows : List (Nat × Event)) :
    Store Fields Event :=
  { store with table := rows.foldl insertRow store.table }

/-- `XACK` and `XDEL` in one `MULTI`. -/
def discard (store : Store Fields Event) (ids : List Nat) :
    Store Fields Event :=
  { store with
    pending := store.pending.filter (· ∉ ids)
    stream := store.stream.filter (·.1 ∉ ids) }

end Store

/-! ## Calls -/

inductive Op (Event : Type) where
  | autoclaim
  | readGroup
  /-- `EVENTS.labels("unreadable").inc()`. -/
  | countUnreadable (id : Nat)
  | record (rows : List (Nat × Event))
  /-- `EVENTS.labels("refused").inc()`. -/
  | countRefused (id : Nat)
  | discard (ids : List Nat)

/-- How a transaction ended for the writer. -/
inductive Written where
  | committed
  | raised (exc : Exc)

abbrev Reply (Fields : Type) : Op Event → Type
  | .autoclaim => List (Nat × Fields)
  | .readGroup => List (Nat × Fields)
  | .countUnreadable _ => Unit
  | .record _ => Written
  | .countRefused _ => Unit
  | .discard _ => Unit

inductive Choice where
  | plain
  /-- The pending entries that are claimed. -/
  | claim (ids : List Nat)
  | commit
  /-- The transaction commits and its answer is lost. -/
  | lost (exc : Exc)
  | refuse (exc : Exc)
  | fail (exc : Exc)
deriving DecidableEq

def exec (config : Config Fields Event) (store : Store Fields Event) :
    (op : Op Event) → Choice →
      Option (Reply Fields op × Store Fields Event)
  | .autoclaim, .claim ids =>
      if ids.length ≤ batch ∧ ∀ id ∈ ids, id ∈ store.pending then
        some (store.stream.filter (·.1 ∈ ids), store)
      else none
  | .readGroup, .plain => some (store.fresh, store.deliver)
  | .countUnreadable id, .plain => some ((), { store with
      unreadable := id :: store.unreadable })
  | .record rows, .commit =>
      if rows.any (config.refuses ·.2) then none
      else some (.committed, store.record rows)
  | .record rows, .lost exc =>
      if rows.any (config.refuses ·.2) ∨ exc.caught then none
      else some (.raised exc, store.record rows)
  | .record rows, .refuse exc =>
      if rows.any (config.refuses ·.2) ∧ exc.caught then
        some (.raised exc, store)
      else none
  | .record _, .fail exc =>
      if exc.caught then none else some (.raised exc, store)
  | .countRefused id, .plain => some ((), { store with
      refused := id :: store.refused })
  | .discard ids, .plain => some ((), store.discard ids)
  | _, _ => none

/-! ## The writer -/

inductive Failed where
  | raised (exc : Exc)
  | dead
deriving DecidableEq

abbrev Drain (Fields Event Answer : Type) :=
  Program (Op Event) (Reply Fields) Failed Answer

def xautoclaim : Drain Fields Event (List (Nat × Fields)) :=
  Program.perform Op.autoclaim

def xreadgroup : Drain Fields Event (List (Nat × Fields)) :=
  Program.perform Op.readGroup

def countUnreadable (id : Nat) : Drain Fields Event Unit :=
  Program.perform (Op.countUnreadable id)

/-- One transaction that executes `RECORD` for each row. -/
def recordRows (rows : List (Nat × Event)) : Drain Fields Event Written :=
  Program.perform (Op.record rows)

def countRefused (id : Nat) : Drain Fields Event Unit :=
  Program.perform (Op.countRefused id)

def xackXdel (ids : List Nat) : Drain Fields Event Unit :=
  Program.perform (Op.discard ids)

/-- The first loop of `write_batch`: the rows, and the unreadable entries
counted. -/
def readEntries (config : Config Fields Event) :
    List (Nat × Fields) → Drain Fields Event (List (Nat × Event))
  | [] => pure []
  | (id, fields) :: entries =>
      match config.read fields with
      | some event => do
          let rows ← readEntries config entries
          pure ((id, event) :: rows)
      | none => do
          countUnreadable id
          readEntries config entries

/-- The loop over the rows of a batch that was refused. -/
def writeAlone : List (Nat × Event) → Drain Fields Event Unit
  | [] => pure ()
  | row :: rows => do
      match ← recordRows [row] with
      | .committed => writeAlone rows
      | .raised exc =>
          if exc.caught then do
            countRefused row.1
            writeAlone rows
          else .fail (.raised exc)

/-- `write_batch`. -/
def writeBatch (config : Config Fields Event)
    (entries : List (Nat × Fields)) : Drain Fields Event (List Nat) := do
  let rows ← readEntries config entries
  let ack := entries.map Prod.fst
  if rows.isEmpty then pure ack
  else do
    match ← recordRows rows with
    | .committed => pure ack
    | .raised exc =>
        if exc.caught then do
          writeAlone rows
          pure ack
        else .fail (.raised exc)

/-- `drain_once`. -/
def drainOnce (config : Config Fields Event) : Drain Fields Event Nat := do
  let claimed ← xautoclaim
  let fresh ← xreadgroup
  let entries := claimed ++ fresh
  if entries.isEmpty then pure 0
  else do
    let ack ← writeBatch config entries
    if ack.isEmpty then pure ack.length
    else do
      xackXdel ack
      pure ack.length

/-! ## Consumers -/

/-- A pass of one consumer. -/
abbrev Pass := String

/-- Another event is appended. -/
abbrev Append (Fields : Type) := Fields

def drains (config : Config Fields Event) :
    Pool.System (Store Fields Event) Pass (Op Event) (Reply Fields) Failed
      Nat Choice (Append Fields) where
  code _ := drainOnce config
  dead := .dead
  exec := exec config
  change store fields := some (store.append fields)

end IndustryFlow.Audit
