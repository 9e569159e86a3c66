import IndustryFlow.Concurrent.Solo
import Mathlib.Algebra.GroupWithZero.Nat

/-!
# The alert worker's Kafka consumer

`worker` is one process of the worker: it joins the group, takes batches from
its partitions, handles every record and commits, or rewinds to the committed
offsets.  The broker keeps a log and a committed offset per partition, the
process a position per assigned partition.  Rebalances come at any time, also
while a batch is being handled, and the positions they leave behind are only
looked up later.
-/

namespace IndustryFlow.Consumption

open Concurrent

abbrev Partition := Nat

abbrev Bytes := List UInt8

structure Message where
  partition : Partition
  offset : Nat
  value : Option Bytes
deriving DecidableEq

/-- What `json.loads` makes of a record's bytes. -/
inductive Loaded (Value : Type) where
  | value (value : Value)
  /-- Not UTF-8, or not JSON. -/
  | malformed (text : String)
  /-- Any other exception. -/
  | raised

/-- The worker's settings, with the decoding of records. -/
structure Config (Value : Type) where
  maxRetries : Nat
  loads : Bytes → Loaded Value
  isObject : Value → Bool
  typeName : Value → String
  /-- The object has a `company_id` that Python takes for true. -/
  hasCompany : Value → Bool

structure DeadLetter where
  original : Option Bytes
  reason : String
  partition : Partition
  offset : Nat
deriving DecidableEq

/-- A record that could not be handled, and its partition's committed offset
at that time. -/
structure Failure where
  partition : Partition
  offset : Nat
  committed : Nat
deriving DecidableEq

structure Stores where
  log : Partition → List (Option Bytes)
  committed : Partition → Option Nat
  /-- The partitions of the process. -/
  assigned : List Partition
  /-- Where it reads on, once that has been looked up. -/
  position : Partition → Option Nat
  /-- Records whose evaluation has completed. -/
  processed : List (Partition × Nat)
  deadLetters : List DeadLetter
  /-- The failures whose records have not been presented again. -/
  unpresented : List Failure

namespace Stores

/-- An empty topic that nobody has read. -/
def empty : Stores :=
  ⟨fun _ => [], fun _ => none, [], fun _ => none, [], [], []⟩

/-- Where a partition is read from by a process that has no position. -/
def restart (stores : Stores) (partition : Partition) : Nat :=
  (stores.committed partition).getD 0

def messages (stores : Stores) (partition : Partition) (first count : Nat) :
    List Message :=
  (List.range count).map fun index =>
    ⟨partition, first + index,
      ((stores.log partition)[first + index]?).getD none⟩

/-- The record is handed to the handler. -/
def present (stores : Stores) (message : Message) : Stores :=
  { stores with unpresented := stores.unpresented.filter fun failure =>
      ¬(failure.partition = message.partition ∧
        failure.offset = message.offset) }

def fail (stores : Stores) (message : Message) : Stores :=
  { stores with unpresented :=
      ⟨message.partition, message.offset,
        stores.restart message.partition⟩ :: stores.unpresented }

def process (stores : Stores) (message : Message) : Stores :=
  { stores with processed :=
      (message.partition, message.offset) :: stores.processed }

def deadLetter (stores : Stores) (message : Message) (reason : String) :
    Stores :=
  { stores with deadLetters :=
      ⟨message.value, reason, message.partition, message.offset⟩ ::
        stores.deadLetters }

def commit (stores : Stores) (offsets : List (Partition × Nat)) : Stores :=
  { stores with committed := fun partition =>
      match offsets.find? (·.1 = partition) with
      | some entry => some entry.2
      | none => stores.committed partition }

def seek (stores : Stores) (partition : Partition) (offset : Nat) : Stores :=
  { stores with
    position := Function.update stores.position partition (some offset) }

end Stores

/-- How the evaluation of one reading ends. -/
inductive Evaluated where
  | completed
  /-- `MessageValidationError`. -/
  | invalid (reason : String)
  /-- `is_infrastructure_error`. -/
  | infrastructure
  | failed (error : String)
deriving DecidableEq

inductive Committed where
  | done
  /-- `_is_recoverable_commit_error`. -/
  | recoverable
  | raised
deriving DecidableEq

inductive Op (Value : Type) where
  | start
  /-- How many batches the process lives to take. -/
  | lifetime
  | getmany
  | evaluate (message : Message) (value : Value)
  | send (message : Message) (reason : String)
  | commit (offsets : List (Partition × Nat))
  | assignment
  | committed (partition : Partition)
  | seek (partition : Partition) (offset : Nat)

/-- A lookup or a seek replies `none` when it raises. -/
abbrev Reply {Value : Type} : Op Value → Type
  | .start => Unit
  | .lifetime => Nat
  | .getmany => List (Partition × List Message)
  | .evaluate _ _ => Evaluated
  | .send _ _ => Bool
  | .commit _ => Committed
  | .assignment => List Partition
  | .committed _ => Option (Option Nat)
  | .seek _ _ => Option Unit

/-- How a call goes that can go in several ways. -/
inductive Choice where
  | plain
  | batches (count : Nat)
  /-- The number of records from each partition, in this order. -/
  | records (counts : List (Partition × Nat))
  | evaluated (outcome : Evaluated)
  /-- Whether the dead letter was written, and whether that was reported. -/
  | sent (written acknowledged : Bool)
  /-- The partitions whose offsets a failing commit stored all the same. -/
  | commit (reply : Committed) (stored : List Partition)
  | raises
deriving DecidableEq

/-- `max_records`. -/
def maxRecords : Nat := 10

/-- Records a batch can hold: consecutive ones, from the positions on. -/
def Stores.Fetchable (stores : Stores) (counts : List (Partition × Nat)) :
    Prop :=
  (counts.map Prod.fst).Nodup ∧ (counts.map Prod.snd).sum ≤ maxRecords ∧
    ∀ entry ∈ counts, 0 < entry.2 ∧ entry.1 ∈ stores.assigned ∧
      ∃ first ∈ stores.position entry.1,
        first + entry.2 ≤ (stores.log entry.1).length

instance (stores : Stores) (counts : List (Partition × Nat)) :
    Decidable (stores.Fetchable counts) :=
  inferInstanceAs (Decidable (_ ∧ _ ∧ _))

def Stores.fetch (stores : Stores) (counts : List (Partition × Nat)) :
    List (Partition × List Message) :=
  counts.map fun entry => (entry.1, stores.messages entry.1
    ((stores.position entry.1).getD 0) entry.2)

def Stores.advance (stores : Stores) (counts : List (Partition × Nat)) :
    Stores :=
  { stores with position := fun partition =>
      match counts.find? (·.1 = partition) with
      | some entry => (stores.position partition).map (· + entry.2)
      | none => stores.position partition }

def exec {Value : Type} (stores : Stores) :
    (op : Op Value) → Choice → Option (Reply op × Stores)
  | .start, .plain => some ((), { stores with
      assigned := [], position := fun _ => none })
  | .lifetime, .batches count => some (count, stores)
  | .getmany, .records counts =>
      if stores.Fetchable counts then
        some (stores.fetch counts, stores.advance counts)
      else none
  | .evaluate message _, .evaluated outcome =>
      some (outcome, match outcome with
        | .completed => (stores.present message).process message
        | .infrastructure => (stores.present message).fail message
        | _ => stores.present message)
  | .send message reason, .sent written acknowledged =>
      let tried := if written then
        (stores.present message).deadLetter message reason
        else stores.present message
      if acknowledged then
        if written then some (true, tried) else none
      else some (false, tried.fail message)
  | .commit offsets, .commit reply stored =>
      if ∃ entry ∈ offsets, entry.1 ∉ stores.assigned then
        some (.raised, stores)
      else
        match reply with
        | .done => some (.done, stores.commit offsets)
        | _ => some (reply, stores.commit
            (offsets.filter fun entry => entry.1 ∈ stored))
  | .assignment, .plain => some (stores.assigned, stores)
  | .committed partition, .plain =>
      some (some (stores.committed partition), stores)
  | .committed _, .raises => some (none, stores)
  | .seek partition offset, .plain =>
      if partition ∈ stores.assigned then
        some (some (), stores.seek partition offset)
      else some (none, stores)
  | .seek _ _, .raises => some (none, stores)
  | _, _ => none

/-- What happens beside the process. -/
inductive Change where
  | append (partition : Partition) (value : Option Bytes)
  /-- A rebalance: the process gets these partitions, without positions. -/
  | reassign (partitions : List Partition)
  /-- The position of a partition is looked up. -/
  | resolve (partition : Partition)
  /-- Another member of the group, which has the partition, handles what lies
  below the offset and commits it. -/
  | elsewhere (partition : Partition) (offset : Nat)
deriving DecidableEq

/-- The records from the committed offset up to `offset` are handled. -/
def Stores.handleElsewhere (stores : Stores) (partition : Partition)
    (offset : Nat) : Stores :=
  let handled := (List.range offset).filter (stores.restart partition ≤ ·)
  { stores with
    committed := Function.update stores.committed partition (some offset)
    processed := handled.map (partition, ·) ++ stores.processed
    unpresented := stores.unpresented.filter fun failure =>
      ¬(failure.partition = partition ∧ failure.offset ∈ handled) }

def change (stores : Stores) : Change → Option Stores
  | .append partition value => some { stores with
      log := Function.update stores.log partition
        (stores.log partition ++ [value]) }
  | .reassign partitions => some { stores with
      assigned := partitions, position := fun _ => none }
  | .resolve partition =>
      if partition ∈ stores.assigned ∧
          stores.position partition = none then
        some (stores.seek partition (stores.restart partition))
      else none
  | .elsewhere partition offset =>
      if partition ∉ stores.assigned ∧
          offset ≤ (stores.log partition).length then
        some (stores.handleElsewhere partition offset)
      else none

/-! ## The process -/

inductive Crash where
  /-- An exception that the loop does not handle ended the process. -/
  | raised
  | killed
deriving DecidableEq

inductive Outcome where
  | handled
  | retryBatch
deriving DecidableEq

variable {Value : Type}

abbrev Consume (Value : Type) := Program (Op Value) Reply Crash

abbrev evaluate (message : Message) (value : Value) :
    Consume Value Evaluated :=
  Program.perform (Op.evaluate message value)

abbrev send (message : Message) (reason : String) : Consume Value Bool :=
  Program.perform (Op.send message reason)

abbrev commit (offsets : List (Partition × Nat)) :
    Consume Value Committed :=
  Program.perform (Op.commit offsets)

abbrev getmany : Consume Value (List (Partition × List Message)) :=
  Program.perform Op.getmany

abbrev assignment : Consume Value (List Partition) :=
  Program.perform Op.assignment

abbrev committed (partition : Partition) :
    Consume Value (Option (Option Nat)) :=
  Program.perform (Op.committed partition)

abbrev seek (partition : Partition) (offset : Nat) :
    Consume Value (Option Unit) :=
  Program.perform (Op.seek partition offset)

abbrev start : Consume Value Unit :=
  Program.perform Op.start

abbrev lifetime : Consume Value Nat :=
  Program.perform Op.lifetime

def orRaise {Answer : Type} : Option Answer → Consume Value Answer
  | some answer => .done answer
  | none => .fail .raised

/-- `decode_message`: a value, or the text of a validation error, or `none`
for an exception it does not expect. -/
def decodeMessage (config : Config Value) :
    Option Bytes → Option (Except String Value)
  | none => some (.error "record has no value")
  | some raw =>
      match config.loads raw with
      | .malformed text => some (.error ("record is not UTF-8 JSON: " ++ text))
      | .raised => none
      | .value value =>
          if config.isObject value then some (.ok value)
          else some (.error ("record is not a JSON object: " ++
            config.typeName value))

/-- `_dead_letter`. -/
def deadLetter (message : Message) (reason : String) :
    Consume Value Outcome := do
  let sent ← send message reason
  pure (if sent then .handled else .retryBatch)

/-- `_process_message`. -/
def processMessage (config : Config Value) (message : Message)
    (value : Value) : Consume Value Evaluated :=
  if config.hasCompany value then evaluate message value
  else pure (.invalid "reading has no company_id")

/-- The attempts that are left, after the last one failed with `error`. -/
def attempts (config : Config Value) (message : Message) (value : Value) :
    Nat → String → Consume Value Outcome
  | 0, error => deadLetter message ("retries exhausted: " ++ error)
  | left + 1, _ => do
      let outcome ← processMessage config message value
      match outcome with
      | .completed => pure .handled
      | .invalid reason => deadLetter message reason
      | .infrastructure => pure .retryBatch
      | .failed error => attempts config message value left error

/-- `_handle_message`. -/
def handleMessage (config : Config Value) (message : Message) :
    Consume Value Outcome :=
  match decodeMessage config message.value with
  | none => .fail .raised
  | some (.error reason) => deadLetter message reason
  | some (.ok value) =>
      attempts config message value (max 1 config.maxRetries) ""

/-- `offsets[tp] = offset`. -/
def setOffset (offsets : List (Partition × Nat)) (partition : Partition)
    (offset : Nat) : List (Partition × Nat) :=
  (partition, offset) :: offsets.filter (·.1 ≠ partition)

/-- The offsets to commit, or `none` when a record was not handled. -/
def handleMessages (config : Config Value) :
    List Message → List (Partition × Nat) →
      Consume Value (Option (List (Partition × Nat)))
  | [], offsets => pure (some offsets)
  | message :: messages, offsets => do
      let outcome ← handleMessage config message
      match outcome with
      | .handled =>
          handleMessages config messages
            (setOffset offsets message.partition (message.offset + 1))
      | .retryBatch => pure none

/-- `_handle_batch`. -/
def handleBatch (config : Config Value)
    (data : List (Partition × List Message)) : Consume Value Bool := do
  let handled ← handleMessages config (data.flatMap Prod.snd) []
  match handled with
  | none => pure false
  | some offsets => do
      let reply ← commit offsets
      match reply with
      | .done => pure true
      | .recoverable => pure false
      | .raised => .fail .raised

/-- The loop of `_seek_to_committed`.  Without a committed offset it seeks
to the beginning of the partition. -/
def seekAll : List Partition → Consume Value Unit
  | [] => pure ()
  | partition :: partitions => do
      let found ← committed partition
      let offset ← orRaise found
      let sought ← seek partition (offset.getD 0)
      orRaise sought
      seekAll partitions

/-- `_seek_to_committed`. -/
def seekToCommitted : Consume Value Unit := do
  let partitions ← assignment
  seekAll partitions

/-- `consume_messages`, for as many batches as the process lives. -/
def consumeMessages (config : Config Value) : Nat → Consume Value Unit
  | 0 => pure ()
  | batches + 1 => do
      let data ← getmany
      if data.isEmpty then consumeMessages config batches
      else do
        let handled ← handleBatch config data
        if handled then consumeMessages config batches
        else do
          seekToCommitted
          consumeMessages config batches

def worker (config : Config Value) : Consume Value Unit := do
  start
  let batches ← lifetime
  consumeMessages config batches

/-- The worker, restarted whenever it has ended. -/
def consumer (config : Config Value) :
    Solo.System Stores (Op Value) Reply Crash Unit Choice Change where
  job := worker config
  dead := .killed
  exec := exec
  change := change

end IndustryFlow.Consumption
