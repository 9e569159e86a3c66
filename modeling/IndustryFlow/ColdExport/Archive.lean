import IndustryFlow.Concurrent.Solo
import Mathlib.Algebra.GroupWithZero.Nat
import Mathlib.Algebra.Ring.Int.Defs
import Mathlib.Data.List.Sort

/-!
# The stores of the cold layer

One tenant's day as the exporter sees it: the rows of the hot table, the
Parquet parts and the manifest in the object store, and the database's record
of committed drops.  `exec` answers the exporter's calls; each call is one
atomic step, and the checked drop commits together with its record.
-/

namespace IndustryFlow.ColdExport

/-- The natural key of a measurement, `(time, sensor_id)`. -/
abbrev Key := Int × String

/-- A row of `sensor_measurements`.  Times are in microseconds, identifiers
are canonical UUID text, and `value` is the bit pattern of the double. -/
structure Measurement where
  time : Int
  sensorId : String
  equipmentId : String
  siteId : String
  value : UInt64
  unit : Option String
  qualityCode : Option Int
  isAnomaly : Option Bool
deriving DecidableEq

def Measurement.key (row : Measurement) : Key :=
  (row.time, row.sensorId)

def keys (rows : List Measurement) : List Key :=
  rows.map Measurement.key

/-- The rows of one day, under the hot table's unique constraint. -/
structure Day where
  rows : List Measurement
  unique : (keys rows).Nodup

namespace Day

def empty : Day :=
  ⟨[], List.nodup_nil⟩

def ofRows (rows : List Measurement) : Option Day :=
  if unique : (keys rows).Nodup then some ⟨rows, unique⟩ else none

/-- A new row arrives; a taken key is refused. -/
def insert (day : Day) (row : Measurement) : Option Day :=
  ofRows (row :: day.rows)

/-- The row under `key` becomes `row`, whose key may differ. -/
def update (day : Day) (key : Key) (row : Measurement) : Option Day :=
  ofRows (day.rows.map fun old => if old.key = key then row else old)

end Day

/-- `ORDER BY equipment_id, time`, the order within a file. -/
def inFileOrder (rows : List Measurement) : List Measurement :=
  rows.insertionSort fun left right =>
    left.equipmentId < right.equipmentId ∨
      left.equipmentId = right.equipmentId ∧ left.time ≤ right.time

theorem inFileOrder_perm (rows : List Measurement) :
    (inFileOrder rows).Perm rows :=
  List.perm_insertionSort _ rows

/-- `cold_export_day_fingerprint`: the number of rows and the sum of the
row hashes. -/
def dayFingerprint (hash : Measurement → Int) (rows : List Measurement) :
    Nat × Int :=
  (rows.length, (rows.map hash).sum)

def firstPart : String := "measurements.parquet"

/-- `f"{index:04d}"`. -/
def fourDigits (index : Nat) : List Char :=
  List.replicate (4 - (Nat.toDigits 10 index).length) '0' ++
    Nat.toDigits 10 index

/-- File name of a day's `index`-th part. -/
def partFile (index : Nat) : String :=
  if index = 0 then firstPart
  else "measurements-" ++ String.ofList (fourDigits index) ++ ".parquet"

/-- The names `part_key` accepts. -/
def validPart (part : String) : Bool :=
  !part.toList.contains '/' && ".parquet".toList.isSuffixOf part.toList

/-- The names `cold_export_drop_day` accepts:
`^measurements(-[0-9]{4})?\.parquet$`. -/
def droppablePart (part : String) : Bool :=
  part == firstPart ||
    ("measurements-".toList.isPrefixOf part.toList &&
      ".parquet".toList.isSuffixOf part.toList &&
      part.toList.length == 25 &&
      ((part.toList.drop 13).take 4).all Char.isDigit)

structure Part where
  file : String
  rows : Nat
deriving DecidableEq

/-- A day's manifest.  `parts` is `none` in a manifest written before a day
could hold several parts. -/
structure Manifest where
  format : Nat
  schema : String
  day : String
  rows : Nat
  parts : Option (List Part)
deriving DecidableEq

/-- What the exporter's runs leave behind, beside the source table. -/
structure Archive where
  files : String → Option (List Measurement)
  manifest : Option Manifest
  /-- `cold_export_drops`: the part and the row count of each drop. -/
  drops : List (String × Nat)
  /-- The keys of all rows the checked drop has removed. -/
  removed : List Key

namespace Archive

def empty : Archive :=
  ⟨fun _ => none, none, [], []⟩

def read (archive : Archive) (part : String) : Option (List Measurement) :=
  if validPart part then archive.files part else none

def recorded (archive : Archive) (part : String) : Bool :=
  archive.drops.any fun drop => drop.1 == part

def putPart (archive : Archive) (part : String) (rows : List Measurement) :
    Archive :=
  { archive with files := Function.update archive.files part rows }

def putManifest (archive : Archive) (manifest : Manifest) : Archive :=
  { archive with manifest := some manifest }

/-- The rows under `gone` leave the source, and the drop is recorded by
`INSERT … ON CONFLICT DO NOTHING`. -/
def commitDrop (archive : Archive) (gone : List Key) (part : String)
    (rows : Nat) : Archive :=
  { archive with
    drops := if archive.recorded part then archive.drops
      else (part, rows) :: archive.drops
    removed := gone ++ archive.removed }

end Archive

structure Stores where
  source : Day
  archive : Archive

structure Snapshot where
  rows : Nat
  fingerprint : Int
  batches : List Measurement
deriving DecidableEq

inductive Op where
  | readManifest
  | dropRecorded (part : String)
  | partRowCount (part : String)
  | snapshotDay
  | readPartKeys (part : String)
  | writePart (part : String) (rows : List Measurement)
  | writeManifest (manifest : Manifest)
  | drop (snapshot : Snapshot) (part : String)
deriving DecidableEq

/-- A call that raises replies `none`. -/
abbrev Reply : Op → Type
  | .readManifest => Option Manifest
  | .dropRecorded _ => Bool
  | .partRowCount _ => Option Nat
  | .snapshotDay => Snapshot
  | .readPartKeys _ => Option (List Key)
  | .writePart _ _ => Option Nat
  | .writeManifest _ => Unit
  | .drop _ _ => Option Bool

def takeSnapshot (hash : Measurement → Int) (day : Day) : Snapshot where
  rows := (dayFingerprint hash day.rows).1
  fingerprint := (dayFingerprint hash day.rows).2
  batches := inFileOrder day.rows

/-- `cold_export_drop_day`. -/
def dropDay (hash : Measurement → Int) (stores : Stores)
    (snapshot : Snapshot) (part : String) : Option Bool × Stores :=
  if !droppablePart part then
    (none, stores)
  else if dayFingerprint hash stores.source.rows =
      (snapshot.rows, snapshot.fingerprint) then
    (some true,
      { source := .empty
        archive := stores.archive.commitDrop (keys stores.source.rows)
          part snapshot.rows })
  else
    (some false, stores)

def exec (hash : Measurement → Int) (stores : Stores) :
    (op : Op) → Unit → Option (Reply op × Stores)
  | .readManifest, _ => some (stores.archive.manifest, stores)
  | .dropRecorded part, _ => some (stores.archive.recorded part, stores)
  | .partRowCount part, _ =>
      some ((stores.archive.read part).map List.length, stores)
  | .snapshotDay, _ => some (takeSnapshot hash stores.source, stores)
  | .readPartKeys part, _ =>
      some ((stores.archive.read part).map keys, stores)
  | .writePart part rows, _ =>
      if !validPart part || rows.isEmpty then some (none, stores)
      else some (some rows.length,
        { stores with archive := stores.archive.putPart part rows })
  | .writeManifest manifest, _ =>
      some ((), { stores with
        archive := stores.archive.putManifest manifest })
  | .drop snapshot part, _ => some (dropDay hash stores snapshot part)

/-- What happens to the source table between the exporter's calls. -/
inductive Change where
  | arrive (row : Measurement)
  | update (key : Key) (row : Measurement)
deriving DecidableEq

def change (stores : Stores) : Change → Option Stores
  | .arrive row => (stores.source.insert row).map
      fun source => { stores with source }
  | .update key row => (stores.source.update key row).map
      fun source => { stores with source }

theorem change_archive {stores after : Stores} {event : Change}
    (changed : change stores event = some after) :
    after.archive = stores.archive := by
  cases event with
  | arrive row =>
      obtain ⟨day, -, rfl⟩ := Option.map_eq_some_iff.mp changed
      rfl
  | update key row =>
      obtain ⟨day, -, rfl⟩ := Option.map_eq_some_iff.mp changed
      rfl

/-! ## Part names -/

private theorem ofDigitChars_fourDigits (index : Nat) :
    Nat.ofDigitChars 10 (fourDigits index) 0 = index := by
  rw [fourDigits, Nat.ofDigitChars_append, Nat.ofDigitChars_replicate_zero,
    Nat.mul_zero, Nat.ofDigitChars_ten_toDigits]

/-- Every part of a day has a file of its own. -/
theorem partFile_injective : Function.Injective partFile := by
  have numbered_ne_first (index : Nat) :
      "measurements-" ++ String.ofList (fourDigits index) ++ ".parquet" ≠
        firstPart := by
    intro equal
    have characters := congrArg String.toList equal
    have thirteenth := congrArg (fun text => text.drop 12) characters
    simp [firstPart, String.toList_append] at thirteenth
  intro left right equal
  unfold partFile at equal
  split at equal
  · split at equal
    · omega
    · exact absurd equal.symm (numbered_ne_first right)
  · split at equal
    · exact absurd equal (numbered_ne_first left)
    · have characters := congrArg String.toList equal
      simp only [String.toList_append, String.toList_ofList,
        List.append_cancel_right_eq, List.append_cancel_left_eq] at characters
      rw [← ofDigitChars_fourDigits left, characters,
        ofDigitChars_fourDigits]

end IndustryFlow.ColdExport
