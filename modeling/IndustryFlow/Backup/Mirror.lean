import IndustryFlow.Concurrent.Loops
import Mathlib
import Mathlib.Data.List.Basic

/-!
# One run of an object-store mirror

`mirrorBucket` copies a source bucket into the backup bucket and removes from
the mirror what the source has not held for the retention period.  When each
mirrored object went missing is kept in an object beside the mirror.

Keys of the mirror are without its prefix.  An object is streamed from one
store to the other in one step, since neither store is read on the way.
-/

namespace IndustryFlow.Backup

open Concurrent

/-! ## Buckets -/

/-- The objects of a bucket, each key once. -/
structure Bucket where
  objects : List (String × ByteArray)
  unique : (objects.map Prod.fst).Nodup

namespace Bucket

def empty : Bucket :=
  ⟨[], List.nodup_nil⟩

def get (bucket : Bucket) (key : String) : Option ByteArray :=
  bucket.objects.lookup key

theorem nodup_delete (bucket : Bucket) (key : String) :
    ((bucket.objects.filter (·.1 ≠ key)).map Prod.fst).Nodup :=
  bucket.unique.sublist (List.filter_sublist.map Prod.fst)

def delete (bucket : Bucket) (key : String) : Bucket :=
  ⟨bucket.objects.filter (·.1 ≠ key), bucket.nodup_delete key⟩

def put (bucket : Bucket) (key : String) (bytes : ByteArray) : Bucket where
  objects := (key, bytes) :: bucket.objects.filter (·.1 ≠ key)
  unique := by
    rw [List.map_cons, List.nodup_cons]
    constructor
    · intro member
      obtain ⟨object, found, same⟩ := List.mem_map.mp member
      simpa [same] using (List.mem_filter.mp found).2
    · exact bucket.nodup_delete key

/-- The keys with the sizes of their objects. -/
def listing (bucket : Bucket) : List (String × Nat) :=
  bucket.objects.map fun object => (object.1, object.2.size)

theorem get_eq_some_iff {bucket : Bucket} {key : String}
    {bytes : ByteArray} :
    bucket.get key = some bytes ↔ (key, bytes) ∈ bucket.objects := by
  obtain ⟨objects, unique⟩ := bucket
  induction objects with
  | nil => simp [get]
  | cons object objects induction =>
      obtain ⟨name, content⟩ := object
      rw [List.map_cons, List.nodup_cons] at unique
      have rest := induction unique.2
      simp only [get] at rest ⊢
      by_cases same : key = name
      · subst same
        have absent : (key, bytes) ∉ objects := fun member =>
          unique.1 (List.mem_map.mpr ⟨(key, bytes), member, rfl⟩)
        simp [List.lookup_cons_self, absent, eq_comm]
      · have skip : (key == name) = false := beq_false_of_ne same
        simp [List.lookup_cons, skip, same, rest]

theorem mem_listing {bucket : Bucket} {key : String} {size : Nat} :
    (key, size) ∈ bucket.listing ↔
      ∃ bytes, bucket.get key = some bytes ∧ bytes.size = size := by
  simp only [listing, List.mem_map, get_eq_some_iff, Prod.exists]
  constructor
  · rintro ⟨name, bytes, found, same⟩
    cases same
    exact ⟨bytes, found, rfl⟩
  · rintro ⟨bytes, found, rfl⟩
    exact ⟨key, bytes, found, rfl⟩

theorem get_delete (bucket : Bucket) (key other : String) :
    (bucket.delete key).get other =
      if other = key then none else bucket.get other := by
  have found {bytes : ByteArray} :
      (bucket.delete key).get other = some bytes ↔
        bucket.get other = some bytes ∧ other ≠ key := by
    simp [get_eq_some_iff, delete]
  by_cases same : other = key
  · rw [if_pos same]
    cases deleted : (bucket.delete key).get other with
    | none => rfl
    | some bytes => exact absurd same (found.mp deleted).2
  · rw [if_neg same]
    cases kept : bucket.get other with
    | none =>
        cases deleted : (bucket.delete key).get other with
        | none => rfl
        | some bytes =>
            rw [(found.mp deleted).1] at kept
            cases kept
    | some bytes => exact found.mpr ⟨kept, same⟩

theorem get_put (bucket : Bucket) (key other : String) (bytes : ByteArray) :
    (bucket.put key bytes).get other =
      if other = key then some bytes else bucket.get other := by
  by_cases same : other = key
  · rw [if_pos same, same, get_eq_some_iff]
    exact List.mem_cons_self
  · have skip : (other == key) = false := beq_false_of_ne same
    have rest := get_delete bucket key other
    rw [if_neg same] at rest ⊢
    rw [← rest]
    simp [get, put, delete, List.lookup_cons, skip]

end Bucket

/-! ## The record of absent objects -/

/-- `\p{Cc}`. -/
def isControl (char : Char) : Bool :=
  char.toNat < 32 || (127 ≤ char.toNat && char.toNat < 160)

/-- Keys that cannot travel through the line-based steps. -/
def unsafeKey (key : String) : Bool :=
  key.toList.any isControl

/-- What `awk` and the shell make of texts. -/
structure Shell where
  /-- The value of `awk -v name=text`. -/
  awkValue : String → String
  plain : ∀ text : String, '\\' ∉ text.toList → awkValue text = text
  /-- The number that a text stands for. -/
  number : String → Int
  decimal : ∀ time : Nat, number (toString time) = time

def plainShell : Shell where
  awkValue text := text
  plain _ _ := rfl
  number text := Nat.ofDigitChars 10 text.toList 0
  decimal time := by
    have digits : (toString time).toList = Nat.toDigits 10 time := by
      simp [toString, Nat.repr]
    rw [digits, Nat.ofDigitChars_ten_toDigits]

/-- When each absent object went missing. -/
abbrev Absences := List (String × String)

/-- The lines of `_absent.tsv`. -/
def absentText (absences : Absences) : String :=
  String.ofList (['\n'].intercalate (absences.map (fun absence =>
    ['\t'].intercalate [absence.1.toList, absence.2.toList]) ++ [[]]))

/-- The first two fields of each line, as `awk` reads them. -/
def absencesOf (text : String) : Absences :=
  ((text.toList.splitOn '\n').filter (· ≠ [])).map fun line =>
    (String.ofList ((line.splitOn '\t').getD 0 []),
      String.ofList ((line.splitOn '\t').getD 1 []))

def readAbsences (bytes : ByteArray) : Absences :=
  match String.fromUTF8? bytes with
  | some text => absencesOf text
  | none => []

/-- The mirrored objects that the source does not hold, each with when it went
missing. -/
def missing (state : String) (now : Nat) (source : List (String × Nat))
    (absences : Absences) (mirrored : List (String × Nat)) : Absences :=
  (mirrored.filter fun object => object.1 ≠ state &&
    !(source.map Prod.fst).contains object.1).map fun object =>
      (object.1, (absences.reverse.lookup object.1).getD (toString now))

/-- The object has been missing for the retention period. -/
def expired (shell : Shell) (retain now : Nat)
    (absence : String × String) : Bool :=
  retain ≤ now - shell.number absence.2

/-! ## The run -/

inductive Op where
  | listSource
  | listMirror
  /-- `s3 cp` from the source and into the mirror. -/
  | copy (key : String)
  | head (key : String)
  | clock
  | readState
  | remove (key : String)
  | writeState (bytes : ByteArray)
deriving DecidableEq

/-- A listing or a read that fails replies `none`. -/
abbrev Reply : Op → Type
  | .listSource => Option (List (String × Nat))
  | .listMirror => Option (List (String × Nat))
  | .copy _ => Bool
  | .head _ => Option Nat
  | .clock => Nat
  | .readState => Option ByteArray
  | .remove _ => Bool
  | .writeState _ => Bool

/-- What is mirrored, and how. -/
structure Config where
  shell : Shell
  /-- Keys that begin so are not mirrored. -/
  exclude : String
  /-- The keys that are copied every time. -/
  recopy : String → Bool
  /-- `MIRROR_RETAIN_DAYS`, in seconds. -/
  retain : Nat

/-- `_absent.tsv`. -/
def stateKey : String := "_absent.tsv"

/-- The script exits, or the function returns 1. -/
inductive Aborted where
  | exit
  | died
deriving DecidableEq

abbrev Mirroring := Program Op Reply Aborted

/-- A command whose failure ends the script. -/
def orExit {Answer : Type} : Option Answer → Mirroring Answer
  | some answer => .done answer
  | none => .fail .exit

def succeed (worked : Bool) : Mirroring Unit :=
  if worked then .done () else .fail .exit

abbrev listSource : Mirroring (Option (List (String × Nat))) :=
  Program.perform Op.listSource

abbrev listMirror : Mirroring (Option (List (String × Nat))) :=
  Program.perform Op.listMirror

abbrev copy (key : String) : Mirroring Bool :=
  Program.perform (Op.copy key)

abbrev headObject (key : String) : Mirroring (Option Nat) :=
  Program.perform (Op.head key)

abbrev clock : Mirroring Nat :=
  Program.perform Op.clock

abbrev readState : Mirroring (Option ByteArray) :=
  Program.perform Op.readState

abbrev remove (key : String) : Mirroring Bool :=
  Program.perform (Op.remove key)

abbrev writeState (bytes : ByteArray) : Mirroring Bool :=
  Program.perform (Op.writeState bytes)

variable (config : Config)

/-- `_list_sizes`: the keys without control characters. -/
def safeKeys (listing : List (String × Nat)) : List (String × Nat) :=
  listing.filter fun object => !unsafeKey object.1

/-- The source objects to mirror. -/
def sourceKeys (listing : List (String × Nat)) : List (String × Nat) :=
  (safeKeys listing).filter fun object =>
    config.exclude = "" || !config.exclude.toList.isPrefixOf object.1.toList

/-- The mirror holds the object at this size, and it is not copied anew. -/
def alreadyMirrored (mirrored : List (String × Nat))
    (object : String × Nat) : Bool :=
  mirrored.lookup (config.shell.awkValue object.1) = some object.2 &&
    !config.recopy object.1

/-- The body of the copying loop. -/
def copyObject (mirrored : List (String × Nat)) (object : String × Nat) :
    Mirroring Unit :=
  if object.1 = "" then .done ()
  else if alreadyMirrored config mirrored object then .done ()
  else do
    let copied ← copy object.1
    succeed copied
    let size ← headObject object.1
    succeed (size = some object.2)

/-- `age_out_mirror`.  It is called on the left of `||`, so no command that
fails in it ends it. -/
def ageOutMirror (source mirrored : List (String × Nat)) :
    Mirroring Unit := do
  let now ← clock
  if source.isEmpty && mirrored.any (·.1 ≠ stateKey) then pure ()
  else do
    let stored ← readState
    let absent := missing stateKey now source
      ((stored.map readAbsences).getD []) mirrored
    Program.each (fun key => do
        let _ ← remove key
        pure ())
      ((absent.filter (expired config.shell config.retain now)).map Prod.fst)
    let _ ← writeState (absentText (absent.filter fun absence =>
      !expired config.shell config.retain now absence)).toUTF8
    pure ()

/-- `mirror_bucket`; it answers with the keys that could not be mirrored. -/
def mirrorBucket : Mirroring (List String) := do
  let listed ← listSource
  let found ← orExit listed
  let held ← listMirror
  let mirrored ← orExit held
  let source := sourceKeys config found
  Program.each (copyObject config (safeKeys mirrored)) source
  ageOutMirror config source (safeKeys mirrored)
  pure ((found.map Prod.fst).filter unsafeKey)

/-! ## The stores -/

structure Stores where
  source : Bucket
  /-- What is under the mirror's prefix. -/
  mirror : Bucket
  /-- Seconds. -/
  now : Nat

inductive Choice where
  | works
  | fails
  /-- The stream breaks off after so many bytes; the commands may report it
  or not. -/
  | cut (length : Nat) (reported : Bool)
deriving DecidableEq

def exec (stores : Stores) :
    (op : Op) → Choice → Option (Reply op × Stores)
  | .listSource, .works => some (some stores.source.listing, stores)
  | .listSource, .fails => some (none, stores)
  | .listMirror, .works => some (some stores.mirror.listing, stores)
  | .listMirror, .fails => some (none, stores)
  | .copy key, .works =>
      match stores.source.get key with
      | some bytes =>
          some (true, { stores with mirror := stores.mirror.put key bytes })
      | none => some (false, stores)
  | .copy _, .fails => some (false, stores)
  | .copy key, .cut length reported =>
      match stores.source.get key with
      | some bytes =>
          if length < bytes.size then
            some (!reported, { stores with
              mirror := stores.mirror.put key (bytes.extract 0 length) })
          else none
      | none => none
  | .head key, .works =>
      some ((stores.mirror.get key).map ByteArray.size, stores)
  | .head _, .fails => some (none, stores)
  | .clock, .works => some (stores.now, stores)
  | .readState, .works => some (stores.mirror.get stateKey, stores)
  | .readState, .fails => some (none, stores)
  | .remove key, .works =>
      some (true, { stores with mirror := stores.mirror.delete key })
  | .remove _, .fails => some (false, stores)
  | .writeState bytes, .works =>
      some (true, { stores with mirror := stores.mirror.put stateKey bytes })
  | .writeState _, .fails => some (false, stores)
  | _, _ => none

end IndustryFlow.Backup
