import IndustryFlow.Backup.Mirror
import IndustryFlow.ColdExport.Exporter
import IndustryFlow.Isoformat
import IndustryFlow.Tenancy.Names
import Mathlib.Algebra.Group.Nat.Defs

/-!
# The mirror of the cold archive

Export runs of the days of all tenants beside runs of the mirror.  The mirror
skips what it holds at the same size, and the exporter rewrites a part whose
drop has not committed.  As long as no part gets the size but not the bytes of
its mirrored copy, what a completed run leaves is what the source holds.
-/

namespace IndustryFlow.Backup

open Concurrent
open ColdExport (Target ExportError Outcome Export exportDay exporter idle
  validPart partFile Change)
open Measurements (uuidText)

/-! ## The keys of the archive -/

/-- A day of a tenant. -/
structure ColdDay where
  company : Fin (2 ^ 128)
  year : Nat
  month : Nat
  day : Nat
deriving DecidableEq

namespace ColdDay

def digits (width number : Nat) : String :=
  String.ofList (Isoformat.fixed width number)

/-- `cold_object_prefix`. -/
def objectPrefix (day : ColdDay) : String :=
  "tenant_" ++ uuidText day.company

/-- `day_partition`. -/
def dayPartition (day : ColdDay) : String :=
  day.objectPrefix ++ "/year=" ++ digits 4 day.year ++ "/month=" ++
    digits 2 day.month ++ "/day=" ++ digits 2 day.day

/-- `part_key`. -/
def partKey (day : ColdDay) (part : String) : String :=
  day.dayPartition ++ "/" ++ part

/-- `manifest_key`. -/
def manifestKey (day : ColdDay) : String :=
  day.dayPartition ++ "/_manifest.json"

def target (day : ColdDay) : Target where
  schema := "tenant_" ++ String.ofList ((uuidText day.company).toList.map
    fun char => if char = '-' then '_' else char)
  day := digits 4 day.year ++ "-" ++ digits 2 day.month ++ "-" ++
    digits 2 day.day

end ColdDay

/-- The pattern of the objects that are copied every time:
`*/_manifest.json`. -/
def isManifest (key : String) : Bool :=
  "/_manifest.json".toList.isSuffixOf key.toList

/-- `mirror_cold_bucket`. -/
def coldConfig (shell : Shell) (retain : Nat) : Config where
  shell := shell
  exclude := ""
  recopy := isManifest
  retain := retain

/-! ## The platform -/

/-- What is left of the runs of one day's export, and its stores. -/
abbrev Exporting :=
  Solo ColdExport.Stores ColdExport.Op ColdExport.Reply ExportError Outcome

/-- The days as the exporter sees them, and the buckets. -/
structure World where
  days : ColdDay → Exporting
  stores : Stores

inductive WorldChange where
  /-- An event of the export of a day; what it writes, it writes as these
  bytes. -/
  | exports (day : ColdDay) (event : SoloEvent Unit Change) (bytes : ByteArray)
  | tick (seconds : Nat)

/-- The object that an event of an export writes. -/
def writes (day : ColdDay) (exporting : Exporting) :
    SoloEvent Unit Change → Option String
  | .step _ | .lose _ =>
      match exporting.running.next? with
      | some (.writePart part rows) =>
          if !validPart part || rows.isEmpty then none
          else some (day.partKey part)
      | some (.writeManifest _) => some day.manifestKey
      | _ => none
  | _ => none

variable (hash : ColdExport.Measurement → Int)

def changeWorld (world : World) : WorldChange → Option World
  | .exports day event bytes =>
      (Solo.step (exporter day.target hash) (world.days day) event).map
        fun exporting =>
          { days := Function.update world.days day exporting
            stores := match writes day (world.days day) event with
              | some key => { world.stores with
                  source := world.stores.source.put key bytes }
              | none => world.stores }
  | .tick seconds => some { world with stores :=
      { world.stores with now := world.stores.now + seconds } }

def execWorld (world : World) (op : Op) (choice : Choice) :
    Option (Reply op × World) :=
  (exec world.stores op choice).map fun executed =>
    (executed.1, { world with stores := executed.2 })

/-- Mirror runs that never overlap, beside the export runs. -/
def mirroring (config : Config) :
    Solo.System World Op Reply Aborted (List String) Choice WorldChange where
  job := mirrorBucket config
  dead := .died
  exec := execWorld
  change := changeWorld hash

abbrev State := Solo World Op Reply Aborted (List String)

abbrev Event := SoloEvent Choice WorldChange

/-- Nothing is archived yet, and nothing is mirrored. -/
def fresh (rows : ColdDay → ColdExport.Day) (now : Nat) : State where
  shared :=
    { days := fun day => idle ⟨rows day, .empty⟩
      stores := ⟨.empty, .empty, now⟩ }
  running := .fail .died

/-! ## What the exporter writes -/

/-- A part is written under the name of its number. -/
def Named (op : ColdExport.Op) : Prop :=
  ∀ part rows, op = .writePart part rows → ∃ index, part = partFile index

/-- Every part that the program writes is named by its number. -/
abbrev Names {Answer : Type} (program : Export Answer) : Prop :=
  program.Always (fun _ _ => True) Named (fun _ => True)

section Names

variable {Answer Result : Type}

theorem names_perform {op : ColdExport.Op} (named : Named op) :
    Names (Program.perform op) :=
  ⟨named, fun _ _ => trivial⟩

theorem names_bind {program : Export Answer}
    {continuation : Answer → Export Result} (first : Names program)
    (rest : ∀ answer, Names (continuation answer)) :
    Names (program >>= continuation) :=
  first.bind (fun answer _ => rest answer) fun _ _ => trivial

theorem names_orRaise (reply : Option Answer) :
    Names (ColdExport.orRaise reply) := by
  cases reply with
  | none => trivial
  | some answer => trivial

end Names

theorem checkPart_names (part : ColdExport.Part) :
    Names (ColdExport.checkPart part) := by
  apply names_bind (names_perform (by nofun))
  intro counted
  apply names_bind (names_orRaise counted)
  intro footer
  split
  · trivial
  · trivial

theorem checkParts_names (parts : List ColdExport.Part) :
    Names (ColdExport.checkParts parts) := by
  induction parts with
  | nil => trivial
  | cons part parts induction =>
      exact names_bind (checkPart_names part) fun _ => induction

theorem readArchivedKeys_names (parts : List ColdExport.Part) :
    Names (ColdExport.readArchivedKeys parts) := by
  induction parts with
  | nil => trivial
  | cons part parts induction =>
      apply names_bind (names_perform (by nofun))
      intro read
      apply names_bind (names_orRaise read)
      intro held
      exact names_bind induction fun _ => trivial

theorem freshRows_names (snapshot : ColdExport.Snapshot)
    (base : List ColdExport.Part) :
    Names (ColdExport.freshRows snapshot base) := by
  rw [ColdExport.freshRows]
  split
  · trivial
  · refine names_bind ?_ fun _ => trivial
    rw [ColdExport.withoutArchived]
    split
    · trivial
    · exact names_bind (readArchivedKeys_names base) fun _ => trivial

theorem writeFresh_names (base : List ColdExport.Part)
    (rows : List ColdExport.Measurement) (expected : Nat) :
    Names (ColdExport.writeFresh base rows expected) := by
  have written : Named (.writePart (partFile base.length) rows) := by
    intro part fresh same
    cases same
    exact ⟨base.length, rfl⟩
  rw [ColdExport.writeFresh]
  split
  · refine names_bind ?_ fun _ => trivial
    apply names_bind (names_perform written)
    intro reply
    apply names_bind (names_orRaise reply)
    intro wrote
    split
    · trivial
    · apply names_bind (names_perform (by nofun))
      intro counted
      apply names_bind (names_orRaise counted)
      intro footer
      split
      · trivial
      · trivial
  · split
    · trivial
    · trivial

theorem exportRows_names (target : Target)
    (pending : Option ColdExport.Part) (committed : List ColdExport.Part)
    (snapshot : ColdExport.Snapshot) :
    Names (ColdExport.exportRows target pending committed snapshot) := by
  apply names_bind (freshRows_names snapshot committed)
  intro found
  apply names_bind (writeFresh_names committed found.1 found.2)
  intro after
  apply names_bind (names_perform (by nofun))
  intro _
  apply names_bind (names_perform (by nofun))
  intro answer
  exact names_bind (names_orRaise answer) fun _ => trivial

theorem exportNothing_names (parts : List ColdExport.Part)
    (pending : Option ColdExport.Part) (snapshot : ColdExport.Snapshot) :
    Names (ColdExport.exportNothing parts pending snapshot) := by
  cases pending with
  | none => trivial
  | some last =>
      apply names_bind (checkPart_names last)
      intro _
      apply names_bind (names_perform (by nofun))
      intro answer
      exact names_bind (names_orRaise answer) fun _ => trivial

theorem exportDay_names (target : Target) : Names (exportDay target) := by
  apply names_bind (names_perform (by nofun))
  intro manifest
  apply names_bind
  · rw [ColdExport.pendingPart]
    split
    · trivial
    · split
      · trivial
      · exact names_bind (names_perform (by nofun)) fun _ => trivial
  · intro pending
    apply names_bind (checkParts_names _)
    intro _
    apply names_bind (names_perform (by nofun))
    intro snapshot
    split
    · exact exportNothing_names _ pending snapshot
    · exact exportRows_names target pending _ snapshot

/-! ## The keys that it writes -/

/-- A key of the archive. -/
def Cold (key : String) : Prop :=
  ∃ day : ColdDay, key = day.manifestKey ∨
    ∃ index, key = day.partKey (partFile index)

theorem digits_chars {width number : Nat} {char : Char}
    (member : char ∈ (ColdDay.digits width number).toList) :
    char.isDigit = true := by
  rw [ColdDay.digits, String.toList_ofList] at member
  exact List.all_eq_true.mp (Isoformat.fixed_isDigit width number) char member

theorem partFile_chars {index : Nat} : '\\' ∉ (partFile index).toList := by
  intro member
  rw [partFile] at member
  split at member
  · exact absurd member (by decide)
  · have numbered : '\\' ∉ ColdExport.fourDigits index := by
      intro inside
      rcases List.mem_append.mp inside with zero | digit
      · exact absurd (List.mem_replicate.mp zero).2 (by decide)
      · exact absurd (Nat.isDigit_of_mem_toDigits (by decide) (by decide)
          digit) (by decide)
    simp only [String.toList_append, String.toList_ofList, List.mem_append,
      numbered, or_false] at member
    exact absurd member (by decide)

theorem dayPartition_chars (day : ColdDay) :
    '\\' ∉ day.dayPartition.toList := by
  have company : '\\' ∉ (uuidText day.company).toList := by
    intro member
    rcases Tenancy.Names.uuidText_chars day.company.isLt _ member with
      hyphen | digit
    · exact absurd hyphen (by decide)
    · exact absurd digit (by decide)
  have number (width value : Nat) :
      '\\' ∉ (ColdDay.digits width value).toList := fun member =>
    absurd (digits_chars member) (by decide)
  simp [ColdDay.dayPartition, ColdDay.objectPrefix, String.toList_append,
    company, number]

theorem Cold.plain {key : String} (cold : Cold key) :
    '\\' ∉ key.toList := by
  obtain ⟨day, rfl | ⟨index, rfl⟩⟩ := cold
  · simp [ColdDay.manifestKey, String.toList_append, dayPartition_chars]
  · simp [ColdDay.partKey, String.toList_append, dayPartition_chars,
      partFile_chars]

theorem Cold.slash {key : String} (cold : Cold key) : '/' ∈ key.toList := by
  obtain ⟨day, rfl | ⟨index, rfl⟩⟩ := cold
  · simp [ColdDay.manifestKey, String.toList_append]
  · simp [ColdDay.partKey, String.toList_append]

theorem Cold.ne_state {key : String} (cold : Cold key) : key ≠ stateKey := by
  rintro rfl
  exact absurd cold.slash (by decide)

theorem Cold.ne_empty {key : String} (cold : Cold key) : key ≠ "" := by
  rintro rfl
  exact absurd cold.slash (by decide)

theorem writes_cold {day : ColdDay} {exporting : Exporting}
    {event : SoloEvent Unit Change} {key : String}
    (names : Names exporting.running)
    (written : writes day exporting event = some key) : Cold key := by
  have called : (match exporting.running.next? with
      | some (.writePart part rows) =>
          if !validPart part || rows.isEmpty then none
          else some (day.partKey part)
      | some (.writeManifest _) => some day.manifestKey
      | _ => none) = some key := by
    cases event with
    | step choice => exact written
    | lose choice => exact written
    | _ => cases written
  cases running : exporting.running with
  | done answer =>
      rw [running] at called
      cases called
  | fail error =>
      rw [running] at called
      cases called
  | call op next =>
      rw [running] at called names
      cases op with
      | writePart part rows =>
          obtain ⟨index, rfl⟩ := names.1 part rows rfl
          dsimp only [Program.next?] at called
          split at called
          · cases called
          · cases called
            exact ⟨day, .inr ⟨index, rfl⟩⟩
      | writeManifest manifest =>
          cases called
          exact ⟨day, .inl rfl⟩
      | _ => cases called

theorem names_step {target : Target} {hash : ColdExport.Measurement → Int}
    {exporting next : Exporting} {event : SoloEvent Unit Change}
    (names : Names exporting.running)
    (stepped : Solo.step (exporter target hash) exporting event = some next) :
    Names next.running := by
  cases event with
  | start =>
      simp only [Solo.step] at stepped
      split at stepped
      · cases stepped
        exact exportDay_names target
      · cases stepped
  | step choice =>
      cases running : exporting.running with
      | call op rest =>
          rw [running] at names
          simp only [Solo.step, running, Option.map_eq_some_iff] at stepped
          obtain ⟨executed, -, rfl⟩ := stepped
          exact names.2 executed.1 trivial
      | _ => simp [Solo.step, running] at stepped
  | crash =>
      cases stepped
      trivial
  | lose choice =>
      cases running : exporting.running with
      | call op rest =>
          simp only [Solo.step, running, Option.map_eq_some_iff] at stepped
          obtain ⟨executed, -, rfl⟩ := stepped
          trivial
      | _ => simp [Solo.step, running] at stepped
  | environment change =>
      simp only [Solo.step, Option.map_eq_some_iff] at stepped
      obtain ⟨shared, -, rfl⟩ := stepped
      exact names

/-! ## What is mirrored -/

/-- What the mirror holds of an object at its size, it holds of it. -/
def Fit (stores : Stores) : Prop :=
  ∀ key old bytes, stores.mirror.get key = some old →
    stores.source.get key = some bytes → isManifest key = false →
      old.size = bytes.size → old = bytes

/-- The exports name their parts, and the source holds what they wrote. -/
structure Archived (world : World) : Prop where
  names : ∀ day, Names (world.days day).running
  cold : ∀ key bytes, world.stores.source.get key = some bytes → Cold key
  fit : Fit world.stores

/-- No part is written with the size but not the bytes of its mirrored
copy. -/
def Fits (state : State) : Event → Prop
  | .environment (.exports day event bytes) =>
      ∀ key ∈ writes day (state.shared.days day) event,
        isManifest key = false →
          ∀ old ∈ state.shared.stores.mirror.get key,
            old.size = bytes.size → old = bytes
  | _ => True

instance (state : State) : (event : Event) → Decidable (Fits state event)
  | .environment (.exports day event bytes) =>
      inferInstanceAs (Decidable (
        ∀ key ∈ writes day (state.shared.days day) event,
          isManifest key = false →
            ∀ old ∈ state.shared.stores.mirror.get key,
              old.size = bytes.size → old = bytes))
  | .environment (.tick _) => .isTrue trivial
  | .start => .isTrue trivial
  | .step _ => .isTrue trivial
  | .crash => .isTrue trivial
  | .lose _ => .isTrue trivial

/-- The event writes nothing to the source. -/
def Quiet (state : State) : Event → Prop
  | .environment (.exports day event _) =>
      writes day (state.shared.days day) event = none
  | _ => True

instance (state : State) : (event : Event) → Decidable (Quiet state event)
  | .environment (.exports day event _) =>
      inferInstanceAs (Decidable
        (writes day (state.shared.days day) event = none))
  | .environment (.tick _) => .isTrue trivial
  | .start => .isTrue trivial
  | .step _ => .isTrue trivial
  | .crash => .isTrue trivial
  | .lose _ => .isTrue trivial

/-- What a call of the mirror changes. -/
inductive Touches (stores : Stores) : Stores → Prop where
  | nothing : Touches stores stores
  | copied {key : String} {bytes : ByteArray}
      (held : stores.source.get key = some bytes) :
      Touches stores { stores with mirror := stores.mirror.put key bytes }
  /-- The copy broke off. -/
  | broken {key : String} {bytes part : ByteArray}
      (held : stores.source.get key = some bytes)
      (short : part.size < bytes.size) :
      Touches stores { stores with mirror := stores.mirror.put key part }
  | removed (key : String) :
      Touches stores { stores with mirror := stores.mirror.delete key }
  | recorded (bytes : ByteArray) :
      Touches stores { stores with mirror := stores.mirror.put stateKey bytes }

theorem extract_size {bytes : ByteArray} {length : Nat}
    (short : length < bytes.size) :
    (bytes.extract 0 length).size = length := by
  rw [ByteArray.size_extract]
  omega

theorem exec_touches {stores after : Stores} {op : Op} {choice : Choice}
    {reply : Reply op}
    (executed : exec stores op choice = some (reply, after)) :
    Touches stores after := by
  cases op with
  | copy key =>
      cases choice with
      | works =>
          simp only [exec] at executed
          split at executed
          · rename_i bytes held
            cases executed
            exact .copied held
          · cases executed
            exact .nothing
      | fails =>
          cases executed
          exact .nothing
      | cut length reported =>
          simp only [exec] at executed
          split at executed
          · rename_i bytes held
            split at executed
            · rename_i short
              cases executed
              apply Touches.broken held
              rw [extract_size short]
              exact short
            · cases executed
          · cases executed
  | remove key =>
      cases choice with
      | works =>
          cases executed
          exact .removed key
      | fails =>
          cases executed
          exact .nothing
      | cut length reported => cases executed
  | writeState bytes =>
      cases choice with
      | works =>
          cases executed
          exact .recorded bytes
      | fails =>
          cases executed
          exact .nothing
      | cut length reported => cases executed
  | clock =>
      cases choice with
      | works =>
          cases executed
          exact .nothing
      | _ => cases executed
  | _ =>
      cases choice with
      | works =>
          cases executed
          exact .nothing
      | fails =>
          cases executed
          exact .nothing
      | cut length reported => cases executed

theorem Touches.source {stores after : Stores}
    (touches : Touches stores after) : after.source = stores.source := by
  cases touches with
  | _ => rfl

theorem Touches.fit {stores after : Stores} (touches : Touches stores after)
    (cold : ∀ key bytes, stores.source.get key = some bytes → Cold key)
    (fit : Fit stores) : Fit after := by
  cases touches with
  | nothing => exact fit
  | @copied target content held =>
      intro key old bytes mirrored source part same
      simp only [Bucket.get_put] at mirrored
      split at mirrored
      · rename_i itself
        cases mirrored
        subst itself
        exact Option.some.inj (held.symm.trans source)
      · exact fit key old bytes mirrored source part same
  | @broken target full part held short =>
      intro key old bytes mirrored source other same
      simp only [Bucket.get_put] at mirrored
      split at mirrored
      · rename_i itself
        cases mirrored
        subst itself
        cases held.symm.trans source
        omega
      · exact fit key old bytes mirrored source other same
  | removed target =>
      intro key old bytes mirrored source part same
      simp only [Bucket.get_delete] at mirrored
      split at mirrored
      · cases mirrored
      · exact fit key old bytes mirrored source part same
  | recorded content =>
      intro key old bytes mirrored source part same
      have other : key ≠ stateKey := (cold key bytes source).ne_state
      simp only [Bucket.get_put, if_neg other] at mirrored
      exact fit key old bytes mirrored source part same

theorem execWorld_archived {world after : World} {op : Op} {choice : Choice}
    {reply : Reply op} (archived : Archived world)
    (executed : execWorld world op choice = some (reply, after)) :
    Archived after := by
  obtain ⟨⟨answer, stores⟩, done, same⟩ := Option.map_eq_some_iff.mp executed
  cases same
  have touches := exec_touches done
  constructor
  · exact archived.names
  · intro key bytes found
    rw [touches.source] at found
    exact archived.cold key bytes found
  · exact touches.fit archived.cold archived.fit

/-- An export of which no part is written over a mirrored copy of its size. -/
theorem changeWorld_archived {hash : ColdExport.Measurement → Int}
    {state : State} {change : WorldChange} {after : World}
    (archived : Archived state.shared)
    (fits : Fits state (.environment change))
    (changed : changeWorld hash state.shared change = some after) :
    Archived after ∧ after.stores.mirror = state.shared.stores.mirror := by
  cases change with
  | tick seconds =>
      cases changed
      exact ⟨⟨archived.names, archived.cold, archived.fit⟩, rfl⟩
  | exports day event content =>
      obtain ⟨exporting, stepped, rfl⟩ := Option.map_eq_some_iff.mp changed
      have names : ∀ other, Names (Function.update state.shared.days day
          exporting other).running := by
        intro other
        by_cases same : other = day
        · subst same
          rw [Function.update_self]
          exact names_step (archived.names other) stepped
        · rw [Function.update_of_ne same]
          exact archived.names other
      cases written : writes day (state.shared.days day) event with
      | none => exact ⟨⟨names, archived.cold, archived.fit⟩, rfl⟩
      | some target =>
          refine ⟨⟨names, ?_, ?_⟩, rfl⟩
          · intro key bytes found
            simp only [Bucket.get_put] at found
            split at found
            · rename_i itself
              rw [itself]
              exact writes_cold (archived.names day) written
            · exact archived.cold key bytes found
          · intro key old bytes mirrored found part same
            simp only [Bucket.get_put] at found
            split at found
            · rename_i itself
              cases found
              subst itself
              exact fits key written part old mirrored same
            · exact archived.fit key old bytes mirrored found part same

/-! ## A run beside a source that does not change -/

/-- The terms of a run while the source holds these objects. -/
def terms (source : Bucket) : Contract World Op Choice where
  invariant world := Archived world ∧ world.stores.source = source
  allowed _ _ _ := True
  rely before after := after.stores.mirror = before.stores.mirror
  guarantee _ _ := True
  rely_refl _ := rfl
  rely_trans first second := second.trans first

section Run

variable {source : Bucket}

theorem call_safe {Answer : Type} {op : Op}
    {next : Reply op → Program Op Reply Aborted Answer}
    {post : Except Aborted Answer → World → Prop} {world : World}
    (rest : ∀ later, (terms source).invariant later →
      later.stores.mirror = world.stores.mirror → ∀ choice reply stores,
        exec later.stores op choice = some (reply, stores) →
          (terms source).invariant { later with stores } →
            (next reply).Safe execWorld (terms source) post
              { later with stores }) :
    (Program.call op next).Safe execWorld (terms source) post world := by
  intro later holds changed choice reply after _ executed
  have archived := execWorld_archived holds.1 executed
  obtain ⟨⟨answer, stores⟩, done, same⟩ := Option.map_eq_some_iff.mp executed
  cases same
  have holding : (terms source).invariant { later with stores } :=
    ⟨archived, (exec_touches done).source.trans holds.2⟩
  exact ⟨holding, trivial,
    rest later holds changed choice answer stores done holding⟩

/-- The mirror holds the object as the source does. -/
def Mirrored (source : Bucket) (world : World) (key : String) : Prop :=
  world.stores.mirror.get key = source.get key

/-- What was listed of the mirror still holds, or the object has been copied
since. -/
def Known (source : Bucket) (mirrored : List (String × Nat))
    (world : World) : Prop :=
  ∀ key size, mirrored.lookup key = some size →
    (∃ old, world.stores.mirror.get key = some old ∧ old.size = size) ∨
      Mirrored source world key

/-- What is left to copy. -/
structure Copying (source : Bucket) (mirrored objects : List (String × Nat))
    (left : List (String × Nat)) (world : World) : Prop where
  inside : ∀ object ∈ left, object ∈ objects
  known : Known source mirrored world
  copied : ∀ object ∈ objects, object ∈ left ∨
    Mirrored source world object.1

theorem Copying.stable {mirrored objects left : List (String × Nat)}
    {before after : World} (copying : Copying source mirrored objects left
      before)
    (same : after.stores.mirror = before.stores.mirror) :
    Copying source mirrored objects left after := by
  obtain ⟨inside, known, copied⟩ := copying
  constructor
  · exact inside
  · intro key size listed
    rw [Mirrored, same]
    exact known key size listed
  · intro object member
    rw [Mirrored, same]
    exact copied object member

/-- The object at the head is mirrored now. -/
theorem Copying.next {mirrored objects left : List (String × Nat)}
    {object : String × Nat} {world : World}
    (copying : Copying source mirrored objects (object :: left) world)
    (itself : Mirrored source world object.1) :
    Copying source mirrored objects left world := by
  constructor
  · exact fun other member =>
      copying.inside other (List.mem_cons_of_mem object member)
  · exact copying.known
  · intro other member
    rcases copying.copied other member with listed | done
    · rcases List.mem_cons.mp listed with rfl | later
      · exact .inr itself
      · exact .inl later
    · exact .inr done

theorem Copying.put {mirrored objects left : List (String × Nat)}
    {key : String} {bytes : ByteArray} {world : World}
    (copying : Copying source mirrored objects left world)
    (held : source.get key = some bytes) :
    Copying source mirrored objects left
      { world with stores := { world.stores with
          mirror := world.stores.mirror.put key bytes } } := by
  have still {other : String} (done : Mirrored source world other) :
      (world.stores.mirror.put key bytes).get other = source.get other := by
    rw [Bucket.get_put]
    split
    · rename_i same
      rw [same, held]
    · exact done
  constructor
  · exact copying.inside
  · intro other size listed
    by_cases same : other = key
    · right
      rw [Mirrored, Bucket.get_put, if_pos same, same, held]
    · rcases copying.known other size listed with ⟨old, kept, sized⟩ | done
      · left
        refine ⟨old, ?_, sized⟩
        rw [Bucket.get_put, if_neg same]
        exact kept
      · exact .inr (still done)
  · intro other member
    rcases copying.copied other member with listed | done
    · exact .inl listed
    · exact .inr (still done)

theorem failed_safe {Answer : Type} {world : World}
    {post : Except Aborted Answer → World → Prop}
    (fails : ∀ later, post (.error .exit) later) :
    (Program.fail .exit : Mirroring Answer).Safe execWorld (terms source) post
      world :=
  fun later _ _ => fails later

/-- The size is checked, and the object is mirrored where it is right. -/
theorem head_safe {post : World → Prop} {object : String × Nat}
    {world : World}
    (sized : ∀ later, later.stores.mirror = world.stores.mirror →
      (later.stores.mirror.get object.1).map ByteArray.size =
        some object.2 → post later) :
    (headObject object.1 >>= fun size =>
      succeed (size = some object.2)).Safe execWorld (terms source)
        (fun result later => result = .ok () → post later) world := by
  apply call_safe
  intro later kept changed choice reply stores executed _
  cases choice with
  | works =>
      cases executed
      simp only [Program.bind]
      by_cases same : (later.stores.mirror.get object.1).map
          ByteArray.size = some object.2
      · rw [decide_eq_true same]
        intro last _ still _
        have mirror : last.stores.mirror = world.stores.mirror :=
          still.trans changed
        apply sized last mirror
        rw [mirror, ← changed]
        exact same
      · rw [decide_eq_false same]
        exact failed_safe fun _ => nofun
  | fails =>
      cases executed
      exact failed_safe fun _ => nofun
  | cut length reported => cases executed

theorem copyObject_safe {shell : Shell} {retain : Nat}
    {mirrored objects left : List (String × Nat)} {object : String × Nat}
    {world : World} (holds : (terms source).invariant world)
    (held : ∃ bytes, source.get object.1 = some bytes ∧
      bytes.size = object.2)
    (copying : Copying source mirrored objects (object :: left) world) :
    (copyObject (coldConfig shell retain) mirrored object).Safe execWorld
      (terms source) (fun result later => result = .ok () →
        Copying source mirrored objects left later) world := by
  obtain ⟨bytes, found, sized⟩ := held
  have cold : Cold object.1 := by
    apply holds.1.cold object.1 bytes
    rw [holds.2]
    exact found
  rw [copyObject, if_neg cold.ne_empty]
  split
  · rename_i already
    obtain ⟨listed, part⟩ := Bool.and_eq_true_iff.mp already
    rw [decide_eq_true_eq] at listed
    have plain : (coldConfig shell retain).shell.awkValue object.1 =
        object.1 := shell.plain object.1 cold.plain
    rw [plain] at listed
    have itself : Mirrored source world object.1 := by
      rcases copying.known object.1 object.2 listed with
        ⟨old, kept, same⟩ | done
      · have equal : old = bytes := by
          apply holds.1.fit object.1 old bytes kept
          · rw [holds.2]
            exact found
          · simpa [coldConfig] using part
          · rw [same, sized]
        rw [Mirrored, kept, found, equal]
      · exact done
    exact fun later _ changed _ => (copying.next itself).stable changed
  · apply call_safe
    intro later kept changed choice reply stores executed _
    have here : later.stores.source.get object.1 = some bytes := by
      rw [kept.2]
      exact found
    have still := copying.stable changed
    cases choice with
    | fails =>
        cases executed
        exact failed_safe fun _ => nofun
    | works =>
        simp only [exec, here, Option.some.injEq, Prod.mk.injEq] at executed
        obtain ⟨rfl, rfl⟩ := executed
        have copied := still.put found
        apply head_safe
        intro last same _
        apply (copied.stable same).next
        rw [Mirrored, same, Bucket.get_put, if_pos rfl, found]
    | cut length reported =>
        simp only [exec, here] at executed
        split at executed
        · rename_i short
          simp only [Option.some.injEq, Prod.mk.injEq] at executed
          obtain ⟨rfl, rfl⟩ := executed
          cases reported with
          | true => exact failed_safe fun _ => nofun
          | false =>
              apply head_safe
              intro last same measured
              rw [same, Bucket.get_put, if_pos rfl, Option.map_some,
                extract_size short, Option.some.injEq] at measured
              omega
        · cases executed

/-- Every listed object is mirrored. -/
def AllMirrored (source : Bucket) (objects : List (String × Nat))
    (world : World) : Prop :=
  ∀ object ∈ objects, Mirrored source world object.1

theorem AllMirrored.stable {objects : List (String × Nat)}
    {before after : World} (all : AllMirrored source objects before)
    (same : after.stores.mirror = before.stores.mirror) :
    AllMirrored source objects after := by
  intro object member
  rw [Mirrored, same]
  exact all object member

theorem missing_absent {state : String} {now : Nat}
    {objects mirrored : List (String × Nat)} {absences : Absences}
    {absence : String × String}
    (member : absence ∈ missing state now objects absences mirrored) :
    absence.1 ∉ objects.map Prod.fst := by
  obtain ⟨object, found, rfl⟩ := List.mem_map.mp member
  have absent := (List.mem_filter.mp found).2
  simp only [Bool.and_eq_true, Bool.not_eq_true'] at absent
  intro present
  have contained := List.contains_iff_mem.mpr present
  rw [absent.2] at contained
  cases contained

/-- What is left to remove is not at the source. -/
structure Ageing (source : Bucket) (objects : List (String × Nat))
    (keys : List String) (world : World) : Prop where
  absent : ∀ key ∈ keys, key ∉ objects.map Prod.fst
  all : AllMirrored source objects world

theorem remove_safe {objects : List (String × Nat)} {key : String}
    {keys : List String} {world : World}
    (ageing : Ageing source objects (key :: keys) world) :
    (remove key >>= fun _ => pure ()).Safe execWorld (terms source)
      (fun result later => result = .ok () →
        Ageing source objects keys later) world := by
  obtain ⟨absent, all⟩ := ageing
  have others := fun other member =>
    absent other (List.mem_cons_of_mem key member)
  apply call_safe
  intro later _ changed choice reply stores executed _
  cases choice with
  | works =>
      cases executed
      intro last _ same _
      refine ⟨others, fun object member => ?_⟩
      have other : object.1 ≠ key := by
        rintro rfl
        exact absent _ List.mem_cons_self (List.mem_map_of_mem member)
      rw [Mirrored, same, Bucket.get_delete, if_neg other]
      exact all.stable changed object member
  | fails =>
      cases executed
      exact fun last _ same _ => ⟨others, all.stable (same.trans changed)⟩
  | cut length reported => cases executed

theorem writeState_safe {objects : List (String × Nat)} {bytes : ByteArray}
    {world : World} (cold : ∀ object ∈ objects, Cold object.1)
    (all : AllMirrored source objects world) :
    (writeState bytes >>= fun _ => pure ()).Safe execWorld (terms source)
      (fun result later => result = .ok () →
        AllMirrored source objects later) world := by
  apply call_safe
  intro later _ changed choice reply stores executed _
  cases choice with
  | works =>
      cases executed
      intro last _ same _ object member
      rw [Mirrored, same, Bucket.get_put,
        if_neg (cold object member).ne_state]
      exact all.stable changed object member
  | fails =>
      cases executed
      exact fun last _ same _ => all.stable (same.trans changed)
  | cut length reported => cases executed

theorem ageOutMirror_safe {config : Config}
    {objects mirrored : List (String × Nat)} {world : World}
    (cold : ∀ object ∈ objects, Cold object.1)
    (all : AllMirrored source objects world) :
    (ageOutMirror config objects mirrored).Safe execWorld (terms source)
      (fun result later => result = .ok () →
        AllMirrored source objects later) world := by
  apply call_safe
  intro timed _ first choice now stores executed _
  have here : AllMirrored source objects { timed with stores } := by
    cases choice with
    | works =>
        cases executed
        exact all.stable first
    | _ => cases executed
  dsimp only [Program.bind]
  split
  · exact fun later _ same _ => here.stable same
  · apply call_safe
    intro read _ second choice stored stores executed holding
    have known : AllMirrored source objects { read with stores } := by
      cases choice with
      | works =>
          cases executed
          exact here.stable second
      | fails =>
          cases executed
          exact here.stable second
      | cut length reported => cases executed
    have starts : Ageing source objects (((missing stateKey now objects
        ((stored.map readAbsences).getD []) mirrored).filter
          (expired config.shell config.retain now)).map Prod.fst)
        { read with stores } := by
      refine ⟨fun key member => ?_, known⟩
      obtain ⟨absence, found, rfl⟩ := List.mem_map.mp member
      exact missing_absent (List.mem_filter.mp found).1
    have one : ∀ key keys world, (terms source).invariant world →
        Ageing source objects (key :: keys) world →
          (remove key >>= fun _ => pure ()).Safe execWorld (terms source)
            (fun result later => result = .ok () →
              Ageing source objects keys later) world :=
      fun key keys world _ ageing => remove_safe ageing
    simp only [Program.bind]
    apply Program.Safe.bind holding
    · exact Program.Safe.each one holding starts
        fun same ageing => ⟨ageing.absent, ageing.all.stable same⟩
    · intro _ later _ done
      exact writeState_safe cold (done rfl).all
    · intro error later _
      nofun

theorem listed_held {shell : Shell} {retain : Nat} {object : String × Nat}
    (member : object ∈ sourceKeys (coldConfig shell retain) source.listing) :
    ∃ bytes, source.get object.1 = some bytes ∧ bytes.size = object.2 :=
  Bucket.mem_listing.mp
    (List.mem_filter.mp (List.mem_filter.mp member).1).1

theorem held_listed (shell : Shell) (retain : Nat) {key : String}
    {bytes : ByteArray} (held : source.get key = some bytes)
    (safe : unsafeKey key = false) :
    (key, bytes.size) ∈
      sourceKeys (coldConfig shell retain) source.listing := by
  have listed : (key, bytes.size) ∈ source.listing :=
    Bucket.mem_listing.mpr ⟨bytes, held, rfl⟩
  apply List.mem_filter.mpr
  constructor
  · exact List.mem_filter.mpr ⟨listed, by simp [safe]⟩
  · rfl

/-- What a run that completes leaves. -/
def Faithful (source : Bucket) (mirror : Bucket) : Prop :=
  ∀ key bytes, source.get key = some bytes → unsafeKey key = false →
    mirror.get key = some bytes

theorem copyAll_safe {shell : Shell} {retain : Nat} {world : World}
    {mirrored : List (String × Nat)}
    (holds : (terms source).invariant world)
    (known : Known source mirrored world) :
    (Program.each (copyObject (coldConfig shell retain) mirrored)
      (sourceKeys (coldConfig shell retain) source.listing)).Safe execWorld
        (terms source) (fun result later => result = .ok () →
          AllMirrored source
            (sourceKeys (coldConfig shell retain) source.listing) later)
        world := by
  have one : ∀ object left world, (terms source).invariant world →
      Copying source mirrored (sourceKeys (coldConfig shell retain)
        source.listing) (object :: left) world →
        (copyObject (coldConfig shell retain) mirrored object).Safe execWorld
          (terms source) (fun result later => result = .ok () →
            Copying source mirrored (sourceKeys (coldConfig shell retain)
              source.listing) left later) world :=
    fun object left world holds copying => copyObject_safe holds
      (listed_held (copying.inside object List.mem_cons_self)) copying
  have starts : Copying source mirrored (sourceKeys (coldConfig shell retain)
      source.listing) (sourceKeys (coldConfig shell retain) source.listing)
      world :=
    ⟨fun _ member => member, known, fun _ member => .inl member⟩
  have loop := Program.Safe.each one holds starts
    fun same copying => copying.stable same
  apply loop.mono
  intro result later _ copied done object member
  rcases (copied done).copied object member with left | mirrored
  · cases left
  · exact mirrored

/-- A run that completes has mirrored what the source holds. -/
theorem mirrorBucket_safe {shell : Shell} {retain : Nat} {world : World} :
    (mirrorBucket (coldConfig shell retain)).Safe execWorld (terms source)
      (fun result later => (∃ skipped, result = .ok skipped) →
        Faithful source later.stores.mirror) world := by
  apply call_safe
  intro begun kept _ choice listed stores executed _
  cases choice with
  | fails =>
      cases executed
      exact failed_safe fun _ => nofun
  | cut length reported => cases executed
  | works =>
      cases executed
      rw [kept.2]
      apply call_safe
      intro begun kept _ choice held stores executed holding
      cases choice with
      | fails =>
          cases executed
          exact failed_safe fun _ => nofun
      | cut length reported => cases executed
      | works =>
          cases executed
          have known : Known source (safeKeys begun.stores.mirror.listing)
              begun := by
            intro key size listed
            obtain ⟨before, after, split_, -⟩ :=
              List.lookup_eq_some_iff.mp listed
            have member : (key, size) ∈
                safeKeys begun.stores.mirror.listing := by
              rw [split_]
              exact List.mem_append_right _ List.mem_cons_self
            exact .inl (Bucket.mem_listing.mp (List.mem_filter.mp member).1)
          apply Program.Safe.bind holding (copyAll_safe holding known)
          · intro _ later keeps copied
            have cold : ∀ object ∈ sourceKeys (coldConfig shell retain)
                source.listing, Cold object.1 := by
              intro object member
              obtain ⟨bytes, found, -⟩ := listed_held member
              apply keeps.1.cold object.1 bytes
              rw [keeps.2]
              exact found
            apply Program.Safe.bind keeps
              (ageOutMirror_safe cold (copied rfl))
            · intro _ aged _ all last _ same _ key bytes found safe
              have itself := (all rfl).stable same _
                (held_listed shell retain found safe)
              exact itself.trans found
            · intro error last _
              nofun
          · intro error last _
            nofun

end Run

/-! ## Every history -/

section History

variable {hash : ColdExport.Measurement → Int} {shell : Shell} {retain : Nat}

/-- The events of the mirror and of the exports. -/
abbrev Steps (hash : ColdExport.Measurement → Int) (shell : Shell)
    (retain : Nat) : State → Event → Option State :=
  Solo.step (mirroring hash (coldConfig shell retain))

theorem fresh_archived (rows : ColdDay → ColdExport.Day) (now : Nat) :
    Archived (fresh rows now).shared := by
  constructor
  · intro day
    trivial
  · intro key bytes found
    cases found
  · intro key old bytes mirrored
    cases mirrored

theorem step_archived {state next : State} {event : Event}
    (archived : Archived state.shared) (fits : Fits state event)
    (stepped : Steps hash shell retain state event = some next) :
    Archived next.shared := by
  cases event with
  | start =>
      simp only [Steps, Solo.step] at stepped
      split at stepped
      · cases stepped
        exact archived
      · cases stepped
  | step choice =>
      cases running : state.running with
      | call op rest =>
          simp only [Steps, Solo.step, running, Option.map_eq_some_iff]
            at stepped
          obtain ⟨⟨reply, after⟩, executed, rfl⟩ := stepped
          exact execWorld_archived archived executed
      | _ => simp [Steps, Solo.step, running] at stepped
  | crash =>
      cases stepped
      exact archived
  | lose choice =>
      cases running : state.running with
      | call op rest =>
          simp only [Steps, Solo.step, running, Option.map_eq_some_iff]
            at stepped
          obtain ⟨⟨reply, after⟩, executed, rfl⟩ := stepped
          exact execWorld_archived archived executed
      | _ => simp [Steps, Solo.step, running] at stepped
  | environment change =>
      obtain ⟨after, changed, rfl⟩ := Option.map_eq_some_iff.mp stepped
      exact (changeWorld_archived archived fits changed).1

theorem changeWorld_quiet {state : State} {change : WorldChange}
    {after : World} (quiet : Quiet state (.environment change))
    (changed : changeWorld hash state.shared change = some after) :
    after.stores.source = state.shared.stores.source := by
  cases change with
  | tick seconds =>
      cases changed
      rfl
  | exports day event content =>
      obtain ⟨exporting, -, rfl⟩ := Option.map_eq_some_iff.mp changed
      have unwritten : writes day (state.shared.days day) event = none := quiet
      rw [unwritten]

/-- Under way beside a source that does not change. -/
abbrev Under (hash : ColdExport.Measurement → Int) (shell : Shell)
    (retain : Nat) (source : Bucket) (state : State) : Prop :=
  Solo.Fulfils (mirroring hash (coldConfig shell retain)) (terms source)
    (fun result later => (∃ skipped, result = .ok skipped) →
      Faithful source later.stores.mirror) state

theorem step_under {source : Bucket} {state next : State} {event : Event}
    (under : Under hash shell retain source state) (fits : Fits state event)
    (quiet : Quiet state event)
    (stepped : Steps hash shell retain state event = some next) :
    Under hash shell retain source next := by
  refine (Solo.step_fulfils (fun _ _ => mirrorBucket_safe) ?_ ?_ under
    (fun _ _ _ => trivial) stepped).1
  · intro shared _
    nofun
  · rintro change after rfl changed
    obtain ⟨archived, same⟩ :=
      changeWorld_archived under.holds.1 fits changed
    have source := (changeWorld_quiet quiet changed).trans under.holds.2
    exact ⟨⟨archived, source⟩, same⟩

/-- A run that completes, while the source does not change, leaves a faithful
mirror, whatever came before it. -/
theorem completed_run_faithful (rows : ColdDay → ColdExport.Day) (now : Nat)
    {before during : List Event} {begun final : State}
    {skipped : List String}
    (ran : run (Steps hash shell retain) (fresh rows now) before = some begun)
    (rest : run (Steps hash shell retain) begun (.start :: during) =
      some final)
    (fits : Along (Steps hash shell retain) Fits (fresh rows now)
      (before ++ .start :: during))
    (quiet : Along (Steps hash shell retain) Quiet begun (.start :: during))
    (completed : final.running = .done skipped) :
    Faithful final.shared.stores.source final.shared.stores.mirror := by
  obtain ⟨early, late⟩ := fits.append ran
  have archived : Archived begun.shared :=
    run_preserves_along (fun state => Archived state.shared)
      (fun _ _ _ => step_archived) (fresh_archived rows now) early ran
  obtain ⟨started, begins, rest⟩ := run_cons.mp rest
  have under : Under hash shell retain begun.shared.stores.source started := by
    simp only [Steps, Solo.step] at begins
    split at begins
    · cases begins
      exact ⟨⟨archived, rfl⟩, mirrorBucket_safe⟩
    · cases begins
  have ended := run_preserves_along
    (Under hash shell retain begun.shared.stores.source)
    (fun _ _ _ under both => step_under under both.1 both.2) under
    ((late.2 started begins).and (quiet.2 started begins)) rest
  obtain ⟨holds, safe⟩ := ended
  rw [completed] at safe
  have faithful := safe final.shared holds rfl ⟨skipped, rfl⟩
  rw [holds.2]
  exact faithful

end History

/-! ## A part that is exported again -/

/-- A day with one reading. -/
def sampleDay : ColdDay :=
  ⟨0, 2025, 11, 8⟩

def sampleRow (value : UInt64) : ColdExport.Measurement where
  time := 0
  sensorId := "s"
  equipmentId := "e"
  siteId := "factory_north"
  value := value
  unit := none
  qualityCode := none
  isAnomaly := none

def sampleRows (day : ColdDay) : ColdExport.Day :=
  if day = sampleDay then ⟨[sampleRow 1], by decide⟩ else .empty

def sampleHash (row : ColdExport.Measurement) : Int :=
  row.value.toNat

abbrev SampleSteps : State → Event → Option State :=
  Steps sampleHash plainShell (14 * 86400)

def exported (event : SoloEvent Unit Change) (bytes : ByteArray) : Event :=
  .environment (.exports sampleDay event bytes)

/-- An export that makes so many calls before it writes the part; its drop is
still to come. -/
def exportedPart (calls : Nat) (bytes : ByteArray) : List Event :=
  exported .start .empty :: List.replicate calls (exported (.step ()) .empty) ++
    [exported (.step ()) bytes, exported (.step ()) .empty,
      exported (.step ()) ⟨#[7]⟩]

/-- The calls of a mirror run that copies so many objects. -/
def mirrorCalls (copies : Nat) : List Event :=
  List.replicate (2 + 2 * copies + 3) (.step .works)

theorem mirrorCalls_quiet (state : State) (copies : Nat) :
    Along SampleSteps Quiet state (.start :: mirrorCalls copies) := by
  have own : ∀ event ∈ (.start :: mirrorCalls copies : List Event),
      ∀ change, event ≠ .environment change := by
    intro event member change
    rcases List.mem_cons.mp member with rfl | later
    · nofun
    · rw [(List.mem_replicate.mp later).2]
      nofun
  apply (Along.of_forall SampleSteps state own).mono
  intro state event other
  cases event with
  | environment change => exact absurd rfl (other change)
  | _ => trivial

/-- A part is exported and dropped, and then mirrored. -/
theorem completed_run_faithful_one_part :
    ∃ final, run SampleSteps (fresh sampleRows 0)
        ((exportedPart 2 ⟨#[1]⟩ ++ [exported (.step ()) .empty]) ++
          .start :: mirrorCalls 2) = some final ∧
      final.shared.stores.source.objects.length = 2 ∧
      Faithful final.shared.stores.source final.shared.stores.mirror := by
  have ends : (run SampleSteps (fresh sampleRows 0)
      ((exportedPart 2 ⟨#[1]⟩ ++ [exported (.step ()) .empty]) ++
        .start :: mirrorCalls 2)).map (fun final =>
          (final.running.answer?,
            final.shared.stores.source.objects.length)) =
      some (some [], 2) := by
    decide +kernel
  obtain ⟨final, whole, facts⟩ := Option.map_eq_some_iff.mp ends
  obtain ⟨answered, count⟩ := Prod.mk.inj facts
  obtain ⟨begun, ran, rest⟩ := run_append.mp whole
  have fits : Along SampleSteps Fits (fresh sampleRows 0)
      ((exportedPart 2 ⟨#[1]⟩ ++ [exported (.step ()) .empty]) ++
        .start :: mirrorCalls 2) := by
    decide +kernel
  exact ⟨final, whole, count, completed_run_faithful sampleRows 0 ran rest fits
    (mirrorCalls_quiet begun 2) (Program.answer?_eq_some answered)⟩

/-- The reading changes before the drop, so that the part, once mirrored, is
exported again at the same size. -/
def exportedAgain : List Event :=
  exportedPart 2 ⟨#[1]⟩ ++
    [exported (.environment (.update (0, "s") (sampleRow 2))) .empty,
      exported (.step ()) .empty] ++
    .start :: mirrorCalls 2 ++ exportedPart 3 ⟨#[2]⟩ ++
    [exported (.step ()) .empty]

/-- The mirror keeps the part as it was. -/
theorem stale_part_mirrored :
    ¬∀ (rows : ColdDay → ColdExport.Day) (now : Nat)
        (before during : List Event) (begun final : State)
        (skipped : List String),
      run SampleSteps (fresh rows now) before = some begun →
        run SampleSteps begun (.start :: during) = some final →
          Along SampleSteps Quiet begun (.start :: during) →
            final.running = .done skipped →
              Faithful final.shared.stores.source
                final.shared.stores.mirror := by
  intro claimed
  have ends : (run SampleSteps (fresh sampleRows 0)
      (exportedAgain ++ .start :: mirrorCalls 1)).map (fun final =>
        (final.running.answer?,
          final.shared.stores.source.get (sampleDay.partKey (partFile 0)),
          final.shared.stores.mirror.get (sampleDay.partKey (partFile 0)))) =
      some (some [], some ⟨#[2]⟩, some ⟨#[1]⟩) := by
    decide +kernel
  obtain ⟨final, whole, facts⟩ := Option.map_eq_some_iff.mp ends
  obtain ⟨answered, facts⟩ := Prod.mk.inj facts
  obtain ⟨held, mirrored⟩ := Prod.mk.inj facts
  obtain ⟨begun, ran, rest⟩ := run_append.mp whole
  have faithful := claimed sampleRows 0 exportedAgain (mirrorCalls 1) begun
    final [] ran rest (mirrorCalls_quiet begun 1)
    (Program.answer?_eq_some answered)
  have fresh := faithful _ _ held (by decide +kernel)
  rw [mirrored] at fresh
  exact absurd fresh (by decide)

end IndustryFlow.Backup
