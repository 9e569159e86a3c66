import IndustryFlow.Backup.Mirror
import IndustryFlow.Concurrent.Run
import Mathlib.Data.List.Induction

/-!
# When an object leaves the mirror

A mirrored object that the source no longer holds is removed once it has been
missing for the retention period.  When it went missing is kept in a record
that every run writes anew; the calls of `age_out_mirror` may fail, and none of
their failures ends the run.
-/

namespace IndustryFlow.Backup

open Concurrent

/-! ## The record -/

/-- An absence that is one line of the record. -/
def OneLine (absence : String × String) : Prop :=
  ∀ char ∈ ['\t', '\n'], char ∉ absence.1.toList ∧ char ∉ absence.2.toList

theorem absencesOf_absentText {absences : Absences}
    (lines : ∀ absence ∈ absences, OneLine absence) :
    absencesOf (absentText absences) = absences := by
  let line (absence : String × String) : List Char :=
    ['\t'].intercalate [absence.1.toList, absence.2.toList]
  have line_eq (absence : String × String) :
      line absence = absence.1.toList ++ '\t' :: absence.2.toList := by
    simp [line, List.intercalate]
  have whole : ∀ text ∈ absences.map line ++ [[]], '\n' ∉ text := by
    intro text member
    rcases List.mem_append.mp member with absent | last
    · obtain ⟨absence, found, rfl⟩ := List.mem_map.mp absent
      have clean := lines absence found '\n' (by simp)
      rw [line_eq]
      simp [clean.1, clean.2]
    · rw [List.mem_singleton.mp last]
      exact List.not_mem_nil
  have cut := List.splitOn_intercalate '\n' whole (by simp)
  have kept : (absences.map line ++ [[]]).filter (· ≠ []) =
      absences.map line := by
    rw [List.filter_append, List.filter_eq_self.mpr]
    · simp
    · intro text member
      obtain ⟨absence, -, rfl⟩ := List.mem_map.mp member
      rw [line_eq]
      simp
  rw [absencesOf, absentText, String.toList_ofList, cut, kept, List.map_map]
  apply (List.map_congr_left _).trans (List.map_id absences)
  intro absence member
  have clean := lines absence member '\t' (by simp)
  have fields : (line absence).splitOn '\t' =
      [absence.1.toList, absence.2.toList] :=
    List.splitOn_intercalate '\t' (by simp [clean.1, clean.2]) (by simp)
  simp [fields]

theorem readAbsences_absentText {absences : Absences}
    (lines : ∀ absence ∈ absences, OneLine absence) :
    readAbsences (absentText absences).toUTF8 = absences := by
  have valid : (absentText absences).toUTF8.IsValidUTF8 :=
    (absentText absences).isValidUTF8
  have decoded : String.fromUTF8? (absentText absences).toUTF8 =
      some (absentText absences) := by
    rw [String.fromUTF8?, dif_pos valid]
    rfl
  rw [readAbsences, decoded]
  exact absencesOf_absentText lines

/-! ## One run by itself -/

/-- The calls of `age_out_mirror` that fail. -/
structure Faults where
  read : Bool
  remove : String → Bool
  write : Bool

/-- What becomes of a call. -/
def Faults.choice (faults : Faults) : Op → Choice
  | .readState => if faults.read then .fails else .works
  | .remove key => if faults.remove key then .fails else .works
  | .writeState _ => if faults.write then .fails else .works
  | _ => .works

/-- A run of the mirror: what the source holds, the time, and what fails. -/
structure MirrorRun where
  source : Bucket
  now : Nat
  faults : Faults

variable (config : Config)

namespace MirrorRun

/-- The listing of the source. -/
def objects (mirrorRun : MirrorRun) : List (String × Nat) :=
  sourceKeys config mirrorRun.source.listing

def stores (mirrorRun : MirrorRun) (mirror : Bucket) : Stores :=
  ⟨mirrorRun.source, mirror, mirrorRun.now⟩

/-- How the run ends, and what it leaves. -/
def outcome (mirrorRun : MirrorRun) (mirror : Bucket) :
    Option (Except Aborted (List String) × Stores) :=
  (mirrorBucket config).alone
    (fun stores op => exec stores op (mirrorRun.faults.choice op))
    (mirrorRun.stores mirror)

end MirrorRun

section Alone

variable {config} {faults : Faults}

abbrev Alone {Answer : Type} (faults : Faults) (program : Mirroring Answer)
    (stores : Stores) : Option (Except Aborted Answer × Stores) :=
  program.alone (fun stores op => exec stores op (faults.choice op)) stores

theorem alone_done {First Second : Type} {program : Mirroring First}
    {rest : First → Mirroring Second} {answer : First}
    {stores after : Stores}
    (ran : Alone faults program stores = some (.ok answer, after)) :
    Alone faults (program >>= rest) stores =
      Alone faults (rest answer) after := by
  rw [Alone] at ran ⊢
  rw [Program.alone_bind, ran]
  rfl

/-- What copying leaves of a mirror. -/
structure Copied (keys : List String) (before after : Bucket) : Prop where
  others : ∀ key, key ∉ keys → after.get key = before.get key
  kept : ∀ key, (before.get key).isSome → (after.get key).isSome

theorem Copied.refl (keys : List String) (mirror : Bucket) :
    Copied keys mirror mirror :=
  ⟨fun _ _ => rfl, fun _ held => held⟩

theorem copyObject_alone {mirrored : List (String × Nat)}
    {object : String × Nat} {stores : Stores}
    (listed : object ∈ stores.source.listing) :
    ∃ mirror, Alone faults (copyObject config mirrored object) stores =
        some (.ok (), { stores with mirror }) ∧
      Copied [object.1] stores.mirror mirror := by
  obtain ⟨bytes, held, sized⟩ := Bucket.mem_listing.mp listed
  rw [copyObject]
  split
  · exact ⟨stores.mirror, rfl, .refl _ _⟩
  · split
    · exact ⟨stores.mirror, rfl, .refl _ _⟩
    · refine ⟨stores.mirror.put object.1 bytes, ?_, ?_, ?_⟩
      · have copied : exec stores (.copy object.1)
            (faults.choice (.copy object.1)) =
            some (true, { stores with
              mirror := stores.mirror.put object.1 bytes }) := by
          simp [exec, Faults.choice, held]
        have headed : exec { stores with
              mirror := stores.mirror.put object.1 bytes } (.head object.1)
            (faults.choice (.head object.1)) =
            some (some object.2, { stores with
              mirror := stores.mirror.put object.1 bytes }) := by
          simp [exec, Faults.choice, Bucket.get_put, sized]
        simp only [Alone, Program.perform_bind]
        rw [Program.alone_call copied]
        simp only [succeed, if_true, Program.done_bind]
        rw [Program.alone_call headed]
        simp [Program.alone]
      · intro key other
        rw [Bucket.get_put, if_neg (by simpa using other)]
      · intro key held
        rw [Bucket.get_put]
        split
        · rfl
        · exact held

theorem copyAll_alone (config : Config) (faults : Faults)
    (mirrored : List (String × Nat)) (stores : Stores)
    {objects : List (String × Nat)}
    (listed : ∀ object ∈ objects, object ∈ stores.source.listing) :
    ∃ mirror, Alone faults
        (Program.each (copyObject config mirrored) objects) stores =
        some (.ok (), { stores with mirror }) ∧
      Copied (objects.map Prod.fst) stores.mirror mirror := by
  induction objects generalizing stores with
  | nil => exact ⟨stores.mirror, rfl, .refl _ _⟩
  | cons object objects induction =>
      obtain ⟨first, ran, copied⟩ :=
        copyObject_alone (listed object List.mem_cons_self)
      obtain ⟨last, rest, others⟩ :=
        induction { stores with mirror := first }
          fun other member => listed other (List.mem_cons_of_mem _ member)
      refine ⟨last, ?_, ?_, ?_⟩
      · rw [Program.each, alone_done ran]
        exact rest
      · intro key absent
        rw [List.map_cons, List.mem_cons, not_or] at absent
        rw [others.others key absent.2,
          copied.others key (by simpa using absent.1)]
      · exact fun key held => others.kept key (copied.kept key held)

theorem removeAll_alone (faults : Faults) (keys : List String)
    (stores : Stores) :
    ∃ mirror, Alone faults (Program.each (fun key => do
          let _ ← remove key
          pure ()) keys) stores = some (.ok (), { stores with mirror }) ∧
      ∀ key, mirror.get key =
        if key ∈ keys ∧ faults.remove key = false then none
        else stores.mirror.get key := by
  induction keys generalizing stores with
  | nil => exact ⟨stores.mirror, rfl, fun _ => by simp⟩
  | cons head keys induction =>
      by_cases failed : faults.remove head = true
      · have refused : exec stores (.remove head)
            (faults.choice (.remove head)) = some (false, stores) := by
          simp [exec, Faults.choice, failed]
        have first : Alone faults (remove head >>= fun _ => pure ()) stores =
            some (.ok (), stores) := by
          rw [Alone, Program.perform_bind, Program.alone_call refused]
          rfl
        obtain ⟨mirror, rest, gone⟩ := induction stores
        refine ⟨mirror, ?_, fun key => ?_⟩
        · rw [Program.each, alone_done first]
          exact rest
        · rw [gone]
          by_cases same : key = head
          · simp [same, failed]
          · simp [same]
      · rw [Bool.not_eq_true] at failed
        have removed : exec stores (.remove head)
            (faults.choice (.remove head)) =
            some (true,
              { stores with mirror := stores.mirror.delete head }) := by
          simp [exec, Faults.choice, failed]
        have first : Alone faults (remove head >>= fun _ => pure ()) stores =
            some (.ok (),
              { stores with mirror := stores.mirror.delete head }) := by
          rw [Alone, Program.perform_bind, Program.alone_call removed]
          rfl
        obtain ⟨mirror, rest, gone⟩ :=
          induction { stores with mirror := stores.mirror.delete head }
        refine ⟨mirror, ?_, fun key => ?_⟩
        · rw [Program.each, alone_done first]
          exact rest
        · rw [gone, Bucket.get_delete]
          by_cases same : key = head
          · simp [same, failed]
          · simp [same]

end Alone

/-! ## What a run does with the record -/

/-- When the object went missing, by the last of its lines. -/
def told (absences : Absences) (key : String) : Option String :=
  absences.reverse.lookup key

theorem told_eq_some {absences : Absences} {key text : String}
    (member : (key, text) ∈ absences)
    (only : ∀ other, (key, other) ∈ absences → other = text) :
    told absences key = some text := by
  have found : (told absences key).isSome := by
    rw [told, List.lookup_isSome_iff]
    exact ⟨_, List.mem_reverse.mpr member, by simp⟩
  obtain ⟨other, same⟩ := Option.isSome_iff_exists.mp found
  rw [same, only other]
  obtain ⟨before, after, split, -⟩ := List.lookup_eq_some_iff.mp same
  rw [← List.mem_reverse, split]
  simp

theorem told_eq_none {absences : Absences} {key : String}
    (absent : ∀ text, (key, text) ∉ absences) : told absences key = none := by
  rw [told, List.lookup_eq_none_iff]
  intro absence member
  rw [bne_iff_ne]
  rintro rfl
  exact absent absence.2 (List.mem_reverse.mp member)

/-- The record of the mirror. -/
def record (mirror : Bucket) : Absences :=
  ((mirror.get stateKey).map readAbsences).getD []

namespace MirrorRun

variable (mirrorRun : MirrorRun) (mirror : Bucket)

def keys : List String :=
  (mirrorRun.objects config).map Prod.fst

/-- The mirrored objects that the run misses, where it reads these lines. -/
def absent (absences : Absences) : Absences :=
  missing stateKey mirrorRun.now (mirrorRun.objects config) absences
    (safeKeys mirror.listing)

/-- What the run reads. -/
def absences : Absences :=
  if mirrorRun.faults.read then [] else record mirror

/-- The objects to remove. -/
def gone (absences : Absences) : List String :=
  ((mirrorRun.absent config mirror absences).filter
    (expired config.shell config.retain mirrorRun.now)).map Prod.fst

/-- The lines to write. -/
def pending (absences : Absences) : Absences :=
  (mirrorRun.absent config mirror absences).filter fun absence =>
    !expired config.shell config.retain mirrorRun.now absence

/-- What a run leaves. -/
structure Leaves (after : Bucket) : Prop where
  /-- What the source does not list. -/
  unlisted : ∀ key, key ∉ mirrorRun.keys config → key ≠ stateKey →
    after.get key =
      if key ∈ mirrorRun.gone config mirror (mirrorRun.absences mirror) ∧
          mirrorRun.faults.remove key = false then none
      else mirror.get key
  kept : ∀ key, key ∈ mirrorRun.keys config → (mirror.get key).isSome →
    (after.get key).isSome
  state : after.get stateKey =
    if mirrorRun.faults.write then mirror.get stateKey
    else some (absentText (mirrorRun.pending config mirror
      (mirrorRun.absences mirror))).toUTF8

end MirrorRun

section Outcome

variable {config} {mirrorRun : MirrorRun} {mirror : Bucket}

theorem gone_unlisted {absences : Absences} {key : String}
    (member : key ∈ mirrorRun.gone config mirror absences) :
    key ∉ mirrorRun.keys config ∧ key ≠ stateKey := by
  obtain ⟨absence, found, rfl⟩ := List.mem_map.mp member
  obtain ⟨object, listed, rfl⟩ :=
    List.mem_map.mp (List.mem_filter.mp found).1
  have absent := (List.mem_filter.mp listed).2
  simp only [Bool.and_eq_true, decide_eq_true_eq, Bool.not_eq_true'] at absent
  refine ⟨fun present => ?_, absent.1⟩
  have contained := List.contains_iff_mem.mpr present
  rw [MirrorRun.keys, absent.2] at contained
  cases contained

theorem ageOutMirror_alone (mirror : Bucket)
    {objects : List (String × Nat)}
    (listed : objects = mirrorRun.objects config) (nonempty : objects ≠ [])
    {copied : Bucket}
    (same : copied.get stateKey = mirror.get stateKey) :
    ∃ after, Alone mirrorRun.faults
        (ageOutMirror config objects (safeKeys mirror.listing))
        (mirrorRun.stores copied) =
          some (.ok (), mirrorRun.stores after) ∧
      (∀ key, key ≠ stateKey → after.get key =
        if key ∈ mirrorRun.gone config mirror (mirrorRun.absences mirror) ∧
            mirrorRun.faults.remove key = false then none
        else copied.get key) ∧
      after.get stateKey =
        if mirrorRun.faults.write then copied.get stateKey
        else some (absentText (mirrorRun.pending config mirror
          (mirrorRun.absences mirror))).toUTF8 := by
  have timed : exec (mirrorRun.stores copied) .clock
      (mirrorRun.faults.choice .clock) =
      some (mirrorRun.now, mirrorRun.stores copied) := rfl
  have read : exec (mirrorRun.stores copied) .readState
      (mirrorRun.faults.choice .readState) =
      some (if mirrorRun.faults.read then none else mirror.get stateKey,
        mirrorRun.stores copied) := by
    by_cases failed : mirrorRun.faults.read = true
    · simp [exec, Faults.choice, failed]
    · simp [exec, Faults.choice, failed, MirrorRun.stores, same]
  have lines : ((if mirrorRun.faults.read then none
      else mirror.get stateKey).map readAbsences).getD [] =
      mirrorRun.absences mirror := by
    rw [MirrorRun.absences, record]
    split
    · rfl
    · rfl
  have skipped : (objects.isEmpty &&
      (safeKeys mirror.listing).any (·.1 ≠ stateKey)) = false := by
    simp [nonempty]
  obtain ⟨removed, ran, gone⟩ := removeAll_alone mirrorRun.faults
    (mirrorRun.gone config mirror (mirrorRun.absences mirror))
    (mirrorRun.stores copied)
  have kept : removed.get stateKey = copied.get stateKey := by
    rw [gone, if_neg]
    · rfl
    · exact fun scheduled => (gone_unlisted scheduled.1).2 rfl
  have written (bytes : ByteArray) :
      exec (mirrorRun.stores removed) (.writeState bytes)
        (mirrorRun.faults.choice (.writeState bytes)) =
      some (!mirrorRun.faults.write, mirrorRun.stores
        (if mirrorRun.faults.write then removed
          else removed.put stateKey bytes)) := by
    by_cases failed : mirrorRun.faults.write = true
    · simp [exec, Faults.choice, failed]
    · simp [exec, Faults.choice, failed, MirrorRun.stores]
  refine ⟨if mirrorRun.faults.write then removed else
    removed.put stateKey (absentText (mirrorRun.pending config mirror
      (mirrorRun.absences mirror))).toUTF8, ?_, ?_, ?_⟩
  · rw [ageOutMirror, Alone, Program.perform_bind, Program.alone_call timed]
    dsimp only
    rw [skipped, if_neg Bool.false_ne_true, Program.perform_bind,
      Program.alone_call read]
    rw [lines, listed]
    apply (alone_done ran).trans
    rw [Alone, Program.perform_bind]
    exact Program.alone_call (written _) _
  · intro key other
    split
    · rw [gone]
      rfl
    · rw [Bucket.get_put, if_neg other, gone]
      rfl
  · split
    · exact kept
    · rw [Bucket.get_put, if_pos rfl]

theorem listing_safe {objects : List (String × Nat)}
    {object : String × Nat} (member : object ∈ sourceKeys config objects) :
    object ∈ objects ∧ unsafeKey object.1 = false := by
  obtain ⟨listed, safe⟩ :=
    List.mem_filter.mp (List.mem_filter.mp member).1
  exact ⟨listed, by simpa using safe⟩

/-- A run that lists something completes. -/
theorem outcome_eq (mirror : Bucket)
    (nonempty : mirrorRun.objects config ≠ [])
    (unshadowed : stateKey ∉ mirrorRun.keys config) :
    ∃ after, mirrorRun.outcome config mirror = some (
        .ok ((mirrorRun.source.listing.map Prod.fst).filter unsafeKey),
        mirrorRun.stores after) ∧
      mirrorRun.Leaves config mirror after := by
  have found : exec (mirrorRun.stores mirror) .listSource
      (mirrorRun.faults.choice .listSource) =
      some (some mirrorRun.source.listing, mirrorRun.stores mirror) := rfl
  have held : exec (mirrorRun.stores mirror) .listMirror
      (mirrorRun.faults.choice .listMirror) =
      some (some mirror.listing, mirrorRun.stores mirror) := rfl
  obtain ⟨copied, copying, copies⟩ := copyAll_alone config mirrorRun.faults
    (safeKeys mirror.listing) (mirrorRun.stores mirror)
    fun object member => (listing_safe member).1
  obtain ⟨after, aged, removed, state⟩ :=
    ageOutMirror_alone mirror rfl nonempty
      (copies.others stateKey unshadowed)
  refine ⟨after, ?_, ?_, ?_, ?_⟩
  · rw [MirrorRun.outcome, mirrorBucket, Program.perform_bind,
      Program.alone_call found]
    simp only [orExit, Program.done_bind, Program.perform_bind]
    rw [Program.alone_call held]
    simp only [Program.done_bind]
    apply (alone_done copying).trans
    exact (alone_done aged).trans rfl
  · intro key unlisted other
    rw [removed key other, copies.others key unlisted]
    rfl
  · intro key listed present
    rw [removed key, if_neg]
    · exact copies.kept key present
    · exact fun scheduled => (gone_unlisted scheduled.1).1 listed
    · intro same
      exact unshadowed (same ▸ listed)
  · rw [state, copies.others stateKey unshadowed]
    rfl

theorem mem_absent {absences : Absences} {key text : String} :
    (key, text) ∈ mirrorRun.absent config mirror absences ↔
      ((mirror.get key).isSome ∧ unsafeKey key = false) ∧
        (key ≠ stateKey ∧ key ∉ mirrorRun.keys config) ∧
        (told absences key).getD (toString mirrorRun.now) = text := by
  have listed : (∃ size, (key, size) ∈ safeKeys mirror.listing) ↔
      (mirror.get key).isSome ∧ unsafeKey key = false := by
    constructor
    · rintro ⟨size, member⟩
      obtain ⟨found, safe⟩ := List.mem_filter.mp member
      obtain ⟨bytes, held, -⟩ := Bucket.mem_listing.mp found
      exact ⟨Option.isSome_of_eq_some held, by simpa using safe⟩
    · rintro ⟨held, safe⟩
      obtain ⟨bytes, found⟩ := Option.isSome_iff_exists.mp held
      exact ⟨bytes.size, List.mem_filter.mpr
        ⟨Bucket.mem_listing.mpr ⟨bytes, found, rfl⟩, by simp [safe]⟩⟩
  rw [← listed, MirrorRun.absent, missing, List.mem_map]
  constructor
  · rintro ⟨object, found, same⟩
    obtain ⟨rfl, rfl⟩ := Prod.mk.inj same
    obtain ⟨held, away⟩ := List.mem_filter.mp found
    simp only [Bool.and_eq_true, decide_eq_true_eq, Bool.not_eq_true',
      List.contains_eq_mem, decide_eq_false_iff_not] at away
    exact ⟨⟨object.2, held⟩, away, rfl⟩
  · rintro ⟨⟨size, held⟩, ⟨other, unlisted⟩, rfl⟩
    refine ⟨(key, size), List.mem_filter.mpr ⟨held, ?_⟩, rfl⟩
    rw [MirrorRun.keys] at unlisted
    simp [other, unlisted]

end Outcome

/-! ## Every run -/

/-- The calls that fail change nothing: the record that is not read dates
nothing that is missing, nothing is due that is not removed, and the record
that is not written is the one there is. -/
structure Heeded (mirror : Bucket) (mirrorRun : MirrorRun) : Prop where
  unshadowed : stateKey ∉ mirrorRun.keys config
  read : mirrorRun.faults.read = true →
    mirrorRun.absent config mirror [] =
      mirrorRun.absent config mirror (record mirror)
  remove : ∀ key ∈ mirrorRun.gone config mirror (record mirror),
    mirrorRun.faults.remove key = false
  write : mirrorRun.faults.write = true → ∀ key, key ≠ stateKey →
    key ∈ mirrorRun.keys config ∨ (mirror.get key).isSome ∧
      key ∉ mirrorRun.gone config mirror (record mirror) →
    told (record mirror) key =
      told (mirrorRun.pending config mirror (record mirror)) key

/-- A run in which no call fails. -/
def Faults.none : Faults :=
  ⟨false, fun _ => false, false⟩

def mirrorStep (mirror : Bucket) (mirrorRun : MirrorRun) : Option Bucket :=
  (mirrorRun.outcome config mirror).map (·.2.mirror)

/-- When the runs began to miss the object, if the last one does. -/
def absentSince (mirrorRuns : List MirrorRun) (key : String) : Option Nat :=
  mirrorRuns.foldl (fun since mirrorRun =>
    if key ∈ mirrorRun.keys config then none
    else some (since.getD mirrorRun.now)) none

/-- A run at this time found the mirrored object missing, and so did every
run since. -/
def MissedSince (mirrorRuns : List MirrorRun) (key : String) (time : Nat) :
    Prop :=
  ∃ earlier first rest mirror, mirrorRuns = earlier ++ first :: rest ∧
    first.now = time ∧
    run (mirrorStep config) .empty earlier = some mirror ∧
    (mirror.get key).isSome ∧
    ∀ mirrorRun ∈ first :: rest, key ∉ mirrorRun.keys config

/-- The record dates what the mirror holds by the runs that missed it. -/
structure Recorded (mirrorRuns : List MirrorRun) (mirror : Bucket) :
    Prop where
  safe : ∀ key, (mirror.get key).isSome → unsafeKey key = false
  since : ∀ key, key ≠ stateKey → (mirror.get key).isSome →
    told (record mirror) key =
      (absentSince config mirrorRuns key).map toString

section Runs

variable {config} {mirrorRuns : List MirrorRun} {mirrorRun : MirrorRun}
variable {mirror after : Bucket}

theorem absentSince_snoc (mirrorRuns : List MirrorRun)
    (mirrorRun : MirrorRun) (key : String) :
    absentSince config (mirrorRuns ++ [mirrorRun]) key =
      if key ∈ mirrorRun.keys config then none
      else some ((absentSince config mirrorRuns key).getD mirrorRun.now) := by
  rw [absentSince, List.foldl_append]
  rfl

theorem heeded_of_faultless (unshadowed : stateKey ∉ mirrorRun.keys config)
    (faultless : mirrorRun.faults = .none) :
    Heeded config mirror mirrorRun where
  unshadowed := unshadowed
  read failed := by
    rw [faultless] at failed
    cases failed
  remove _ _ := by
    rw [faultless]
    rfl
  write failed := by
    rw [faultless] at failed
    cases failed

/-- What a run does with an object that it misses. -/
theorem Recorded.due (recorded : Recorded config mirrorRuns mirror)
    {key : String} (held : (mirror.get key).isSome)
    (other : key ≠ stateKey) (unlisted : key ∉ mirrorRun.keys config) :
    ∃ since, absentSince config (mirrorRuns ++ [mirrorRun]) key =
        some since ∧
      (∀ text, (key, text) ∈ mirrorRun.absent config mirror (record mirror) ↔
        text = toString since) ∧
      (key ∈ mirrorRun.gone config mirror (record mirror) ↔
        since + config.retain ≤ mirrorRun.now) := by
  have lines : ∀ text,
      (key, text) ∈ mirrorRun.absent config mirror (record mirror) ↔
        text = toString
          ((absentSince config mirrorRuns key).getD mirrorRun.now) := by
    intro text
    rw [mem_absent, recorded.since key other held, Option.getD_map]
    constructor
    · rintro ⟨-, -, rfl⟩
      rfl
    · rintro rfl
      exact ⟨⟨held, recorded.safe key held⟩, ⟨other, unlisted⟩, rfl⟩
  refine ⟨_, ?_, lines, ?_⟩
  · rw [absentSince_snoc, if_neg unlisted]
  · rw [MirrorRun.gone, List.mem_map]
    constructor
    · rintro ⟨⟨name, text⟩, found, rfl⟩
      obtain ⟨absent, due⟩ := List.mem_filter.mp found
      rw [(lines text).mp absent, expired, config.shell.decimal,
        decide_eq_true_eq] at due
      omega
    · intro due
      refine ⟨(key, _), List.mem_filter.mpr ⟨(lines _).mpr rfl, ?_⟩, rfl⟩
      rw [expired, config.shell.decimal, decide_eq_true_eq]
      omega

theorem Recorded.empty : Recorded config [] .empty where
  safe _ held := by cases held
  since _ _ held := by cases held

/-- What the run would write of an object that it keeps. -/
theorem Recorded.told_pending (recorded : Recorded config mirrorRuns mirror)
    {key : String} (other : key ≠ stateKey)
    (stays : key ∈ mirrorRun.keys config ∨ (mirror.get key).isSome ∧
      key ∉ mirrorRun.gone config mirror (record mirror)) :
    told (mirrorRun.pending config mirror (record mirror)) key =
      (absentSince config (mirrorRuns ++ [mirrorRun]) key).map toString := by
  by_cases listed : key ∈ mirrorRun.keys config
  · rw [absentSince_snoc, if_pos listed]
    apply told_eq_none
    intro text member
    obtain ⟨absent, -⟩ := List.mem_filter.mp member
    exact (mem_absent.mp absent).2.1.2 listed
  · obtain ⟨held, kept⟩ := stays.resolve_left listed
    obtain ⟨since, dated, lines, due⟩ := recorded.due held other listed
    rw [dated]
    apply told_eq_some
    · apply List.mem_filter.mpr
      refine ⟨(lines _).mpr rfl, ?_⟩
      rw [Bool.not_eq_true', Bool.eq_false_iff]
      intro overdue
      apply kept
      exact List.mem_map.mpr ⟨_, List.mem_filter.mpr
        ⟨(lines _).mpr rfl, overdue⟩, rfl⟩
    · intro text member
      exact (lines text).mp (List.mem_filter.mp member).1

theorem Heeded.absent_eq (heeded : Heeded config mirror mirrorRun) :
    mirrorRun.absent config mirror (mirrorRun.absences mirror) =
      mirrorRun.absent config mirror (record mirror) := by
  rw [MirrorRun.absences]
  split
  · next failed => exact heeded.read failed
  · rfl

/-- What such a run removes, and what it keeps. -/
theorem Heeded.leaves (heeded : Heeded config mirror mirrorRun)
    (leaves : mirrorRun.Leaves config mirror after) {key : String}
    (other : key ≠ stateKey) :
    ((after.get key).isSome →
      key ∈ mirrorRun.keys config ∨ (mirror.get key).isSome ∧
        key ∉ mirrorRun.gone config mirror (record mirror)) ∧
      ((mirror.get key).isSome → after.get key = none →
        key ∈ mirrorRun.gone config mirror (record mirror)) := by
  have gone_eq : mirrorRun.gone config mirror (mirrorRun.absences mirror) =
      mirrorRun.gone config mirror (record mirror) := by
    rw [MirrorRun.gone, heeded.absent_eq]
    rfl
  by_cases listed : key ∈ mirrorRun.keys config
  · constructor
    · exact fun _ => .inl listed
    · intro held removed
      have kept := leaves.kept key listed held
      rw [removed] at kept
      cases kept
  · have left := leaves.unlisted key listed other
    rw [gone_eq] at left
    by_cases scheduled : key ∈ mirrorRun.gone config mirror (record mirror)
    · rw [if_pos ⟨scheduled, heeded.remove key scheduled⟩] at left
      rw [left]
      exact ⟨nofun, fun _ _ => scheduled⟩
    · rw [if_neg fun due => scheduled due.1] at left
      rw [left]
      constructor
      · exact fun held => .inr ⟨held, scheduled⟩
      · intro held removed
        rw [removed] at held
        cases held

theorem digits_oneLine {key : String} (safe : unsafeKey key = false)
    (time : Nat) : OneLine (key, toString time) := by
  have control (char : Char) (small : char.toNat < 32) :
      char ∉ key.toList ∧ char ∉ (toString time).toList := by
    constructor
    · intro member
      rw [unsafeKey, List.any_eq_false] at safe
      have plain := safe char member
      simp [isControl, small] at plain
    · intro member
      have digit : char.isDigit := by
        apply Nat.isDigit_of_mem_toDigits (b := 10) (n := time)
          (by decide) (by decide)
        simpa using member
      have large : 48 ≤ char.toNat := (Char.isDigit_iff_toNat.mp digit).1
      omega
  intro char member
  apply control
  rcases List.mem_pair.mp member with rfl | rfl
  · decide
  · decide

/-- A run that the failures of its calls do not mislead. -/
theorem Recorded.step (recorded : Recorded config mirrorRuns mirror)
    (heeded : Heeded config mirror mirrorRun)
    (leaves : mirrorRun.Leaves config mirror after) :
    Recorded config (mirrorRuns ++ [mirrorRun]) after := by
  have pending_eq :
      mirrorRun.pending config mirror (mirrorRun.absences mirror) =
        mirrorRun.pending config mirror (record mirror) := by
    rw [MirrorRun.pending, heeded.absent_eq]
    rfl
  constructor
  · intro key held
    by_cases state : key = stateKey
    · rw [state]
      decide
    · rcases (heeded.leaves leaves state).1 held with listed | stays
      · obtain ⟨object, found, rfl⟩ := List.mem_map.mp listed
        exact (listing_safe found).2
      · exact recorded.safe key stays.1
  · intro key other held
    have stays := (heeded.leaves leaves other).1 held
    rw [← recorded.told_pending other stays]
    have written := leaves.state
    by_cases failed : mirrorRun.faults.write = true
    · rw [if_pos failed] at written
      rw [record, written]
      exact heeded.write failed key other stays
    · rw [if_neg failed, pending_eq] at written
      rw [record, written, Option.map_some, Option.getD_some,
        readAbsences_absentText]
      rintro ⟨name, text⟩ member
      have absent := (List.mem_filter.mp member).1
      obtain ⟨⟨present, safe⟩, ⟨unlike, unlisted⟩, -⟩ := mem_absent.mp absent
      obtain ⟨since, -, lines, -⟩ := recorded.due present unlike unlisted
      rw [(lines text).mp absent]
      exact digits_oneLine safe since

theorem mirrorStep_leaves (nonempty : mirrorRun.objects config ≠ [])
    (unshadowed : stateKey ∉ mirrorRun.keys config)
    (stepped : mirrorStep config mirror mirrorRun = some after) :
    mirrorRun.Leaves config mirror after := by
  obtain ⟨left, outcome, leaves⟩ :=
    outcome_eq mirror nonempty unshadowed
  rw [mirrorStep, outcome] at stepped
  cases stepped
  exact leaves

theorem Recorded.run
    (listed : ∀ mirrorRun ∈ mirrorRuns, mirrorRun.objects config ≠ [])
    (heeded : Along (mirrorStep config) (Heeded config) .empty mirrorRuns)
    (ran : run (mirrorStep config) .empty mirrorRuns = some mirror) :
    Recorded config mirrorRuns mirror := by
  induction mirrorRuns using List.reverseRecOn generalizing mirror with
  | nil =>
      cases ran
      exact .empty
  | append_singleton mirrorRuns mirrorRun induction =>
      obtain ⟨middle, before, last⟩ := run_append.mp ran
      obtain ⟨next, stepped, same⟩ := run_cons.mp last
      cases same
      obtain ⟨earlier, later⟩ := heeded.append before
      have recorded := induction
        (fun other member => listed other (List.mem_append_left _ member))
        earlier before
      apply recorded.step later.1
      exact mirrorStep_leaves (listed mirrorRun (by simp))
        later.1.unshadowed stepped

/-- What no run lists does not come into the mirror. -/
theorem held_before {key : String} (other : key ≠ stateKey)
    (listed : ∀ mirrorRun ∈ mirrorRuns, mirrorRun.objects config ≠ [])
    (missed : ∀ mirrorRun ∈ mirrorRuns, key ∉ mirrorRun.keys config)
    (heeded : Along (mirrorStep config) (Heeded config) mirror mirrorRuns)
    (ran : run (mirrorStep config) mirror mirrorRuns = some after)
    (held : (after.get key).isSome) : (mirror.get key).isSome := by
  induction mirrorRuns generalizing mirror with
  | nil =>
      cases ran
      exact held
  | cons mirrorRun mirrorRuns induction =>
      obtain ⟨next, stepped, rest⟩ := run_cons.mp ran
      obtain ⟨first, others⟩ := heeded
      have leaves := mirrorStep_leaves (listed mirrorRun (by simp))
        first.unshadowed stepped
      have present := induction
        (fun other member => listed other (List.mem_cons_of_mem _ member))
        (fun other member => missed other (List.mem_cons_of_mem _ member))
        (others next stepped) rest
      have stays := (first.leaves leaves other).1 present
      exact (stays.resolve_left (missed mirrorRun (by simp))).1

theorem absentSince_missed {earlier later : List MirrorRun} {key : String}
    (missed : ∀ mirrorRun ∈ later, key ∉ mirrorRun.keys config)
    (first : MirrorRun) (unlisted : key ∉ first.keys config) :
    absentSince config (earlier ++ first :: later) key =
      some ((absentSince config earlier key).getD first.now) := by
  induction later using List.reverseRecOn with
  | nil => rw [absentSince_snoc, if_neg unlisted]
  | append_singleton later last induction =>
      have before := induction
        fun other member => missed other (List.mem_append_left _ member)
      rw [← List.cons_append, ← List.append_assoc, absentSince_snoc,
        if_neg (missed last (by simp)), before]
      rfl

theorem missed_of_absentSince {key : String} {since : Nat}
    (dated : absentSince config mirrorRuns key = some since) :
    ∃ earlier first later, mirrorRuns = earlier ++ first :: later ∧
      first.now = since ∧
      ∀ mirrorRun ∈ first :: later, key ∉ mirrorRun.keys config := by
  induction mirrorRuns using List.reverseRecOn generalizing since with
  | nil => cases dated
  | append_singleton mirrorRuns last induction =>
      rw [absentSince_snoc] at dated
      split at dated
      · cases dated
      · next unlisted =>
          cases before : absentSince config mirrorRuns key with
          | none =>
              rw [before] at dated
              cases dated
              exact ⟨mirrorRuns, last, [], rfl, rfl, by simpa using unlisted⟩
          | some time =>
              rw [before] at dated
              cases dated
              obtain ⟨earlier, first, later, rfl, same, missed⟩ :=
                induction before
              refine ⟨earlier, first, later ++ [last], by simp, same, ?_⟩
              intro mirrorRun member
              rw [← List.cons_append, List.mem_append] at member
              rcases member with inside | outside
              · exact missed mirrorRun inside
              · rw [List.mem_singleton.mp outside]
                exact unlisted

/-- The dating of what the mirror holds is never before the times of the
runs. -/
theorem absentSince_le {key : String} {since time : Nat}
    (dated : absentSince config mirrorRuns key = some since)
    (bound : ∀ mirrorRun ∈ mirrorRuns, mirrorRun.now ≤ time) :
    since ≤ time := by
  obtain ⟨earlier, first, later, rfl, rfl, -⟩ := missed_of_absentSince dated
  exact bound first (by simp)

end Runs

theorem split_last {Item : Type} {items earlier later : List Item}
    {last first : Item}
    (split : items ++ [last] = earlier ++ first :: later) :
    ∃ rest, items = earlier ++ rest ∧ first :: later = rest ++ [last] := by
  have ends := List.dropLast_append_getLast (List.cons_ne_nil first later)
  rw [← ends, ← List.append_assoc] at split
  obtain ⟨same, lasts⟩ := List.append_inj' split rfl
  refine ⟨(first :: later).dropLast, same, ?_⟩
  rw [lasts]
  exact ends.symm

/-- Where no failure misleads a run: what a run removes has been missing for
the retention period, and what has been missing for it does not stay. -/
theorem retention_exact (mirrorRuns : List MirrorRun) (last : MirrorRun)
    {before after : Bucket} {skipped : List String}
    (listed : ∀ mirrorRun ∈ mirrorRuns ++ [last],
      mirrorRun.objects config ≠ [])
    (increasing : ((mirrorRuns ++ [last]).map MirrorRun.now).Pairwise
      (· ≤ ·))
    (heeded : Along (mirrorStep config) (Heeded config) .empty
      (mirrorRuns ++ [last]))
    (ran : run (mirrorStep config) .empty mirrorRuns = some before)
    (completed : last.outcome config before =
      some (.ok skipped, last.stores after)) :
    (∀ key, key ≠ stateKey → (before.get key).isSome →
      after.get key = none → ∃ time,
        MissedSince config (mirrorRuns ++ [last]) key time ∧
          time + config.retain ≤ last.now) ∧
      ∀ key, key ≠ stateKey → (after.get key).isSome → ∀ time,
        MissedSince config (mirrorRuns ++ [last]) key time →
          last.now < time + config.retain := by
  obtain ⟨earlyHeeded, lastHeeded, -⟩ := heeded.append ran
  have earlyListed : ∀ mirrorRun ∈ mirrorRuns,
      mirrorRun.objects config ≠ [] :=
    fun mirrorRun member => listed mirrorRun (List.mem_append_left _ member)
  have recorded := Recorded.run earlyListed earlyHeeded ran
  have stepped : mirrorStep config before last = some after := by
    rw [mirrorStep, completed]
    rfl
  have leaves := mirrorStep_leaves (listed last (by simp))
    lastHeeded.unshadowed stepped
  constructor
  · intro key other held removed
    have scheduled := (lastHeeded.leaves leaves other).2 held removed
    obtain ⟨since, dated, -, due⟩ := recorded.due held other
      (gone_unlisted scheduled).1
    obtain ⟨earlier, first, later, split, rfl, missed⟩ :=
      missed_of_absentSince dated
    obtain ⟨rest, rfl, ends⟩ := split_last split
    obtain ⟨middle, reached, remaining⟩ := run_append.mp ran
    refine ⟨first.now, ?_, due.mp scheduled⟩
    refine ⟨earlier, first, later, middle, split, rfl, reached, ?_, missed⟩
    apply held_before other _ _ (earlyHeeded.append reached).2 remaining held
    · exact fun other member =>
        earlyListed other (List.mem_append_right _ member)
    · intro mirrorRun member
      apply missed
      rw [ends]
      exact List.mem_append_left _ member
  · rintro key other held time
      ⟨earlier, first, later, middle, split, rfl, -, -, missed⟩
    obtain ⟨firstMissed, laterMissed⟩ := List.forall_mem_cons.mp missed
    have unlisted : key ∉ last.keys config := by
      obtain ⟨rest, -, ends⟩ := split_last split
      apply missed
      rw [ends]
      simp
    have stays := (lastHeeded.leaves leaves other).1 held
    obtain ⟨present, kept⟩ := stays.resolve_left unlisted
    obtain ⟨since, dated, -, due⟩ := recorded.due present other unlisted
    rw [split, absentSince_missed laterMissed first firstMissed] at dated
    have since_le : since ≤ first.now := by
      cases before : absentSince config earlier key with
      | none =>
          rw [before] at dated
          cases dated
          exact Nat.le_refl _
      | some time =>
          rw [before] at dated
          cases dated
          apply absentSince_le before
          intro mirrorRun member
          rw [split, List.map_append, List.pairwise_append] at increasing
          exact increasing.2.2 _ (List.mem_map_of_mem member) _ (by simp)
    by_contra late
    apply kept
    rw [due]
    omega

def sampleConfig : Config where
  shell := plainShell
  exclude := ""
  recopy _ := false
  retain := 10

def bothObjects : Bucket :=
  ⟨[("a", ⟨#[1]⟩), ("b", ⟨#[2]⟩)], by decide⟩

def oneObject : Bucket :=
  ⟨[("b", ⟨#[2]⟩)], by decide⟩

/-- An object leaves the source, and a run finds it missing. -/
def sampleRuns : List MirrorRun :=
  [⟨bothObjects, 0, .none⟩, ⟨oneObject, 10, .none⟩]

/-- A run at this time with these failures, the object still missing. -/
def sampleLast (now : Nat) (faults : Faults) : MirrorRun :=
  ⟨oneObject, now, faults⟩

theorem sampleRuns_listed (now : Nat) (faults : Faults) :
    ∀ mirrorRun ∈ sampleRuns ++ [sampleLast now faults],
      mirrorRun.objects sampleConfig ≠ [] ∧
        stateKey ∉ mirrorRun.keys sampleConfig := by
  intro mirrorRun member
  have source : mirrorRun.source = bothObjects ∨
      mirrorRun.source = oneObject := by
    simp only [sampleRuns, sampleLast, List.cons_append, List.nil_append,
      List.mem_cons, List.not_mem_nil, or_false] at member
    rcases member with rfl | rfl | rfl
    · exact .inl rfl
    · exact .inr rfl
    · exact .inr rfl
  rw [MirrorRun.keys, MirrorRun.objects]
  rcases source with same | same
  · rw [same]
    decide +kernel
  · rw [same]
    decide +kernel

theorem retention_exact_removed :
    ∃ before after : Bucket,
      run (mirrorStep sampleConfig) .empty sampleRuns = some before ∧
      (before.get "a").isSome ∧ after.get "a" = none ∧
      ∃ time, MissedSince sampleConfig (sampleRuns ++
          [sampleLast 20 .none]) "a" time ∧
        time + sampleConfig.retain ≤ 20 := by
  have faultless : Along (mirrorStep sampleConfig) (fun _ mirrorRun =>
        stateKey ∉ mirrorRun.keys sampleConfig ∧ mirrorRun.faults = .none)
      .empty (sampleRuns ++ [sampleLast 20 .none]) := by
    apply Along.of_forall
    intro mirrorRun member
    refine ⟨(sampleRuns_listed 20 .none mirrorRun member).2, ?_⟩
    simp only [sampleRuns, sampleLast, List.cons_append, List.nil_append,
      List.mem_cons, List.not_mem_nil, or_false] at member
    rcases member with rfl | rfl | rfl
    · rfl
    · rfl
    · rfl
  have ends : ((run (mirrorStep sampleConfig) .empty sampleRuns).bind
      fun before => ((sampleLast 20 .none).outcome sampleConfig before).map
        fun ended => ((before.get "a").isSome,
          ended.2.mirror.get "a")) = some (true, none) := by
    decide +kernel
  obtain ⟨before, ran, ended⟩ := Option.bind_eq_some_iff.mp ends
  obtain ⟨listed, unshadowed⟩ := sampleRuns_listed 20 .none
    (sampleLast 20 .none) (by simp)
  obtain ⟨after, completed, -⟩ := outcome_eq before listed
    unshadowed
  rw [completed, Option.map_some, Option.some.injEq, Prod.mk.injEq] at ended
  have exactly := retention_exact sampleConfig sampleRuns (sampleLast 20 .none)
    (fun mirrorRun member => (sampleRuns_listed 20 .none mirrorRun member).1)
    (by decide) (faultless.mono fun _ _ run =>
      heeded_of_faultless run.1 run.2) ran completed
  exact ⟨before, after, ran, ended.1, ended.2,
    exactly.1 "a" (by decide) ended.1 ended.2⟩

/-- A removal that fails is neither repeated nor reported. -/
theorem overdue_kept :
    ¬∀ (config : Config) (mirrorRuns : List MirrorRun) (last : MirrorRun)
        (before after : Bucket) (skipped : List String),
      (∀ mirrorRun ∈ mirrorRuns ++ [last],
        mirrorRun.objects config ≠ [] ∧ stateKey ∉ mirrorRun.keys config) →
      ((mirrorRuns ++ [last]).map MirrorRun.now).Pairwise (· < ·) →
      run (mirrorStep config) .empty mirrorRuns = some before →
      last.outcome config before = some (.ok skipped, last.stores after) →
      ∀ key, key ≠ stateKey → (after.get key).isSome → ∀ time,
        MissedSince config (mirrorRuns ++ [last]) key time →
          last.now < time + config.retain := by
  intro claimed
  let faults : Faults := ⟨false, fun _ => true, false⟩
  have ends : ((run (mirrorStep sampleConfig) .empty sampleRuns).bind
      fun before => ((sampleLast 20 faults).outcome sampleConfig before).map
        fun ended => (ended.2.mirror.get "a").isSome) = some true := by
    decide +kernel
  have started : (run (mirrorStep sampleConfig) .empty
      [⟨bothObjects, 0, .none⟩]).map (fun middle =>
        (middle.get "a").isSome) = some true := by
    decide +kernel
  obtain ⟨before, ran, ended⟩ := Option.bind_eq_some_iff.mp ends
  obtain ⟨middle, reached, held⟩ := Option.map_eq_some_iff.mp started
  obtain ⟨listed, unshadowed⟩ := sampleRuns_listed 20 faults
    (sampleLast 20 faults) (by simp)
  obtain ⟨after, completed, -⟩ := outcome_eq before listed
    unshadowed
  rw [completed, Option.map_some, Option.some.injEq] at ended
  have missed : MissedSince sampleConfig
      (sampleRuns ++ [sampleLast 20 faults]) "a" 10 := by
    refine ⟨[⟨bothObjects, 0, .none⟩], ⟨oneObject, 10, .none⟩,
      [sampleLast 20 faults], middle, rfl, rfl, reached, held, ?_⟩
    intro mirrorRun member
    have source : mirrorRun.source = oneObject := by
      rcases List.mem_pair.mp member with rfl | rfl
      · rfl
      · rfl
    rw [MirrorRun.keys, MirrorRun.objects, source]
    decide +kernel
  have early := claimed sampleConfig sampleRuns (sampleLast 20 faults) before
    after _ (sampleRuns_listed 20 faults) (by decide) ran completed "a"
    (by decide) ended 10 missed
  exact absurd early (by decide)

end IndustryFlow.Backup
