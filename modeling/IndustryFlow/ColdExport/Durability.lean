import IndustryFlow.ColdExport.Plan
import Mathlib.Combinatorics.Colex
import Mathlib.Logic.Equiv.List

/-!
# No measurement is lost or archived twice

`Sound` is what holds of the archive between any two calls of the exporter,
also where a run died: the listed parts are the day's parts in order, no key
stands in two of them, all but the last have a recorded drop, and every key
the checked drop removed stands in a part whose drop is recorded.  Such a part
is final (`Preserves`).
-/

namespace IndustryFlow.ColdExport

open Concurrent

namespace Archive

def parts (archive : Archive) : List Part :=
  manifestParts archive.manifest

/-- The file of a part holds the key. -/
def Holds (archive : Archive) (part : Part) (key : Key) : Prop :=
  ∃ rows, archive.files part.file = some rows ∧ key ∈ keys rows

/-- Recorded drops stay recorded and the files of their parts unchanged. -/
def Preserves (before after : Archive) : Prop :=
  ∀ name, before.recorded name = true →
    after.recorded name = true ∧ after.files name = before.files name

theorem Preserves.refl (archive : Archive) : archive.Preserves archive :=
  fun _ recorded => ⟨recorded, rfl⟩

theorem Preserves.trans {first second third : Archive}
    (before : first.Preserves second) (after : second.Preserves third) :
    first.Preserves third := by
  intro name recorded
  obtain ⟨kept, same⟩ := before name recorded
  obtain ⟨keptAfter, sameAfter⟩ := after name kept
  exact ⟨keptAfter, sameAfter.trans same⟩

structure Sound (archive : Archive) : Prop where
  current : isLegacy archive.manifest = false
  named : ∀ index part, archive.parts[index]? = some part →
    part.file = partFile index
  disjoint : ∀ (first second : Nat) left right key,
    archive.parts[first]? = some left →
    archive.parts[second]? = some right →
    archive.Holds left key → archive.Holds right key → first = second
  recorded_listed : ∀ name, archive.recorded name = true →
    ∃ part ∈ archive.parts, part.file = name ∧ archive.Counted part
  earlier_recorded : ∀ index part, archive.parts[index]? = some part →
    index + 1 < archive.parts.length → archive.recorded part.file = true
  removed_held : ∀ key ∈ archive.removed, ∃ part ∈ archive.parts,
    archive.recorded part.file = true ∧ archive.Holds part key

theorem sound_empty : empty.Sound where
  current := rfl
  named := by simp [parts, empty, manifestParts]
  disjoint := by simp [parts, empty, manifestParts]
  recorded_listed := by simp [recorded, empty]
  earlier_recorded := by simp [parts, empty, manifestParts]
  removed_held := by simp [empty]

/-! ## What a run takes for committed -/

variable {archive : Archive}

theorem pending_last {last : Part} (found : archive.pending = some last) :
    archive.parts.getLast? = some last ∧
      archive.recorded last.file = false := by
  unfold pending at found
  split at found
  · cases found
  · rename_i final
    split at found
    · cases found
    · split at found
      · cases found
      · rename_i unrecorded
        cases found
        exact ⟨final, by simpa using unrecorded⟩

/-- Only the last listed part can be pending; all others are committed. -/
theorem parts_eq (archive : Archive) :
    archive.parts = archive.committed ++ archive.pending.toList := by
  unfold committed
  cases found : archive.pending with
  | none => simp [parts]
  | some last =>
      have final := (pending_last found).1
      exact (List.dropLast_append_getLast? last final).symm

theorem committed_subset {part : Part} (member : part ∈ archive.committed) :
    part ∈ archive.parts := by
  rw [parts_eq]
  exact List.mem_append_left _ member

theorem committed_get {index : Nat} {part : Part}
    (found : archive.committed[index]? = some part) :
    archive.parts[index]? = some part := by
  have bound := (List.getElem?_eq_some_iff.mp found).1
  rw [parts_eq, List.getElem?_append_left bound, found]

theorem parts_get {index : Nat} {part : Part}
    (found : archive.parts[index]? = some part) :
    archive.committed[index]? = some part ∨
      index = archive.committed.length ∧ archive.pending = some part := by
  rw [parts_eq] at found
  by_cases bound : index < archive.committed.length
  · rw [List.getElem?_append_left bound] at found
    exact .inl found
  · rw [List.getElem?_append_right (by omega)] at found
    cases pending : archive.pending with
    | none => simp [pending] at found
    | some last =>
        have zero : index - archive.committed.length = 0 := by
          have := (List.getElem?_eq_some_iff.mp found).1
          simp [pending] at this
          omega
        refine .inr ⟨by omega, ?_⟩
        simpa [pending, zero] using found

namespace Sound

variable (sound : archive.Sound)
include sound

theorem committed_recorded {part : Part}
    (member : part ∈ archive.committed) :
    archive.recorded part.file = true := by
  obtain ⟨index, found⟩ := List.mem_iff_getElem?.mp member
  have listed := committed_get found
  have bound := (List.getElem?_eq_some_iff.mp found).1
  cases pending : archive.pending with
  | some last =>
      apply sound.earlier_recorded index part listed
      rw [parts_eq, pending]
      simpa using bound
  | none =>
      have all : archive.committed = archive.parts := by
        rw [parts_eq, pending]
        simp
      by_cases earlier : index + 1 < archive.parts.length
      · exact sound.earlier_recorded index part listed earlier
      · have final : archive.parts.getLast? = some part := by
          rw [List.getLast?_eq_getElem?, ← listed]
          congr 1
          rw [all] at bound
          omega
        have current := sound.current
        unfold Archive.pending at pending
        unfold Archive.parts at final
        simpa [final, current] using pending

theorem committed_named {index : Nat} {part : Part}
    (found : archive.committed[index]? = some part) :
    part.file = partFile index :=
  sound.named index part (committed_get found)

/-- The part a run writes has no recorded drop. -/
theorem next_unrecorded :
    archive.recorded (partFile archive.committed.length) = false := by
  by_contra recorded
  obtain ⟨part, member, file, -⟩ :=
    sound.recorded_listed _ (by simpa using recorded)
  obtain ⟨index, found⟩ := List.mem_iff_getElem?.mp member
  have same : index = archive.committed.length :=
    partFile_injective ((sound.named index part found).symm.trans file)
  rcases parts_get found with committed | ⟨-, pending⟩
  · have bound := (List.getElem?_eq_some_iff.mp committed).1
    omega
  · have unrecorded := (pending_last pending).2
    rw [file] at unrecorded
    exact recorded unrecorded

theorem recorded_committed {name : String}
    (recorded : archive.recorded name = true) :
    ∃ part ∈ archive.committed, part.file = name ∧
      archive.Counted part := by
  obtain ⟨part, member, file, counted⟩ :=
    sound.recorded_listed name recorded
  obtain ⟨index, found⟩ := List.mem_iff_getElem?.mp member
  rcases parts_get found with committed | ⟨-, pending⟩
  · exact ⟨part, List.mem_of_getElem? committed, file, counted⟩
  · have unrecorded := (pending_last pending).2
    rw [file, recorded] at unrecorded
    cases unrecorded

theorem committed_file_ne {part : Part}
    (member : part ∈ archive.committed) :
    part.file ≠ partFile archive.committed.length := by
  intro same
  have recorded := sound.committed_recorded member
  rw [same, sound.next_unrecorded] at recorded
  cases recorded

end Sound

/-! ## Writing the next part -/

theorem recorded_written (archive : Archive) (batches : List Measurement)
    (name : String) :
    (archive.written batches).recorded name = archive.recorded name := by
  unfold written
  split <;> rfl

theorem parts_written (archive : Archive) (batches : List Measurement) :
    (archive.written batches).parts = archive.parts := by
  unfold written
  split <;> rfl

theorem removed_written (archive : Archive) (batches : List Measurement) :
    (archive.written batches).removed = archive.removed := by
  unfold written
  split <;> rfl

theorem written_files_of_ne {batches : List Measurement} {name : String}
    (other : name ≠ partFile archive.committed.length) :
    (archive.written batches).files name = archive.files name := by
  unfold written
  split
  · rfl
  · exact Function.update_of_ne other _ _

theorem written_files_next {batches : List Measurement}
    (something : archive.fresh batches ≠ []) :
    (archive.written batches).files (partFile archive.committed.length) =
      some (archive.fresh batches) := by
  unfold written
  rw [if_neg something]
  exact Function.update_self _ _ _

theorem mem_fresh {batches : List Measurement} {row : Measurement} :
    row ∈ archive.fresh batches ↔ row ∈ batches ∧
      row.key ∉ archive.archivedKeys archive.committed := by
  unfold fresh
  split
  · rename_i none
    rw [List.isEmpty_iff.mp none]
    simp [archivedKeys]
  · rw [(inFileOrder_perm _).mem_iff]
    simp [leftAnti]

theorem mem_archivedKeys {parts : List Part} {key : Key} :
    key ∈ archive.archivedKeys parts ↔
      ∃ part ∈ parts, archive.Holds part key := by
  unfold archivedKeys Holds
  rw [List.mem_flatMap]
  constructor
  · rintro ⟨part, member, held⟩
    refine ⟨part, member, ?_⟩
    cases found : archive.files part.file with
    | none => simp [found, keys] at held
    | some rows => exact ⟨rows, rfl, by simpa [found] using held⟩
  · rintro ⟨part, member, rows, found, held⟩
    exact ⟨part, member, by simpa [found] using held⟩

/-- Nothing that a committed part holds is written again. -/
theorem fresh_unarchived {batches : List Measurement} {part : Part}
    {key : Key} (member : part ∈ archive.committed)
    (held : archive.Holds part key) :
    key ∉ keys (archive.fresh batches) := by
  intro again
  obtain ⟨row, written, rfl⟩ := List.mem_map.mp again
  exact (mem_fresh.mp written).2
    (mem_archivedKeys.mpr ⟨part, member, held⟩)

/-- Every row of the snapshot is written or archived already. -/
theorem key_covered (archive : Archive) {batches : List Measurement}
    {key : Key} (member : key ∈ keys batches) :
    key ∈ keys (archive.fresh batches) ∨
      ∃ part ∈ archive.committed, archive.Holds part key := by
  obtain ⟨row, streamed, rfl⟩ := List.mem_map.mp member
  by_cases archived : row.key ∈ archive.archivedKeys archive.committed
  · exact .inr (mem_archivedKeys.mp archived)
  · exact .inl (List.mem_map_of_mem (mem_fresh.mpr ⟨streamed, archived⟩))

namespace Sound

variable (sound : archive.Sound)
include sound

theorem holds_written {batches : List Measurement} {part : Part}
    {key : Key} (member : part ∈ archive.committed) :
    (archive.written batches).Holds part key ↔ archive.Holds part key := by
  unfold Holds
  rw [written_files_of_ne (sound.committed_file_ne member)]

theorem counted_written {batches : List Measurement} {part : Part}
    (member : part ∈ archive.committed) :
    (archive.written batches).Counted part ↔ archive.Counted part := by
  unfold Counted
  rw [written_files_of_ne (sound.committed_file_ne member)]

theorem preserves_written (batches : List Measurement) :
    archive.Preserves (archive.written batches) := by
  intro name recorded
  refine ⟨(recorded_written archive batches name).trans recorded, ?_⟩
  apply written_files_of_ne
  intro same
  rw [same, sound.next_unrecorded] at recorded
  cases recorded

/-- Any list of parts that extends the committed ones by at most the part
just written has no key twice. -/
theorem disjoint_written {batches : List Measurement} {listing : List Part}
    (something : archive.fresh batches ≠ [])
    (extends_ : ∀ (index : Nat) part, listing[index]? = some part →
      archive.committed[index]? = some part ∨
        index = archive.committed.length ∧
          part.file = partFile archive.committed.length)
    (first second : Nat) (left right : Part) (key : Key)
    (leftListed : listing[first]? = some left)
    (rightListed : listing[second]? = some right)
    (leftHolds : (archive.written batches).Holds left key)
    (rightHolds : (archive.written batches).Holds right key) :
    first = second := by
  have next {part : Part}
      (file : part.file = partFile archive.committed.length)
      (holds : (archive.written batches).Holds part key) :
      key ∈ keys (archive.fresh batches) := by
    obtain ⟨rows, found, member⟩ := holds
    rw [file, written_files_next something] at found
    cases found
    exact member
  have earlier {index : Nat} {part : Part}
      (found : archive.committed[index]? = some part)
      (holds : (archive.written batches).Holds part key) :
      key ∉ keys (archive.fresh batches) := by
    have member := List.mem_of_getElem? found
    exact fresh_unarchived member ((sound.holds_written member).mp holds)
  rcases extends_ first left leftListed with leftFound | ⟨leftLast, leftFile⟩
  · rcases extends_ second right rightListed with
      rightFound | ⟨rightLast, rightFile⟩
    · exact sound.disjoint first second left right key
        (committed_get leftFound) (committed_get rightFound)
        ((sound.holds_written (List.mem_of_getElem? leftFound)).mp leftHolds)
        ((sound.holds_written (List.mem_of_getElem? rightFound)).mp
          rightHolds)
    · exact absurd (next rightFile rightHolds) (earlier leftFound leftHolds)
  · rcases extends_ second right rightListed with
      rightFound | ⟨rightLast, rightFile⟩
    · exact absurd (next leftFile leftHolds) (earlier rightFound rightHolds)
    · exact leftLast.trans rightLast.symm

theorem recorded_committed_written {batches : List Measurement}
    {name : String}
    (recorded : (archive.written batches).recorded name = true) :
    ∃ part ∈ archive.committed, part.file = name ∧
      (archive.written batches).Counted part := by
  rw [recorded_written] at recorded
  obtain ⟨part, member, file, counted⟩ := sound.recorded_committed recorded
  exact ⟨part, member, file, (sound.counted_written member).mpr counted⟩

theorem removed_committed_written {batches : List Measurement} {key : Key}
    (removed : key ∈ (archive.written batches).removed) :
    ∃ part ∈ archive.committed,
      (archive.written batches).recorded part.file = true ∧
        (archive.written batches).Holds part key := by
  rw [removed_written] at removed
  obtain ⟨part, member, recorded, held⟩ := sound.removed_held key removed
  obtain ⟨index, found⟩ := List.mem_iff_getElem?.mp member
  rcases parts_get found with committed | ⟨-, pending⟩
  · have member := List.mem_of_getElem? committed
    exact ⟨part, member, (recorded_written archive batches part.file).trans recorded,
      (sound.holds_written member).mpr held⟩
  · rw [(pending_last pending).2] at recorded
    cases recorded

theorem written (batches : List Measurement) :
    (archive.written batches).Sound := by
  by_cases nothing : archive.fresh batches = []
  · simpa [Archive.written, nothing] using sound
  · have listing := parts_written archive batches
    have manifest :
        (archive.written batches).manifest = archive.manifest := by
      unfold Archive.written
      split <;> rfl
    constructor
    · rw [manifest]
      exact sound.current
    · rw [listing]
      exact sound.named
    · rw [listing]
      apply sound.disjoint_written nothing
      intro index part found
      rcases parts_get found with committed | ⟨last, -⟩
      · exact .inl committed
      · exact .inr ⟨last, last ▸ sound.named index part found⟩
    · intro name recorded
      obtain ⟨part, member, file, counted⟩ :=
        sound.recorded_committed_written recorded
      rw [listing]
      exact ⟨part, committed_subset member, file, counted⟩
    · rw [listing]
      intro index part found earlier
      rw [recorded_written]
      exact sound.earlier_recorded index part found earlier
    · intro key removed
      obtain ⟨part, member, recorded, held⟩ :=
        sound.removed_committed_written removed
      rw [listing]
      exact ⟨part, committed_subset member, recorded, held⟩

omit sound in
theorem partsAfter_get {batches : List Measurement} {index : Nat}
    {part : Part}
    (found : (archive.partsAfter batches)[index]? = some part) :
    archive.committed[index]? = some part ∨
      index = archive.committed.length ∧
        part = ⟨partFile archive.committed.length,
          (archive.fresh batches).length⟩ ∧
        archive.fresh batches ≠ [] := by
  unfold partsAfter at found
  split at found
  · exact .inl found
  · rename_i something
    by_cases bound : index < archive.committed.length
    · rw [List.getElem?_append_left bound] at found
      exact .inl found
    · rw [List.getElem?_append_right (by omega)] at found
      have zero : index - archive.committed.length = 0 := by
        have := (List.getElem?_eq_some_iff.mp found).1
        simp at this
        omega
      rw [zero] at found
      cases found
      exact .inr ⟨by omega, rfl, something⟩

omit sound in
theorem committed_subset_partsAfter {batches : List Measurement}
    {part : Part} (member : part ∈ archive.committed) :
    part ∈ archive.partsAfter batches := by
  unfold partsAfter
  split
  · exact member
  · exact List.mem_append_left _ member

theorem listed (target : Target) (batches : List Measurement) :
    (archive.listed target batches).Sound := by
  constructor
  · rfl
  · intro index part found
    rcases partsAfter_get found with committed | ⟨last, rfl, -⟩
    · exact sound.committed_named committed
    · rw [last]
  · by_cases nothing : archive.fresh batches = []
    · intro first second left right key leftListed rightListed
      have unwritten : archive.written batches = archive := by
        simp [Archive.written, nothing]
      have listing : (archive.listed target batches).parts =
          archive.committed := by
        simp [Archive.parts, Archive.listed, putManifest, manifestParts,
          newManifest, partsAfter, nothing]
      rw [listing] at leftListed rightListed
      have disjoint := sound.disjoint first second left right key
        (committed_get leftListed) (committed_get rightListed)
      simpa [Archive.listed, unwritten, Holds, putManifest] using disjoint
    · apply sound.disjoint_written nothing
      intro index part found
      rcases partsAfter_get found with committed | ⟨last, rfl, -⟩
      · exact .inl committed
      · exact .inr ⟨last, rfl⟩
  · intro name recorded
    obtain ⟨part, member, file, counted⟩ :=
      sound.recorded_committed_written recorded
    exact ⟨part, committed_subset_partsAfter member, file, counted⟩
  · intro index part found earlier
    rcases partsAfter_get found with committed | ⟨last, -, something⟩
    · have recorded :=
        sound.committed_recorded (List.mem_of_getElem? committed)
      exact (recorded_written archive batches part.file).trans recorded
    · have length : (archive.listed target batches).parts.length =
          archive.committed.length + 1 := by
        simp [Archive.parts, Archive.listed, putManifest, manifestParts,
          newManifest, partsAfter, something]
      omega
  · intro key removed
    obtain ⟨part, member, recorded, held⟩ :=
      sound.removed_committed_written removed
    exact ⟨part, committed_subset_partsAfter member, recorded, held⟩

omit sound in
theorem recorded_commitDrop (archive : Archive) (gone : List Key)
    (part : String) (rows : Nat) (name : String) :
    (archive.commitDrop gone part rows).recorded name = true ↔
      archive.recorded name = true ∨ part = name := by
  by_cases already : archive.recorded part = true
  · simp only [Archive.commitDrop, already, ↓reduceIte]
    constructor
    · exact .inl
    · rintro (recorded | rfl)
      · exact recorded
      · exact already
  · simp only [Archive.commitDrop, already, Bool.false_eq_true, ↓reduceIte]
    simp [Archive.recorded, or_comm]

/-- A recorded drop of the last part, whose file is counted: the rows that
leave the source must stand in the listed parts. -/
theorem commitDrop {gone : List Key} {last : Part} {rows : Nat}
    (final : archive.parts.getLast? = some last)
    (counted : archive.Counted last)
    (covered : ∀ key ∈ gone, ∃ part ∈ archive.parts,
      archive.Holds part key) :
    (archive.commitDrop gone last.file rows).Sound := by
  have recorded_iff := recorded_commitDrop archive gone last.file rows
  have all_recorded {part : Part} (member : part ∈ archive.parts) :
      (archive.commitDrop gone last.file rows).recorded part.file =
        true := by
    obtain ⟨index, found⟩ := List.mem_iff_getElem?.mp member
    by_cases earlier : index + 1 < archive.parts.length
    · exact (recorded_iff _).mpr
        (.inl (sound.earlier_recorded index part found earlier))
    · have bound := (List.getElem?_eq_some_iff.mp found).1
      have index_eq : index = archive.parts.length - 1 := by omega
      rw [List.getLast?_eq_getElem?, ← index_eq, found] at final
      cases final
      exact (recorded_iff _).mpr (.inr rfl)
  constructor
  · exact sound.current
  · exact sound.named
  · exact sound.disjoint
  · intro name recorded
    rcases (recorded_iff name).mp recorded with before | rfl
    · exact sound.recorded_listed name before
    · exact ⟨last, List.mem_of_getLast? final, rfl, counted⟩
  · intro index part found _
    exact all_recorded (List.mem_of_getElem? found)
  · intro key removed
    rcases List.mem_append.mp removed with now | before
    · obtain ⟨part, member, held⟩ := covered key now
      exact ⟨part, member, all_recorded member, held⟩
    · obtain ⟨part, member, -, held⟩ := sound.removed_held key before
      exact ⟨part, member, all_recorded member, held⟩

omit sound in
theorem preserves_commitDrop (gone : List Key) (part : String)
    (rows : Nat) :
    archive.Preserves (archive.commitDrop gone part rows) := by
  intro name recorded
  exact ⟨(recorded_commitDrop archive gone part rows name).mpr
    (.inl recorded), rfl⟩

end Sound

end Archive

/-! ## Every run -/

/-- The day fingerprint distinguishes different day contents. -/
def Separates (hash : Measurement → Int) : Prop :=
  ∀ first second : Day,
    dayFingerprint hash first.rows = dayFingerprint hash second.rows →
      first.rows.Perm second.rows

private theorem measurement_countable : Countable Measurement := by
  have character : Countable Char :=
    Function.Injective.countable (f := Char.toNat)
      fun _ _ equal => Char.toNat_inj.mp equal
  have text : Countable String :=
    Function.Injective.countable (f := String.toList)
      fun _ _ equal => String.toList_inj.mp equal
  have word : Countable UInt64 :=
    Function.Injective.countable (f := UInt64.toNat)
      fun _ _ equal => UInt64.toNat_inj.mp equal
  apply Function.Injective.countable
    (f := fun row : Measurement =>
      (row.time, row.sensorId, row.equipmentId, row.siteId, row.value,
        row.unit, row.qualityCode, row.isAnomaly))
  rintro ⟨⟩ ⟨⟩ equal
  simpa using equal

/-- A hash that is a power of two per row separates all days. -/
theorem exists_separates : ∃ hash, Separates hash := by
  obtain ⟨encode, injective⟩ :=
    @exists_injective_nat Measurement measurement_countable
  have powers (rows : List Measurement) :
      (rows.map fun row => (2 : Int) ^ encode row).sum =
        (((rows.map encode).map fun index => 2 ^ index).sum : Nat) := by
    induction rows with
    | nil => rfl
    | cons row rows induction => simp [induction]
  have nodup (day : Day) : day.rows.Nodup :=
    List.Nodup.of_map _ day.unique
  refine ⟨fun row => (2 : Int) ^ encode row, ?_⟩
  intro first second equal
  have sums := congrArg Prod.snd equal
  simp only [dayFingerprint, powers, Nat.cast_inj] at sums
  have codes : (first.rows.map encode).toFinset =
      (second.rows.map encode).toFinset := by
    have codesNodup (day : Day) : (day.rows.map encode).Nodup :=
      (nodup day).map injective
    apply Finset.geomSum_injective (le_refl 2)
    simp only [List.sum_toFinset _ (codesNodup _), sums]
  rw [List.perm_ext_iff_of_nodup (nodup first) (nodup second)]
  intro row
  have member := congrArg (fun set => encode row ∈ set) codes
  simpa [injective.eq_iff] using member

open Archive in
/-- The keys that leave the source with a drop stand in the listed parts. -/
private theorem dropped_covered {archive : Archive} (sound : archive.Sound)
    (target : Target) {day now : Day} (same : now.rows.Perm day.rows)
    {key : Key} (member : key ∈ keys now.rows) :
    ∃ part ∈ (archive.listed target (inFileOrder day.rows)).parts,
      (archive.listed target (inFileOrder day.rows)).Holds part key := by
  have streamed : key ∈ keys (inFileOrder day.rows) := by
    have order := ((inFileOrder_perm day.rows).trans same.symm).map
      Measurement.key
    exact order.mem_iff.mpr member
  rcases key_covered archive streamed with
    fresh | ⟨part, member, held⟩
  · have something : archive.fresh (inFileOrder day.rows) ≠ [] := by
      intro nothing
      simp [nothing, keys] at fresh
    refine ⟨⟨partFile archive.committed.length,
      (archive.fresh (inFileOrder day.rows)).length⟩, ?_,
      archive.fresh (inFileOrder day.rows), ?_, fresh⟩
    · show _ ∈ archive.partsAfter (inFileOrder day.rows)
      simp [partsAfter, something]
    · exact written_files_next something
  · exact ⟨part, Sound.committed_subset_partsAfter member,
      (sound.holds_written member).mpr held⟩

open Archive in
private theorem last_counted {archive : Archive} (sound : archive.Sound)
    (target : Target) {batches : List Measurement} {last : Part}
    (counted : ∀ part ∈ archive.committed, archive.Counted part)
    (final : (archive.partsAfter batches).getLast? = some last) :
    (archive.listed target batches).Counted last := by
  obtain ⟨index, found⟩ :=
    List.mem_iff_getElem?.mp (List.mem_of_getLast? final)
  rcases Sound.partsAfter_get found with
    committed | ⟨-, rfl, something⟩
  · have member := List.mem_of_getElem? committed
    exact (sound.counted_written member).mpr (counted last member)
  · exact ⟨_, written_files_next something, rfl⟩

theorem sound_upheld (target : Target) {hash : Measurement → Int}
    (separates : Separates hash) :
    Upheld target hash Archive.Sound Archive.Preserves
      (fun _ _ => True) where
  refl := Archive.Preserves.refl
  resume archive last sound pending counted :=
    ⟨sound.commitDrop (Archive.pending_last pending).1 counted (by simp),
      Archive.Sound.preserves_commitDrop [] last.file 0⟩
  write archive day sound _ _ _ :=
    ⟨sound.written _, sound.preserves_written _⟩
  list archive day sound _ _ _ :=
    ⟨sound.listed target _, Archive.Preserves.refl _⟩
  drop archive day sound _ _ counted now unchanged last final :=
    ⟨(sound.listed target _).commitDrop final
        (last_counted sound target counted final)
        (fun _ member => dropped_covered sound target
          (separates now day unchanged) member),
      Archive.Sound.preserves_commitDrop _ last.file _⟩

private theorem step_sound (target : Target) {hash : Measurement → Int}
    (separates : Separates hash)
    {state next : Solo Stores Op Reply ExportError Outcome}
    {event : SoloEvent Unit Change}
    (kept : Solo.Kept (exporter target hash)
      (archiveContract Archive.Sound Archive.Preserves fun _ _ => True)
      state)
    (stepped : Solo.step (exporter target hash) state event = some next) :
    Solo.Kept (exporter target hash)
        (archiveContract Archive.Sound Archive.Preserves fun _ _ => True)
        next ∧
      state.shared.archive.Preserves next.shared.archive := by
  have upheld := sound_upheld target separates
  have permitted : Solo.Allowed
      (archiveContract Archive.Sound Archive.Preserves fun _ _ => True)
      state event := by
    intro op choice _
    cases op <;> trivial
  obtain ⟨keptAfter, changed⟩ := Solo.step_keeps
    (fun _ holds => exportDay_safe upheld holds)
    (fun stores change after holds changed => by
      have same := change_archive changed
      exact ⟨(congrArg Archive.Sound same).mpr holds, same⟩)
    kept permitted stepped
  refine ⟨keptAfter, ?_⟩
  rcases changed with given | same
  · exact given
  · rw [show next.shared.archive = state.shared.archive from same]
    exact Archive.Preserves.refl _

/-- From an empty archive, after any run of arrivals, updates, exports and
crashes: each removed key stands in exactly one listed part, no key stands in
two, a part whose drop is recorded keeps its file and its place in the
manifest, and only the last listed part can lack a recorded drop. -/
theorem export_keeps_measurements (target : Target)
    (hash : Measurement → Int) (separates : Separates hash) (source : Day)
    (before after : List (SoloEvent Unit Change))
    (middle final : Solo Stores Op Reply ExportError Outcome)
    (ran : run (Solo.step (exporter target hash))
      (idle ⟨source, .empty⟩) before = some middle)
    (continued : run (Solo.step (exporter target hash)) middle after =
      some final) :
    (∀ key ∈ final.shared.archive.removed,
      ∃! index : Nat, ∃ part,
        final.shared.archive.parts[index]? = some part ∧
          final.shared.archive.Holds part key) ∧
    (∀ (first second : Nat) left right key,
      final.shared.archive.parts[first]? = some left →
      final.shared.archive.parts[second]? = some right →
      final.shared.archive.Holds left key →
      final.shared.archive.Holds right key → first = second) ∧
    (∀ name, middle.shared.archive.recorded name = true →
      final.shared.archive.recorded name = true ∧
        final.shared.archive.files name =
          middle.shared.archive.files name ∧
        ∃ part ∈ final.shared.archive.parts, part.file = name ∧
          final.shared.archive.Counted part) ∧
    (∀ index part, final.shared.archive.parts[index]? = some part →
      index + 1 < final.shared.archive.parts.length →
      final.shared.archive.recorded part.file = true) := by
  have started : Solo.Kept (exporter target hash)
      (archiveContract Archive.Sound Archive.Preserves fun _ _ => True)
      (idle ⟨source, .empty⟩) :=
    ⟨Archive.sound_empty, fun _ _ _ => trivial⟩
  have reached := run_preserves _
    (fun _ _ _ kept stepped =>
      (step_sound target separates kept stepped).1) started ran
  have sound := (run_preserves _
    (fun _ _ _ kept stepped =>
      (step_sound target separates kept stepped).1) reached continued).holds
  have preserved :
      middle.shared.archive.Preserves final.shared.archive := by
    refine run_relates
      (fun earlier later =>
        earlier.shared.archive.Preserves later.shared.archive)
      ?_ ?_ ?_ reached continued
    · exact fun state => Archive.Preserves.refl state.shared.archive
    · exact fun first second => first.trans second
    · exact fun _ _ _ kept stepped => step_sound target separates kept stepped
  refine ⟨?_, sound.disjoint, ?_, sound.earlier_recorded⟩
  · intro key removed
    obtain ⟨part, member, -, held⟩ := sound.removed_held key removed
    obtain ⟨index, found⟩ := List.mem_iff_getElem?.mp member
    refine ⟨index, ⟨part, found, held⟩, ?_⟩
    rintro other ⟨otherPart, otherFound, otherHeld⟩
    exact sound.disjoint other index otherPart part key otherFound found
      otherHeld held
  · intro name recorded
    obtain ⟨kept, same⟩ := preserved name recorded
    exact ⟨kept, same, sound.recorded_listed name kept⟩

private def oneRow : Measurement :=
  ⟨0, "sensor", "equipment", "site", 0, none, none, none⟩

private def oneDay : Day :=
  ⟨[oneRow], by decide⟩

private def oneTarget : Target :=
  ⟨"tenant_0", "2026-01-01"⟩

/-- One row is exported and dropped, and arrives again. -/
private theorem export_one_row (hash : Measurement → Int) :
    ∃ middle final,
      run (Solo.step (exporter oneTarget hash)) (idle ⟨oneDay, .empty⟩)
        [.start, .step (), .step (), .step (), .step (), .step (),
          .step ()] = some middle ∧
      run (Solo.step (exporter oneTarget hash)) middle
        [.environment (.arrive oneRow)] = some final ∧
      middle.shared.archive.recorded (partFile 0) = true ∧
      (0, "sensor") ∈ final.shared.archive.removed := by
  have valid : validPart firstPart = true := by decide
  have droppable : droppablePart firstPart = true := by decide
  have written (stores : Stores) :
      exec hash stores (.writePart firstPart [oneRow]) () =
        some (some 1, { stores with
          archive := stores.archive.putPart firstPart [oneRow] }) := by
    simp [exec, valid]
  have counted (stores : Stores) :
      exec hash { stores with
          archive := stores.archive.putPart firstPart [oneRow] }
        (.partRowCount firstPart) () = some (some 1, { stores with
          archive := stores.archive.putPart firstPart [oneRow] }) := by
    simp [exec, Archive.read, valid, Archive.putPart]
  have dropped (archive : Archive) :
      exec hash ⟨oneDay, archive⟩
        (.drop (takeSnapshot hash oneDay) firstPart) () =
        some (some true, ⟨.empty,
          archive.commitDrop (keys [oneRow]) firstPart 1⟩) := by
    simp [exec, dropDay, droppable, takeSnapshot, oneDay, dayFingerprint]
  refine ⟨_, _, Solo.run_start rfl (Solo.run_step rfl (Solo.run_step rfl
    (Solo.run_step (written _) (Solo.run_step (counted _)
      (Solo.run_step rfl (Solo.run_step (dropped _) rfl)))))), rfl, rfl, ?_⟩
  exact List.mem_singleton.mpr rfl

theorem export_keeps_measurements_one_row :
    ∃ hash, Separates hash ∧ ∃ middle final,
      run (Solo.step (exporter ⟨"tenant_0", "2026-01-01"⟩ hash))
        (idle ⟨⟨[⟨0, "sensor", "equipment", "site", 0, none, none, none⟩],
          by decide⟩, .empty⟩)
        [.start, .step (), .step (), .step (), .step (), .step (),
          .step ()] = some middle ∧
      run (Solo.step (exporter ⟨"tenant_0", "2026-01-01"⟩ hash)) middle
        [.environment (.arrive
          ⟨0, "sensor", "equipment", "site", 0, none, none, none⟩)] =
            some final ∧
      (∃! index : Nat, ∃ part,
        final.shared.archive.parts[index]? = some part ∧
          final.shared.archive.Holds part (0, "sensor")) ∧
      final.shared.archive.files (partFile 0) =
        middle.shared.archive.files (partFile 0) := by
  obtain ⟨hash, separates⟩ := exists_separates
  obtain ⟨middle, final, ran, continued, recorded, removed⟩ :=
    export_one_row hash
  have kept := export_keeps_measurements oneTarget hash separates oneDay
    _ _ middle final ran continued
  exact ⟨hash, separates, middle, final, ran, continued,
    kept.1 _ removed, (kept.2.2.1 _ recorded).2.1⟩

end IndustryFlow.ColdExport
