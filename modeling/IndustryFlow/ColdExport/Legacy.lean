import IndustryFlow.ColdExport.Durability

/-!
# Archives from before the drop record

A legacy manifest names no parts and has no recorded drop; it stands for the
day's first file.  A run takes that file for committed only while the manifest
is still a legacy one.  Once a run has listed the file in the new format
without a recorded drop, the next run with rows in the source takes it for
pending and writes over it (`legacy_archive_overwritten`).  The file survives
every run that never gets there (`legacy_archive_kept`).
-/

namespace IndustryFlow.ColdExport

open Concurrent

namespace Archive

/-- A legacy manifest over the day's first file, which holds `rows`. -/
structure Legacy (archive : Archive) (rows : List Measurement) : Prop where
  manifest : ∃ manifest, archive.manifest = some manifest ∧
    manifest.parts = none ∧ manifest.rows = rows.length
  file : archive.files (partFile 0) = some rows
  unrecorded : archive.drops = []

/-- The manifest lists a single part, in the new format, and no drop of it is
recorded. -/
def SinglePending (archive : Archive) : Prop :=
  isLegacy archive.manifest = false ∧
    ∃ part, archive.parts = [part] ∧ archive.recorded part.file = false

instance (archive : Archive) : Decidable archive.SinglePending :=
  match single : archive.parts with
  | [part] => decidable_of_iff (isLegacy archive.manifest = false ∧
      archive.recorded part.file = false) (by simp [SinglePending, single])
  | [] => .isFalse (by simp [SinglePending, single])
  | _ :: _ :: _ => .isFalse (by simp [SinglePending, single])

/-- The first file still holds `rows` and is listed. -/
structure KeepsFirst (rows : List Measurement) (archive : Archive) :
    Prop where
  file : archive.files (partFile 0) = some rows
  listed : archive.parts.head? = some ⟨partFile 0, rows.length⟩

variable {archive : Archive} {rows : List Measurement}

theorem Legacy.keepsFirst (legacy : archive.Legacy rows) :
    archive.KeepsFirst rows := by
  obtain ⟨manifest, found, single, count⟩ := legacy.manifest
  refine ⟨legacy.file, ?_⟩
  simp [parts, manifestParts, found, single, count]

theorem KeepsFirst.holds (keeps : archive.KeepsFirst rows) {key : Key}
    (member : key ∈ keys rows) :
    ∃ part ∈ archive.parts, archive.Holds part key :=
  ⟨_, List.mem_of_head? keeps.listed, rows, keeps.file, member⟩

/-- The first part is committed, unless it is alone and pending. -/
theorem KeepsFirst.committed (keeps : archive.KeepsFirst rows)
    (spared : ¬archive.SinglePending) :
    archive.committed.head? = some ⟨partFile 0, rows.length⟩ := by
  have listed := keeps.listed
  rw [parts_eq] at listed
  cases first : archive.committed with
  | cons part rest => simpa [first] using listed
  | nil =>
      cases pending : archive.pending with
      | none => simp [first, pending] at listed
      | some last =>
          refine absurd ⟨?_, last, ?_, (pending_last pending).2⟩ spared
          · unfold Archive.pending at pending
            split at pending
            · cases pending
            · split at pending
              · cases pending
              · simpa using ‹¬isLegacy archive.manifest = true›
          · rw [parts_eq, first, pending]
            rfl

theorem KeepsFirst.written (keeps : archive.KeepsFirst rows)
    (spared : ¬archive.SinglePending) (batches : List Measurement) :
    (archive.written batches).KeepsFirst rows := by
  have committed := keeps.committed spared
  constructor
  · rw [written_files_of_ne, keeps.file]
    intro same
    have empty : archive.committed.length = 0 :=
      (partFile_injective same).symm
    rw [List.length_eq_zero_iff.mp empty] at committed
    cases committed
  · rw [parts_written]
    exact keeps.listed

theorem KeepsFirst.listed_after (keeps : archive.KeepsFirst rows)
    (spared : ¬archive.SinglePending) (target : Target)
    (batches : List Measurement) :
    (archive.listed target batches).KeepsFirst rows := by
  refine ⟨(keeps.written spared batches).file, ?_⟩
  show (archive.partsAfter batches).head? = _
  have committed := keeps.committed spared
  unfold partsAfter
  split
  · exact committed
  · rw [List.head?_append, committed]
    rfl

end Archive

theorem keepsFirst_upheld (target : Target) (hash : Measurement → Int)
    (rows : List Measurement) :
    Upheld target hash (Archive.KeepsFirst rows) (fun _ _ => True)
      (fun day archive => day.rows ≠ [] → ¬archive.SinglePending) where
  refl _ := trivial
  resume _ _ keeps _ _ := ⟨⟨keeps.file, keeps.listed⟩, trivial⟩
  write _ _ keeps spared some _ :=
    ⟨keeps.written (spared some) _, trivial⟩
  list _ _ keeps spared some _ :=
    ⟨keeps.listed_after (spared some) target _, trivial⟩
  drop _ _ keeps spared some _ _ _ _ _ :=
    have listed := keeps.listed_after (spared some) target _
    ⟨⟨listed.file, listed.listed⟩, trivial⟩

/-- In every run that takes no snapshot of a day with rows while the manifest
lists a single part without a recorded drop, the legacy file is never
overwritten and never unlisted. -/
theorem legacy_archive_kept (target : Target) (hash : Measurement → Int)
    (source : Day) (archive : Archive) (rows : List Measurement)
    (legacy : archive.Legacy rows) (events : List (SoloEvent Unit Change))
    (final : Solo Stores Op Reply ExportError Outcome)
    (spared : Along (Solo.step (exporter target hash))
      (fun state event => state.Makes event .snapshotDay () →
        state.shared.source.rows ≠ [] →
        ¬state.shared.archive.SinglePending)
      (idle ⟨source, archive⟩) events)
    (ran : run (Solo.step (exporter target hash))
      (idle ⟨source, archive⟩) events = some final) :
    final.shared.archive.files (partFile 0) = some rows ∧
      final.shared.archive.parts.head? =
        some ⟨partFile 0, rows.length⟩ ∧
      ∀ key ∈ keys rows, ∃ part ∈ final.shared.archive.parts,
        final.shared.archive.Holds part key := by
  have started : Solo.Kept (exporter target hash)
      (archiveContract (Archive.KeepsFirst rows) (fun _ _ => True)
        (fun day archive => day.rows ≠ [] → ¬archive.SinglePending))
      (idle ⟨source, archive⟩) :=
    ⟨legacy.keepsFirst, fun _ _ _ => trivial⟩
  have kept := run_preserves_along _
    (fun state event next kept allowed stepped =>
      (Solo.step_keeps
        (fun _ holds =>
          exportDay_safe (keepsFirst_upheld target hash rows) holds)
        (fun stores change after holds changed => by
          have same := change_archive changed
          exact ⟨(congrArg (Archive.KeepsFirst rows) same).mpr holds, same⟩)
        kept
        (by
          intro op choice made
          cases op with
          | snapshotDay => exact allowed made
          | _ => trivial)
        stepped).1)
    started spared ran
  have keeps := kept.holds
  exact ⟨keeps.file, keeps.listed, fun _ member => keeps.holds member⟩

/-- A row of one sensor. -/
def rowAt (time : Int) : Measurement :=
  ⟨time, "sensor", "equipment", "site", 0, none, none, none⟩

/-- A legacy archive whose file holds the rows of two times. -/
def legacySample : Archive where
  files name := if name = partFile 0 then some [rowAt 1, rowAt 2] else none
  manifest := some ⟨1, "tenant_0", "2026-01-01", 2, none⟩
  drops := []
  removed := []

theorem legacySample_legacy : legacySample.Legacy [rowAt 1, rowAt 2] where
  manifest := ⟨_, rfl, rfl, rfl⟩
  file := rfl
  unrecorded := rfl

/-- The source still holds an archived row and a late one: the late row
becomes the second part. -/
theorem legacy_archive_kept_late_row : ∃ final,
    run (Solo.step (exporter ⟨"tenant_0", "2026-01-01"⟩ Measurement.time))
      (idle ⟨⟨[rowAt 1, rowAt 3], by decide⟩, legacySample⟩)
      (.start :: List.replicate 8 (.step ())) = some final ∧
    final.shared.archive.removed ≠ [] ∧
    final.shared.archive.files (partFile 0) = some [rowAt 1, rowAt 2] := by
  have ran : ((run (Solo.step
      (exporter ⟨"tenant_0", "2026-01-01"⟩ Measurement.time))
      (idle ⟨⟨[rowAt 1, rowAt 3], by decide⟩, legacySample⟩)
      (.start :: List.replicate 8 (.step ()))).any fun final =>
        !final.shared.archive.removed.isEmpty) = true := by
    decide +kernel
  obtain ⟨final, ran, removed⟩ := (Option.any_eq_true _ _).mp ran
  have kept := legacy_archive_kept ⟨"tenant_0", "2026-01-01"⟩
    Measurement.time ⟨[rowAt 1, rowAt 3], by decide⟩ legacySample
    [rowAt 1, rowAt 2] legacySample_legacy _ final (by decide +kernel) ran
  exact ⟨final, ran, by simpa using removed, kept.1⟩

/-- The source holds one archived row and a late row arrives before the drop.
The deferred drop leaves the legacy file listed in the new format, and the
next run writes the two source rows over it: the row of time two is lost. -/
theorem legacy_archive_overwritten :
    ¬∀ (target : Target) (hash : Measurement → Int) (source : Day)
      (archive : Archive) (rows : List Measurement),
      archive.Legacy rows → ∀ (events : List (SoloEvent Unit Change))
        (final : Solo Stores Op Reply ExportError Outcome),
        run (Solo.step (exporter target hash))
          (idle ⟨source, archive⟩) events = some final →
        ∀ key ∈ keys rows, ∃ part ∈ final.shared.archive.parts,
          final.shared.archive.Holds part key := by
  intro always
  have ran : ((run (Solo.step
      (exporter ⟨"tenant_0", "2026-01-01"⟩ Measurement.time))
      (idle ⟨⟨[rowAt 1], by decide⟩, legacySample⟩)
      ((.start :: List.replicate 4 (.step ()) :
          List (SoloEvent Unit Change)) ++
        ([.environment (.arrive (rowAt 3))] :
          List (SoloEvent Unit Change)) ++
        (List.replicate 2 (.step ()) : List (SoloEvent Unit Change)) ++
        (.start :: List.replicate 4 (.step ()) :
          List (SoloEvent Unit Change)))).any fun final =>
        (2, "sensor") ∉ final.shared.archive.archivedKeys
          final.shared.archive.parts) = true := by
    decide +kernel
  obtain ⟨final, ran, lost⟩ := (Option.any_eq_true _ _).mp ran
  have held := always _ _ _ _ _ legacySample_legacy _ final ran
    (2, "sensor") (by decide)
  exact absurd (Archive.mem_archivedKeys.mpr held) (by simpa using lost)

end IndustryFlow.ColdExport
