import IndustryFlow.ColdExport.Exporter

/-!
# What a run of the exporter can do

A run decides from the archive and one snapshot of the source; its only
effects are a part, a manifest and a checked drop.  `exportDay_safe` reduces
the safety of every run to those three effects, so an invariant of the archive
is shown without walking through the exporter again.
-/

namespace IndustryFlow.ColdExport

open Concurrent

namespace Archive

/-- The part a run takes for pending. -/
def pending (archive : Archive) : Option Part :=
  match (manifestParts archive.manifest).getLast? with
  | none => none
  | some last =>
      if isLegacy archive.manifest then none
      else if archive.recorded last.file then none
      else some last

/-- The parts a run takes for committed. -/
def committed (archive : Archive) : List Part :=
  if archive.pending.isSome then (manifestParts archive.manifest).dropLast
  else manifestParts archive.manifest

/-- The part's footer is its manifest count. -/
def Counted (archive : Archive) (part : Part) : Prop :=
  ∃ rows, archive.files part.file = some rows ∧ rows.length = part.rows

def archivedKeys (archive : Archive) (parts : List Part) : List Key :=
  parts.flatMap fun part => keys ((archive.files part.file).getD [])

/-- The rows of a snapshot a run writes. -/
def fresh (archive : Archive) (batches : List Measurement) :
    List Measurement :=
  if archive.committed.isEmpty then batches
  else inFileOrder
    (leftAnti batches (archive.archivedKeys archive.committed))

/-- The archive with the next part written, if there is anything to write. -/
def written (archive : Archive) (batches : List Measurement) : Archive :=
  if archive.fresh batches = [] then archive
  else archive.putPart (partFile archive.committed.length)
    (archive.fresh batches)

/-- The parts listed by a run. -/
def partsAfter (archive : Archive) (batches : List Measurement) :
    List Part :=
  if archive.fresh batches = [] then archive.committed
  else archive.committed ++
    [⟨partFile archive.committed.length, (archive.fresh batches).length⟩]

/-- The archive with the run's parts listed. -/
def listed (archive : Archive) (target : Target)
    (batches : List Measurement) : Archive :=
  (archive.written batches).putManifest
    (newManifest target (archive.partsAfter batches))

end Archive

/-- An invariant of the archive, and what its owner must preserve.  Only a
snapshot is restricted; the environment leaves the archive alone. -/
def archiveContract (invariant : Archive → Prop)
    (preserves : Archive → Archive → Prop)
    (snapshotAllowed : Day → Archive → Prop) :
    Contract Stores Op Unit where
  invariant stores := invariant stores.archive
  allowed stores op _ :=
    match op with
    | .snapshotDay => snapshotAllowed stores.source stores.archive
    | _ => True
  rely before after := after.archive = before.archive
  guarantee before after := preserves before.archive after.archive
  rely_refl _ := rfl
  rely_trans first second := second.trans first

/-- The effects a run may have, each under what the run knows by then. -/
structure Upheld (target : Target) (hash : Measurement → Int)
    (invariant : Archive → Prop) (preserves : Archive → Archive → Prop)
    (snapshotAllowed : Day → Archive → Prop) : Prop where
  refl : ∀ archive, preserves archive archive
  /-- The drop of a pending part whose rows are gone from the source. -/
  resume : ∀ archive last, invariant archive →
    archive.pending = some last → archive.Counted last →
    invariant (archive.commitDrop [] last.file 0) ∧
      preserves archive (archive.commitDrop [] last.file 0)
  write : ∀ archive day, invariant archive →
    snapshotAllowed day archive → day.rows ≠ [] →
    (∀ part ∈ archive.committed, archive.Counted part) →
    invariant (archive.written (inFileOrder day.rows)) ∧
      preserves archive (archive.written (inFileOrder day.rows))
  list : ∀ archive day, invariant archive →
    snapshotAllowed day archive → day.rows ≠ [] →
    (∀ part ∈ archive.committed, archive.Counted part) →
    invariant (archive.listed target (inFileOrder day.rows)) ∧
      preserves (archive.written (inFileOrder day.rows))
        (archive.listed target (inFileOrder day.rows))
  drop : ∀ archive day, invariant archive →
    snapshotAllowed day archive → day.rows ≠ [] →
    (∀ part ∈ archive.committed, archive.Counted part) →
    ∀ now : Day, dayFingerprint hash now.rows =
      dayFingerprint hash day.rows →
    ∀ last, (archive.partsAfter (inFileOrder day.rows)).getLast? =
      some last →
    invariant ((archive.listed target (inFileOrder day.rows)).commitDrop
        (keys now.rows) last.file day.rows.length) ∧
      preserves (archive.listed target (inFileOrder day.rows))
        ((archive.listed target (inFileOrder day.rows)).commitDrop
          (keys now.rows) last.file day.rows.length)

section

variable {target : Target} {hash : Measurement → Int}
variable {invariant : Archive → Prop}
variable {preserves : Archive → Archive → Prop}
variable {snapshotAllowed : Day → Archive → Prop}

/-- Safety of what is left of a run, while the archive is as given. -/
def SafeAt (hash : Measurement → Int) (invariant : Archive → Prop)
    (preserves : Archive → Archive → Prop)
    (snapshotAllowed : Day → Archive → Prop) (archive : Archive)
    (program : Export Outcome) : Prop :=
  ∀ stores : Stores, stores.archive = archive →
    program.Safe (exec hash)
      (archiveContract invariant preserves snapshotAllowed)
      (fun _ _ => True) stores

private theorem done_safe (archive : Archive) (outcome : Outcome) :
    SafeAt hash invariant preserves snapshotAllowed archive
      (.done outcome) :=
  fun _ _ _ _ _ => trivial

private theorem fail_safe (archive : Archive) (error : ExportError) :
    SafeAt hash invariant preserves snapshotAllowed archive
      (.fail error) :=
  fun _ _ _ _ _ => trivial

private theorem call_safe {archive : Archive} {op : Op}
    {next : Reply op → Export Outcome}
    (executes : ∀ stores : Stores, stores.archive = archive →
      (archiveContract invariant preserves snapshotAllowed).allowed
        stores op () →
      ∀ reply after, exec hash stores op () = some (reply, after) →
        invariant after.archive ∧ preserves archive after.archive ∧
          SafeAt hash invariant preserves snapshotAllowed after.archive
            (next reply)) :
    SafeAt hash invariant preserves snapshotAllowed archive
      (.call op next) := by
  intro stores located later _ changed choice reply after permitted executed
  have same : later.archive = archive := changed.trans located
  obtain ⟨kept, given, rest⟩ :=
    executes later same permitted reply after executed
  refine ⟨kept, ?_, rest after rfl⟩
  show preserves later.archive after.archive
  rw [same]
  exact given

private theorem read_safe
    (refl : ∀ archive, preserves archive archive)
    {archive : Archive} (holds : invariant archive) {op : Op}
    {next : Reply op → Export Outcome}
    (reads : ∀ stores : Stores, stores.archive = archive →
      (archiveContract invariant preserves snapshotAllowed).allowed
        stores op () →
      ∀ reply after, exec hash stores op () = some (reply, after) →
        after.archive = archive ∧
          SafeAt hash invariant preserves snapshotAllowed archive
            (next reply)) :
    SafeAt hash invariant preserves snapshotAllowed archive
      (.call op next) := by
  apply call_safe
  intro stores located permitted reply after executed
  obtain ⟨same, rest⟩ := reads stores located permitted reply after executed
  rw [same]
  exact ⟨holds, refl archive, rest⟩

private theorem checkPart_safe
    (refl : ∀ archive, preserves archive archive)
    {archive : Archive} (holds : invariant archive) (part : Part)
    {continuation : Unit → Export Outcome}
    (continues : archive.Counted part →
      SafeAt hash invariant preserves snapshotAllowed archive
        (continuation ())) :
    SafeAt hash invariant preserves snapshotAllowed archive
      (checkPart part >>= continuation) := by
  simp only [checkPart, Program.perform_bind, Program.call_bind]
  apply read_safe refl holds
  intro stores located _ reply after executed
  cases executed
  refine ⟨located, ?_⟩
  rw [located]
  cases found : archive.read part.file with
  | none => exact fail_safe archive .raised
  | some rows =>
      simp only [Option.map_some, orRaise, Program.done_bind]
      split
      · rename_i equal
        apply continues
        unfold Archive.read at found
        split at found
        · exact ⟨rows, found, equal⟩
        · cases found
      · exact fail_safe archive _

private theorem checkParts_safe
    (refl : ∀ archive, preserves archive archive)
    {archive : Archive} (holds : invariant archive) (parts : List Part)
    {continuation : Unit → Export Outcome}
    (continues : (∀ part ∈ parts, archive.Counted part) →
      SafeAt hash invariant preserves snapshotAllowed archive
        (continuation ())) :
    SafeAt hash invariant preserves snapshotAllowed archive
      (checkParts parts >>= continuation) := by
  induction parts with
  | nil => exact continues (by simp)
  | cons part parts induction =>
      simp only [checkParts, Program.bind_assoc]
      apply checkPart_safe refl holds
      intro counted
      apply induction
      intro rest
      exact continues (List.forall_mem_cons.mpr ⟨counted, rest⟩)

private theorem readArchivedKeys_safe
    (refl : ∀ archive, preserves archive archive)
    {archive : Archive} (holds : invariant archive) (parts : List Part)
    {continuation : List Key → Export Outcome}
    (continues : SafeAt hash invariant preserves snapshotAllowed archive
      (continuation (archive.archivedKeys parts))) :
    SafeAt hash invariant preserves snapshotAllowed archive
      (readArchivedKeys parts >>= continuation) := by
  induction parts generalizing continuation with
  | nil => exact continues
  | cons part parts induction =>
      simp only [readArchivedKeys, Program.perform_bind, Program.call_bind]
      apply read_safe refl holds
      intro stores located _ reply after executed
      cases executed
      refine ⟨located, ?_⟩
      rw [located]
      cases found : archive.read part.file with
      | none => exact fail_safe archive .raised
      | some rows =>
          have held : archive.files part.file = some rows := by
            unfold Archive.read at found
            split at found
            · exact found
            · cases found
          simp only [Option.map_some, orRaise, Program.done_bind,
            Program.bind_assoc]
          apply induction
          simpa [Archive.archivedKeys, held] using continues

private theorem drop_safe {archive : Archive} {snapshot : Snapshot}
    {part : String} (holds : invariant archive)
    (refl : ∀ archive, preserves archive archive)
    {outcome : Bool → Outcome}
    (drops : ∀ now : Day, dayFingerprint hash now.rows =
        (snapshot.rows, snapshot.fingerprint) →
      invariant (archive.commitDrop (keys now.rows) part snapshot.rows) ∧
        preserves archive
          (archive.commitDrop (keys now.rows) part snapshot.rows)) :
    SafeAt hash invariant preserves snapshotAllowed archive
      (snapshot.drop part >>= fun answer => orRaise answer >>=
        fun dropped => pure (outcome dropped)) := by
  simp only [Program.perform_bind]
  apply call_safe
  intro stores located _ reply after executed
  simp only [exec, dropDay, located, Option.some.injEq] at executed
  split at executed
  · cases executed
    rw [located]
    exact ⟨holds, refl archive, fail_safe archive .raised⟩
  · split at executed
    · rename_i unchanged
      cases executed
      obtain ⟨kept, given⟩ := drops stores.source unchanged
      exact ⟨kept, given, done_safe _ _⟩
    · cases executed
      rw [located]
      exact ⟨holds, refl archive, done_safe archive _⟩

private theorem freshRows_safe
    (refl : ∀ archive, preserves archive archive)
    {archive : Archive} (holds : invariant archive) (day : Day)
    {continuation : List Measurement × Nat → Export Outcome}
    (continues : SafeAt hash invariant preserves snapshotAllowed archive
      (continuation (archive.fresh (inFileOrder day.rows),
        (archive.fresh (inFileOrder day.rows)).length))) :
    SafeAt hash invariant preserves snapshotAllowed archive
      (freshRows (takeSnapshot hash day) archive.committed >>=
        continuation) := by
  have counted : (inFileOrder day.rows).length = day.rows.length :=
    (inFileOrder_perm day.rows).length_eq
  unfold freshRows
  split
  · rename_i first
    simpa [Archive.fresh, first, takeSnapshot, dayFingerprint, counted]
      using continues
  · rename_i later
    have streamed : ¬(takeSnapshot hash day).batches.length ≠
        (takeSnapshot hash day).rows := by
      simpa [takeSnapshot, dayFingerprint] using counted
    simp only [withoutArchived, if_neg streamed, Program.bind_assoc]
    apply readArchivedKeys_safe refl holds
    simpa [Archive.fresh, later, takeSnapshot] using continues

private theorem writeFresh_safe {archive : Archive}
    {batches : List Measurement}
    (written : invariant (archive.written batches) ∧
      preserves archive (archive.written batches))
    (holds : invariant archive)
    (refl : ∀ archive, preserves archive archive)
    {continuation : List Part × String → Export Outcome}
    (continues : ∀ last,
      (archive.partsAfter batches).getLast? = some last →
        SafeAt hash invariant preserves snapshotAllowed
          (archive.written batches)
          (continuation (archive.partsAfter batches, last.file))) :
    SafeAt hash invariant preserves snapshotAllowed archive
      (writeFresh archive.committed (archive.fresh batches)
        (archive.fresh batches).length >>= continuation) := by
  unfold Archive.written Archive.partsAfter at *
  unfold writeFresh
  by_cases nothing : archive.fresh batches = []
  · simp only [nothing, ↓reduceIte, List.length_nil, ne_eq,
      not_true_eq_false] at continues ⊢
    cases final : archive.committed.getLast? with
    | none => exact fail_safe archive .raised
    | some last => exact continues last final
  · have nonempty : (archive.fresh batches).length ≠ 0 := by
      simpa using nothing
    simp only [if_neg nothing] at written continues
    simp only [if_pos nonempty, writeAndVerify, Program.perform_bind,
      Program.call_bind]
    apply call_safe
    intro stores located _ reply after executed
    simp only [exec, located] at executed
    split at executed
    · cases executed
      rw [located]
      exact ⟨holds, refl archive, fail_safe archive .raised⟩
    · rename_i usable
      cases executed
      refine ⟨written.1, written.2, ?_⟩
      simp only [orRaise, Program.done_bind, ne_eq, not_true_eq_false,
        ↓reduceIte, Program.call_bind]
      apply read_safe refl written.1
      intro stores located _ reply after executed
      cases executed
      refine ⟨located, ?_⟩
      rw [located]
      have back : (archive.putPart (partFile archive.committed.length)
          (archive.fresh batches)).read
            (partFile archive.committed.length) =
          some (archive.fresh batches) := by
        have valid : validPart (partFile archive.committed.length) = true := by
          simp only [Bool.or_eq_true, Bool.not_eq_true', not_or] at usable
          simpa using usable.1
        simp [Archive.read, valid, Archive.putPart]
      rw [back]
      simp only [Option.map_some, Program.done_bind, not_true_eq_false,
        ↓reduceIte, Program.pure_eq]
      exact continues ⟨_, _⟩ List.getLast?_concat

/-- Every run is safe under an invariant of the archive that the exporter's
effects uphold. -/
theorem exportDay_safe
    (upheld : Upheld target hash invariant preserves snapshotAllowed)
    {stores : Stores} (holds : invariant stores.archive) :
    (exportDay target).Safe (exec hash)
      (archiveContract invariant preserves snapshotAllowed)
      (fun _ _ => True) stores := by
  have refl := upheld.refl
  suffices safe : SafeAt hash invariant preserves snapshotAllowed
      stores.archive (exportDay target) from safe stores rfl
  generalize stores.archive = archive at holds
  have afterSnapshot : (∀ part ∈ archive.committed, archive.Counted part) →
      SafeAt hash invariant preserves snapshotAllowed archive
        (snapshotDay >>= fun snapshot =>
          if snapshot.rows = 0 then
            exportNothing (manifestParts archive.manifest)
              archive.pending snapshot
          else exportRows target archive.pending archive.committed
            snapshot) := by
    intro counted
    simp only [Program.perform_bind]
    apply read_safe refl holds
    intro stores located permitted reply after executed
    cases executed
    refine ⟨located, ?_⟩
    have permitted : snapshotAllowed stores.source archive :=
      located ▸ permitted
    generalize stores.source = day at permitted
    split
    · rename_i nothing
      unfold exportNothing
      cases pending : archive.pending with
      | none => exact done_safe archive _
      | some last =>
          apply checkPart_safe refl holds
          intro lastCounted
          apply drop_safe holds refl
          intro now unchanged
          have gone : now.rows = [] := by
            rw [nothing] at unchanged
            exact List.length_eq_zero_iff.mp (congrArg Prod.fst unchanged)
          rw [gone, nothing]
          exact upheld.resume archive last holds pending lastCounted
    · rename_i something
      have rows : day.rows ≠ [] := by
        simpa [takeSnapshot, dayFingerprint] using something
      unfold exportRows
      apply freshRows_safe refl holds
      have written := upheld.write archive day holds permitted rows counted
      apply writeFresh_safe written holds refl
      intro last final
      simp only [Program.perform_bind]
      have listed := upheld.list archive day holds permitted rows counted
      apply call_safe
      intro stores located _ reply after executed
      cases executed
      simp only [located]
      refine ⟨listed.1, listed.2, ?_⟩
      apply drop_safe listed.1 refl
      intro now unchanged
      exact upheld.drop archive day holds permitted rows counted now
        unchanged last final
  unfold exportDay
  simp only [Program.perform_bind]
  apply read_safe refl holds
  intro stores located _ reply after executed
  cases executed
  refine ⟨located, ?_⟩
  rw [located]
  unfold pendingPart
  cases final : (manifestParts archive.manifest).getLast? with
  | none =>
      have pending : archive.pending = none := by
        simp [Archive.pending, final]
      apply checkParts_safe refl holds
      simpa [Archive.committed, pending] using afterSnapshot
  | some last =>
      by_cases legacy : isLegacy archive.manifest = true
      · have pending : archive.pending = none := by
          simp [Archive.pending, final, legacy]
        simp only [legacy, ↓reduceIte]
        apply checkParts_safe refl holds
        simpa [Archive.committed, pending] using afterSnapshot
      · simp only [legacy, Bool.false_eq_true, ↓reduceIte,
          Program.perform_bind, Program.call_bind, Program.pure_eq,
          Program.done_bind]
        apply read_safe refl holds
        intro stores located _ reply after executed
        cases executed
        refine ⟨located, ?_⟩
        rw [located]
        have pending : archive.pending =
            if archive.recorded last.file = true then none
            else some last := by
          simp [Archive.pending, final, legacy]
        rw [← pending]
        apply checkParts_safe refl holds
        simpa [Archive.committed] using afterSnapshot

end

end IndustryFlow.ColdExport
