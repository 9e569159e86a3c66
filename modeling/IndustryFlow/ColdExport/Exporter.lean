import IndustryFlow.ColdExport.Archive

/-!
# The export of one day

`exportDay` follows the exporter's ordering: snapshot the day, write the part,
verify it, list it in the manifest, and only then ask for the checked drop.
-/

namespace IndustryFlow.ColdExport

open Concurrent

inductive Outcome where
  | exported
  | reexported
  | lateRowsExported
  | resumedDrop
  | dropDeferred
  | alreadyDone
  | empty
deriving DecidableEq

inductive ExportError where
  /-- A listed part's footer differs from its manifest count. -/
  | corruptPart (part : String) (footer rows : Nat)
  | sourceMismatch (streamed counted : Nat)
  | exportMismatch (part : String) (wrote expected : Nat)
  | verifyFailed (part : String) (footer expected : Nat)
  /-- A store or the database raised. -/
  | raised
  | died
deriving DecidableEq

abbrev Export := Program Op Reply ExportError

/-- The tenant and the day of an export, as its manifest names them. -/
structure Target where
  schema : String
  day : String

abbrev readManifest : Export (Option Manifest) :=
  Program.perform Op.readManifest

abbrev dropRecorded (part : String) : Export Bool :=
  Program.perform (Op.dropRecorded part)

abbrev partRowCount (part : String) : Export (Option Nat) :=
  Program.perform (Op.partRowCount part)

abbrev snapshotDay : Export Snapshot :=
  Program.perform Op.snapshotDay

abbrev readPartKeys (part : String) : Export (Option (List Key)) :=
  Program.perform (Op.readPartKeys part)

abbrev writePart (part : String) (rows : List Measurement) :
    Export (Option Nat) :=
  Program.perform (Op.writePart part rows)

abbrev writeManifest (manifest : Manifest) : Export Unit :=
  Program.perform (Op.writeManifest manifest)

abbrev Snapshot.drop (snapshot : Snapshot) (part : String) :
    Export (Option Bool) :=
  Program.perform (Op.drop snapshot part)

/-- A call whose failure raises. -/
def orRaise {Answer : Type} : Option Answer → Export Answer
  | some answer => .done answer
  | none => .fail .raised

def manifestParts : Option Manifest → List Part
  | none => []
  | some manifest => manifest.parts.getD [⟨partFile 0, manifest.rows⟩]

def isLegacy : Option Manifest → Bool
  | none => false
  | some manifest => manifest.parts.isNone

def manifestFormat : Nat := 2

/-- `_manifest`. -/
def newManifest (target : Target) (parts : List Part) : Manifest where
  format := manifestFormat
  schema := target.schema
  day := target.day
  rows := (parts.map Part.rows).sum
  parts := some parts

/-- The last listed part, when no drop of it is recorded.  A legacy file
counts as committed. -/
def pendingPart (manifest : Option Manifest) : Export (Option Part) :=
  match (manifestParts manifest).getLast? with
  | none => pure none
  | some last =>
      if isLegacy manifest then pure none
      else do
        let recorded ← dropRecorded last.file
        pure (if recorded then none else some last)

/-- `_check_part`. -/
def checkPart (part : Part) : Export Unit := do
  let counted ← partRowCount part.file
  let footer ← orRaise counted
  if footer = part.rows then pure ()
  else .fail (.corruptPart part.file footer part.rows)

def checkParts : List Part → Export Unit
  | [] => pure ()
  | part :: parts => do
      checkPart part
      checkParts parts

/-- The keys of the listed parts, concatenated. -/
def readArchivedKeys : List Part → Export (List Key)
  | [] => pure []
  | part :: parts => do
      let read ← readPartKeys part.file
      let held ← orRaise read
      let rest ← readArchivedKeys parts
      pure (held ++ rest)

/-- The left anti join on the natural key. -/
def leftAnti (rows : List Measurement) (archived : List Key) :
    List Measurement :=
  rows.filter fun row => row.key ∉ archived

/-- `_without_archived`. -/
def withoutArchived (snapshot : Snapshot) (base : List Part) :
    Export (List Measurement) :=
  if snapshot.batches.length ≠ snapshot.rows then
    .fail (.sourceMismatch snapshot.batches.length snapshot.rows)
  else do
    let archived ← readArchivedKeys base
    pure (inFileOrder (leftAnti snapshot.batches archived))

/-- `_write_and_verify`. -/
def writeAndVerify (part : String) (rows : List Measurement)
    (expected : Nat) : Export Unit := do
  let written ← writePart part rows
  let wrote ← orRaise written
  if wrote ≠ expected then .fail (.exportMismatch part wrote expected)
  else do
    let counted ← partRowCount part
    let footer ← orRaise counted
    if footer ≠ expected then .fail (.verifyFailed part footer expected)
    else pure ()

/-- The rows to write, with their number. -/
def freshRows (snapshot : Snapshot) (base : List Part) :
    Export (List Measurement × Nat) :=
  if base.isEmpty then pure (snapshot.batches, snapshot.rows)
  else do
    let fresh ← withoutArchived snapshot base
    pure (fresh, fresh.length)

/-- Write what is not archived yet; the result is the new list of parts and
the part the drop completes. -/
def writeFresh (base : List Part) (rows : List Measurement)
    (expected : Nat) : Export (List Part × String) :=
  if expected ≠ 0 then do
    writeAndVerify (partFile base.length) rows expected
    pure (base ++ [⟨partFile base.length, expected⟩],
      partFile base.length)
  else
    match base.getLast? with
    | some last => pure (base, last.file)
    | none => .fail .raised

/-- The outcome of a run whose drop committed. -/
def droppedOutcome (pending : Option Part) (base : List Part)
    (expected : Nat) : Outcome :=
  if expected = 0 then .resumedDrop
  else if pending.isSome then .reexported
  else if base.isEmpty then .exported
  else .lateRowsExported

/-- A day with rows in the source. -/
def exportRows (target : Target) (pending : Option Part)
    (committed : List Part) (snapshot : Snapshot) : Export Outcome := do
  let (rows, expected) ← freshRows snapshot committed
  let (partsAfter, part) ← writeFresh committed rows expected
  writeManifest (newManifest target partsAfter)
  let answer ← snapshot.drop part
  let dropped ← orRaise answer
  pure (if dropped then droppedOutcome pending committed expected
    else .dropDeferred)

/-- A day with nothing in the source. -/
def exportNothing (parts : List Part) (pending : Option Part)
    (snapshot : Snapshot) : Export Outcome :=
  match pending with
  | none => pure (if parts.isEmpty then .empty else .alreadyDone)
  | some last => do
      checkPart last
      let answer ← snapshot.drop last.file
      let dropped ← orRaise answer
      pure (if dropped then .resumedDrop else .dropDeferred)

def exportDay (target : Target) : Export Outcome := do
  let manifest ← readManifest
  let parts := manifestParts manifest
  let pending ← pendingPart manifest
  let committed := if pending.isSome then parts.dropLast else parts
  checkParts committed
  let snapshot ← snapshotDay
  if snapshot.rows = 0 then exportNothing parts pending snapshot
  else exportRows target pending committed snapshot

/-- Runs of `exportDay` that never overlap, beside a changing source. -/
def exporter (target : Target) (hash : Measurement → Int) :
    Solo.System Stores Op Reply ExportError Outcome Unit Change where
  job := exportDay target
  dead := .died
  exec := exec hash
  change := change

/-- No run is under way. -/
def idle (stores : Stores) : Solo Stores Op Reply ExportError Outcome :=
  ⟨stores, .fail .died⟩

end IndustryFlow.ColdExport
