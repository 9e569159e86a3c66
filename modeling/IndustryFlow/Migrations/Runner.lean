import IndustryFlow.Concurrent.Loops
import IndustryFlow.Words
import Mathlib.Data.List.Sort

/-!
# The migration runner

`migrate.sh` plans what to do with the numbered scripts of a directory by the
ledger of the database, runs what is pending, and records each script after
it.  A run may die between any two of its calls; runs are serialised by an
advisory lock.
-/

namespace IndustryFlow.Migrations

open Concurrent Words

/-! ## Scripts -/

/-- A script declares its kind in a header line. -/
inductive Kind where
  | migration
  | definition
deriving DecidableEq

structure Script where
  name : String
  content : String
deriving DecidableEq

/-- The files of `MIGRATIONS_DIR`. -/
structure Directory where
  files : List Script
  unique : (files.map Script.name).Nodup

/-- `"$DIR"/[0-9]*.sql "$DIR"/[0-9]*.sh`. -/
def isNumbered (name : String) : Bool :=
  match name.toList with
  | [] => false
  | digit :: rest => digit.isDigit &&
      (".sql".toList.isSuffixOf rest || ".sh".toList.isSuffixOf rest)

def scripts (directory : Option Directory) : List Script :=
  match directory with
  | none => []
  | some directory => (directory.files.filter (isNumbered ·.name)).mergeSort
      fun first second => first.name ≤ second.name

/-- What a header line declares: `^(--|#) *migration-kind: *([a-z]*) *$`. -/
def headerKind (line : List Char) : Option (List Char) :=
  match line with
  | '-' :: '-' :: rest => declared rest
  | '#' :: rest => declared rest
  | _ => none
where
  declared (rest : List Char) : Option (List Char) :=
    match "migration-kind:".toList.isPrefixOf? (rest.dropWhile (· = ' ')) with
    | none => none
    | some value =>
        let value := value.dropWhile (· = ' ')
        if (value.dropWhile Char.isLower).all (· = ' ') then
          some (value.takeWhile Char.isLower)
        else none

/-- The first header among the first forty lines. -/
def kindOf (content : String) : Option Kind :=
  match ((content.toList.splitOn '\n').take 40).findSome? headerKind with
  | none => none
  | some kind =>
      if kind = "migration".toList then some .migration
      else if kind = "definition".toList then some .definition
      else none

/-- What `sha256sum` and `awk -v` make of texts. -/
structure Tools where
  digest : String → String
  digest_word : ∀ content, IsWord (digest content)
  awkValue : List Char → List Char
  plain : ∀ text, '\\' ∉ text → awkValue text = text

/-! ## The ledger -/

structure Row where
  script : String
  kind : Kind
  digest : String
deriving DecidableEq

/-- `public.schema_ledger`. -/
structure Ledger where
  rows : List Row
  unique : (rows.map Row.script).Nodup

namespace Ledger

def empty : Ledger :=
  ⟨[], List.nodup_nil⟩

/-- `INSERT … ON CONFLICT (script) DO UPDATE`. -/
def record (ledger : Ledger) (row : Row) : Ledger where
  rows := row :: ledger.rows.filter (·.script ≠ row.script)
  unique := by
    rw [List.map_cons, List.nodup_cons]
    constructor
    · intro member
      obtain ⟨other, found, same⟩ := List.mem_map.mp member
      simpa [same] using (List.mem_filter.mp found).2
    · exact ledger.unique.sublist (List.filter_sublist.map Row.script)

end Ledger

/-! ## The plan -/

variable (tools : Tools)

/-- `awk '$1 == n { print $2 }'` over the rows. -/
def recorded (rows : List Row) (name : String) : List String :=
  rows.filterMap fun row =>
    match words (row.script.toList ++ ' ' :: row.digest.toList) with
    | [] => none
    | script :: fields =>
        if script.toList = tools.awkValue name.toList then
          some (fields.headD "")
        else none

/-- A script with its kind and digest. -/
structure Due where
  script : Script
  kind : Kind
  digest : String
deriving DecidableEq

/-- One line of the plan. -/
inductive Line where
  | apply (due : Due)
  /-- A changed definition. -/
  | reapply (due : Due)
  | current (due : Due)
  | refused (name reason : String)
deriving DecidableEq

def Line.isRefused : Line → Bool
  | .refused _ _ => true
  | _ => false

def Line.isCurrent : Line → Bool
  | .current _ => true
  | _ => false

def lineOf (rows : List Row) (script : Script) : Line :=
  match kindOf script.content with
  | none => .refused script.name "no migration-kind header"
  | some kind =>
      let digest := tools.digest script.content
      let found := "\n".intercalate (recorded tools rows script.name)
      if found = "" then .apply ⟨script, kind, digest⟩
      else if found = digest then .current ⟨script, kind, digest⟩
      else if kind = .definition then .reapply ⟨script, kind, digest⟩
      else .refused script.name "migration changed after it was applied"

/-- The names that `reapply` was given, as `awk` splits them. -/
def forced (names : List String) : List String :=
  words (tools.awkValue (names.flatMap fun name => name.toList ++ [' ']))

/-- What the run is to execute. -/
def pending (names : List String) (lines : List Line) : List Due :=
  lines.filterMap fun
    | .apply due => some due
    | .reapply due => some due
    | .current due =>
        if due.script.name ∈ forced tools names then some due else none
    | .refused _ _ => none

/-! ## The run -/

/-- The tables whose rows make platform state. -/
inductive Table where
  | companies
  | user
deriving DecidableEq

inductive Op where
  | directoryExists
  /-- `SELECT 1` until it works. -/
  | connect
  /-- `CREATE TABLE IF NOT EXISTS public.schema_ledger`. -/
  | createLedger
  | lock
  | ledgerExists
  | readLedger
  | scripts
  /-- `[ -f "$DIR/$name" ]` and its content. -/
  | file (name : String)
  | tableExists (table : Table)
  | hasRows (table : Table)
  | backupsExist
  /-- Whole seconds since the latest recorded backup. -/
  | backupAge
  | execute (script : Script)
  | record (row : Row)
  | sleep
deriving DecidableEq

/-- A command replies with its exit status; a query that fails replies
`none`. -/
abbrev Reply : Op → Type
  | .directoryExists => Bool
  | .connect => Bool
  | .createLedger => Nat
  | .lock => Nat
  | .ledgerExists => Option Bool
  | .readLedger => Option (List Row)
  | .scripts => List Script
  | .file _ => Option Script
  | .tableExists _ => Option Bool
  | .hasRows _ => Option Bool
  | .backupsExist => Option Bool
  | .backupAge => Option (Option Int)
  | .execute _ => Nat
  | .record _ => Nat
  | .sleep => Unit

/-- A run fails with its exit status. -/
abbrev Running := Program Op Reply Nat

def die {Answer : Type} : Running Answer :=
  .fail 2

def orDie {Answer : Type} : Option Answer → Running Answer
  | some answer => .done answer
  | none => die

/-- A command under `set -e`. -/
def succeed (status : Nat) : Running Unit :=
  if status = 0 then .done () else .fail status

abbrev call (op : Op) : Running (Reply op) :=
  Program.perform op

/-- The environment of a run. -/
structure Settings where
  /-- `MIGRATE_WITHOUT_BACKUP=1`. -/
  withoutBackup : Bool
  /-- `MIGRATE_BACKUP_MAX_AGE_SECONDS`, where it is a number. -/
  maxAge : Option Nat

/-- What a query answers where `to_regclass` finds its table. -/
def whenCreated {Answer : Type} (found : Running (Option Bool))
    (read : Running (Option Answer)) (missing : Answer) :
    Running Answer := do
  let found ← found
  let created ← orDie found
  if created then do
    let read ← read
    orDie read
  else pure missing

def ledgerRows : Running (List Row) :=
  whenCreated (call .ledgerExists) (call .readLedger) []

def plan : Running (List Line) := do
  let rows ← ledgerRows
  let present ← call .scripts
  pure (present.map (lineOf tools rows))

/-- One table of `holds_state`. -/
def tableHolds (table : Table) : Running Bool :=
  whenCreated (call (.tableExists table)) (call (.hasRows table)) false

def holdsState : Running Bool := do
  let companies ← tableHolds .companies
  if companies then pure true else tableHolds .user

def backupAge : Running (Option Int) :=
  whenCreated (call .backupsExist) (call .backupAge) none

def requireBackup (settings : Settings) (due : List Due) :
    Running Unit := do
  if due.isEmpty then pure ()
  else do
    let state ← holdsState
    if !state then pure ()
    else if settings.withoutBackup then pure ()
    else do
      let maxAge ← orDie settings.maxAge
      let age ← backupAge
      match age with
      | none => die
      | some age => if maxAge < age then die else pure ()

/-- The body of the loop over the pending scripts. -/
def applyDue (due : Due) : Running Unit := do
  let status ← call (.execute due.script)
  succeed status
  let status ← call (.record ⟨due.script.name, due.kind, due.digest⟩)
  succeed status

def applyLocked (settings : Settings) (names : List String) :
    Running Unit := do
  let lines ← plan tools
  if lines.any Line.isRefused then die
  else do
    requireBackup settings (pending tools names lines)
    Program.each applyDue (pending tools names lines)

def cmdApply (settings : Settings) (names : List String) :
    Running Unit := do
  let found ← call .directoryExists
  if !found then die
  else do
    let connected ← call .connect
    if !connected then die
    else do
      let status ← call .createLedger
      succeed status
      let status ← call .lock
      succeed status
      applyLocked tools settings names

/-- A name that `reapply` is given must be that of a definition. -/
def checkForced (name : String) : Running Unit := do
  let found ← call (.file name)
  let script ← orDie found
  if kindOf script.content = some .definition then pure () else die

def cmdReapply (settings : Settings) (names : List String) :
    Running Unit := do
  if names.isEmpty then die
  else do
    let connected ← call .connect
    if !connected then die
    else do
      let status ← call .createLedger
      succeed status
      Program.each checkForced names
      cmdApply tools settings names

/-- `verify --wait` looks so many times again before its deadline. -/
def behind : Nat → Running (List Line)
  | 0 => do
      let lines ← plan tools
      pure (lines.filter fun line => !line.isCurrent)
  | rounds + 1 => do
      let lines ← plan tools
      if (lines.filter fun line => !line.isCurrent).isEmpty ||
          lines.any Line.isRefused then
        pure (lines.filter fun line => !line.isCurrent)
      else do
        let _ ← call .sleep
        behind rounds

def cmdVerify (rounds : Nat) : Running Unit := do
  let found ← call .directoryExists
  if !found then die
  else do
    let connected ← call .connect
    if !connected then die
    else do
      let lines ← behind tools rounds
      if lines.isEmpty then pure ()
      else if lines.any Line.isRefused then .fail 2
      else .fail 1

inductive Command where
  | apply
  | reapply (names : List String)
  | verify (rounds : Nat)

def Command.program (settings : Settings) : Command → Running Unit
  | .apply => cmdApply tools settings []
  | .reapply names => cmdReapply tools settings names
  | .verify rounds => cmdVerify tools rounds

/-! ## The database -/

/-- What else the database holds; a table that is missing is `none`. -/
structure Platform where
  companies : Option Bool
  users : Option Bool
  /-- When each recorded backup completed, in microseconds. -/
  backups : Option (List Int)

def Platform.table (platform : Platform) : Table → Option Bool
  | .companies => platform.companies
  | .user => platform.users

/-- An execution of a script, with what the ledger said of it before. -/
structure Execution where
  script : Script
  recorded : Option Kind
  completed : Bool
deriving DecidableEq

structure World where
  directory : Option Directory
  ledger : Option Ledger
  platform : Platform
  /-- Microseconds. -/
  now : Int
  executions : List Execution

def World.rows (world : World) : List Row :=
  (world.ledger.map Ledger.rows).getD []

/-- What the ledger says of a script. -/
def World.kind (world : World) (name : String) : Option Kind :=
  (world.rows.find? (·.script = name)).map Row.kind

/-- `floor(extract(epoch FROM now() - max(completed_at)))`. -/
def World.backupAge (world : World) : Option Int :=
  (((world.platform.backups.getD []).max?).map fun completed =>
    (world.now - completed) / 1000000)

inductive Choice where
  | works
  | exits (status : Nat)
  /-- A script ends so, and leaves the platform's tables so. -/
  | ran (status : Nat) (platform : Platform)

/-- A query, which may fail. -/
def ask {Answer : Type} (world : World) (answer : Option Answer) :
    Choice → Option (Option Answer × World)
  | .works => some (answer, world)
  | .exits _ => some (none, world)
  | .ran _ _ => none

/-- A command that leaves `after` unless it fails. -/
def command (world after : World) : Choice → Option (Nat × World)
  | .works => some (0, after)
  | .exits status => if status = 0 then none else some (status, world)
  | .ran _ _ => none

def exec (world : World) : (op : Op) → Choice → Option (Reply op × World)
  | .directoryExists, _ => some (world.directory.isSome, world)
  | .connect, .works => some (true, world)
  | .connect, _ => some (false, world)
  | .createLedger, choice => command world
      { world with ledger := some (world.ledger.getD .empty) } choice
  | .lock, choice => command world world choice
  | .ledgerExists, choice => ask world (some world.ledger.isSome) choice
  | .readLedger, choice => ask world (world.ledger.map Ledger.rows) choice
  | .scripts, _ => some (scripts world.directory, world)
  | .file name, _ => some (world.directory.bind fun directory =>
      directory.files.find? (·.name = name), world)
  | .tableExists table, choice =>
      ask world (some (world.platform.table table).isSome) choice
  | .hasRows table, choice => ask world (world.platform.table table) choice
  | .backupsExist, choice =>
      ask world (some world.platform.backups.isSome) choice
  | .backupAge, choice => ask world
      (if world.platform.backups.isSome then some world.backupAge else none)
      choice
  | .execute script, .ran status platform => some (status, { world with
      platform
      executions := world.executions ++
        [⟨script, world.kind script.name, status = 0⟩] })
  | .execute _, _ => none
  | .record row, choice => command world
      { world with ledger := world.ledger.map (·.record row) } choice
  | .sleep, _ => some ((), world)

/-! ## Histories -/

inductive Event where
  /-- Another release of the directory. -/
  | release (directory : Directory)
  /-- What the platform does between two runs. -/
  | others (platform : Platform) (now : Int)
  /-- A run, with what becomes of each of its calls; it dies when there are
  no more. -/
  | run (command : Command) (settings : Settings) (choices : List Choice)

def step (world : World) : Event → Option World
  | .release directory => some { world with directory := some directory }
  | .others platform now => some { world with platform, now }
  | .run command settings choices =>
      ((command.program tools settings).follow exec world choices).map
        Prod.snd

/-- A database without a ledger. -/
def fresh (platform : Platform) (now : Int) : World :=
  ⟨none, none, platform, now, []⟩

end IndustryFlow.Migrations
