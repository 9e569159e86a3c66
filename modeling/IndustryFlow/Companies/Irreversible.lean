import IndustryFlow.Companies.Deletion

/-!
# A requested deletion is irreversible

While no deletion is committed over an update that has looked at the deletions
and not yet reached the company's row, a committed deletion stands for an
inactive company whose name and flag no longer change.
-/

namespace IndustryFlow.Deletion

open Concurrent Companies Tenancy

/-- Inactive, with the start of the suspension. -/
def Row.Suspended (row : Row) : Prop :=
  row.isActive = false ∧ row.suspendedAt.isSome = true

instance (row : Row) : Decidable row.Suspended :=
  inferInstanceAs (Decidable (_ ∧ _))

def Database.name (database : Database) : Option Text :=
  database.company.map Row.name

/-- The company, if it has a deletion, is suspended. -/
def Settled (database : Database) : Prop :=
  database.deletion.isSome = true →
    ∃ row, database.company = some row ∧ row.Suspended

/-- The update neither activates the company nor gives it another name. -/
def Harmless (database : Database) (name : Option Text)
    (isActive : Option Bool) : Prop :=
  isActive ≠ some true ∧ ∀ given ∈ name, database.name = some given

instance (database : Database) (name : Option Text)
    (isActive : Option Bool) : Decidable (Harmless database name isActive) :=
  inferInstanceAs (Decidable (_ ∧ ∀ _ ∈ _, _))

/-- A call that would undo a deletion: an update that has looked at the
deletions already. -/
def Undoes (database : Database) : Op → Prop
  | .update name isActive _ => ¬Harmless database name isActive
  | _ => False

instance (database : Database) (op : Op) : Decidable (Undoes database op) := by
  cases op with
  | update name isActive now =>
      exact inferInstanceAs (Decidable (¬Harmless database name isActive))
  | _ => exact inferInstanceAs (Decidable False)

def requestsDeletion : Op → Bool
  | .commit _ writes => writes.deletion.isSome
  | _ => false

/-- No deletion request commits while an update that renames or reactivates
the company is between its look at the deletions and its `UPDATE`. -/
def Unraced (pool : Registry) : Event → Prop
  | .step index _ | .lose index _ =>
      ∀ thread ∈ pool.threads[index]?, ∀ op ∈ thread.program.next?,
        requestsDeletion op = true →
          ∀ other ∈ pool.threads, ∀ op ∈ other.program.next?,
            ¬Undoes pool.shared op
  | _ => True

instance (pool : Registry) (event : Event) :
    Decidable (Unraced pool event) := by
  cases event with
  | step index choice =>
      exact inferInstanceAs (Decidable (∀ _ ∈ _, ∀ _ ∈ _, _ →
        ∀ _ ∈ _, ∀ _ ∈ _, _))
  | lose index choice =>
      exact inferInstanceAs (Decidable (∀ _ ∈ _, ∀ _ ∈ _, _ →
        ∀ _ ∈ _, ∀ _ ∈ _, _))
  | _ => exact inferInstanceAs (Decidable True)

/-! ## Where a transaction is -/

/-- The database of a company whose deletion, if it has one, stands. -/
structure Good (database : Database) : Prop where
  settled : Settled database
  emptied : ∀ store ∈ database.emptied, store.2 = false
  bounded : ∀ holder ∈ database.lock, holder < database.holders

/-- A call that changes neither table. -/
def Quiet : Op → Prop
  | .begin | .statement | .rollback _ => True
  | _ => False

/-- A call of the job. -/
def Removes : Op → Prop
  | .emptyStore _ | .recordStep _ | .completeDeletion => True
  | _ => False

def Calls (kind : Op → Prop) (program : Handler Unit) : Prop :=
  program.Always (fun _ _ => True) kind fun _ => True

/-- What a transaction may commit if it still holds the lock: a row that
leaves the deletion standing, and a deletion of a suspended company. -/
def Fits (database : Database) (holder : Nat) (writes : Writes) : Prop :=
  holder < database.holders ∧ (database.lock = some holder →
    (database.deletion.isSome = true → ∀ row ∈ writes.company,
      row.Suspended ∧ database.name = some row.name) ∧
    (writes.deletion.isSome = true → writes.company = none ∧
      ∃ row, database.company = some row ∧ row.Suspended))

/-- A program that has not looked at the company yet. -/
inductive Early : Handler Unit → Prop where
  | update (name : Option Text) (isActive : Option Bool) :
      Early (updateCompany name isActive)
  | updateStarted (name : Option Text) (isActive : Option Bool) (now : Nat) :
      Early (updateStarted name isActive now)
  | updateGuarded (name : Option Text) (isActive : Option Bool) (now : Nat) :
      Early (updateGuarded name isActive now)
  | request (actor : Text) : Early (requestDeletion actor)
  | requestStarted (actor : Text) (now : Nat) :
      Early (requestStarted actor now)
  | requestGuarded (actor : Text) (now : Nat) :
      Early (requestGuarded actor now)
  | job : Early runJob

/-- Where a program is, and what holds of the database there. -/
inductive Point (database : Database) : Handler Unit → Prop where
  | quiet {program : Handler Unit} (calls : Calls Quiet program) :
      Point database program
  | early {program : Handler Unit} (early : Early program) :
      Point database program
  | checked (name : Option Text) (isActive : Option Bool) (now : Nat)
      (harmless : database.deletion.isSome = true →
        Harmless database name isActive) :
      Point database (updateChecked name isActive now)
  | inserting (actor : Text) (now holder : Nat)
      (fits : Fits database holder ⟨none, some ⟨now, actor, none⟩⟩) :
      Point database (requestInsert actor now holder)
  | settling (holder : Nat) (writes : Writes) (left : Nat)
      (fits : Fits database holder writes) :
      Point database (settle holder writes left)
  | removing {program : Handler Unit}
      (requested : database.deletion.isSome = true)
      (calls : Calls Removes program) : Point database program

/-! ## What a step leaves as it is -/

/-- How the database goes on: a lock that is still held guards the two tables,
and a deletion keeps the company's name. -/
structure Evolves (before after : Database) : Prop where
  holders : before.holders ≤ after.holders
  locked : ∀ holder, holder < before.holders → after.lock = some holder →
    before.lock = some holder ∧ after.company = before.company ∧
      after.deletion = before.deletion
  requested : before.deletion.isSome = true → after.deletion.isSome = true
  name : before.deletion.isSome = true → after.name = before.name

theorem Evolves.refl (database : Database) : Evolves database database :=
  ⟨Nat.le_refl _, fun _ _ held => ⟨held, rfl, rfl⟩, id, fun _ => rfl⟩

theorem Evolves.trans {first second third : Database}
    (left : Evolves first second) (right : Evolves second third) :
    Evolves first third where
  holders := left.holders.trans right.holders
  locked holder known held := by
    have ⟨before, company, deletion⟩ := right.locked holder
      (Nat.lt_of_lt_of_le known left.holders) held
    have ⟨first, same, also⟩ := left.locked holder known before
    exact ⟨first, company.trans same, deletion.trans also⟩
  requested had := right.requested (left.requested had)
  name had := (right.name (left.requested had)).trans (left.name had)

theorem Fits.evolves {before after : Database} {holder : Nat}
    {writes : Writes} (fits : Fits before holder writes)
    (evolves : Evolves before after) : Fits after holder writes := by
  refine ⟨Nat.lt_of_lt_of_le fits.1 evolves.holders, fun held => ?_⟩
  obtain ⟨before, company, deletion⟩ := evolves.locked holder fits.1 held
  have kept := fits.2 before
  unfold Database.name at kept ⊢
  rw [company, deletion]
  exact kept

/-- Another transaction's step, when it is not raced. -/
theorem Point.evolves {before after : Database} {program : Handler Unit}
    (point : Point before program) (evolves : Evolves before after)
    (unraced : after.deletion.isSome = true →
      before.deletion.isSome = true ∨
        (∀ op ∈ program.next?, ¬Undoes before op) ∧
          after.company = before.company) :
    Point after program := by
  cases point with
  | quiet calls => exact .quiet calls
  | early early => exact .early early
  | checked name isActive now harmless =>
      refine .checked name isActive now fun requested => ?_
      rcases unraced requested with had | ⟨undone, company⟩
      · have kept := harmless had
        exact ⟨kept.1, fun given member =>
          (evolves.name had).trans (kept.2 given member)⟩
      · have kept : Harmless before name isActive :=
          not_not.mp (undone _ rfl)
        refine ⟨kept.1, fun given member => ?_⟩
        rw [Database.name, company]
        exact kept.2 given member
  | inserting actor now holder fits =>
      exact .inserting actor now holder (fits.evolves evolves)
  | settling holder writes left fits =>
      exact .settling holder writes left (fits.evolves evolves)
  | removing requested calls =>
      exact .removing (evolves.requested requested) calls

/-! ## A transaction's own step -/

/-- What the call `op` of a transaction leaves, with the rest of it. -/
structure Steps (before : Database) (op : Op) (after : Database)
    (rest : Handler Unit) : Prop where
  point : Point after rest
  good : Good after
  evolves : Evolves before after
  requests : after.deletion.isSome = true → before.deletion.isSome = true ∨
    requestsDeletion op = true ∧ after.company = before.company

theorem Steps.unchanged {database : Database} {op : Op}
    {rest : Handler Unit} (good : Good database)
    (point : Point database rest) : Steps database op database rest :=
  ⟨point, good, .refl _, .inl⟩

theorem quiet_fail {database : Database} (error : HttpError) :
    Point database (.fail error) :=
  .quiet trivial

theorem quiet_abandon {database : Database} (holder : Nat)
    (error : HttpError) : Point database (abandon holder error) :=
  .quiet ⟨trivial, fun _ _ => trivial⟩

theorem Steps.release {database : Database} {op : Op} {rest : Handler Unit}
    (good : Good database) (holder : Nat)
    (point : Point (database.release holder) rest) :
    Steps database op (database.release holder) rest := by
  refine ⟨point, ?_, ?_, ?_⟩
  · unfold Database.release
    split
    · exact { good with bounded := (fun _ never => nomatch never) }
    · exact good
  · unfold Database.release
    split
    · exact ⟨Nat.le_refl _, (fun _ _ never => nomatch never), id,
        fun _ => rfl⟩
    · exact .refl _
  · unfold Database.release
    split
    · exact .inl
    · exact .inl

theorem Steps.take {database : Database} {op : Op} {rest : Handler Unit}
    (good : Good database) (row : Row)
    (point : Point (database.take row).2 rest) :
    Steps database op (database.take row).2 rest where
  point := point
  good :=
    { settled := good.settled
      emptied := good.emptied
      bounded := by
        intro holder member
        cases member
        exact Nat.lt_succ_self _ }
  evolves :=
    { holders := Nat.le_succ _
      locked := by
        intro holder known held
        cases held
        exact absurd known (Nat.lt_irrefl _)
      requested := id
      name := fun _ => rfl }
  requests := .inl

theorem Steps.apply {database : Database} {holder : Nat} {writes : Writes}
    {rest : Handler Unit} (good : Good database)
    (fits : Fits database holder writes)
    (held : database.lock = some holder)
    (point : Point (database.apply writes) rest) :
    Steps database (.commit holder writes) (database.apply writes) rest := by
  obtain ⟨keeps, deletes⟩ := fits.2 held
  have company (requested : database.deletion.isSome = true) :
      ∃ row, (database.apply writes).company = some row ∧ row.Suspended ∧
        database.name = some row.name := by
    obtain ⟨row, found, suspended⟩ := good.settled requested
    cases written : writes.company with
    | none =>
        refine ⟨row, ?_, suspended, ?_⟩
        · simp [Database.apply, written, found]
        · simp [Database.name, found]
    | some row =>
        have ⟨still, same⟩ := keeps requested row written
        exact ⟨row, by simp [Database.apply, written], still, same⟩
  refine ⟨point, ⟨?_, good.emptied, (fun _ never => nomatch never)⟩,
    ⟨Nat.le_refl _, (fun _ _ never => nomatch never), ?_, ?_⟩, ?_⟩
  · intro requested
    by_cases before : database.deletion.isSome = true
    · obtain ⟨row, found, suspended, -⟩ := company before
      exact ⟨row, found, suspended⟩
    · have written : writes.deletion.isSome = true := by
        simpa [Database.apply, before] using requested
      obtain ⟨none_written, row, found, suspended⟩ := deletes written
      exact ⟨row, by simp [Database.apply, none_written, found], suspended⟩
  · intro requested
    simp [Database.apply, requested]
  · intro requested
    obtain ⟨row, found, -, same⟩ := company requested
    rw [Database.name, found, same]
    rfl
  · intro requested
    by_cases before : database.deletion.isSome = true
    · exact .inl before
    · have written : writes.deletion.isSome = true := by
        simpa [Database.apply, before] using requested
      exact .inr ⟨written, by simp [Database.apply, (deletes written).1]⟩

variable {before after : Database} {op : Op} {choice : Choice}
  {next : Reply op → Handler Unit} {reply : Reply op}

theorem quiet_steps (good : Good before) (calls : Calls Quiet (.call op next))
    (executed : exec before op choice = some (reply, after)) :
    Steps before op after (next reply) := by
  have rest : Point after (next reply) := .quiet (calls.2 reply trivial)
  have quiet := calls.1
  cases op with
  | begin =>
      cases executed
      exact .unchanged good rest
  | statement =>
      cases choice <;> cases executed <;> exact .unchanged good rest
  | rollback holder =>
      cases executed
      exact .release good holder rest
  | _ => exact quiet.elim

/-- A statement on other tables succeeds or raises. -/
theorem statement_cases {reply : Except DbError Unit}
    (executed : exec before .statement choice = some (reply, after)) :
    after = before := by
  cases choice <;> cases executed <;> rfl

theorem updateStarted_point (name : Option Text) (isActive : Option Bool)
    (now : Nat) (database : Database) (answer : Except DbError Unit) :
    Point database (match answer with
      | .error error => fails error
      | .ok _ =>
          match name with
          | none => updateGuarded none isActive now
          | some given =>
              match companyNameChecked given with
              | none => fails .checkViolation
              | some checked => updateGuarded (some checked) isActive now) := by
  cases answer with
  | error error => exact quiet_fail _
  | ok _ =>
      cases name with
      | none => exact .early (.updateGuarded _ _ _)
      | some given =>
          dsimp only
          split
          · exact quiet_fail _
          · exact .early (.updateGuarded _ _ _)

/-- The row a deletion request finds and locks. -/
theorem requestLocked_point (actor : Text) (now : Nat) (database : Database)
    {row : Row} (found : database.company = some row) :
    Point (database.take row).2
      (requestLocked actor now database.holders row) := by
  unfold requestLocked
  split
  · exact quiet_abandon _ _
  · rename_i suspended
    simp only [Bool.or_eq_true, not_or, Bool.not_eq_true,
      Option.isNone_eq_false_iff] at suspended
    split
    · exact quiet_abandon _ _
    · exact .inserting actor now _ ⟨Nat.lt_succ_self _, fun _ =>
        ⟨(fun _ _ never => nomatch never), fun _ =>
          ⟨rfl, row, found, suspended⟩⟩⟩

theorem emptyStores_removes (removed stores : List String) :
    (emptyStores removed stores).Always (fun _ _ => True) Removes
      fun _ => True := by
  induction stores with
  | nil => trivial
  | cons store stores induction =>
      unfold emptyStores
      split
      · exact induction
      · refine ⟨trivial, fun reply _ => ?_⟩
        cases reply with
        | true => exact ⟨trivial, fun _ _ => induction⟩
        | false =>
            exact induction.bind (fun _ _ => trivial) fun _ _ => trivial

theorem deletePending_removes (removed : List String) :
    Calls Removes (deletePending removed) := by
  refine (emptyStores_removes removed requiredStores).bind ?_
    fun _ _ => trivial
  intro emptied _
  cases emptied with
  | false => trivial
  | true =>
      refine ⟨trivial, fun reply _ => ?_⟩
      cases reply with
      | error error => trivial
      | ok _ => trivial

theorem early_steps (good : Good before) (early : Early (.call op next))
    (executed : exec before op choice = some (reply, after)) :
    Steps before op after (next reply) := by
  generalize same : Program.call op next = program at early
  cases early with
  | update name isActive =>
      cases same
      cases executed
      exact .unchanged good (.early (.updateStarted _ _ _))
  | updateStarted name isActive now =>
      cases same
      cases statement_cases executed
      exact .unchanged good (updateStarted_point _ _ _ _ _)
  | updateGuarded name isActive now =>
      cases same
      cases executed
      refine .unchanged good ?_
      cases requested : before.deletion.isSome with
      | true => exact quiet_fail _
      | false =>
          refine .checked name isActive now fun never => ?_
          rw [requested] at never
          cases never
  | request actor =>
      cases same
      cases executed
      exact .unchanged good (.early (.requestStarted _ _))
  | requestStarted actor now =>
      cases same
      cases statement_cases executed
      refine .unchanged good ?_
      cases reply with
      | error error => exact quiet_fail _
      | ok _ => exact .early (.requestGuarded _ _)
  | requestGuarded actor now =>
      cases same
      cases choice with
      | raises error =>
          cases executed
          exact .unchanged good (quiet_fail _)
      | _ =>
          simp only [exec] at executed
          split at executed
          · cases executed
          · split at executed
            · cases executed
              exact .unchanged good (quiet_fail _)
            · rename_i row found
              cases executed
              exact .take good row (requestLocked_point actor now before found)
  | job =>
      cases same
      cases executed
      refine .unchanged good ?_
      cases pending : before.deletion with
      | none => exact .quiet trivial
      | some deletion =>
          dsimp only [Option.filter]
          split
          · exact .removing (by rw [pending]; rfl) (deletePending_removes _)
          · exact .quiet trivial

/-- An update that leaves the deletion standing leaves the row so. -/
theorem Row.updated_suspended {row : Row} {name : Option Text}
    {isActive : Option Bool} (now : Nat) (suspended : row.Suspended)
    (inactive : isActive ≠ some true) :
    (row.updated name isActive now).Suspended := by
  unfold Row.updated
  match isActive, inactive with
  | none, _ => exact suspended
  | some false, _ => exact ⟨rfl, rfl⟩
  | some true, never => exact absurd rfl never

theorem checked_steps {name : Option Text} {isActive : Option Bool}
    {now : Nat} (good : Good before)
    (harmless : before.deletion.isSome = true →
      Harmless before name isActive)
    (same : Program.call op next = updateChecked name isActive now)
    (executed : exec before op choice = some (reply, after)) :
    Steps before op after (next reply) := by
  cases same
  cases choice with
  | raises error =>
      cases executed
      exact .unchanged good (quiet_fail _)
  | _ =>
      simp only [exec] at executed
      split at executed
      · cases executed
      · split at executed
        · cases executed
          exact .unchanged good (quiet_fail _)
        · rename_i row found
          cases executed
          have fits : Fits (before.take (row.updated name isActive now)).2
              before.holders ⟨some (row.updated name isActive now), none⟩ := by
            refine ⟨Nat.lt_succ_self _, fun _ => ⟨?_, fun never => nomatch never⟩⟩
            intro requested written member
            cases member
            have kept := harmless requested
            obtain ⟨other, same, suspended⟩ := good.settled requested
            rw [found] at same
            cases same
            refine ⟨Row.updated_suspended now suspended kept.1, ?_⟩
            cases name with
            | none =>
                change before.company.map Row.name = _
                rw [found]
                rfl
            | some given => exact kept.2 given rfl
          exact .take good _ (.settling before.holders _ _ fits)

theorem inserting_steps {actor : Text} {now holder : Nat}
    (good : Good before)
    (fits : Fits before holder ⟨none, some ⟨now, actor, none⟩⟩)
    (same : Program.call op next = requestInsert actor now holder)
    (executed : exec before op choice = some (reply, after)) :
    Steps before op after (next reply) := by
  cases same
  cases choice with
  | raises error =>
      cases executed
      exact .unchanged good (quiet_abandon _ _)
  | _ =>
      simp only [exec] at executed
      split at executed
      · cases executed
        exact .unchanged good (quiet_abandon _ _)
      · cases executed
        exact .unchanged good (.settling holder _ 2 fits)

theorem settling_steps {holder left : Nat} {writes : Writes}
    (good : Good before) (fits : Fits before holder writes)
    (same : Program.call op next = settle holder writes left)
    (executed : exec before op choice = some (reply, after)) :
    Steps before op after (next reply) := by
  cases left with
  | succ left =>
      cases same
      cases statement_cases executed
      refine .unchanged good ?_
      cases reply with
      | error error => exact quiet_abandon _ _
      | ok _ => exact .settling holder writes left fits
  | zero =>
      cases same
      cases choice with
      | raises error =>
          cases executed
          exact .release good holder (quiet_fail _)
      | _ =>
          simp only [exec] at executed
          split at executed
          · rename_i held
            cases executed
            exact .apply good fits held (.quiet trivial)
          · cases executed
            exact .unchanged good (quiet_fail _)

/-- With a deletion the company is not active. -/
theorem Good.inactive {database : Database} (good : Good database)
    (requested : database.deletion.isSome = true) :
    database.active = false := by
  obtain ⟨row, found, suspended⟩ := good.settled requested
  rw [Database.active, found]
  exact suspended.1

theorem Steps.complete {database : Database} {op : Op}
    {rest : Handler Unit} (good : Good database)
    (requested : database.deletion.isSome = true)
    (free : ¬database.lock.isSome = true)
    (point : Point database.complete rest) :
    Steps database op database.complete rest := by
  obtain ⟨row, found, suspended⟩ := good.settled requested
  have unlocked : database.lock = none := by simpa using free
  have name : database.complete.name = database.name := by
    simp [Database.name, Database.complete, found]
  refine ⟨point, ⟨?_, ?_, ?_⟩, ⟨Nat.le_refl _, ?_, ?_, fun _ => name⟩,
    fun _ => .inl requested⟩
  · intro _
    refine ⟨{ row with isActive := false, deletedAt := some database.clock },
      ?_, rfl, suspended.2⟩
    rw [Database.complete, found]
    rfl
  · intro store member
    rcases List.mem_cons.mp member with rfl | before
    · exact good.inactive requested
    · exact good.emptied store before
  · intro holder member
    change database.lock = some holder at member
    rw [unlocked] at member
    cases member
  · intro holder _ held
    change database.lock = some holder at held
    rw [unlocked] at held
    cases held
  · intro _
    simpa [Database.complete] using requested

theorem removing_steps (good : Good before)
    (requested : before.deletion.isSome = true)
    (calls : Calls Removes (.call op next))
    (executed : exec before op choice = some (reply, after)) :
    Steps before op after (next reply) := by
  have rest (database : Database)
      (still : database.deletion.isSome = true) :
      Point database (next reply) :=
    .removing still (calls.2 reply trivial)
  have removes := calls.1
  cases op with
  | recordStep store =>
      cases executed
      exact ⟨rest _ requested, ⟨good.settled, good.emptied, good.bounded⟩,
        ⟨Nat.le_refl _, fun _ _ held => ⟨held, rfl, rfl⟩, id, fun _ => rfl⟩,
        .inl⟩
  | emptyStore store =>
      have recorded : Steps before (.emptyStore store)
          { before with emptied := (store, before.active) :: before.emptied }
          (next reply) := by
        refine ⟨rest _ requested, ⟨good.settled, ?_, good.bounded⟩,
          ⟨Nat.le_refl _, fun _ _ held => ⟨held, rfl, rfl⟩, id, fun _ => rfl⟩,
          .inl⟩
        intro entry member
        rcases List.mem_cons.mp member with rfl | earlier
        · exact good.inactive requested
        · exact good.emptied entry earlier
      cases choice with
      | notYet =>
          cases executed
          exact .unchanged good (rest _ requested)
      | _ =>
          cases executed
          exact recorded
  | completeDeletion =>
      cases choice with
      | raises error =>
          cases executed
          exact .unchanged good (rest _ requested)
      | _ =>
          simp only [exec] at executed
          split at executed
          · cases executed
            exact .unchanged good (rest _ requested)
          · split at executed
            · cases executed
              exact .unchanged good (rest _ requested)
            · split at executed
              · split at executed
                · cases executed
                · rename_i free
                  cases executed
                  exact .complete good requested free
                    (rest _ (by simpa [Database.complete] using requested))
              · cases executed
                exact .unchanged good (rest _ requested)
  | _ => exact removes.elim

theorem point_steps (good : Good before)
    (point : Point before (.call op next))
    (executed : exec before op choice = some (reply, after)) :
    Steps before op after (next reply) := by
  generalize same : Program.call op next = program at point
  cases point with
  | quiet calls =>
      subst same
      exact quiet_steps good calls executed
  | early early =>
      subst same
      exact early_steps good early executed
  | checked name isActive now harmless =>
      exact checked_steps good harmless same executed
  | inserting actor now holder fits =>
      exact inserting_steps good fits same executed
  | settling holder writes left fits =>
      exact settling_steps good fits same executed
  | removing requested calls =>
      subst same
      exact removing_steps good requested calls executed

/-! ## Every run -/

/-- The database is good, and every transaction is at a point of it. -/
structure Sound (pool : Registry) : Prop where
  good : Good pool.shared
  points : ∀ thread ∈ pool.threads, Point pool.shared thread.program

theorem handle_early (request : Request) : Early (handle request) := by
  cases request with
  | update name isActive => exact .update name isActive
  | deletion actor => exact .request actor
  | job => exact .job

theorem start_sound (company : Option Row) (clock : Nat) :
    Sound (.start (registry company clock)) where
  good := ⟨(fun never => nomatch never), (fun _ never => nomatch never),
    (fun _ never => nomatch never)⟩
  points := fun _ never => nomatch never

theorem change_good {database after : Database} {change : Change}
    (good : Good database)
    (changed : Deletion.change database change = some after) :
    Good after ∧ Evolves database after ∧
      after.deletion = database.deletion := by
  cases change with
  | tick seconds =>
      cases changed
      exact ⟨⟨good.settled, good.emptied, good.bounded⟩,
        ⟨Nat.le_refl _, fun _ _ held => ⟨held, rfl, rfl⟩, id, fun _ => rfl⟩,
        rfl⟩
  | disconnect =>
      cases changed
      exact ⟨⟨good.settled, good.emptied, (fun _ never => nomatch never)⟩,
        ⟨Nat.le_refl _, (fun _ _ never => nomatch never), id, fun _ => rfl⟩,
        rfl⟩

theorem step_sound {pool next : Registry} {event : Event}
    (sound : Sound pool) (unraced : Unraced pool event)
    (taken : Pool.step deletions pool event = some next) :
    Sound next ∧ Evolves pool.shared next.shared := by
  have called {index : Nat} {request : Request} {op : Op}
      {rest : Reply op → Handler Unit} {reply : Reply op} {after : Database}
      (running : pool.threads[index]? = some ⟨request, .call op rest⟩)
      (steps : Steps pool.shared op after (rest reply))
      (free : requestsDeletion op = true → ∀ other ∈ pool.threads,
        ∀ op ∈ other.program.next?, ¬Undoes pool.shared op)
      {changed : Thread Request Op Reply HttpError Unit}
      (own : Point after changed.program) :
      Sound ⟨after, pool.threads.set index changed⟩ ∧
        Evolves pool.shared after := by
    refine ⟨⟨steps.good, ?_⟩, steps.evolves⟩
    intro thread member
    rcases List.mem_or_eq_of_mem_set member with before | rfl
    · refine (sound.points thread before).evolves steps.evolves ?_
      intro requested
      rcases steps.requests requested with had | ⟨requests, company⟩
      · exact .inl had
      · exact .inr ⟨free requests thread before, company⟩
    · exact own
  cases Pool.stepped taken with
  | spawn request =>
      refine ⟨⟨sound.good, ?_⟩, .refl _⟩
      intro thread member
      rcases List.mem_append.mp member with before | new
      · exact sound.points thread before
      · cases List.mem_singleton.mp new
        exact .early (handle_early request)
  | step running executed =>
      have steps := point_steps sound.good
        (sound.points _ (List.mem_of_getElem? running)) executed
      exact called running steps (unraced _ running _ rfl) steps.point
  | abort running =>
      refine ⟨⟨sound.good, ?_⟩, .refl _⟩
      intro thread member
      rcases List.mem_or_eq_of_mem_set member with before | rfl
      · exact sound.points thread before
      · exact quiet_fail _
  | lose running executed =>
      have steps := point_steps sound.good
        (sound.points _ (List.mem_of_getElem? running)) executed
      exact called running steps (unraced _ running _ rfl) (quiet_fail _)
  | environment changed =>
      obtain ⟨good, evolves, same⟩ := change_good sound.good changed
      refine ⟨⟨good, ?_⟩, evolves⟩
      intro thread member
      refine (sound.points thread member).evolves evolves ?_
      intro requested
      exact .inl (same ▸ requested)

/-- What a committed deletion stands for: the company is suspended, and the
job emptied no store of it while it was active. -/
structure Stands (database : Database) : Prop where
  suspended : database.deletion.isSome = true →
    ∃ row, database.company = some row ∧ row.Suspended
  emptied : ∀ store ∈ database.emptied, store.2 = false

/-- From a committed deletion on, the company keeps its name and its flag. -/
structure Final (middle final : Database) : Prop where
  requested : final.deletion.isSome = true
  name : final.name = middle.name
  active : final.active = middle.active

/-- In a run where no deletion is committed over an update that has looked
already, every state is one where the deletion stands, and the company of a
committed deletion is not changed any more. -/
theorem deletion_irreversible (company : Option Row) (clock : Nat)
    {events more : List Event} {middle final : Registry}
    (reached : run (Pool.step deletions) (.start (registry company clock))
      events = some middle)
    (ran : run (Pool.step deletions) middle more = some final)
    (unraced : Along (Pool.step deletions) Unraced
      (.start (registry company clock)) (events ++ more)) :
    Stands middle.shared ∧ (middle.shared.deletion.isSome = true →
      Final middle.shared final.shared) := by
  obtain ⟨first, second⟩ := unraced.append reached
  have sound : Sound middle :=
    run_preserves_along Sound
      (fun _ _ _ sound unraced taken => (step_sound sound unraced taken).1)
      (start_sound company clock) first reached
  have ended : Sound final ∧ Evolves middle.shared final.shared := by
    refine run_preserves_along
      (fun pool => Sound pool ∧ Evolves middle.shared pool.shared) ?_
      ⟨sound, .refl _⟩ second ran
    intro pool event next ⟨kept, evolves⟩ unraced taken
    obtain ⟨still, further⟩ := step_sound kept unraced taken
    exact ⟨still, evolves.trans further⟩
  refine ⟨⟨sound.good.settled, sound.good.emptied⟩, fun requested => ?_⟩
  have later := ended.2.requested requested
  refine ⟨later, ended.2.name requested, ?_⟩
  rw [sound.good.inactive requested, ended.1.good.inactive later]

/-- A company suspended long enough. -/
def suspendedCompany : Option Row :=
  some ⟨['a'], false, some 0, none⟩

/-- The steps of one deletion request. -/
def requestSteps (index : Nat) : List Event :=
  List.replicate 7 (.step index .succeeds)

/-- A reactivation that comes after the deletion is refused. -/
theorem deletion_irreversible_refused :
    ∃ middle final : Registry,
      run (Pool.step deletions)
          (.start (registry suspendedCompany deletionWait))
          (.spawn (.deletion ['o']) :: requestSteps 0) = some middle ∧
        run (Pool.step deletions) middle (.spawn (.update none (some true)) ::
          List.replicate 3 (.step 1 .succeeds)) = some final ∧
        Final middle.shared final.shared := by
  let start : Registry := .start (registry suspendedCompany deletionWait)
  let events : List Event := .spawn (.deletion ['o']) :: requestSteps 0
  let more : List Event := .spawn (.update none (some true)) ::
    List.replicate 3 (.step 1 .succeeds)
  have ran : ((run (Pool.step deletions) start events).any fun middle =>
      middle.shared.deletion.isSome &&
        (run (Pool.step deletions) middle more).isSome &&
        decide (Along (Pool.step deletions) Unraced start (events ++ more))) =
      true := by decide +kernel
  obtain ⟨middle, reached, checks⟩ := (Option.any_eq_true _ _).mp ran
  simp only [Bool.and_eq_true, decide_eq_true_eq] at checks
  obtain ⟨⟨requested, going⟩, unraced⟩ := checks
  obtain ⟨final, later⟩ := Option.isSome_iff_exists.mp going
  exact ⟨middle, final, reached, later, (deletion_irreversible
    suspendedCompany deletionWait reached later unraced).2 requested⟩

/-- An update looks at the deletions, a deletion is requested and committed,
and the update then activates the company, whose stores the job empties. -/
theorem deletion_undone :
    ¬∀ (company : Option Row) (clock : Nat) (events : List Event)
      (final : Registry),
      run (Pool.step deletions) (.start (registry company clock)) events =
        some final → Stands final.shared := by
  intro stands
  let events : List Event :=
    ([.spawn (.update none (some true)), .spawn (.deletion ['o'])] :
      List Event) ++
      (List.replicate 3 (.step 0 .succeeds) : List Event) ++ requestSteps 1 ++
      (List.replicate 5 (.step 0 .succeeds) : List Event) ++
      (.spawn .job :: List.replicate 2 (.step 2 .succeeds) : List Event)
  have ran : ((run (Pool.step deletions)
      (.start (registry suspendedCompany deletionWait)) events).any
        fun final => final.shared.emptied.any Prod.snd) = true := by
    decide +kernel
  obtain ⟨final, reached, active⟩ := (Option.any_eq_true _ _).mp ran
  obtain ⟨store, member, flag⟩ := List.any_eq_true.mp active
  have never := (stands _ _ events final reached).emptied store member
  rw [flag] at never
  cases never

end IndustryFlow.Deletion
