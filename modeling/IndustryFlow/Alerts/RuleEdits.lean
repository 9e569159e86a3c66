import IndustryFlow.Alerts.RuleValidity

/-!
# Edits of a rule beside each other

An edit validates the row it reads with its changes, and later sets its columns
in the row that it then locks.  A transaction that is in progress guards the
row it has locked, so what it commits is what it has made of the latest row.
-/

namespace IndustryFlow.AlertRules

open Concurrent

variable {pydantic : Pydantic}

/-! ## What a transaction may commit -/

/-- The transaction is in progress and has locked the row to write it. -/
def Database.Holds (database : Database) (owner rule : Nat) : Prop :=
  ∃ mode : LockMode, 2 ≤ mode.strength ∧
    ⟨owner, rule, mode⟩ ∈ database.locking.held

/-- An edit has set the columns that it names and no others. -/
def Edit.Exact (edit : Edit) : Prop :=
  edit.after = edit.changes.apply edit.before

/-- Where `fresh` holds, every row is valid. -/
structure Sound (pydantic : Pydantic) (fresh : Prop) (database : Database) :
    Prop where
  locking : database.locking.Sound
  exact : ∀ edit ∈ database.edits, edit.Exact
  valid : fresh → ∀ rule row, database.rows rule = some row →
    Valid pydantic row

/-- How the database goes on: the lock of a transaction that has not ended
guards the row. -/
structure Evolves (before after : Database) : Prop where
  keeps : before.locking.Keeps after.locking
  row : ∀ owner rule row, owner < before.locking.next →
    owner ∈ after.locking.active → before.Holds owner rule →
      before.rows rule = some row → after.rows rule = some row
  edits : before.edits ⊆ after.edits

namespace Evolves

theorem refl (database : Database) : Evolves database database :=
  ⟨.refl _, fun _ _ _ _ _ _ found => found, fun _ member => member⟩

theorem holds {before after : Database} (evolves : Evolves before after)
    {owner rule : Nat} (known : owner < before.locking.next)
    (running : owner ∈ after.locking.active)
    (holds : before.Holds owner rule) : after.Holds owner rule := by
  obtain ⟨mode, strong, held⟩ := holds
  exact ⟨mode, strong, evolves.keeps.held _ held known running⟩

theorem trans {first second third : Database} (left : Evolves first second)
    (right : Evolves second third) : Evolves first third where
  keeps := left.keeps.trans right.keeps
  row owner rule row known running held found := by
    have later := Nat.lt_of_lt_of_le known left.keeps.next
    have between := right.keeps.active owner later running
    exact right.row owner rule row later running
      (left.holds known between held)
      (left.row owner rule row known between held found)
  edits := List.Subset.trans left.edits right.edits

/-- Only the locks change. -/
theorem locking {database : Database} {locking : Locking Nat}
    (keeps : database.locking.Keeps locking) :
    Evolves database { database with locking } :=
  ⟨keeps, fun _ _ _ _ _ _ found => found, fun _ member => member⟩

end Evolves

/-- An edit locks a row whose unnamed columns it has read as they are. -/
def Fresh (database : Database) : Op → Prop
  | .lock _ rule _ (some checked) =>
      ∀ row ∈ database.rows rule, Agrees checked row
  | _ => True

instance (database : Database) (op : Op) : Decidable (Fresh database op) :=
  match op with
  | .lock _ _ _ (some _) => inferInstanceAs (Decidable (∀ _ ∈ _, _))
  | .lock _ _ _ none | .begin | .select _ | .scan _ | .commit _ _
  | .rollback _ => .isTrue trivial

def terms (pydantic : Pydantic) (fresh : Prop) :
    Contract Database Op Choice where
  invariant := Sound pydantic fresh
  allowed database op _ := fresh → Fresh database op
  rely := Evolves
  guarantee := Evolves
  rely_refl := Evolves.refl
  rely_trans := Evolves.trans

/-- What a transaction in progress has made sure of before it commits. -/
def Ready (pydantic : Pydantic) (fresh : Prop) (database : Database)
    (owner : Nat) : Write → Prop
  | .nothing => True
  | .insert row => Valid pydantic row
  | .update rule changes row => database.Holds owner rule ∧
      (∃ latest, database.rows rule = some latest ∧
        row = changes.apply latest) ∧
      (fresh → Valid pydantic row)
  | .delete rule => database.Holds owner rule

/-- A transaction of this number, and if it is in progress it may commit. -/
structure Fits (pydantic : Pydantic) (fresh : Prop) (database : Database)
    (owner : Nat) (write : Write) : Prop where
  known : owner < database.locking.next
  ready : owner ∈ database.locking.active →
    Ready pydantic fresh database owner write

variable {fresh : Prop}

theorem Fits.evolves {before after : Database} {owner : Nat} {write : Write}
    (fits : Fits pydantic fresh before owner write)
    (evolves : Evolves before after) :
    Fits pydantic fresh after owner write := by
  refine ⟨Nat.lt_of_lt_of_le fits.known evolves.keeps.next, ?_⟩
  intro running
  have ready := fits.ready (evolves.keeps.active owner fits.known running)
  cases write with
  | nothing => trivial
  | insert row => exact ready
  | update rule changes row =>
      obtain ⟨holds, ⟨latest, found, same⟩, valid⟩ := ready
      have kept := evolves.row owner rule latest fits.known running holds
        found
      exact ⟨evolves.holds fits.known running holds, ⟨latest, kept, same⟩,
        valid⟩
  | delete rule => exact evolves.holds fits.known running ready

section

variable {database : Database} {owner : Nat}

theorem Sound.relocked {locking : Locking Nat}
    (sound : Sound pydantic fresh database) (locked : locking.Sound) :
    Sound pydantic fresh { database with locking } :=
  ⟨locked, sound.exact, sound.valid⟩

theorem finish_sound (sound : Sound pydantic fresh database) (owner : Nat) :
    Sound pydantic fresh (database.finish owner) :=
  sound.relocked (sound.locking.finish owner)

theorem finish_evolves (owner : Nat) :
    Evolves database (database.finish owner) :=
  .locking (Locking.keeps_finish owner)

/-- The rows that other transactions have locked are not this one's. -/
theorem Sound.apart (sound : Sound pydantic fresh database) {other rule : Nat}
    (held : database.Holds owner rule) (beside : database.Holds other rule) :
    other = owner := by
  obtain ⟨mode, strong, lock⟩ := held
  obtain ⟨second, also, other_lock⟩ := beside
  refine sound.locking.same_owner other_lock lock rfl ?_
  unfold LockMode.Conflicts
  simp only
  omega

/-- A row that nobody else has locked is set. -/
theorem set_evolves {rule : Nat} {row : Option Row} {edits : List Edit}
    (alone : ∀ other before, database.Holds other rule →
      other ∈ (database.locking.finish owner).active →
        database.rows rule ≠ some before)
    (more : database.edits ⊆ edits) :
    Evolves database
      (Database.finish { database.set rule row with edits } owner) := by
  refine ⟨Locking.keeps_finish owner, ?_, more⟩
  intro other written before _ running held found
  by_cases same : written = rule
  · subst same
    exact absurd found (alone other before held running)
  · simp only [Database.finish, Database.set, Function.update_of_ne same]
    exact found

theorem set_valid {rule : Nat} {row : Option Row} {edits : List Edit}
    (sound : Sound pydantic fresh database)
    (exact : ∀ edit ∈ edits, edit.Exact)
    (valid : fresh → ∀ written ∈ row, Valid pydantic written) :
    Sound pydantic fresh
      (Database.finish { database.set rule row with edits } owner) := by
  refine ⟨sound.locking.finish owner, exact, ?_⟩
  intro holds other found there
  by_cases same : other = rule
  · subst same
    simp only [Database.finish, Database.set, Function.update_self] at there
    exact valid holds found there
  · simp only [Database.finish, Database.set, Function.update_of_ne same]
      at there
    exact sound.valid holds other found there

theorem commit_sound (sound : Sound pydantic fresh database) {write : Write}
    {after : Database} (ready : Ready pydantic fresh database owner write)
    (applied : database.apply owner write = some after) :
    Sound pydantic fresh (after.finish owner) ∧
      Evolves database (after.finish owner) := by
  have alone {rule other : Nat} (held : database.Holds owner rule)
      (beside : database.Holds other rule)
      (running : other ∈ (database.locking.finish owner).active) : False := by
    have same := sound.apart held beside
    have different := (List.mem_filter.mp running).2
    exact of_decide_eq_true different same
  cases write with
  | nothing =>
      cases applied
      exact ⟨finish_sound sound owner, finish_evolves owner⟩
  | insert row =>
      simp only [Database.apply] at applied
      split at applied
      · cases applied
      · rename_i free
        cases applied
        constructor
        · refine set_valid sound sound.exact fun _ written there => ?_
          cases there
          exact ready
        · refine set_evolves (fun _ before _ _ found => free ?_)
            (List.Subset.refl _)
          rw [found]
          rfl
  | update rule changes row =>
      obtain ⟨holds, ⟨latest, found, same⟩, valid⟩ := ready
      simp only [Database.apply, found] at applied
      cases applied
      constructor
      · apply set_valid sound
        · intro edit member
          rcases List.mem_append.mp member with before | last
          · exact sound.exact edit before
          · cases List.mem_singleton.mp last
            exact same
        · intro holds written there
          cases there
          exact valid holds
      · apply set_evolves
        · intro other _ beside running
          exact (alone holds beside running).elim
        · exact List.subset_append_left _ _
  | delete rule =>
      cases applied
      constructor
      · exact set_valid sound sound.exact nofun
      · apply set_evolves
        · intro other _ beside running
          exact (alone ready beside running).elim
        · exact List.Subset.refl _

end

/-! ## Statements -/

variable {database after : Database}

/-- A lock is taken on a row that is there, or nothing changes. -/
theorem lockRow_cases {lock : RowLock Nat}
    {reply : Except Unit (Option Row)}
    (executed : lockRow database lock = some (reply, after)) :
    (after = database ∧ ∀ found, reply ≠ .ok (some found)) ∨
      ∃ found, database.rows lock.key = some found ∧
        reply = .ok (some found) ∧ database.locking.Free lock ∧
        lock.owner ∈ database.locking.active ∧
        after = { database with locking := database.locking.take lock } := by
  unfold lockRow at executed
  split at executed
  · cases executed
    exact .inl ⟨rfl, nofun⟩
  · rename_i running
    split at executed
    · rename_i free
      split at executed
      · cases executed
        exact .inl ⟨rfl, nofun⟩
      · rename_i found there
        cases executed
        exact .inr ⟨found, there, rfl, free, not_not.mp running, rfl⟩
    · cases executed

/-- What is left once a write is committed. -/
def Committed (database : Database) : Write → Prop
  | .update rule changes row => ∃ edit ∈ database.edits,
      edit.rule = rule ∧ edit.changes = changes ∧ edit.after = row
  | _ => True

theorem Committed.evolves {before later : Database} {write : Write}
    (committed : Committed before write) (evolves : Evolves before later) :
    Committed later write := by
  cases write with
  | update rule changes row =>
      obtain ⟨edit, member, named⟩ := committed
      exact ⟨edit, evolves.edits member, named⟩
  | _ => trivial

theorem apply_committed {owner : Nat} {write : Write}
    (applied : database.apply owner write = some after) :
    Committed (after.finish owner) write := by
  cases write with
  | update rule changes row =>
      simp only [Database.apply] at applied
      split at applied
      · cases applied
      · cases applied
        exact ⟨_, List.mem_append_right _ (List.mem_singleton_self _), rfl,
          rfl, rfl⟩
  | _ => trivial

/-- A commit of what the transaction may commit. -/
theorem exec_commit {owner : Nat} {write : Write} {choice : Choice}
    {reply : Except Unit Unit} (sound : Sound pydantic fresh database)
    (fits : Fits pydantic fresh database owner write)
    (executed : exec database (.commit owner write) choice =
      some (reply, after)) :
    Sound pydantic fresh after ∧ Evolves database after ∧
      (reply = .ok () → Committed after write) := by
  cases choice with
  | raises =>
      cases executed
      exact ⟨finish_sound sound owner, finish_evolves owner, nofun⟩
  | succeeds =>
      simp only [exec] at executed
      split at executed
      · rename_i running
        split at executed
        · cases executed
          exact ⟨finish_sound sound owner, finish_evolves owner, nofun⟩
        · rename_i applied
          cases executed
          obtain ⟨kept, evolves⟩ :=
            commit_sound sound (fits.ready running) applied
          exact ⟨kept, evolves, fun _ => apply_committed applied⟩
      · cases executed
        exact ⟨sound, .refl _, nofun⟩

/-- The other statements keep every row. -/
theorem exec_quiet {op : Op} {choice : Choice} {reply : Reply op}
    (sound : Sound pydantic fresh database)
    (quiet : ∀ owner write, op ≠ .commit owner write)
    (executed : exec database op choice = some (reply, after)) :
    Sound pydantic fresh after ∧ Evolves database after := by
  cases op with
  | begin =>
      cases executed
      exact ⟨sound.relocked sound.locking.begin,
        .locking Locking.keeps_begin⟩
  | lock owner rule mode checked =>
      cases choice with
      | raises =>
          cases executed
          exact ⟨sound, .refl _⟩
      | succeeds =>
          rcases lockRow_cases executed with
            ⟨rfl, -⟩ | ⟨_, -, -, free, running, rfl⟩
          · exact ⟨sound, .refl _⟩
          · exact ⟨sound.relocked (sound.locking.take free running),
              .locking (Locking.keeps_take _)⟩
  | commit owner write => exact absurd rfl (quiet owner write)
  | rollback owner =>
      cases executed
      exact ⟨finish_sound sound owner, finish_evolves owner⟩
  | _ =>
      cases executed
      exact ⟨sound, .refl _⟩

/-! ## The routes are safe -/

section

variable {Answer : Type}

/-- A program of this post, beside the other requests. -/
abbrev SafeTo (pydantic : Pydantic) (fresh : Prop)
    (post : Except Refusal Answer → Database → Prop)
    (program : Handler Answer) (database : Database) : Prop :=
  program.Safe exec (terms pydantic fresh) post database

variable {post : Except Refusal Answer → Database → Prop}

/-- A statement that commits nothing, and then the rest. -/
theorem quiet_safe {op : Op} {continuation : Reply op → Handler Answer}
    (quiet : ∀ owner write, op ≠ .commit owner write)
    (rest : ∀ choice reply earlier later,
      exec earlier op choice = some (reply, later) →
      Evolves database earlier → Evolves database later →
      Sound pydantic fresh earlier → (fresh → Fresh earlier op) →
      Sound pydantic fresh later →
        SafeTo pydantic fresh post (continuation reply) later) :
    SafeTo pydantic fresh post (Program.perform op >>= continuation)
      database := by
  intro earlier sound evolves choice reply later allowed executed
  obtain ⟨kept, given⟩ := exec_quiet sound quiet executed
  exact ⟨kept, given, rest choice reply earlier later executed evolves
    (evolves.trans given) sound allowed kept⟩

theorem abandon_safe {owner : Nat} {refusal : Refusal}
    (failed : ∀ later, post (.error refusal) later) :
    SafeTo pydantic fresh post (abandon owner refusal) database := by
  apply quiet_safe (by nofun)
  intro _ _ _ _ _ _ _ _ _ _
  exact fun last _ _ => failed last

theorem close_safe {owner : Nat} {write : Write}
    (fits : Fits pydantic fresh database owner write) :
    SafeTo pydantic fresh (fun result later =>
      result = .ok () → Committed later write) (close owner write)
      database := by
  intro earlier sound evolves choice reply later _ executed
  obtain ⟨kept, given, committed⟩ :=
    exec_commit sound (fits.evolves evolves) executed
  refine ⟨kept, given, ?_⟩
  cases reply with
  | error raised => exact fun _ _ _ => nofun
  | ok done => exact fun last _ more _ => (committed rfl).evolves more

/-- The transaction has the row behind its lock. -/
structure Behind (database : Database) (owner rule : Nat) (latest : Row) :
    Prop where
  known : owner < database.locking.next
  held : owner ∈ database.locking.active →
    database.Holds owner rule ∧ database.rows rule = some latest

theorem Behind.evolves {before later : Database} {owner rule : Nat}
    {latest : Row} (behind : Behind before owner rule latest)
    (evolves : Evolves before later) : Behind later owner rule latest := by
  refine ⟨Nat.lt_of_lt_of_le behind.known evolves.keeps.next, ?_⟩
  intro running
  obtain ⟨holds, found⟩ :=
    behind.held (evolves.keeps.active owner behind.known running)
  exact ⟨evolves.holds behind.known running holds,
    evolves.row owner rule latest behind.known running holds found⟩

/-- What a statement that locks a row comes back with. -/
def LockPost (pydantic : Pydantic) (fresh : Prop) (owner rule : Nat)
    (checked : Option Checked) :
    Except Refusal (Option Row) → Database → Prop
  | .ok (some latest), database => Behind database owner rule latest ∧
      (fresh → Valid pydantic latest ∧
        ∀ edit ∈ checked, Agrees edit latest)
  | .ok none, database => owner < database.locking.next
  | .error _, _ => True

theorem lockRule_safe {owner rule : Nat} {mode : LockMode}
    {checked : Option Checked} (strong : 2 ≤ mode.strength)
    (known : owner < database.locking.next) :
    SafeTo pydantic fresh (LockPost pydantic fresh owner rule checked)
      (lockRule owner rule mode checked) database := by
  apply quiet_safe (by nofun)
  intro _ visible _ scanned _ _ evolves _ _ _
  have known := Nat.lt_of_lt_of_le known evolves.keeps.next
  cases visible with
  | false =>
      intro last _ more
      exact Nat.lt_of_lt_of_le known more.keeps.next
  | true =>
      apply quiet_safe (by nofun)
      intro choice reply earlier locked executed before within sound agreed _
      have known := Nat.lt_of_lt_of_le known within.keeps.next
      match reply with
      | .error _ => exact abandon_safe fun _ => trivial
      | .ok none =>
          intro last _ more
          exact Nat.lt_of_lt_of_le known more.keeps.next
      | .ok (some latest) =>
          cases choice with
          | raises => cases executed
          | succeeds =>
              rcases lockRow_cases executed with
                ⟨-, never⟩ | ⟨found, there, same, -, -, rfl⟩
              · exact absurd rfl (never latest)
              · cases same
                intro last _ more
                refine ⟨Behind.evolves ⟨known, fun _ => ?_⟩ more,
                  fun holds => ?_⟩
                · exact ⟨⟨mode, strong, List.mem_cons_self⟩, there⟩
                refine ⟨sound.valid holds rule latest there, ?_⟩
                intro edit same
                cases same
                exact agreed holds latest there

/-- The edit is committed that was validated. -/
theorem applyChanges_safe {owner rule : Nat} {changes : Given} {read : Row}
    {readConfig : ModelConfig → ModelConfig} {merged : Row}
    (validated : validate pydantic (merge (stored readConfig read) changes) =
      .ok merged)
    (sound : Sound pydantic fresh database)
    (known : owner < database.locking.next) :
    SafeTo pydantic fresh (fun result later => ∀ row, result = .ok row →
      Committed later (.update rule changes row))
      (applyChanges owner rule changes read) database := by
  have strong : 2 ≤ (updateMode changes).strength := by
    unfold updateMode
    split <;> decide
  refine (lockRule_safe strong known).bind sound ?_ fun _ _ _ => nofun
  intro latest locked kept behind
  cases latest with
  | none =>
      have fits : Fits pydantic fresh locked owner .nothing :=
        ⟨behind, fun _ => trivial⟩
      refine (close_safe fits).bind kept ?_ fun _ _ _ => nofun
      exact fun _ _ _ _ _ _ _ _ => nofun
  | some latest =>
      obtain ⟨behind, agreed⟩ := behind
      have fits : Fits pydantic fresh locked owner
          (.update rule changes (changes.apply latest)) := by
        refine ⟨behind.known, fun running => ?_⟩
        obtain ⟨holds, found⟩ := behind.held running
        refine ⟨holds, ⟨latest, found, rfl⟩, fun holds => ?_⟩
        obtain ⟨valid, agrees⟩ := agreed holds
        have same : Agrees ⟨changes, read⟩ latest := agrees _ rfl
        exact valid_apply valid validated same
      refine (close_safe fits).bind kept ?_ fun _ _ _ => nofun
      intro _ closed _ committed last _ more row same
      cases same
      exact (committed rfl).evolves more

/-- What `_validated_merge` comes back with. -/
def MergePost (libraries : Libraries) (owner : Nat) (changes : Given) :
    Except Refusal Row → Database → Prop
  | .ok read, database => owner < database.locking.next ∧
      ∃ merged, validate libraries.pydantic
        (merge (stored libraries.readConfig read) changes) = .ok merged
  | .error _, _ => True

variable {libraries : Libraries}

theorem validatedMerge_safe {owner rule : Nat} {changes : Given}
    (known : owner < database.locking.next) :
    SafeTo libraries.pydantic fresh (MergePost libraries owner changes)
      (validatedMerge libraries owner rule changes) database := by
  apply quiet_safe (by nofun)
  intro _ row _ selected _ _ evolves _ _ _
  have known := Nat.lt_of_lt_of_le known evolves.keeps.next
  cases row with
  | none => exact abandon_safe fun _ => trivial
  | some read =>
      dsimp only
      split
      · exact abandon_safe fun _ => trivial
      · rename_i merged validated
        intro last _ more
        exact ⟨Nat.lt_of_lt_of_le known more.keeps.next, merged, validated⟩

/-- An answered edit of the rule was committed with these changes. -/
def Edited (rule : Nat) (changes : Given) (result : Except Refusal Row)
    (database : Database) : Prop :=
  ∀ row, result = .ok row → Committed database (.update rule changes row)

/-- The second half of the two edits. -/
theorem edit_safe {owner rule : Nat} {changes : Given}
    (sound : Sound libraries.pydantic fresh database)
    (known : owner < database.locking.next) :
    SafeTo libraries.pydantic fresh (Edited rule changes) (do
      let read ← validatedMerge libraries owner rule changes
      applyChanges owner rule changes read) database := by
  refine (validatedMerge_safe known).bind sound ?_ fun _ _ _ => nofun
  intro read later kept merged
  obtain ⟨known, merged, validated⟩ := merged
  exact applyChanges_safe validated kept known

theorem begin_safe {continuation : Nat → Handler Answer}
    (rest : ∀ owner later, Sound pydantic fresh later →
      owner < later.locking.next →
        SafeTo pydantic fresh post (continuation owner) later) :
    SafeTo pydantic fresh post (Program.perform Op.begin >>= continuation)
      database := by
  apply quiet_safe (by nofun)
  intro _ owner _ later executed _ _ _ _ kept
  cases executed
  exact rest _ _ kept (Nat.lt_succ_self _)

theorem validateUpdate_ok {given update : Given}
    (validated : validateUpdate pydantic given = .ok update) :
    update = given := by
  unfold validateUpdate at validated
  split at validated
  · cases validated
    rfl
  · cases validated

theorem updateAlertRule_safe (rule : Nat) (body : Given)
    (database : Database) :
    SafeTo libraries.pydantic fresh
      (Edited rule (updateChanges libraries.pydantic body))
      (updateAlertRule libraries rule body) database := by
  unfold updateAlertRule
  split
  · exact fun _ _ _ _ => nofun
  · rename_i update validated
    obtain rfl := validateUpdate_ok validated
    apply begin_safe
    intro owner later sound known
    dsimp only
    split
    · exact abandon_safe fun _ _ => nofun
    · exact edit_safe sound known

theorem switchDetectionMode_safe (rule : Nat) (switch : DetectionModeSwitch)
    (database : Database) :
    SafeTo libraries.pydantic fresh (Edited rule switch.changes)
      (switchDetectionMode libraries rule switch) database := by
  apply begin_safe
  intro owner later sound known
  apply quiet_safe (by nofun)
  intro _ _ _ selected _ _ evolves _ _ kept
  exact edit_safe kept (Nat.lt_of_lt_of_le known evolves.keeps.next)

theorem createAlertRule_safe (body : Given) (database : Database) :
    SafeTo libraries.pydantic fresh (fun _ _ => True)
      (createAlertRule libraries body) database := by
  unfold createAlertRule
  split
  · exact fun _ _ _ => trivial
  · rename_i rule validated
    apply begin_safe
    intro owner later sound known
    have fits : Fits libraries.pydantic fresh later owner
        (.insert (columns libraries.pydantic rule)) :=
      ⟨known, fun _ => columns_valid validated⟩
    exact (close_safe fits).bind sound (fun _ _ _ _ _ _ _ => trivial)
      fun _ _ _ => trivial

theorem deleteAlertRule_safe (rule : Nat) (database : Database) :
    SafeTo pydantic fresh (fun _ _ => True) (deleteAlertRule rule)
      database := by
  apply begin_safe
  intro owner later sound known
  refine (lockRule_safe (by decide) known).bind sound ?_ fun _ _ _ => trivial
  intro row locked kept behind
  cases row with
  | none => exact abandon_safe fun _ => trivial
  | some latest =>
      have fits : Fits pydantic fresh locked owner (.delete rule) :=
        ⟨behind.1.known, fun running => (behind.1.held running).1⟩
      exact (close_safe fits).bind kept (fun _ _ _ _ _ _ _ => trivial)
        fun _ _ _ => trivial

end

end IndustryFlow.AlertRules
