import IndustryFlow.Models.FeatureConfigs
import Mathlib.Data.List.Nodup

/-!
# A bound configuration is fixed

A share lock keeps an edit and a deletion of the configuration away, and the
lock of an edit or a deletion keeps a bind away.  So what a transaction has
found behind its lock still holds when it commits: a registration commits
beside the inputs it validated, and an edit of the inputs beside no model.
-/

namespace IndustryFlow.FeatureConfigs

open Concurrent

/-- The configurations that the models name say what was validated. -/
def Fixed (database : Database) : Prop :=
  ∀ model ∈ database.models, ∀ config, model.featureConfigId = some config →
    ∃ row inputs, database.configs config = some row ∧
      model.validated = some inputs ∧ row.toInputs.Equal inputs

structure Good (database : Database) : Prop where
  fixed : Fixed database
  keyed : (database.models.map Model.modelId).Nodup
  sound : database.locking.Sound

/-- The transaction is in progress and holds a lock on the configuration, at
least as strong as this. -/
def Database.Holds (database : Database) (owner config strength : Nat) :
    Prop :=
  ∃ mode : LockMode, strength ≤ mode.strength ∧
    ⟨owner, .config config, mode⟩ ∈ database.locking.held

/-- How the database goes on: the lock of a transaction that has not ended
guards the row, an exclusive one its models too, and the inputs of a model
stay as they are. -/
structure Evolves (before after : Database) : Prop where
  keeps : before.locking.Keeps after.locking
  row : ∀ owner config row, owner < before.locking.next →
    owner ∈ after.locking.active → before.Holds owner config 1 →
      before.configs config = some row → after.configs config = some row
  bound : ∀ owner config, owner < before.locking.next →
    owner ∈ after.locking.active → before.Holds owner config 2 →
      ∀ model ∈ after.models, model.featureConfigId = some config →
        model ∈ before.models
  models : ∀ model ∈ before.models, model ∈ after.models
  inputs : ∀ model ∈ before.models, ∀ config,
    model.featureConfigId = some config →
      (after.configs config).map Config.toInputs =
        (before.configs config).map Config.toInputs

namespace Evolves

theorem refl (database : Database) : Evolves database database :=
  ⟨.refl _, fun _ _ _ _ _ _ found => found, fun _ _ _ _ _ _ member _ => member,
    fun _ member => member, fun _ _ _ _ => rfl⟩

theorem holds {before after : Database} (evolves : Evolves before after)
    {owner config strength : Nat} (known : owner < before.locking.next)
    (running : owner ∈ after.locking.active)
    (holds : before.Holds owner config strength) :
    after.Holds owner config strength := by
  obtain ⟨mode, strong, held⟩ := holds
  exact ⟨mode, strong, evolves.keeps.held _ held known running⟩

theorem trans {first second third : Database} (left : Evolves first second)
    (right : Evolves second third) : Evolves first third where
  keeps := left.keeps.trans right.keeps
  row owner config row known running held found := by
    have later := Nat.lt_of_lt_of_le known left.keeps.next
    have between := right.keeps.active owner later running
    exact right.row owner config row later running
      (left.holds known between held)
      (left.row owner config row known between held found)
  bound owner config known running held model member names := by
    have later := Nat.lt_of_lt_of_le known left.keeps.next
    have between := right.keeps.active owner later running
    exact left.bound owner config known between held model
      (right.bound owner config later running
        (left.holds known between held) model member names) names
  models model member := right.models model (left.models model member)
  inputs model member config names :=
    (right.inputs model (left.models model member) config names).trans
      (left.inputs model member config names)

/-- Only the locks change. -/
theorem locking {database : Database} {locking : Locking RowId}
    (keeps : database.locking.Keeps locking) :
    Evolves database { database with locking } :=
  ⟨keeps, fun _ _ _ _ _ _ found => found, fun _ _ _ _ _ _ member _ => member,
    fun _ member => member, fun _ _ _ _ => rfl⟩

end Evolves

def contract : Contract Database Op Choice where
  invariant := Good
  allowed _ _ _ := True
  rely := Evolves
  guarantee := Evolves
  rely_refl := Evolves.refl
  rely_trans := Evolves.trans

/-! ## What a transaction may commit -/

/-- What a transaction in progress has made sure of before it commits. -/
def Ready (database : Database) (owner : Nat) : Write → Prop
  | .nothing | .create _ | .model none => True
  | .config config row => database.Holds owner config 2 ∧
      ((∃ old new, database.configs config = some old ∧ row = some new ∧
          new.toInputs = old.toInputs) ∨
        ∀ model ∈ database.models, model.featureConfigId ≠ some config)
  | .model (some bound) => database.Holds owner bound.config 1 ∧
      ∃ row, database.configs bound.config = some row ∧
        row.toInputs.Equal bound.validated
  | .binding modelId config =>
      ∃ model ∈ database.models, model.modelId = modelId ∧
        model.featureConfigId = config

/-- A transaction of this number, and if it is in progress it may commit. -/
structure Fits (database : Database) (owner : Nat) (write : Write) :
    Prop where
  known : owner < database.locking.next
  ready : owner ∈ database.locking.active → Ready database owner write

theorem Database.Holds.mono {database : Database} {owner config few many : Nat}
    (holds : database.Holds owner config many) (fewer : few ≤ many) :
    database.Holds owner config few := by
  obtain ⟨mode, strong, held⟩ := holds
  exact ⟨mode, Nat.le_trans fewer strong, held⟩

theorem Fits.evolves {before after : Database} {owner : Nat} {write : Write}
    (fits : Fits before owner write) (evolves : Evolves before after) :
    Fits after owner write := by
  refine ⟨Nat.lt_of_lt_of_le fits.known evolves.keeps.next, ?_⟩
  intro running
  have ready := fits.ready (evolves.keeps.active owner fits.known running)
  cases write with
  | nothing => trivial
  | create row => trivial
  | config config row =>
      obtain ⟨holds, safe⟩ := ready
      refine ⟨evolves.holds fits.known running holds, ?_⟩
      rcases safe with ⟨old, new, found, written, same⟩ | unbound
      · refine .inl ⟨old, new, ?_, written, same⟩
        exact evolves.row owner config old fits.known running
          (holds.mono (by omega)) found
      · refine .inr fun model member names => ?_
        exact unbound model (evolves.bound owner config fits.known running
          holds model member names) names
  | model bound =>
      cases bound with
      | none => trivial
      | some bound =>
          obtain ⟨holds, row, found, equal⟩ := ready
          refine ⟨evolves.holds fits.known running holds, row, ?_, equal⟩
          exact evolves.row owner bound.config row fits.known running holds
            found
  | binding modelId config =>
      obtain ⟨model, member, named, names⟩ := ready
      exact ⟨model, evolves.models model member, named, names⟩

/-! ## Commits -/

section Commits

variable {database : Database} {owner : Nat}

theorem Good.locking {locking : Locking RowId} (good : Good database)
    (sound : locking.Sound) : Good { database with locking } :=
  ⟨good.fixed, good.keyed, sound⟩

theorem finish_good (good : Good database) (owner : Nat) :
    Good (database.finish owner) :=
  good.locking (good.sound.finish owner)

theorem finish_evolves (owner : Nat) :
    Evolves database (database.finish owner) :=
  .locking (Locking.keeps_finish owner)

/-- Another transaction does not hold a lock beside this one. -/
theorem Good.alone (good : Good database) {other config first second : Nat}
    (held : database.Holds owner config first)
    (beside : database.Holds other config second)
    (conflict : 3 ≤ first + second) : other = owner := by
  obtain ⟨mode, strong, lock⟩ := held
  obtain ⟨beside, also, other_lock⟩ := beside
  refine (good.sound.same_owner other_lock lock rfl ?_)
  unfold LockMode.Conflicts
  simp only
  omega

theorem finished_other {other : Nat}
    (running : other ∈ (database.locking.finish owner).active) :
    other ≠ owner := by
  simpa using (List.mem_filter.mp running).2

theorem commit_config (good : Good database) {config : Nat}
    {row : Option Config}
    (ready : Ready database owner (.config config row)) :
    Good ((database.setConfig config row).finish owner) ∧
      Evolves database ((database.setConfig config row).finish owner) := by
  obtain ⟨holds, safe⟩ := ready
  have same_inputs (model : Model) (member : model ∈ database.models)
      (names : model.featureConfigId = some config) :
      row.map Config.toInputs =
        (database.configs config).map Config.toInputs := by
    rcases safe with ⟨old, new, found, rfl, same⟩ | unbound
    · rw [found, Option.map_some, Option.map_some, same]
    · exact absurd names (unbound model member)
  constructor
  · apply finish_good
    refine ⟨?_, good.keyed, good.sound⟩
    intro model member other names
    obtain ⟨before, inputs, found, validated, equal⟩ :=
      good.fixed model member other names
    by_cases same : other = config
    · subst same
      have kept := same_inputs model member names
      rw [found, Option.map_some, Option.map_eq_some_iff] at kept
      obtain ⟨after, written, same⟩ := kept
      refine ⟨after, inputs, ?_, validated, same ▸ equal⟩
      simp only [Database.setConfig, if_true, written]
    · refine ⟨before, inputs, ?_, validated, equal⟩
      simp only [Database.setConfig, if_neg same]
      exact found
  · refine ⟨Locking.keeps_finish owner, ?_, ?_, fun _ member => member, ?_⟩
    · intro other guarded kept known running held found
      have different : guarded ≠ config := by
        rintro rfl
        exact finished_other running (good.alone holds held (by omega))
      simp only [Database.finish, Database.setConfig, if_neg different]
      exact found
    · intro _ _ _ _ _ model member _
      exact member
    · intro model member other names
      simp only [Database.finish, Database.setConfig]
      by_cases same : other = config
      · subst same
        rw [if_pos rfl]
        exact same_inputs model member names
      · rw [if_neg same]

theorem commit_create (good : Good database) {row : Config}
    (fresh : (database.configs owner).isSome = false) :
    Good ((database.setConfig owner (some row)).finish owner) ∧
      Evolves database
        ((database.setConfig owner (some row)).finish owner) := by
  rw [Option.isSome_eq_false_iff, Option.isNone_iff_eq_none] at fresh
  have different {config : Nat} {before : Config}
      (found : database.configs config = some before) : config ≠ owner := by
    rintro rfl
    rw [fresh] at found
    cases found
  constructor
  · apply finish_good
    refine ⟨?_, good.keyed, good.sound⟩
    intro model member config names
    obtain ⟨before, inputs, found, validated, equal⟩ :=
      good.fixed model member config names
    refine ⟨before, inputs, ?_, validated, equal⟩
    simp only [Database.setConfig, if_neg (different found)]
    exact found
  · refine ⟨Locking.keeps_finish owner, ?_, ?_, fun _ member => member, ?_⟩
    · intro _ config before _ _ _ found
      simp only [Database.finish, Database.setConfig,
        if_neg (different found)]
      exact found
    · intro _ _ _ _ _ model member _
      exact member
    · intro model member config names
      obtain ⟨before, _, found, _⟩ := good.fixed model member config names
      simp only [Database.finish, Database.setConfig,
        if_neg (different found)]

theorem commit_model (good : Good database) {bound : Option Bound}
    (fresh : ¬∃ model ∈ database.models, model.modelId = owner)
    (ready : Ready database owner (.model bound)) :
    Good ((database.addModel owner bound).finish owner) ∧
      Evolves database ((database.addModel owner bound).finish owner) := by
  constructor
  · apply finish_good
    refine ⟨?_, ?_, good.sound⟩
    · intro model member config names
      rcases List.mem_append.mp member with old | new
      · exact good.fixed model old config names
      · rw [List.mem_singleton] at new
        subst new
        cases bound with
        | none => cases names
        | some bound =>
            obtain ⟨_, row, found, equal⟩ := ready
            cases names
            exact ⟨row, bound.validated, found, rfl, equal⟩
    · simp only [Database.addModel]
      rw [List.map_append, List.nodup_append]
      refine ⟨good.keyed, by simp, ?_⟩
      intro modelId member other single same
      obtain ⟨model, inside, rfl⟩ := List.mem_map.mp member
      rw [List.map_singleton, List.mem_singleton] at single
      exact fresh ⟨model, inside, same.trans single⟩
  · refine ⟨Locking.keeps_finish owner, ?_, ?_, ?_, fun _ _ _ _ => rfl⟩
    · intro _ _ _ _ _ _ found
      exact found
    · intro other config known running held model member names
      rcases List.mem_append.mp member with old | new
      · exact old
      · rw [List.mem_singleton] at new
        subst new
        cases bound with
        | none => cases names
        | some bound =>
            obtain ⟨holds, _⟩ := ready
            cases names
            exact absurd (good.alone holds held (by omega))
              (finished_other running)
    · intro model member
      exact List.mem_append_left _ member

/-- The binding that a model has may be written again. -/
theorem rebound (good : Good database) {modelId : Nat} {config : Option Nat}
    (ready : Ready database owner (.binding modelId config)) :
    (database.models.map fun row =>
      if row.modelId = modelId then { row with featureConfigId := config }
      else row) = database.models := by
  obtain ⟨model, member, named, names⟩ := ready
  have kept : ∀ row ∈ database.models,
      (if row.modelId = modelId then { row with featureConfigId := config }
      else row) = id row := by
    intro row inside
    by_cases same : row.modelId = modelId
    · have found : row = model := List.inj_on_of_nodup_map good.keyed inside
        member (same.trans named.symm)
      rw [if_pos same, found, ← names]
      rfl
    · rw [if_neg same]
      rfl
  rw [List.map_congr_left kept, List.map_id]

theorem commit_good (good : Good database) {write : Write}
    {after : Database} (ready : Ready database owner write)
    (applied : database.apply owner write = some after) :
    Good (after.finish owner) ∧ Evolves database (after.finish owner) := by
  cases write with
  | nothing =>
      cases applied
      exact ⟨finish_good good owner, finish_evolves owner⟩
  | create row =>
      simp only [Database.apply] at applied
      split at applied
      · cases applied
      · rename_i fresh
        cases applied
        exact commit_create good (Bool.eq_false_iff.mpr fresh)
  | config config row =>
      cases applied
      exact commit_config good ready
  | model bound =>
      simp only [Database.apply] at applied
      split at applied
      · cases applied
      · rename_i fresh
        cases applied
        exact commit_model good fresh ready
  | binding modelId config =>
      simp only [Database.apply, rebound good ready] at applied
      cases applied
      exact ⟨finish_good good owner, finish_evolves owner⟩

end Commits

/-! ## Statements -/

/-- A lock is taken on a row that is there, or nothing changes. -/
theorem lockRow_cases {Row : Type} {database after : Database}
    {lock : RowLock RowId} {row : Option Row}
    {reply : Except Unit (Option Row)}
    (executed : lockRow database lock row = some (reply, after)) :
    (after = database ∧ ∀ found, reply ≠ .ok (some found)) ∨
      ∃ found, row = some found ∧ reply = .ok (some found) ∧
        database.locking.Free lock ∧ lock.owner ∈ database.locking.active ∧
        after = { database with locking := database.locking.take lock } := by
  unfold lockRow at executed
  split at executed
  · cases executed
    exact .inl ⟨rfl, fun _ never => by cases never⟩
  · rename_i running
    split at executed
    · rename_i free
      cases row with
      | none =>
          cases executed
          exact .inl ⟨rfl, fun _ never => by cases never⟩
      | some found =>
          cases executed
          exact .inr ⟨found, rfl, rfl, free, not_not.mp running, rfl⟩
    · cases executed

theorem lockRow_good {Row : Type} {database after : Database}
    {lock : RowLock RowId} {row : Option Row}
    {reply : Except Unit (Option Row)} (good : Good database)
    (executed : lockRow database lock row = some (reply, after)) :
    Good after ∧ Evolves database after := by
  rcases lockRow_cases executed with ⟨rfl, -⟩ | ⟨_, -, -, free, running, rfl⟩
  · exact ⟨good, .refl _⟩
  · exact ⟨good.locking (good.sound.take free running),
      .locking (Locking.keeps_take lock)⟩

variable {database after : Database} {op : Op} {choice : Choice}
  {reply : Reply op}

/-- Every call keeps the bindings, if a commit is of what the transaction may
commit. -/
theorem exec_good (good : Good database)
    (ready : ∀ owner write, op = .commit owner write →
      owner ∈ database.locking.active → Ready database owner write)
    (executed : exec database op choice = some (reply, after)) :
    Good after ∧ Evolves database after := by
  cases op with
  | begin =>
      cases executed
      exact ⟨good.locking good.sound.begin, .locking Locking.keeps_begin⟩
  | lockConfig owner config mode =>
      cases choice with
      | raises =>
          cases executed
          exact ⟨good, .refl _⟩
      | succeeds => exact lockRow_good good executed
  | lockModel owner model =>
      cases choice with
      | raises =>
          cases executed
          exact ⟨good, .refl _⟩
      | succeeds => exact lockRow_good good executed
  | commit owner write =>
      cases choice with
      | raises =>
          cases executed
          exact ⟨finish_good good owner, finish_evolves owner⟩
      | succeeds =>
          simp only [exec] at executed
          split at executed
          · rename_i running
            split at executed
            · cases executed
              exact ⟨finish_good good owner, finish_evolves owner⟩
            · rename_i applied
              cases executed
              exact commit_good good (ready owner write rfl running) applied
          · cases executed
            exact ⟨good, .refl _⟩
  | rollback owner =>
      cases executed
      exact ⟨finish_good good owner, finish_evolves owner⟩
  | _ =>
      cases executed
      exact ⟨good, .refl _⟩

/-- A call that commits nothing about a bound configuration. -/
def Quiet : Op → Prop
  | .commit _ .nothing | .commit _ (.create _) | .commit _ (.model none) =>
      True
  | .commit _ _ => False
  | _ => True

theorem Quiet.ready (quiet : Quiet op) (owner : Nat) (write : Write)
    (same : op = .commit owner write) : Ready database owner write := by
  subst same
  match write with
  | .nothing => trivial
  | .create _ => trivial
  | .model none => trivial

abbrev Calls {Answer : Type} (program : Handler Answer) : Prop :=
  program.Always (fun _ _ => True) Quiet fun _ => True

/-- A program of quiet calls, with what its contract lets happen. -/
theorem calls_safe {Answer : Type} {program : Handler Answer}
    (calls : Calls program) (database : Database) :
    program.Safe exec contract (fun _ later => Evolves database later)
      database := by
  have safe : program.Safe exec contract (fun _ _ => True) database := by
    refine calls.safe ?_ database
    intro op quiet shared choice reply after good _ executed
    obtain ⟨kept, evolves⟩ :=
      exec_good good (fun owner write same _ => quiet.ready owner write same)
        executed
    exact ⟨kept, evolves, trivial⟩
  exact (safe.tracks id).mono fun _ _ _ ended => ended.2

/-- And then the rest. -/
theorem calls_bind_safe {First Answer : Type} {program : Handler First}
    {continuation : First → Handler Answer}
    {post : Except Refusal Answer → Database → Prop}
    (good : Good database) (calls : Calls program)
    (rest : ∀ answer later, Good later → Evolves database later →
      (continuation answer).Safe exec contract post later)
    (failed : ∀ error later, post (.error error) later) :
    (program >>= continuation).Safe exec contract post database :=
  (calls_safe calls database).bind good rest
    fun error later _ => failed error later

theorem abandon_calls {Answer : Type} (owner : Nat) (refusal : Refusal) :
    Calls (abandon owner refusal : Handler Answer) :=
  ⟨trivial, fun _ _ => trivial⟩

theorem lockConfig_calls (owner config : Nat) (mode : LockMode)
    (raised : Refusal) : Calls (lockConfig owner config mode raised) := by
  refine ⟨trivial, fun visible _ => ?_⟩
  cases visible with
  | false => trivial
  | true =>
      refine ⟨trivial, fun locked _ => ?_⟩
      cases locked with
      | error _ => exact abandon_calls owner raised
      | ok row => trivial

theorem hold_calls (owner : Nat) (old : Option Model) (new : Option Nat)
    (raised : Refusal) :
    Calls (holdFeatureConfigBinding owner old new raised) := by
  unfold holdFeatureConfigBinding
  split
  · exact abandon_calls owner _
  · cases new with
    | none => trivial
    | some config =>
        exact (lockConfig_calls owner config .share raised).bind
          (fun _ _ => trivial) fun _ _ => trivial

theorem foreign_key_calls (owner : Nat) (new : Option Nat)
    (raised : Refusal) : Calls (checkForeignKey owner new raised) := by
  cases new with
  | none => trivial
  | some config =>
      refine (lockConfig_calls owner config .keyShare raised).bind ?_
        fun _ _ => trivial
      intro row _
      cases row with
      | none => exact abandon_calls owner raised
      | some row => trivial

theorem abandon_safe {Answer : Type} (owner : Nat) {refusal : Refusal}
    {post : Except Refusal Answer → Database → Prop}
    (failed : ∀ later, post (.error refusal) later) :
    (abandon owner refusal : Handler Answer).Safe exec contract post
      database := by
  intro later good _ choice reply after _ executed
  obtain ⟨kept, given⟩ :=
    exec_good good (fun _ _ never => by cases never) executed
  exact ⟨kept, given, fun last _ _ => failed last⟩

theorem close_safe {owner : Nat} {write : Write} (raised : Refusal)
    (fits : Fits database owner write) :
    (close owner write raised).Safe exec contract (fun _ _ => True)
      database := by
  intro later good evolves choice reply after _ executed
  have ready := (fits.evolves evolves).ready
  obtain ⟨kept, given⟩ :=
    exec_good good (fun other committed same running => by
      cases same
      exact ready running) executed
  refine ⟨kept, given, ?_⟩
  cases reply with
  | error _ => exact fun _ _ _ => trivial
  | ok _ => exact fun _ _ _ => trivial

/-! ## Behind a lock -/

/-- The transaction has the row of the configuration behind its lock. -/
structure Behind (database : Database) (owner config strength : Nat)
    (row : Config) : Prop where
  known : owner < database.locking.next
  held : owner ∈ database.locking.active →
    database.Holds owner config strength ∧
      database.configs config = some row

theorem Behind.evolves {before after : Database}
    {owner config strength : Nat} {row : Config}
    (behind : Behind before owner config strength row)
    (evolves : Evolves before after) (strong : 1 ≤ strength) :
    Behind after owner config strength row := by
  refine ⟨Nat.lt_of_lt_of_le behind.known evolves.keeps.next, ?_⟩
  intro running
  obtain ⟨holds, found⟩ :=
    behind.held (evolves.keeps.active owner behind.known running)
  exact ⟨evolves.holds behind.known running holds,
    evolves.row owner config row behind.known running (holds.mono strong)
      found⟩

/-- What a statement that locks a configuration comes back with. -/
def LockPost (owner config : Nat) (mode : LockMode)
    (result : Except Refusal (Option Config)) (database : Database) : Prop :=
  match result with
  | .ok (some row) => Behind database owner config mode.strength row
  | .ok none => owner < database.locking.next
  | .error _ => True

theorem lockConfig_safe {owner config : Nat} {mode : LockMode}
    (raised : Refusal) (strong : 1 ≤ mode.strength)
    (known : owner < database.locking.next) :
    (lockConfig owner config mode raised).Safe exec contract
      (LockPost owner config mode) database := by
  intro later good evolves choice visible after _ executed
  cases executed
  refine ⟨good, .refl _, ?_⟩
  have known := Nat.lt_of_lt_of_le known evolves.keeps.next
  cases later.hasRow (.config config) with
  | false =>
      intro last _ more
      exact Nat.lt_of_lt_of_le known more.keeps.next
  | true =>
      intro last good more choice reply after _ executed
      obtain ⟨kept, given⟩ := exec_good good (by
        intro _ _ never
        cases never) executed
      refine ⟨kept, given, ?_⟩
      have known := Nat.lt_of_lt_of_le known more.keeps.next
      match reply with
      | .error _ => exact abandon_safe owner fun _ => trivial
      | .ok none =>
          intro end_ _ further
          exact Nat.lt_of_lt_of_le known
            (Nat.le_trans given.keeps.next further.keeps.next)
      | .ok (some row) =>
          have behind : Behind after owner config mode.strength row := by
            refine ⟨Nat.lt_of_lt_of_le known given.keeps.next, ?_⟩
            intro _
            cases choice with
            | raises => cases executed
            | succeeds =>
                rcases lockRow_cases executed with
                  ⟨-, never⟩ | ⟨found, there, same, -, -, rfl⟩
                · exact absurd rfl (never row)
                · cases same
                  exact ⟨⟨mode, Nat.le_refl _, List.mem_cons_self⟩, there⟩
          intro end_ _ further
          exact behind.evolves further strong

theorem Behind.mono {owner config few many : Nat} {row : Config}
    (behind : Behind database owner config many row) (fewer : few ≤ many) :
    Behind database owner config few row := by
  refine ⟨behind.known, fun running => ?_⟩
  obtain ⟨holds, found⟩ := behind.held running
  exact ⟨holds.mono fewer, found⟩

/-! ## The transactions are safe -/

/-- A request keeps the bindings, whatever the others do. -/
abbrev SafeAt (database : Database) (program : Handler Unit) : Prop :=
  program.Safe exec contract (fun _ _ => True) database

theorem begin_safe {continuation : Nat → Handler Unit}
    (rest : ∀ owner later, Good later → owner < later.locking.next →
      SafeAt later (continuation owner)) :
    SafeAt database (Program.perform Op.begin >>= continuation) := by
  intro later good _ choice owner after _ executed
  obtain ⟨kept, given⟩ :=
    exec_good good (fun _ _ never => by cases never) executed
  cases executed
  exact ⟨kept, given, rest _ _ kept (Nat.lt_succ_self _)⟩

theorem insertModel_safe {owner : Nat} {bound : Option Bound}
    (good : Good database) (fits : Fits database owner (.model bound)) :
    SafeAt database (insertModel owner bound) := by
  apply calls_bind_safe good (hold_calls owner none _ _)
  · intro _ held good evolves
    apply calls_bind_safe good (foreign_key_calls owner _ _)
    · intro _ checked _ more
      exact close_safe _ ((fits.evolves evolves).evolves more)
    · exact fun _ _ => trivial
  · exact fun _ _ => trivial

theorem createModel_safe (bound : Option Bound) (database : Database) :
    SafeAt database (createModel bound) := by
  apply begin_safe
  intro owner later good known
  cases bound with
  | none => exact insertModel_safe good ⟨known, fun _ => trivial⟩
  | some bound =>
      refine (lockConfig_safe _ (by decide) known).bind good ?_
        fun _ _ _ => trivial
      intro row locked good behind
      cases row with
      | none => exact abandon_safe owner fun _ => trivial
      | some row =>
          simp only
          split
          · rename_i equal
            apply insertModel_safe good
            refine ⟨behind.known, fun running => ?_⟩
            obtain ⟨holds, found⟩ := behind.held running
            exact ⟨holds, row, found, equal⟩
          · exact abandon_safe owner fun _ => trivial

/-- A read, and then the rest. -/
theorem read_safe {op : Op} {continuation : Reply op → Handler Unit}
    (quiet : Quiet op)
    (rest : ∀ reply later, Good later → SafeAt later (continuation reply)) :
    SafeAt database (Program.perform op >>= continuation) := by
  intro later good _ choice reply after _ executed
  obtain ⟨kept, given⟩ :=
    exec_good good (fun owner write same _ => quiet.ready owner write same)
      executed
  exact ⟨kept, given, rest reply after kept⟩

theorem registerModel_safe (config : Option Nat) (database : Database) :
    SafeAt database (registerModel config) := by
  cases config with
  | none => exact createModel_safe none database
  | some config =>
      have quiet : Quiet (.select config) := trivial
      apply read_safe quiet
      intro found later good
      cases found with
      | none => exact fun _ _ _ => trivial
      | some row =>
          have quiet : Quiet (.checkSensors row) := trivial
          apply read_safe quiet
          intro complete last good
          cases complete with
          | true => exact createModel_safe (some ⟨config, row.toInputs⟩) last
          | false => exact fun _ _ _ => trivial

/-- The models a transaction reads behind its exclusive lock are all there
are when it commits. -/
theorem unbound_safe {owner config : Nat} {old : Config} {row : Option Config}
    (behind : Behind database owner config 2 old) :
    (restrictDelete owner config).Safe exec contract
      (fun result later => result = .ok () →
        Fits later owner (.config config row)) database := by
  intro later good evolves choice reply after _ executed
  have behind := behind.evolves evolves (by omega)
  cases executed
  refine ⟨good, .refl _, ?_⟩
  simp only [Program.bind]
  split
  · rename_i none_bound
    intro last _ more _
    refine Fits.evolves ⟨behind.known, fun running => ?_⟩ more
    refine ⟨(behind.held running).1, .inr fun model member names => ?_⟩
    simp only [Database.boundModels, List.map_eq_nil_iff,
      List.filter_eq_nil_iff, decide_eq_true_eq] at none_bound
    exact none_bound model member names
  · apply abandon_safe
    intro _ never
    cases never

/-- An edit that passes the trigger may be committed. -/
theorem refuse_safe {owner config : Nat} {old new : Config}
    (behind : Behind database owner config 2 old) :
    (refuseBoundFeatureConfigChange owner config old new).Safe exec contract
      (fun result later => result = .ok () →
        Fits later owner (.config config (some new))) database := by
  unfold refuseBoundFeatureConfigChange
  split
  · rename_i same
    intro later _ evolves _
    refine Fits.evolves ⟨behind.known, fun running => ?_⟩ evolves
    obtain ⟨holds, found⟩ := behind.held running
    exact ⟨holds, .inl ⟨old, new, found, rfl, same⟩⟩
  · exact unbound_safe behind

/-- A check, and then the commit of what it lets through. -/
theorem checked_close_safe {owner : Nat} {write : Write} {raised : Refusal}
    {check : Handler Unit} (good : Good database)
    (checked : check.Safe exec contract
      (fun result later => result = .ok () → Fits later owner write)
      database) :
    SafeAt database (do
      check
      close owner write raised) := by
  refine checked.bind good ?_ fun _ _ _ => trivial
  intro _ passed _ fits
  exact close_safe _ (fits rfl)

theorem close_nothing_safe {owner : Nat} (good : Good database)
    (known : owner < database.locking.next) (refusal : Refusal) :
    SafeAt database (do
      close owner .nothing .unreachable
      .fail refusal) := by
  have fits : Fits database owner .nothing := ⟨known, fun _ => trivial⟩
  exact (close_safe _ fits).bind good (fun _ _ _ _ _ _ _ => trivial)
    fun _ _ _ => trivial

theorem edit_mode_strong (edit : Edit) : 2 ≤ edit.mode.strength := by
  unfold Edit.mode
  split <;> decide

theorem updateFeatureConfig_safe (config : Nat) (edit : Edit)
    (database : Database) :
    SafeAt database (updateFeatureConfig config edit) := by
  unfold updateFeatureConfig
  split
  · have quiet : Quiet (.select config) := trivial
    apply read_safe quiet
    intro row later _
    split
    · exact fun _ _ _ => trivial
    · exact fun _ _ _ => trivial
  · apply begin_safe
    intro owner later good known
    have strong := edit_mode_strong edit
    refine (lockConfig_safe _ (by omega) known).bind good ?_
      fun _ _ _ => trivial
    intro row locked good behind
    cases row with
    | none => exact close_nothing_safe good behind _
    | some old =>
        exact checked_close_safe good (refuse_safe (behind.mono strong))

theorem deleteFeatureConfig_safe (config : Nat) (database : Database) :
    SafeAt database (deleteFeatureConfig config) := by
  apply begin_safe
  intro owner later good known
  refine (lockConfig_safe _ (by decide) known).bind good ?_
    fun _ _ _ => trivial
  intro row locked good behind
  cases row with
  | none => exact close_nothing_safe good behind _
  | some old =>
      have unbound : (restrictDelete owner config).Safe exec contract
          (fun result later => result = .ok () →
            Fits later owner (.config config none)) locked :=
        unbound_safe (behind.mono (by decide))
      exact checked_close_safe good unbound

theorem createFeatureConfig_safe (row : Config) (database : Database) :
    SafeAt database (createFeatureConfig row) := by
  apply begin_safe
  intro owner later good known
  exact close_safe _ ⟨known, fun _ => trivial⟩

/-- The trigger lets a binding through only as it is. -/
theorem rebinding_fits {owner modelId : Nat} {config : Option Nat}
    {old : Model} (known : owner < database.locking.next)
    (member : old ∈ database.models) (named : old.modelId = modelId) :
    (holdFeatureConfigBinding owner (some old) config .unreachable).Safe exec
      contract (fun result later => result = .ok () →
        Fits later owner (.binding modelId config)) database := by
  by_cases same : old.featureConfigId = config
  · have fits : Fits database owner (.binding modelId config) :=
      ⟨known, fun _ => ⟨old, member, named, same⟩⟩
    exact (calls_safe (hold_calls owner (some old) config _) database).mono
      fun _ _ _ evolves _ => fits.evolves evolves
  · have refused : (some old).filter
        (fun model => decide (model.featureConfigId ≠ config)) = some old := by
      simp [same]
    unfold holdFeatureConfigBinding
    rw [refused]
    apply abandon_safe
    intro _ never
    cases never

theorem rebindModel_safe (modelId : Nat) (config : Option Nat)
    (database : Database) : SafeAt database (rebindModel modelId config) := by
  apply begin_safe
  intro owner started _ known later good evolves choice visible after _
    executed
  cases executed
  refine ⟨good, .refl _, ?_⟩
  have known := Nat.lt_of_lt_of_le known evolves.keeps.next
  cases later.hasRow (.model modelId) with
  | false => exact close_safe _ ⟨known, fun _ => trivial⟩
  | true =>
      intro last good more choice reply after _ executed
      obtain ⟨kept, given⟩ :=
        exec_good good (fun _ _ never => by cases never) executed
      refine ⟨kept, given, ?_⟩
      have known := Nat.lt_of_lt_of_le
        (Nat.lt_of_lt_of_le known more.keeps.next) given.keeps.next
      match reply with
      | .error _ => exact abandon_safe owner fun _ => trivial
      | .ok none => exact close_safe _ ⟨known, fun _ => trivial⟩
      | .ok (some old) =>
          have found : last.model? modelId = some old := by
            cases choice with
            | raises => cases executed
            | succeeds =>
                rcases lockRow_cases executed with
                  ⟨-, never⟩ | ⟨_, there, same, -⟩
                · exact absurd rfl (never old)
                · cases same
                  exact there
          have member : old ∈ after.models :=
            given.models old (List.mem_of_find?_eq_some found)
          have named : old.modelId = modelId := by
            simpa using List.find?_some found
          have held : (holdFeatureConfigBinding owner (some old) config
              .unreachable).Safe exec contract (fun result later =>
                result = .ok () → Fits later owner (.binding modelId config))
              after := rebinding_fits known member named
          exact checked_close_safe kept held

/-! ## Runs -/

def Kept (pool : Tenant) : Prop :=
  Pool.Kept tenant contract (fun _ _ _ => True) pool

theorem handle_safe (request : Request) (database : Database) :
    SafeAt database (handle request) := by
  cases request with
  | register config => exact registerModel_safe config database
  | edit config edit => exact updateFeatureConfig_safe config edit database
  | delete config => exact deleteFeatureConfig_safe config database
  | create row => exact createFeatureConfig_safe row database
  | rebind model config => exact rebindModel_safe model config database

theorem step_kept {pool next : Tenant} {event : Event} (kept : Kept pool)
    (taken : Pool.step tenant pool event = some next) :
    Kept next ∧ Evolves pool.shared next.shared := by
  have permitted : Pool.Allowed (fun _ => True) contract pool event := by
    cases event with
    | spawn request => trivial
    | step index choice => exact fun _ _ _ _ => trivial
    | abort index => trivial
    | lose index choice => exact fun _ _ _ _ => trivial
    | environment fields => trivial
  refine Pool.step_keeps id ?_ ?_ ?_ kept permitted taken
  · exact fun request database _ _ => handle_safe request database
  · exact fun _ _ _ => trivial
  · intro database change after good changed
    cases change with
    | disconnect owner =>
        cases changed
        exact ⟨finish_good good owner, finish_evolves owner⟩

theorem start_kept (configs : Nat → Option Config) :
    Kept (.start (.start configs)) := by
  refine ⟨⟨?_, List.nodup_nil, Locking.idle_sound⟩, ?_⟩
  · intro model member
    cases member
  · intro thread member
    cases member

theorem run_kept {pool final : Tenant} {events : List Event}
    (kept : Kept pool)
    (ran : run (Pool.step tenant) pool events = some final) :
    Kept final ∧ Evolves pool.shared final.shared := by
  constructor
  · apply run_preserves Kept _ kept ran
    intro _ _ _ kept taken
    exact (step_kept kept taken).1
  · apply run_relates
      (fun before after : Tenant => Evolves before.shared after.shared)
      (fun _ => .refl _) Evolves.trans _ kept ran
    intro _ _ _ kept taken
    exact step_kept kept taken

/-- In every committed state the configuration of a model is there and says
what its registration validated, and from then on neither the binding nor the
inputs of the configuration change. -/
theorem bound_config_fixed (configs : Nat → Option Config)
    (events later : List Event) (middle final : Tenant)
    (reached : run (Pool.step tenant) (.start (.start configs)) events =
      some middle)
    (ran : run (Pool.step tenant) middle later = some final) :
    Fixed middle.shared ∧
      ∀ model ∈ middle.shared.models, model ∈ final.shared.models ∧
        ∀ config, model.featureConfigId = some config →
          (final.shared.configs config).map Config.toInputs =
            (middle.shared.configs config).map Config.toInputs := by
  obtain ⟨kept, -⟩ := run_kept (start_kept configs) reached
  obtain ⟨-, evolves⟩ := run_kept kept ran
  refine ⟨kept.holds.fixed, fun model member => ?_⟩
  exact ⟨evolves.models model member, evolves.inputs model member⟩

/-- So many steps of one request. -/
def steps (index count : Nat) : List Event :=
  .replicate count (.step index .succeeds)

def pumpConfig : Config where
  equipmentType := "pump"
  name := "first"
  description := none
  baseSensors := .arr [.str "pressure_1", .str "flow_1"]
  transformations := .arr []

def noEdit : Edit := ⟨none, none, none, none, none⟩

/-- A configuration is created and a model registered with it. -/
def binding : List Event :=
  (.spawn (.create pumpConfig) :: steps 0 2 : List Event) ++
    (.spawn (.register (some 0)) :: steps 1 10 : List Event)

/-- One edit of its sensors, which is refused, one of its name, and a
deletion, which is refused. -/
def editing : List Event :=
  (.spawn (.edit 0 { noEdit with baseSensors := some (.arr []) }) ::
      steps 2 5 : List Event) ++
    (.spawn (.edit 0 { noEdit with name := some "second" }) :: steps 3 4 :
      List Event) ++
    (.spawn (.delete 0) :: steps 4 5 : List Event)

theorem bound_config_fixed_pump :
    ∃ middle final,
      run (Pool.step tenant) (.start (.start fun _ => none)) binding =
        some middle ∧
      run (Pool.step tenant) middle editing = some final ∧
      final.threads.map (·.program.error?) =
        [none, none, some (.bound 0), none, some (.bound 0)] ∧
      final.shared.configs 0 = some { pumpConfig with name := "second" } ∧
      Fixed middle.shared ∧
      ∀ model ∈ middle.shared.models, model ∈ final.shared.models ∧
        ∀ config, model.featureConfigId = some config →
          (final.shared.configs config).map Config.toInputs =
            (middle.shared.configs config).map Config.toInputs := by
  refine ⟨_, _, rfl, rfl, rfl, rfl, ?_⟩
  exact bound_config_fixed (fun _ => none) binding editing _ _ rfl rfl

end IndustryFlow.FeatureConfigs
