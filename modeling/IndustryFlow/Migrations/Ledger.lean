import IndustryFlow.Concurrent.Run
import IndustryFlow.Migrations.Runner

/-!
# What the migration ledger says

A row of the ledger is that of a script that ran to its end, a migration that
the ledger knows is not run again, and a run that must not change the database
executes nothing.
-/

namespace IndustryFlow.Migrations

open Concurrent Words

variable {tools : Tools}

/-- A name that passes through the tools as it is. -/
structure Plain (name : String) : Prop where
  word : IsWord name
  escapes : '\\' ∉ name.toList

/-- What every history keeps of the ledger. -/
structure Truthful (tools : Tools) (world : World) : Prop where
  completed : ∀ row ∈ world.rows, ∃ entry ∈ world.executions,
    entry.script.name = row.script ∧
      tools.digest entry.script.content = row.digest ∧
      entry.completed = true
  once : ∀ entry ∈ world.executions, entry.recorded ≠ some .migration
  plain : ∀ row ∈ world.rows, IsWord row.script ∧ IsWord row.digest

/-! ## The plan -/

theorem rows_unique (world : World) :
    (world.rows.map Row.script).Nodup := by
  rw [World.rows]
  cases world.ledger with
  | none => exact List.nodup_nil
  | some ledger => exact ledger.unique

theorem filter_eq_find {rows : List Row}
    (unique : (rows.map Row.script).Nodup) (name : String) :
    rows.filter (·.script = name) =
      (rows.find? (·.script = name)).toList := by
  induction rows with
  | nil => rfl
  | cons row rows induction =>
      rw [List.map_cons, List.nodup_cons] at unique
      by_cases same : row.script = name
      · have others : rows.filter (·.script = name) = [] := by
          rw [List.filter_eq_nil_iff]
          intro other member equal
          apply unique.1
          rw [same, ← of_decide_eq_true equal]
          exact List.mem_map_of_mem member
        rw [List.filter_cons_of_pos (by simpa using same),
          List.find?_cons_of_pos (by simpa using same), others]
        rfl
      · rw [List.filter_cons_of_neg (by simpa using same),
          List.find?_cons_of_neg (by simpa using same), induction unique.2]

theorem recorded_rows {rows : List Row}
    (words : ∀ row ∈ rows, IsWord row.script ∧ IsWord row.digest)
    {name : String} (plain : Plain name) :
    recorded tools rows name =
      (rows.filter (·.script = name)).map Row.digest := by
  induction rows with
  | nil => rfl
  | cons row rows induction =>
      obtain ⟨⟨script, digest⟩, others⟩ := List.forall_mem_cons.mp words
      have rest := induction others
      rw [recorded] at rest ⊢
      rw [List.filterMap_cons, words_pair script digest,
        tools.plain _ plain.escapes]
      rw [tools.plain _ plain.escapes] at rest
      dsimp only [List.headD_cons]
      by_cases same : row.script = name
      · rw [if_pos (by rw [same]),
          List.filter_cons_of_pos (by simpa using same), List.map_cons, rest]
      · rw [if_neg (by simpa [String.toList_inj] using same),
          List.filter_cons_of_neg (by simpa using same), rest]

/-- What `plan` finds recorded of a script. -/
theorem recorded_eq {world : World} (truthful : Truthful tools world)
    {name : String} (plain : Plain name) :
    "\n".intercalate (recorded tools world.rows name) =
      ((world.rows.find? (·.script = name)).map Row.digest).getD "" := by
  rw [recorded_rows truthful.plain plain, filter_eq_find (rows_unique world)]
  cases world.rows.find? (·.script = name) with
  | none => rfl
  | some row => rfl

/-- What the plan says of a script, and when. -/
inductive Planned (tools : Tools) (world : World) (script : Script) :
    Line → Prop where
  | apply (kind : Kind) (declared : kindOf script.content = some kind)
      (unknown : world.kind script.name = none) :
      Planned tools world script
        (.apply ⟨script, kind, tools.digest script.content⟩)
  | reapply (declared : kindOf script.content = some .definition) :
      Planned tools world script
        (.reapply ⟨script, .definition, tools.digest script.content⟩)
  | current (kind : Kind) (declared : kindOf script.content = some kind)
      (row : Row) (member : row ∈ world.rows)
      (named : row.script = script.name)
      (same : row.digest = tools.digest script.content) :
      Planned tools world script
        (.current ⟨script, kind, tools.digest script.content⟩)
  | refused (reason : String) :
      Planned tools world script (.refused script.name reason)

theorem planned {world : World} (truthful : Truthful tools world)
    {script : Script} (plain : Plain script.name) :
    Planned tools world script (lineOf tools world.rows script) := by
  rw [lineOf]
  cases declared : kindOf script.content with
  | none => exact .refused _
  | some kind =>
      dsimp only
      rw [recorded_eq truthful plain]
      cases found : world.rows.find? (·.script = script.name) with
      | none =>
          rw [Option.map_none, Option.getD_none, if_pos rfl]
          apply Planned.apply kind declared
          rw [World.kind, found]
          rfl
      | some row =>
          have member := List.mem_of_find?_eq_some found
          have named : row.script = script.name := by
            simpa using List.find?_some found
          have nonempty : row.digest ≠ "" := by
            intro empty
            apply (truthful.plain row member).2.nonempty
            rw [empty]
            rfl
          rw [Option.map_some, Option.getD_some, if_neg nonempty]
          split
          · next same => exact .current kind declared row member named same
          · split
            · next definition =>
                subst definition
                exact .reapply declared
            · exact .refused _

/-- The plan for what the directory and the ledger hold. -/
def planOf (tools : Tools) (world : World) : List Line :=
  (scripts world.directory).map (lineOf tools world.rows)

def World.files (world : World) : List Script :=
  (world.directory.map Directory.files).getD []

/-- Names that pass through the tools, and no migration of the ledger that
calls itself a definition now. -/
structure Ordinary (world : World) : Prop where
  plain : ∀ script ∈ world.files, Plain script.name
  kept : ∀ script ∈ world.files,
    kindOf script.content = some .definition →
      world.kind script.name ≠ some .migration

theorem mem_scripts {world : World} {script : Script}
    (present : script ∈ scripts world.directory) :
    script ∈ world.files := by
  rw [World.files]
  cases listed : world.directory with
  | none =>
      rw [listed, scripts] at present
      cases present
  | some directory =>
      rw [listed, scripts, List.mem_mergeSort] at present
      exact (List.mem_filter.mp present).1

theorem scripts_unique (directory : Option Directory) :
    ((scripts directory).map Script.name).Nodup := by
  cases directory with
  | none => exact List.nodup_nil
  | some directory =>
      rw [scripts]
      have same := (List.mergeSort_perm
        (directory.files.filter (isNumbered ·.name))
        fun first second => first.name ≤ second.name).map Script.name
      rw [same.nodup_iff]
      exact directory.unique.sublist (List.filter_sublist.map Script.name)

theorem forced_eq {names : List String} (plain : ∀ name ∈ names, Plain name) :
    forced tools names = names := by
  rw [forced, tools.plain, words_spaced fun name member =>
    (plain name member).word]
  intro escape
  obtain ⟨name, member, inside⟩ := List.mem_flatMap.mp escape
  rcases List.mem_append.mp inside with own | blank
  · exact (plain name member).escapes own
  · cases List.mem_singleton.mp blank

/-- The names given to `reapply` are those of definitions. -/
def Definitions (world : World) (names : List String) : Prop :=
  ∀ name ∈ names, ∃ script ∈ world.files, script.name = name ∧
    kindOf script.content = some .definition

/-- What is to be executed for a line of the plan. -/
def dueOf (tools : Tools) (names : List String) : Line → Option Due
  | .apply due => some due
  | .reapply due => some due
  | .current due =>
      if due.script.name ∈ forced tools names then some due else none
  | .refused _ _ => none

theorem pending_eq (names : List String) (lines : List Line) :
    pending tools names lines = lines.filterMap (dueOf tools names) :=
  rfl

theorem files_unique (world : World) :
    (world.files.map Script.name).Nodup := by
  rw [World.files]
  cases world.directory with
  | none => exact List.nodup_nil
  | some directory => exact directory.unique

theorem dueOf_lineOf {world : World} (ordinary : Ordinary world)
    (truthful : Truthful tools world) {names : List String}
    (definitions : Definitions world names) {script : Script}
    (present : script ∈ scripts world.directory) {due : Due}
    (found : dueOf tools names (lineOf tools world.rows script) = some due) :
    due.script = script ∧ due.digest = tools.digest script.content ∧
      world.kind script.name ≠ some .migration := by
  have held := mem_scripts present
  have plan := planned truthful (ordinary.plain script held)
  generalize lineOf tools world.rows script = line at plan found
  cases plan with
  | apply kind declared unknown =>
      cases found
      refine ⟨rfl, rfl, ?_⟩
      rw [unknown]
      nofun
  | reapply declared =>
      cases found
      exact ⟨rfl, rfl, ordinary.kept script held declared⟩
  | current kind declared row member named same =>
      simp only [dueOf, Option.ite_none_right_eq_some] at found
      obtain ⟨named, same⟩ := found
      cases same
      refine ⟨rfl, rfl, ?_⟩
      rw [forced_eq] at named
      · obtain ⟨other, stored, same, declared⟩ :=
          definitions script.name named
        have equal : other = script :=
          List.inj_on_of_nodup_map (files_unique world) stored held same
        exact ordinary.kept script held (equal ▸ declared)
      · intro name member
        obtain ⟨other, stored, rfl, -⟩ := definitions name member
        exact ordinary.plain other stored
  | refused reason => cases found

theorem filterMap_unique {lines : List Script} {given : Script → Option Due}
    (own : ∀ script ∈ lines, ∀ due, given script = some due →
      due.script = script)
    (unique : (lines.map Script.name).Nodup) :
    ((lines.filterMap given).map (·.script.name)).Nodup := by
  have inside : ((lines.filterMap given).map (·.script)).Sublist lines := by
    clear unique
    induction lines with
    | nil => exact List.Sublist.refl []
    | cons script lines induction =>
        obtain ⟨first, others⟩ := List.forall_mem_cons.mp own
        cases found : given script with
        | none =>
            rw [List.filterMap_cons_none found]
            exact (induction others).cons script
        | some due =>
            rw [List.filterMap_cons_some found, List.map_cons,
              first due found]
            exact (induction others).cons_cons script
  have names := inside.map Script.name
  rw [List.map_map] at names
  exact unique.sublist names

/-- What a due script is when the plan names it. -/
theorem mem_pending {world : World} (ordinary : Ordinary world)
    (truthful : Truthful tools world) {names : List String}
    (definitions : Definitions world names) {due : Due}
    (member : due ∈ pending tools names (planOf tools world)) :
    due.script ∈ scripts world.directory ∧
      due.digest = tools.digest due.script.content ∧
      world.kind due.script.name ≠ some .migration := by
  rw [pending_eq, planOf, List.filterMap_map] at member
  obtain ⟨script, present, found⟩ := List.mem_filterMap.mp member
  obtain ⟨rfl, same, unknown⟩ :=
    dueOf_lineOf ordinary truthful definitions present found
  exact ⟨present, same, unknown⟩

theorem pending_unique {world : World} (ordinary : Ordinary world)
    (truthful : Truthful tools world) {names : List String}
    (definitions : Definitions world names) :
    ((pending tools names (planOf tools world)).map
      (·.script.name)).Nodup := by
  rw [pending_eq, planOf, List.filterMap_map]
  apply filterMap_unique _ (scripts_unique world.directory)
  intro script present due found
  exact (dueOf_lineOf ordinary truthful definitions present found).1

/-! ## One run -/

/-- The run holds platform state. -/
def HoldsState (world : World) : Prop :=
  world.platform.companies = some true ∨ world.platform.users = some true

/-- The latest recorded backup is within the bound. -/
def Recent (settings : Settings) (world : World) : Prop :=
  ∃ maxAge age, settings.maxAge = some maxAge ∧
    world.backupAge = some age ∧ age ≤ maxAge

/-- The run must not execute anything. -/
def Barred (tools : Tools) (settings : Settings) (world : World) : Prop :=
  (planOf tools world).any Line.isRefused ∨
    HoldsState world ∧ settings.withoutBackup = false ∧
      ¬Recent settings world

/-- What a run keeps, from the state it starts in. -/
structure Kept (tools : Tools) (settings : Settings) (start world : World) :
    Prop where
  truthful : Truthful tools world
  barred : Barred tools settings start →
    world.executions = start.executions

theorem ask_eq {Answer : Type} {world after : World}
    {answer reply : Option Answer} {choice : Choice}
    (asked : ask world answer choice = some (reply, after)) :
    after = world ∧ (reply = answer ∨ reply = none) := by
  cases choice with
  | works =>
      cases asked
      exact ⟨rfl, .inl rfl⟩
  | exits status =>
      cases asked
      exact ⟨rfl, .inr rfl⟩
  | ran status platform => cases asked

theorem command_eq {world changed after : World} {choice : Choice}
    {status : Nat}
    (commanded : command world changed choice = some (status, after)) :
    status = 0 ∧ after = changed ∨ status ≠ 0 ∧ after = world := by
  cases choice with
  | works =>
      cases commanded
      exact .inl ⟨rfl, rfl⟩
  | exits status =>
      simp only [command] at commanded
      split at commanded
      · cases commanded
      · next nonzero =>
          cases commanded
          exact .inr ⟨nonzero, rfl⟩
  | ran status platform => cases commanded

section Reads

variable {invariant : World → Prop} {world : World}

/-- The program finds this, unless it fails, and changes nothing. -/
abbrev Finds {Answer : Type} (invariant : World → Prop)
    (program : Running Answer) (world : World) (found : Answer → Prop) :
    Prop :=
  program.Safe exec (.lone invariant) (fun result later =>
    later = world ∧ ∀ answer, result = .ok answer → found answer) world

theorem Finds.pure {Answer : Type} {answer : Answer}
    {found : Answer → Prop} (finds : found answer) :
    Finds invariant (.done answer) world found := by
  apply Program.Safe.lone_done
  refine ⟨rfl, ?_⟩
  rintro other same
  cases same
  exact finds

theorem Finds.die {Answer : Type} {found : Answer → Prop} :
    Finds invariant die world found :=
  Program.Safe.lone_fail ⟨rfl, nofun⟩

theorem Finds.orDie {Answer : Type} {reply : Option Answer}
    {found : Answer → Prop} (answered : ∀ answer, reply = some answer →
      found answer) :
    Finds invariant (orDie reply) world found := by
  cases reply with
  | none => exact Finds.die
  | some answer => exact Finds.pure (answered answer rfl)

theorem Finds.bind {First Second : Type} {program : Running First}
    {rest : First → Running Second} {middle : First → Prop}
    {found : Second → Prop} (holds : invariant world)
    (first : Finds invariant program world middle)
    (second : ∀ answer, middle answer →
      Finds invariant (rest answer) world found) :
    Finds invariant (program >>= rest) world found := by
  apply Program.Safe.bind holds first
  · rintro answer later - ⟨rfl, finds⟩
    exact second answer (finds answer rfl)
  · rintro error later ⟨rfl, -⟩
    exact ⟨rfl, nofun⟩

/-- A call that only reads. -/
theorem Finds.call {op : Op} {admits : Reply op → Prop}
    (holds : invariant world)
    (reads : ∀ choice reply after,
      exec world op choice = some (reply, after) →
        after = world ∧ admits reply) :
    Finds invariant (call op) world admits := by
  apply Program.Safe.lone_call
  intro choice reply after executed
  obtain ⟨rfl, admitted⟩ := reads choice reply after executed
  exact ⟨holds, Finds.pure admitted⟩

/-- A table that may be missing, and what a query answers from it. -/
theorem whenCreated_finds {Answer : Type} {found : Running (Option Bool)}
    {read : Running (Option Answer)} {stored : Option Answer}
    {missing : Answer} (holds : invariant world)
    (asked : Finds invariant found world
      fun reply => reply = some stored.isSome ∨ reply = none)
    (answered : Finds invariant read world
      fun reply => reply = stored ∨ reply = none) :
    Finds invariant (whenCreated found read missing) world
      (· = stored.getD missing) := by
  rw [whenCreated]
  apply Finds.bind holds asked
  intro reply known
  have created : Finds invariant (orDie reply) world
      (· = stored.isSome) := by
    apply Finds.orDie
    rintro answer rfl
    rcases known with same | same
    · exact Option.some.inj same
    · cases same
  apply Finds.bind holds created
  rintro answer rfl
  cases stored with
  | none => exact Finds.pure rfl
  | some value =>
      apply Finds.bind holds answered
      intro reply known
      apply Finds.orDie
      rintro answer rfl
      rcases known with same | same
      · exact Option.some.inj same
      · cases same

theorem ledgerRows_finds (holds : invariant world) :
    Finds invariant ledgerRows world (· = world.rows) := by
  have asked : Finds invariant (call .ledgerExists) world fun reply =>
      reply = some (world.ledger.map Ledger.rows).isSome ∨ reply = none := by
    rw [Option.isSome_map]
    exact Finds.call holds fun _ _ _ executed => ask_eq executed
  exact whenCreated_finds holds asked
    (Finds.call holds fun _ _ _ executed => ask_eq executed)

theorem tableHolds_finds (holds : invariant world) (table : Table) :
    Finds invariant (tableHolds table) world
      (· = (world.platform.table table).getD false) :=
  whenCreated_finds holds
    (Finds.call holds fun _ _ _ executed => ask_eq executed)
    (Finds.call holds fun _ _ _ executed => ask_eq executed)

theorem holdsState_finds (holds : invariant world) :
    Finds invariant holdsState world (fun state => state = true ↔
      HoldsState world) := by
  have held (table : Table) :
      (world.platform.table table).getD false = true ↔
        world.platform.table table = some true := by
    cases world.platform.table table with
    | none => simp
    | some value => simp
  rw [holdsState]
  apply Finds.bind holds (tableHolds_finds holds .companies)
  rintro companies rfl
  split
  · next tenant =>
      exact Finds.pure
        (iff_of_true rfl (.inl ((held .companies).mp tenant)))
  · next away =>
      have users := tableHolds_finds holds .user
      refine users.mono ?_
      rintro result later - ⟨same, found⟩
      refine ⟨same, ?_⟩
      rintro answer rfl
      rw [found answer rfl, held .user, HoldsState]
      exact (or_iff_right (mt (held .companies).mpr away)).symm

theorem backupAge_finds (holds : invariant world) :
    Finds invariant backupAge world (· = world.backupAge) := by
  have stored : (if world.platform.backups.isSome then
      some world.backupAge else none).getD none = world.backupAge := by
    rw [World.backupAge]
    cases world.platform.backups with
    | none => rfl
    | some backups => rfl
  rw [← stored]
  apply whenCreated_finds holds
  · apply Finds.call holds
    intro choice reply after executed
    obtain ⟨same, answered⟩ := ask_eq executed
    refine ⟨same, ?_⟩
    cases backups : world.platform.backups with
    | none => simpa [backups] using answered
    | some listed => simpa [backups] using answered
  · exact Finds.call holds fun _ _ _ executed => ask_eq executed

theorem requireBackup_finds (holds : invariant world) (settings : Settings)
    (due : List Due) :
    Finds invariant (requireBackup settings due) world fun _ => due = [] ∨
      ¬(HoldsState world ∧ settings.withoutBackup = false ∧
        ¬Recent settings world) := by
  rw [requireBackup]
  split
  · next empty =>
      exact Finds.pure (.inl (List.isEmpty_iff.mp empty))
  · apply Finds.bind holds (holdsState_finds holds)
    intro state known
    split
    · next away =>
        apply Finds.pure
        refine .inr fun barred => ?_
        rw [← known] at barred
        simp [barred.1] at away
    · split
      · next without =>
          apply Finds.pure
          refine .inr fun barred => ?_
          rw [without] at barred
          cases barred.2.1
      · apply Finds.bind holds (Finds.orDie fun _ same => same)
        intro maxAge bound
        apply Finds.bind holds (backupAge_finds holds)
        rintro age found
        cases age with
        | none => exact Finds.die
        | some age =>
            dsimp only
            split
            · exact Finds.die
            · next young =>
                apply Finds.pure
                refine .inr fun barred => barred.2.2 ?_
                exact ⟨maxAge, age, bound, found.symm, not_lt.mp young⟩

theorem plan_finds (holds : invariant world) :
    Finds invariant (plan tools) world (· = planOf tools world) := by
  rw [plan]
  apply Finds.bind holds (ledgerRows_finds holds)
  rintro rows rfl
  have listed : Finds invariant (call .scripts) world
      (· = scripts world.directory) := by
    apply Finds.call holds
    rintro choice reply after executed
    cases executed
    exact ⟨rfl, rfl⟩
  apply Finds.bind holds listed
  rintro present rfl
  exact Finds.pure rfl

end Reads

section Executing

variable {settings : Settings} {start world : World}

theorem mem_record {ledger : Option Ledger} {row other : Row}
    (member : other ∈
      ((ledger.map (·.record row)).map Ledger.rows).getD []) :
    other = row ∨ other ∈ (ledger.map Ledger.rows).getD [] := by
  cases ledger with
  | none => cases member
  | some ledger =>
      rcases List.mem_cons.mp member with same | kept
      · exact .inl same
      · exact .inr (List.mem_filter.mp kept).1

theorem kind_record (world : World) {row : Row} {name : String}
    (other : name ≠ row.script) :
    World.kind { world with ledger := world.ledger.map (·.record row) }
      name = world.kind name := by
  rw [World.kind, World.kind, World.rows, World.rows]
  cases world.ledger with
  | none => rfl
  | some ledger =>
      simp only [Option.map_some, Option.getD_some, Ledger.record]
      rw [List.find?_cons_of_neg (by simpa using other.symm),
        List.find?_filter]
      congr 2
      funext candidate
      by_cases same : candidate.script = name
      · simp [same, other]
      · simp [same]

/-- What is left of the loop over the pending scripts. -/
structure Left (tools : Tools) (settings : Settings) (start : World)
    (dues : List Due) (world : World) : Prop where
  permitted : dues ≠ [] → ¬Barred tools settings start
  digests : ∀ due ∈ dues, IsWord due.script.name ∧
    due.digest = tools.digest due.script.content
  free : ∀ due ∈ dues, world.kind due.script.name ≠ some .migration
  unique : (dues.map (·.script.name)).Nodup

theorem execute_kept (kept : Kept tools settings start world)
    (permitted : ¬Barred tools settings start) {script : Script}
    (free : world.kind script.name ≠ some .migration)
    (status : Nat) (platform : Platform) :
    Kept tools settings start { world with
      platform
      executions := world.executions ++
        [⟨script, world.kind script.name, status = 0⟩] } where
  truthful.completed row member := by
    obtain ⟨entry, ran, facts⟩ := kept.truthful.completed row member
    exact ⟨entry, List.mem_append_left _ ran, facts⟩
  truthful.once entry member := by
    rcases List.mem_append.mp member with old | new
    · exact kept.truthful.once entry old
    · rw [List.mem_singleton.mp new]
      exact free
  truthful.plain := kept.truthful.plain
  barred blocked := absurd blocked permitted

theorem record_kept (kept : Kept tools settings start world)
    {script : Script} (word : IsWord script.name) (kind : Kind)
    {entry : Execution} (ran : entry ∈ world.executions)
    (own : entry.script = script) (completed : entry.completed = true) :
    Kept tools settings start { world with
      ledger := world.ledger.map (·.record
        ⟨script.name, kind, tools.digest script.content⟩) } where
  truthful.completed row member := by
    rcases mem_record member with rfl | old
    · exact ⟨entry, ran, by rw [own], by rw [own], completed⟩
    · exact kept.truthful.completed row old
  truthful.once := kept.truthful.once
  truthful.plain row member := by
    rcases mem_record member with rfl | old
    · exact ⟨word, tools.digest_word script.content⟩
    · exact kept.truthful.plain row old
  barred := kept.barred

theorem applyDue_safe {due : Due} {dues : List Due}
    (kept : Kept tools settings start world)
    (left : Left tools settings start (due :: dues) world) :
    (applyDue due).Safe exec (.lone (Kept tools settings start))
      (fun result later => result = .ok () →
        Left tools settings start dues later) world := by
  have permitted := left.permitted (List.cons_ne_nil due dues)
  obtain ⟨⟨word, digest⟩, digests⟩ := List.forall_mem_cons.mp left.digests
  obtain ⟨free, others⟩ := List.forall_mem_cons.mp left.free
  obtain ⟨fresh, unique⟩ := List.nodup_cons.mp left.unique
  rw [applyDue, Program.perform_bind]
  apply Program.Safe.lone_call
  intro choice status executed ran
  cases choice with
  | works => cases ran
  | exits status => cases ran
  | ran code platform =>
      simp only [exec, Option.some.injEq, Prod.mk.injEq] at ran
      obtain ⟨rfl, rfl⟩ := ran
      have executedKept := execute_kept kept permitted free code platform
      refine ⟨executedKept, ?_⟩
      rw [succeed]
      split
      · next completed =>
          rw [Program.done_bind, Program.perform_bind]
          apply Program.Safe.lone_call
          intro choice status recorded ran
          rcases command_eq ran with ⟨rfl, rfl⟩ | ⟨failed, rfl⟩
          · rw [digest]
            refine ⟨record_kept executedKept word due.kind
              (List.mem_append_right _ (List.mem_singleton_self _)) rfl
              (by simpa using completed), ?_⟩
            apply Program.Safe.lone_done
            intro
            refine ⟨fun _ => permitted, digests, ?_, unique⟩
            intro other member
            rw [kind_record]
            · exact others other member
            · intro same
              exact fresh (List.mem_map.mpr ⟨other, member, same⟩)
          · refine ⟨executedKept, ?_⟩
            rw [succeed, if_neg failed]
            exact Program.Safe.lone_fail nofun
      · exact Program.Safe.lone_fail nofun

theorem applyAll_safe {dues : List Due}
    (kept : Kept tools settings start world)
    (left : Left tools settings start dues world) :
    (Program.each applyDue dues).Safe exec
      (.lone (Kept tools settings start))
      (fun result later => result = .ok () →
        Left tools settings start [] later) world := by
  let contract : Contract World Op Choice :=
    .lone (Kept tools settings start)
  have one (due : Due) (dues : List Due) (world : World)
      (holds : contract.invariant world)
      (left : Left tools settings start (due :: dues) world) :
      (applyDue due).Safe exec contract (fun result later =>
        result = .ok () → Left tools settings start dues later) world :=
    applyDue_safe holds left
  have stable {before after : World} (same : contract.rely before after)
      (left : Left tools settings start [] before) :
      Left tools settings start [] after := by
    cases same
    exact left
  exact Program.Safe.each one kept left stable

/-- What the run plans by. -/
structure Planning (start world : World) : Prop where
  directory : world.directory = start.directory
  rows : world.rows = start.rows
  platform : world.platform = start.platform
  now : world.now = start.now

theorem Planning.planOf_eq (planning : Planning start world) :
    planOf tools world = planOf tools start := by
  rw [planOf, planOf, planning.directory, planning.rows]

theorem Planning.kind_eq (planning : Planning start world) (name : String) :
    world.kind name = start.kind name := by
  rw [World.kind, World.kind, planning.rows]

theorem Planning.holdsState (planning : Planning start world) :
    HoldsState world ↔ HoldsState start := by
  rw [HoldsState, HoldsState, planning.platform]

theorem Planning.recent (planning : Planning start world) :
    Recent settings world ↔ Recent settings start := by
  rw [Recent, Recent, World.backupAge, World.backupAge, planning.platform,
    planning.now]

theorem Planning.files_eq (planning : Planning start world) :
    world.files = start.files := by
  rw [World.files, World.files, planning.directory]

theorem Planning.ordinary (planning : Planning start world)
    (ordinary : Ordinary start) : Ordinary world where
  plain := by
    rw [planning.files_eq]
    exact ordinary.plain
  kept script present declared := by
    rw [planning.kind_eq]
    rw [planning.files_eq] at present
    exact ordinary.kept script present declared

/-- The loop starts with what the run must execute. -/
theorem pending_left (kept : Kept tools settings start world)
    (planning : Planning start world) (ordinary : Ordinary start)
    {names : List String} (definitions : Definitions world names)
    (accepted : ¬(planOf tools world).any Line.isRefused)
    (secured : pending tools names (planOf tools world) = [] ∨
      ¬(HoldsState world ∧ settings.withoutBackup = false ∧
        ¬Recent settings world)) :
    Left tools settings start (pending tools names (planOf tools world))
      world := by
  have own := planning.ordinary ordinary
  refine ⟨?_, ?_, ?_, pending_unique own kept.truthful definitions⟩
  · intro nonempty barred
    have unsecured := secured.resolve_left nonempty
    rw [planning.planOf_eq] at accepted
    rw [planning.holdsState, planning.recent] at unsecured
    rcases barred with refused | state
    · exact accepted refused
    · exact unsecured state
  · intro due member
    obtain ⟨present, digest, -⟩ :=
      mem_pending own kept.truthful definitions member
    exact ⟨(own.plain due.script (mem_scripts present)).word, digest⟩
  · intro due member
    exact (mem_pending own kept.truthful definitions member).2.2

theorem applyLocked_safe (kept : Kept tools settings start world)
    (planning : Planning start world) (ordinary : Ordinary start)
    {names : List String} (definitions : Definitions world names) :
    (applyLocked tools settings names).Safe exec
      (.lone (Kept tools settings start)) (fun _ _ => True) world := by
  rw [applyLocked]
  apply Program.Safe.bind kept (plan_finds kept)
  · rintro lines later - ⟨rfl, found⟩
    rw [found lines rfl]
    split
    · exact Program.Safe.lone_fail trivial
    · next accepted =>
        apply Program.Safe.bind kept (requireBackup_finds kept settings _)
        · rintro ⟨⟩ later - ⟨rfl, secured⟩
          have left := pending_left kept planning ordinary definitions
            accepted (secured () rfl)
          have loop := applyAll_safe kept left
          exact loop.mono fun _ _ _ _ => trivial
        · exact fun _ _ _ => trivial
  · exact fun _ _ _ => trivial

theorem created_rows (world : World) :
    World.rows { world with ledger := some (world.ledger.getD .empty) } =
      world.rows := by
  rw [World.rows, World.rows]
  cases world.ledger with
  | none => rfl
  | some ledger => rfl

theorem Kept.created (kept : Kept tools settings start world) :
    Kept tools settings start
      { world with ledger := some (world.ledger.getD .empty) } where
  truthful.completed := by
    rw [created_rows]
    exact kept.truthful.completed
  truthful.once := kept.truthful.once
  truthful.plain := by
    rw [created_rows]
    exact kept.truthful.plain
  barred := kept.barred

theorem Planning.created (planning : Planning start world) :
    Planning start
      { world with ledger := some (world.ledger.getD .empty) } where
  directory := planning.directory
  rows := (created_rows world).trans planning.rows
  platform := planning.platform
  now := planning.now

/-- A command of the set-up has ended, and the run goes on if it worked. -/
theorem succeed_safe {changed after : World} {status : Nat}
    {rest : Unit → Running Unit}
    (kept : Kept tools settings start world)
    (ran : status = 0 ∧ after = changed ∨ status ≠ 0 ∧ after = world)
    (keptAfter : Kept tools settings start changed)
    (goes : (rest ()).Safe exec (.lone (Kept tools settings start))
      (fun _ _ => True) changed) :
    Kept tools settings start after ∧ (succeed status >>= rest).Safe exec
      (.lone (Kept tools settings start)) (fun _ _ => True) after := by
  rw [succeed]
  rcases ran with ⟨worked, rfl⟩ | ⟨failed, rfl⟩
  · rw [if_pos worked]
    exact ⟨keptAfter, goes⟩
  · rw [if_neg failed]
    exact ⟨kept, Program.Safe.lone_fail trivial⟩

/-- `wait_for_db` and `ensure_ledger`, and what comes after them. -/
theorem connected_safe {rest : Running Unit}
    (kept : Kept tools settings start world)
    (goes : rest.Safe exec (.lone (Kept tools settings start))
      (fun _ _ => True)
      { world with ledger := some (world.ledger.getD .empty) }) :
    (do
      let connected ← call .connect
      if !connected then die
      else do
        let status ← call .createLedger
        succeed status
        rest : Running Unit).Safe exec (.lone (Kept tools settings start))
      (fun _ _ => True) world := by
  rw [Program.perform_bind]
  apply Program.Safe.lone_call
  intro choice connected after executed
  have unchanged : after = world := by
    cases choice with
    | works =>
        cases executed
        rfl
    | exits status =>
        cases executed
        rfl
    | ran status platform =>
        cases executed
        rfl
  subst unchanged
  refine ⟨kept, ?_⟩
  split
  · exact Program.Safe.lone_fail trivial
  · rw [Program.perform_bind]
    apply Program.Safe.lone_call
    intro choice status after executed
    exact succeed_safe kept (command_eq executed) kept.created goes

theorem cmdApply_safe (kept : Kept tools settings start world)
    (planning : Planning start world) (ordinary : Ordinary start)
    {names : List String} (definitions : Definitions start names) :
    (cmdApply tools settings names).Safe exec
      (.lone (Kept tools settings start)) (fun _ _ => True) world := by
  rw [cmdApply, Program.perform_bind]
  apply Program.Safe.lone_call
  intro choice found after executed
  cases executed
  refine ⟨kept, ?_⟩
  split
  · exact Program.Safe.lone_fail trivial
  · apply connected_safe kept
    apply Program.Safe.lone_call
    intro choice status after executed
    apply succeed_safe kept.created (command_eq executed) kept.created
    apply applyLocked_safe kept.created planning.created ordinary
    rw [Definitions, planning.created.files_eq]
    exact definitions

theorem checkForced_finds {invariant : World → Prop}
    (holds : invariant world) (name : String) :
    Finds invariant (checkForced name) world fun _ =>
      ∃ script ∈ world.files, script.name = name ∧
        kindOf script.content = some .definition := by
  have stored : Finds invariant (call (.file name)) world fun reply =>
      ∀ script, reply = some script →
        script ∈ world.files ∧ script.name = name := by
    apply Finds.call holds
    rintro choice reply after executed
    cases executed
    refine ⟨rfl, ?_⟩
    rintro script found
    rw [World.files]
    cases listed : world.directory with
    | none =>
        rw [listed] at found
        cases found
    | some directory =>
        rw [listed] at found
        exact ⟨List.mem_of_find?_eq_some found,
          by simpa using List.find?_some found⟩
  rw [checkForced]
  apply Finds.bind holds stored
  intro reply known
  apply Finds.bind holds (Finds.orDie known)
  rintro script ⟨held, named⟩
  split
  · next declared => exact Finds.pure ⟨script, held, named, declared⟩
  · exact Finds.die

theorem checkAll_finds {invariant : World → Prop}
    (holds : invariant world) (names : List String) :
    Finds invariant (Program.each checkForced names) world fun _ =>
      Definitions world names := by
  induction names with
  | nil => exact Finds.pure fun _ member => by cases member
  | cons name names induction =>
      apply Finds.bind holds (checkForced_finds holds name)
      intro _ first
      refine induction.mono ?_
      rintro result later - ⟨same, others⟩
      refine ⟨same, fun answer ended => ?_⟩
      exact List.forall_mem_cons.mpr ⟨first, others answer ended⟩

theorem cmdReapply_safe (kept : Kept tools settings start world)
    (planning : Planning start world) (ordinary : Ordinary start)
    (names : List String) :
    (cmdReapply tools settings names).Safe exec
      (.lone (Kept tools settings start)) (fun _ _ => True) world := by
  rw [cmdReapply]
  split
  · exact Program.Safe.lone_fail trivial
  · apply connected_safe kept
    apply Program.Safe.bind kept.created (checkAll_finds kept.created names)
    · rintro ⟨⟩ later - ⟨rfl, checked⟩
      have definitions := checked () rfl
      rw [Definitions, planning.created.files_eq] at definitions
      exact cmdApply_safe kept.created planning.created ordinary definitions
    · exact fun _ _ _ => trivial

theorem behind_finds {invariant : World → Prop}
    (holds : invariant world) (rounds : Nat) :
    Finds invariant (behind tools rounds) world
      (· = (planOf tools world).filter fun line => !line.isCurrent) := by
  induction rounds with
  | zero =>
      apply Finds.bind holds (plan_finds holds)
      rintro lines rfl
      exact Finds.pure rfl
  | succ rounds induction =>
      apply Finds.bind holds (plan_finds holds)
      rintro lines rfl
      split
      · exact Finds.pure rfl
      · have slept : Finds invariant (call .sleep) world fun _ => True := by
          apply Finds.call holds
          rintro choice reply after executed
          cases executed
          exact ⟨rfl, trivial⟩
        exact Finds.bind holds slept fun _ _ => induction

/-- `verify` succeeds when every script is current. -/
theorem cmdVerify_finds {invariant : World → Prop}
    (holds : invariant world) (rounds : Nat) :
    Finds invariant (cmdVerify tools rounds) world fun _ =>
      ∀ line ∈ planOf tools world, line.isCurrent = true := by
  have asked : Finds invariant (call .directoryExists) world
      fun _ => True := by
    apply Finds.call holds
    rintro choice reply after executed
    cases executed
    exact ⟨rfl, trivial⟩
  have connected : Finds invariant (call .connect) world fun _ => True := by
    apply Finds.call holds
    rintro choice reply after executed
    cases choice with
    | works =>
        cases executed
        exact ⟨rfl, trivial⟩
    | exits status =>
        cases executed
        exact ⟨rfl, trivial⟩
    | ran status platform =>
        cases executed
        exact ⟨rfl, trivial⟩
  rw [cmdVerify]
  apply Finds.bind holds asked
  intro found _
  split
  · exact Finds.die
  · apply Finds.bind holds connected
    intro works _
    split
    · exact Finds.die
    · apply Finds.bind holds (behind_finds holds rounds)
      rintro lines rfl
      split
      · next current =>
          apply Finds.pure
          rw [List.isEmpty_iff, List.filter_eq_nil_iff] at current
          intro line member
          simpa using current line member
      · split
        · exact Program.Safe.lone_fail ⟨rfl, nofun⟩
        · exact Program.Safe.lone_fail ⟨rfl, nofun⟩

end Executing

/-! ## Every history -/

/-- A run is of scripts that pass through the tools, and of no migration that
has become a definition. -/
def Sound (world : World) : Event → Prop
  | .run _ _ _ => Ordinary world
  | _ => True

theorem Truthful.fresh (platform : Platform) (now : Int) :
    Truthful tools (fresh platform now) where
  completed _ member := by cases member
  once _ member := by cases member
  plain _ member := by cases member

/-- A run, at whatever call it ends. -/
theorem follow_kept {world after : World} {command : Command}
    {settings : Settings} {choices : List Choice} {left : Running Unit}
    (truthful : Truthful tools world) (ordinary : Ordinary world)
    (followed : (command.program tools settings).follow exec world choices =
      some (left, after)) :
    Kept tools settings world after ∧ (left = .done () →
      ∀ rounds, command = .verify rounds → after = world ∧
        ∀ line ∈ planOf tools world, line.isCurrent = true) := by
  have kept : Kept tools settings world world :=
    ⟨truthful, fun _ => rfl⟩
  have planning : Planning world world := ⟨rfl, rfl, rfl, rfl⟩
  cases command with
  | apply =>
      have none : Definitions world [] := fun _ member => by cases member
      have safe := cmdApply_safe kept planning ordinary none
      exact ⟨(safe.follow kept (fun _ _ _ => trivial) followed).1, nofun⟩
  | reapply names =>
      have safe := cmdReapply_safe kept planning ordinary names
      exact ⟨(safe.follow kept (fun _ _ _ => trivial) followed).1, nofun⟩
  | verify rounds =>
      have safe : Finds (Kept tools settings world) (cmdVerify tools rounds)
          world fun _ => ∀ line ∈ planOf tools world, line.isCurrent = true :=
        cmdVerify_finds kept rounds
      obtain ⟨keptAfter, ends⟩ :=
        safe.follow kept (fun _ _ _ => trivial) followed
      refine ⟨keptAfter, ?_⟩
      rintro rfl _ -
      obtain ⟨same, current⟩ := ends after keptAfter rfl
      exact ⟨same, current () rfl⟩

theorem step_truthful {world next : World} {event : Event}
    (truthful : Truthful tools world) (sound : Sound world event)
    (stepped : step tools world event = some next) :
    Truthful tools next := by
  cases event with
  | release directory =>
      cases stepped
      exact ⟨truthful.completed, truthful.once, truthful.plain⟩
  | others platform now =>
      cases stepped
      exact ⟨truthful.completed, truthful.once, truthful.plain⟩
  | run command settings choices =>
      obtain ⟨⟨left, after⟩, followed, rfl⟩ :=
        Option.map_eq_some_iff.mp stepped
      exact (follow_kept truthful sound followed).1.truthful

theorem current_recorded {world : World} (truthful : Truthful tools world)
    (ordinary : Ordinary world)
    (current : ∀ line ∈ planOf tools world, line.isCurrent = true)
    {script : Script} (present : script ∈ scripts world.directory) :
    ∃ row ∈ world.rows, row.script = script.name ∧
      row.digest = tools.digest script.content := by
  have plan := planned truthful
    (ordinary.plain script (mem_scripts present))
  have line := current _ (List.mem_map_of_mem present)
  generalize lineOf tools world.rows script = planned at plan line
  cases plan with
  | current kind declared row member named same =>
      exact ⟨row, member, named, same⟩
  | _ => cases line

/-- In every state that a history reaches, in the middle of a run too: what is
recorded ran to its end, and no recorded migration ran again; and a run with a
refused script, or on platform state without a recent backup, executes
nothing. -/
theorem ledger_truthful {platform : Platform} {now : Int}
    {events : List Event} {before after : World} {command : Command}
    {settings : Settings} {choices : List Choice} {left : Running Unit}
    (ran : run (step tools) (fresh platform now) events = some before)
    (sound : Along (step tools) Sound (fresh platform now)
      (events ++ [.run command settings choices]))
    (followed : (command.program tools settings).follow exec before choices =
      some (left, after)) :
    (∀ row ∈ after.rows, ∃ entry ∈ after.executions,
      entry.script.name = row.script ∧
        tools.digest entry.script.content = row.digest ∧
        entry.completed = true) ∧
      (∀ entry ∈ after.executions, entry.recorded ≠ some .migration) ∧
      ((planOf tools before).any Line.isRefused = true →
        after.executions = before.executions) ∧
      (HoldsState before → settings.withoutBackup = false →
        ¬Recent settings before → after.executions = before.executions) ∧
      ∀ rounds, command = .verify rounds → left = .done () →
        ∀ script ∈ scripts before.directory, ∃ row ∈ after.rows,
          row.script = script.name ∧
            row.digest = tools.digest script.content := by
  obtain ⟨early, ordinary, -⟩ := sound.append ran
  have truthful : Truthful tools before :=
    run_preserves_along (Truthful tools) (fun _ _ _ => step_truthful)
      (Truthful.fresh platform now) early ran
  obtain ⟨kept, verified⟩ := follow_kept truthful ordinary followed
  refine ⟨kept.truthful.completed, kept.truthful.once, ?_, ?_, ?_⟩
  · exact fun refused => kept.barred (.inl refused)
  · exact fun state strict old => kept.barred (.inr ⟨state, strict, old⟩)
  · intro rounds verifies ended script present
    obtain ⟨rfl, current⟩ := verified ended rounds verifies
    exact current_recorded truthful ordinary current present

/-! ## A migration that becomes a definition -/

def sampleTools : Tools where
  digest content := String.ofList
    ('x' :: List.replicate content.toList.length 'x')
  digest_word content := by
    constructor
    · simp
    · intro char member
      rw [String.toList_ofList, ← List.replicate_succ] at member
      rw [(List.mem_replicate.mp member).2]
      rfl
  awkValue text := text
  plain _ _ := rfl

def sampleName : String := "36-merge.sql"

theorem sampleName_plain : Plain sampleName where
  word.nonempty := by decide
  word.solid := by
    have solid : (sampleName.toList.all fun char => !isBlank char) = true := by
      decide
    intro char member
    exact Bool.not_eq_true' _ ▸ List.all_eq_true.mp solid char member
  escapes := by decide

def asMigration : Directory :=
  ⟨[⟨sampleName, "-- migration-kind: migration"⟩], List.nodup_singleton _⟩

def asDefinition : Directory :=
  ⟨[⟨sampleName, "-- migration-kind: definition"⟩], List.nodup_singleton _⟩

def emptyPlatform : Platform :=
  ⟨none, none, none⟩

def sampleSettings : Settings :=
  ⟨false, some 3600⟩

/-- The calls of a run that executes one script on an empty platform. -/
def sampleChoices : List Choice :=
  (List.replicate 9 .works : List Choice) ++
    ([.ran 0 emptyPlatform, .works] : List Choice)

theorem ledger_truthful_applied :
    ∃ before left after,
      run (step sampleTools) (fresh emptyPlatform 0)
        [.release asMigration] = some before ∧
      (Command.apply.program sampleTools sampleSettings).follow exec before
        sampleChoices = some (left, after) ∧
      after.rows.length = 1 ∧
      ∀ row ∈ after.rows, ∃ entry ∈ after.executions,
        entry.script.name = row.script ∧
          sampleTools.digest entry.script.content = row.digest ∧
          entry.completed = true := by
  let before : World :=
    { fresh emptyPlatform 0 with directory := some asMigration }
  have ends : ((Command.apply.program sampleTools sampleSettings).follow exec
      before sampleChoices).map (fun ended => ended.2.rows.length) =
      some 1 := by
    decide +kernel
  obtain ⟨⟨left, after⟩, followed, count⟩ := Option.map_eq_some_iff.mp ends
  have ordinary : Ordinary before := by
    constructor
    · intro script member
      rw [List.mem_singleton.mp member]
      exact sampleName_plain
    · intro script _ _
      nofun
  have sound : Along (step sampleTools) Sound (fresh emptyPlatform 0)
      ([.release asMigration] ++
        [.run .apply sampleSettings sampleChoices]) := by
    refine ⟨trivial, ?_⟩
    rintro next stepped
    cases stepped
    exact ⟨ordinary, fun _ _ => trivial⟩
  exact ⟨before, left, after, rfl, followed, count,
    (ledger_truthful rfl sound followed).1⟩

/-- The changed script runs again, though the ledger has it as a migration. -/
theorem migration_repeated :
    ¬∀ (tools : Tools) (platform : Platform) (now : Int)
        (events : List Event) (after : World),
      (∀ directory, .release directory ∈ events →
        ∀ script ∈ directory.files, Plain script.name) →
      run (step tools) (fresh platform now) events = some after →
        ∀ entry ∈ after.executions, entry.recorded ≠ some .migration := by
  intro claimed
  have ends : (run (step sampleTools) (fresh emptyPlatform 0)
      [.release asMigration, .run .apply sampleSettings sampleChoices,
        .release asDefinition,
        .run .apply sampleSettings sampleChoices]).map (fun after =>
          after.executions.map Execution.recorded) =
      some [none, some .migration] := by
    decide +kernel
  obtain ⟨after, ran, recorded⟩ := Option.map_eq_some_iff.mp ends
  have once := claimed sampleTools emptyPlatform 0 _ after ?_ ran
  · have again : some Kind.migration ∈
        after.executions.map Execution.recorded := by
      rw [recorded]
      decide
    obtain ⟨entry, member, same⟩ := List.mem_map.mp again
    exact once entry member same
  · intro directory member
    have files : directory.files.map Script.name = [sampleName] := by
      simp only [List.mem_cons, List.not_mem_nil, or_false] at member
      rcases member with same | same | same | same
      · cases same
        rfl
      · cases same
      · cases same
        rfl
      · cases same
    intro script held
    have named := List.mem_map_of_mem (f := Script.name) held
    rw [files] at named
    rw [List.mem_singleton.mp named]
    exact sampleName_plain

end IndustryFlow.Migrations
