import IndustryFlow.Concurrent.History
import IndustryFlow.Models.FeatureConfigs

/-!
# Platform switches

The transactions that flip a switch, under READ COMMITTED.  One locks the row
of the switch before it reads the value, and takes the number of its record
while it holds the lock; its time is the one it began at, whenever it gets the
lock.
-/

namespace IndustryFlow.Platform

open Concurrent
open FeatureConfigs (Document)

/-! ## The tables -/

/-- A row of `platform_config`. -/
structure Switch where
  value : Document
  updatedAt : Nat
  updatedBy : Option String
deriving DecidableEq

/-- A row of `platform_config_changes`. -/
structure Change where
  changeId : Nat
  key : String
  oldValue : Document
  newValue : Document
  changedBy : String
  changedAt : Nat
deriving DecidableEq

/-- The row of the switch after the change. -/
def Change.switch (change : Change) : Switch :=
  ⟨change.newValue, change.changedAt, some change.changedBy⟩

/-! ## A flip -/

/-- `jsonb_typeof(value) = 'boolean'`. -/
def isBoolean : Document → Bool
  | .bool _ => true
  | _ => false

def switchKeys : List String :=
  ["stateful_features_enabled"]

/-- What `set_platform_switch` checks before it reads the switch: the value
and the actor, or the SQLSTATE it raises. -/
def checkFlip (trusted : Bool) (key : String) (value : Option Document)
    (actor : Option String) : Except String (Document × String) :=
  if trusted = false then .error "42501"
  else
    match actor with
    | none => .error "22004"
    | some actor =>
        if key ∉ switchKeys then .error "22023"
        else
          match value with
          | none => .error "22023"
          | some value =>
              if isBoolean value then .ok (value, actor) else .error "22023"

inductive Stage where
  | waiting
  /-- It holds the lock and has read the row. -/
  | locked (found : Switch)
  /-- The value is the current one. -/
  | unchanged (found : Switch)
  | written (change : Change)
deriving DecidableEq

/-- A transaction of `set_platform_switch`. -/
structure Flip where
  key : String
  value : Document
  actor : String
  /-- `now()`. -/
  start : Nat
  stage : Stage
deriving DecidableEq

/-- It has passed the checks. -/
def Flip.Proper (flip : Flip) : Prop :=
  flip.key ∈ switchKeys ∧ isBoolean flip.value = true

/-- `FlipResult`, and who asked. -/
structure Answer where
  key : String
  actor : String
  changed : Bool
  value : Document
  updatedAt : Nat
deriving DecidableEq

/-- What the one who made the change is told. -/
def Change.answer (change : Change) : Answer :=
  ⟨change.key, change.changedBy, true, change.newValue, change.changedAt⟩

structure Switches where
  clock : Nat
  configs : String → Option Switch
  /-- The committed rows, in the order of their commits. -/
  changes : List Change
  /-- What the sequence gives next. -/
  nextId : Nat
  flips : Nat → Option Flip
  /-- Which transaction holds the lock on the row of a switch. -/
  locks : String → Option Nat
  answers : List Answer

inductive SwitchEvent where
  | wait
  /-- A flip is asked for, in a transaction that began so long ago. -/
  | call (id age : Nat) (trusted : Bool) (key : String)
      (value : Option Document) (actor : Option String)
  | lock (id : Nat)
  | write (id : Nat)
  /-- The commit, whether or not its answer comes back. -/
  | commit (id : Nat) (heard : Bool)
  | abort (id : Nat)
deriving DecidableEq

namespace Switches

/-- The switches as they were installed. -/
def installed (configs : String → Option Switch) : Switches :=
  ⟨0, configs, [], 1, fun _ => none, fun _ => none, []⟩

variable (switches : Switches)

/-- The record of one switch. -/
def record (key : String) : List Change :=
  switches.changes.filter (·.key = key)

def setFlip (id : Nat) (flip : Option Flip) : Switches :=
  { switches with flips := Function.update switches.flips id flip }

def setLock (key : String) (holder : Option Nat) : Switches :=
  { switches with locks := Function.update switches.locks key holder }

def answer (heard : Bool) (answer : Answer) : Switches :=
  { switches with
    answers :=
      if heard then switches.answers ++ [answer] else switches.answers }

def call (id age : Nat) (trusted : Bool) (key : String)
    (value : Option Document) (actor : Option String) : Option Switches :=
  if (switches.flips id).isSome then none
  else
    match checkFlip trusted key value actor with
    | .error _ => some switches
    | .ok (value, actor) => some (switches.setFlip id
        (some ⟨key, value, actor, switches.clock - age, .waiting⟩))

/-- `SELECT … FOR UPDATE`. -/
def lock (id : Nat) (flip : Flip) : Option Switches :=
  if flip.stage = .waiting ∧ switches.locks flip.key = none then
    match switches.configs flip.key with
    | none => some (switches.setFlip id none)
    | some found =>
        let stage :=
          if found.value = flip.value then .unchanged found
          else .locked found
        some ((switches.setFlip id (some { flip with stage })).setLock
          flip.key (some id))
  else none

/-- The `UPDATE` and the `INSERT`. -/
def write (id : Nat) (flip : Flip) : Option Switches :=
  match flip.stage with
  | .locked found =>
      let change : Change :=
        ⟨switches.nextId, flip.key, found.value, flip.value, flip.actor,
          flip.start⟩
      some { switches.setFlip id (some { flip with stage := .written change })
        with nextId := switches.nextId + 1 }
  | _ => none

/-- The transaction is over. -/
def finish (id : Nat) (flip : Flip) : Switches :=
  let rest := switches.setFlip id none
  if switches.locks flip.key = some id then rest.setLock flip.key none
  else rest

def commit (id : Nat) (flip : Flip) (heard : Bool) : Option Switches :=
  match flip.stage with
  | .unchanged found => some ((switches.finish id flip).answer heard
      ⟨flip.key, flip.actor, false, found.value, found.updatedAt⟩)
  | .written change =>
      let written := { switches with
        configs := Function.update switches.configs flip.key
          (some change.switch)
        changes := switches.changes ++ [change] }
      some ((written.finish id flip).answer heard
        ⟨flip.key, flip.actor, true, flip.value, flip.start⟩)
  | _ => none

def step (switches : Switches) : SwitchEvent → Option Switches
  | .wait => some { switches with clock := switches.clock + 1 }
  | .call id age trusted key value actor =>
      switches.call id age trusted key value actor
  | .lock id => (switches.flips id).bind (switches.lock id)
  | .write id => (switches.flips id).bind (switches.write id)
  | .commit id heard =>
      (switches.flips id).bind (switches.commit id · heard)
  | .abort id => (switches.flips id).map (switches.finish id)

end Switches

/-! ## The record and the row -/

/-- Each change found the value that the one before it left, and another than
it wrote; the last one left the row as it is. -/
def Chained : Option Switch → List Change → Option Switch → Prop
  | start, [], stop => stop = start
  | start, change :: changes, stop =>
      (∃ found, start = some found ∧ change.oldValue = found.value ∧
        found.value ≠ change.newValue) ∧
      Chained (some change.switch) changes stop

theorem Chained.append {start stop : Option Switch} {changes : List Change}
    {change : Change} (chained : Chained start changes stop)
    (follows : ∃ found, stop = some found ∧ change.oldValue = found.value ∧
      found.value ≠ change.newValue) :
    Chained start (changes ++ [change]) (some change.switch) := by
  induction changes generalizing start with
  | nil =>
      cases chained
      exact ⟨follows, rfl⟩
  | cons first changes induction => exact ⟨chained.1, induction chained.2⟩

/-- A later change has a greater number. -/
def Later (first second : Change) : Prop :=
  first.changeId < second.changeId

namespace Switches

theorem record_append (switches : Switches) (configs : String → Option Switch)
    (change : Change) (key : String) :
    record { switches with
      configs := configs
      changes := switches.changes ++ [change] } key =
      if change.key = key then switches.record key ++ [change]
      else switches.record key := by
  rw [record, List.filter_append]
  split
  · rename_i same
    rw [List.filter_cons_of_pos (by simpa using same)]
    rfl
  · rename_i other
    rw [List.filter_cons_of_neg (by simpa using other)]
    exact List.append_nil _

/-! ## What every step keeps -/

/-- What a transaction that has the lock knows. -/
def Knows (switches : Switches) (flip : Flip) : Prop :=
  match flip.stage with
  | .waiting => True
  | .unchanged _ => True
  | .locked found =>
      switches.configs flip.key = some found ∧ found.value ≠ flip.value
  | .written change =>
      change.answer = ⟨flip.key, flip.actor, true, flip.value, flip.start⟩ ∧
      (∃ found, switches.configs flip.key = some found ∧
        change.oldValue = found.value ∧ found.value ≠ change.newValue) ∧
      change.changeId < switches.nextId ∧
      ∀ earlier ∈ switches.record flip.key, Later earlier change

theorem Knows.same {before after : Switches} {flip : Flip}
    (knows : before.Knows flip)
    (config : after.configs flip.key = before.configs flip.key)
    (record : after.record flip.key = before.record flip.key)
    (issued : before.nextId ≤ after.nextId) : after.Knows flip := by
  unfold Knows at knows ⊢
  cases stage : flip.stage with
  | waiting => trivial
  | unchanged found => trivial
  | locked found =>
      rw [stage] at knows
      exact ⟨config ▸ knows.1, knows.2⟩
  | written change =>
      rw [stage] at knows
      obtain ⟨own, found, number, later⟩ := knows
      exact ⟨own, config ▸ found, Nat.lt_of_lt_of_le number issued,
        record ▸ later⟩

/-- Nothing but the holder of its lock changes a switch. -/
structure Kept (origin : String → Option Switch) (switches : Switches) :
    Prop where
  locked : ∀ id flip, switches.flips id = some flip → flip.stage ≠ .waiting →
    switches.locks flip.key = some id
  proper : ∀ id flip, switches.flips id = some flip → flip.Proper
  knows : ∀ id flip, switches.flips id = some flip → switches.Knows flip
  chained : ∀ key,
    Chained (origin key) (switches.record key) (switches.configs key)
  increasing : ∀ key, (switches.record key).Pairwise Later
  issued : ∀ change ∈ switches.changes, change.changeId < switches.nextId
  closed : ∀ change ∈ switches.changes,
    change.key ∈ switchKeys ∧ isBoolean change.newValue = true
  told : (switches.answers.filter (·.changed)).Sublist
    (switches.changes.map Change.answer)

theorem kept_installed (configs : String → Option Switch) :
    Kept configs (installed configs) where
  locked := by
    intro id flip never
    cases never
  proper := by
    intro id flip never
    cases never
  knows := by
    intro id flip never
    cases never
  chained _ := rfl
  increasing _ := List.Pairwise.nil
  issued := by
    intro change never
    cases never
  closed := by
    intro change never
    cases never
  told := List.Sublist.slnil

variable {origin : String → Option Switch} {switches : Switches}

/-- What the checks let pass. -/
theorem checkFlip_ok {trusted : Bool} {key by' : String}
    {asked : Option Document} {actor : Option String} {value : Document}
    (passed : checkFlip trusted key asked actor = .ok (value, by')) :
    key ∈ switchKeys ∧ isBoolean value = true := by
  unfold checkFlip at passed
  split at passed
  · cases passed
  · split at passed
    · cases passed
    · split at passed
      · cases passed
      · rename_i known
        split at passed
        · cases passed
        · split at passed
          · rename_i boolean
            cases passed
            exact ⟨not_not.mp known, boolean⟩
          · cases passed

/-- One transaction comes to a stage in which it need not hold a lock. -/
theorem Kept.setFlip (kept : Kept origin switches) (id : Nat)
    (flip : Option Flip)
    (locked : ∀ new, flip = some new → new.stage ≠ .waiting →
      switches.locks new.key = some id)
    (proper : ∀ new, flip = some new → new.Proper)
    (knows : ∀ new, flip = some new → switches.Knows new) :
    Kept origin (switches.setFlip id flip) where
  locked other found present holds := by
    rcases update_eq_some present with ⟨rfl, same⟩ | ⟨-, before⟩
    · exact locked found same holds
    · exact kept.locked other found before holds
  proper other found present := by
    rcases update_eq_some present with ⟨-, same⟩ | ⟨-, before⟩
    · exact proper found same
    · exact kept.proper other found before
  knows other found present := by
    rcases update_eq_some present with ⟨-, same⟩ | ⟨-, before⟩
    · exact knows found same
    · exact kept.knows other found before
  chained := kept.chained
  increasing := kept.increasing
  issued := kept.issued
  closed := kept.closed
  told := kept.told

/-- The lock of a switch goes from no one to no one but the new holder. -/
theorem Kept.setLock (kept : Kept origin switches) {key : String}
    {holder : Option Nat}
    (free : ∀ id flip, switches.flips id = some flip →
      flip.stage ≠ .waiting → flip.key = key → holder = some id) :
    Kept origin (switches.setLock key holder) where
  locked id flip present holds := by
    by_cases same : flip.key = key
    · rw [Switches.setLock, same]
      dsimp only
      rw [Function.update_self]
      exact free id flip present holds same
    · rw [Switches.setLock]
      dsimp only
      rw [Function.update_of_ne same]
      exact kept.locked id flip present holds
  proper := kept.proper
  knows := kept.knows
  chained := kept.chained
  increasing := kept.increasing
  issued := kept.issued
  closed := kept.closed
  told := kept.told

/-- The transaction is over and its lock is free. -/
theorem Kept.finish (kept : Kept origin switches) (id : Nat) (flip : Flip) :
    Kept origin (switches.finish id flip) := by
  have ended := kept.setFlip id none
    (fun _ never => by cases never) (fun _ never => by cases never)
    (fun _ never => by cases never)
  rw [Switches.finish]
  split
  · rename_i held
    refine ended.setLock ?_
    intro other found present holds same
    rcases update_eq_some present with ⟨-, never⟩ | ⟨different, before⟩
    · cases never
    · have theirs := kept.locked other found before holds
      rw [same, held] at theirs
      exact absurd (Option.some.inj theirs).symm different
  · exact ended

/-- Once a transaction is over, no other has the lock it had. -/
theorem Kept.alone (kept : Kept origin switches) {id : Nat} {flip : Flip}
    (running : switches.flips id = some flip) (holds : flip.stage ≠ .waiting)
    {other : Nat} {found : Flip}
    (present : (switches.finish id flip).flips other = some found)
    (theirs : found.stage ≠ .waiting) : found.key ≠ flip.key := by
  intro same
  have mine := kept.locked id flip running holds
  have before : (switches.setFlip id none).flips other = some found := by
    rw [Switches.finish, if_pos mine] at present
    exact present
  rcases update_eq_some before with ⟨-, never⟩ | ⟨different, earlier⟩
  · cases never
  · have lock := kept.locked other found earlier theirs
    rw [same, mine] at lock
    exact different (Option.some.inj lock).symm

/-- A change of a switch that no transaction has the lock of any more. -/
theorem Kept.change (kept : Kept origin switches) {change : Change}
    (heard : Bool)
    (alone : ∀ id flip, switches.flips id = some flip →
      flip.stage ≠ .waiting → flip.key ≠ change.key)
    (follows : ∃ found, switches.configs change.key = some found ∧
      change.oldValue = found.value ∧ found.value ≠ change.newValue)
    (number : change.changeId < switches.nextId)
    (later : ∀ earlier ∈ switches.record change.key, Later earlier change)
    (closed : change.key ∈ switchKeys ∧ isBoolean change.newValue = true) :
    Kept origin (answer { switches with
      configs := Function.update switches.configs change.key
        (some change.switch)
      changes := switches.changes ++ [change] } heard change.answer) := by
  have record (key : String) := record_append switches
    (Function.update switches.configs change.key (some change.switch)) change
    key
  constructor
  · exact kept.locked
  · exact kept.proper
  · intro id flip present
    by_cases holds : flip.stage = .waiting
    · unfold Knows
      rw [holds]
      trivial
    · have other := alone id flip present holds
      refine (kept.knows id flip present).same ?_ ?_ (Nat.le_refl _)
      · exact Function.update_of_ne other _ _
      · exact (record flip.key).trans (if_neg fun same => other same.symm)
  · intro key
    by_cases same : change.key = key
    · have grown := (record key).trans (if_pos same)
      have row : Function.update switches.configs change.key
          (some change.switch) key = some change.switch := by
        rw [← same, Function.update_self]
      change Chained _ (Switches.record _ key)
        (Function.update switches.configs change.key _ key)
      rw [row]
      refine Eq.mpr (congrArg (Chained _ · _) grown) ?_
      exact (kept.chained key).append (same ▸ follows)
    · have still := (record key).trans (if_neg same)
      have row : Function.update switches.configs change.key
          (some change.switch) key = switches.configs key :=
        Function.update_of_ne (Ne.symm same) _ _
      change Chained _ (Switches.record _ key)
        (Function.update switches.configs change.key _ key)
      rw [row]
      exact Eq.mpr (congrArg (Chained _ · _) still) (kept.chained key)
  · intro key
    by_cases same : change.key = key
    · refine Eq.mpr (congrArg (List.Pairwise Later)
        ((record key).trans (if_pos same))) ?_
      refine List.pairwise_append.mpr ⟨kept.increasing key,
        List.pairwise_singleton _ _, ?_⟩
      intro earlier there last new
      cases List.mem_singleton.mp new
      exact later earlier (same ▸ there)
    · exact Eq.mpr (congrArg (List.Pairwise Later)
        ((record key).trans (if_neg same))) (kept.increasing key)
  · intro other member
    rcases List.mem_append.mp member with old | new
    · exact kept.issued other old
    · cases List.mem_singleton.mp new
      exact number
  · intro other member
    rcases List.mem_append.mp member with old | new
    · exact kept.closed other old
    · cases List.mem_singleton.mp new
      exact closed
  · have told := kept.told
    cases heard with
    | false =>
        refine told.trans ?_
        change List.Sublist _
          ((switches.changes ++ [change]).map Change.answer)
        rw [List.map_append]
        exact List.sublist_append_left _ _
    | true =>
        change List.Sublist ((switches.answers ++ [change.answer]).filter _)
          ((switches.changes ++ [change]).map Change.answer)
        rw [List.map_append, List.filter_append]
        exact told.append (List.Sublist.refl _)

/-- An answer that nothing changed. -/
theorem Kept.answer (kept : Kept origin switches) (heard : Bool)
    {told : Answer} (unchanged : told.changed = false) :
    Kept origin (switches.answer heard told) := by
  refine ⟨kept.locked, kept.proper, kept.knows, kept.chained,
    kept.increasing, kept.issued, kept.closed, ?_⟩
  cases heard with
  | false => exact kept.told
  | true =>
      change List.Sublist ((switches.answers ++ [told]).filter _) _
      rw [List.filter_append, List.filter_cons_of_neg (by
        rw [unchanged]
        exact Bool.false_ne_true)]
      exact (List.append_nil _).symm ▸ kept.told

theorem Kept.call {next : Switches} (kept : Kept origin switches)
    {id age : Nat} {trusted : Bool} {key : String} {value : Option Document}
    {actor : Option String}
    (stepped : switches.call id age trusted key value actor = some next) :
    Kept origin next := by
  unfold Switches.call at stepped
  split at stepped
  · cases stepped
  · split at stepped
    · cases stepped
      exact kept
    · rename_i passed
      cases stepped
      refine kept.setFlip _ _ ?_ ?_ ?_
      · intro new same holds
        cases same
        exact absurd rfl holds
      · intro new same
        cases same
        exact checkFlip_ok passed
      · intro new same
        cases same
        trivial

theorem Kept.lock {next : Switches} (kept : Kept origin switches) {id : Nat}
    {flip : Flip} (running : switches.flips id = some flip)
    (stepped : switches.lock id flip = some next) : Kept origin next := by
  unfold Switches.lock at stepped
  split at stepped
  · rename_i free
    obtain ⟨waits, unlocked⟩ := free
    split at stepped
    · cases stepped
      exact kept.setFlip _ _ (fun _ never => by cases never)
        (fun _ never => by cases never) (fun _ never => by cases never)
    · rename_i found config
      cases stepped
      have proper := kept.proper id flip running
      -- the lock is taken first: no other transaction may hold it
      have taken : Kept origin (switches.setLock flip.key (some id)) := by
        refine kept.setLock ?_
        intro other theirs present holds same
        have lock := kept.locked other theirs present holds
        rw [same, unlocked] at lock
        cases lock
      refine taken.setFlip _ _ ?_ ?_ ?_
      · intro new same _
        cases same
        exact Function.update_self flip.key (some id) switches.locks
      · intro new same
        cases same
        exact proper
      · intro new same
        cases same
        unfold Knows
        dsimp only
        split
        · rename_i waiting
          split at waiting
          · cases waiting
          · cases waiting
        · trivial
        · rename_i other stage
          split at stage
          · cases stage
          · rename_i different
            cases stage
            exact ⟨config, different⟩
        · rename_i stage
          split at stage
          · cases stage
          · cases stage
  · cases stepped

theorem Kept.write {next : Switches} (kept : Kept origin switches) {id : Nat}
    {flip : Flip} (running : switches.flips id = some flip)
    (stepped : switches.write id flip = some next) : Kept origin next := by
  unfold Switches.write at stepped
  split at stepped
  · rename_i found stage
    cases stepped
    have holds : flip.stage ≠ .waiting := by
      rw [stage]
      exact Stage.noConfusion
    have knows := kept.knows id flip running
    unfold Knows at knows
    rw [stage] at knows
    -- the sequence moves on first
    have moved : Kept origin
        { switches with nextId := switches.nextId + 1 } := by
      refine ⟨kept.locked, kept.proper, ?_, kept.chained, kept.increasing, ?_,
        kept.closed, kept.told⟩
      · intro other theirs present
        exact (kept.knows other theirs present).same rfl rfl (Nat.le_succ _)
      · intro change member
        exact Nat.lt_succ_of_lt (kept.issued change member)
    refine moved.setFlip _ _ ?_ ?_ ?_
    · intro new same _
      cases same
      exact kept.locked id flip running holds
    · intro new same
      cases same
      exact kept.proper id flip running
    · intro new same
      cases same
      refine ⟨rfl, ⟨found, knows.1, rfl, knows.2⟩, Nat.lt_succ_self _, ?_⟩
      intro earlier there
      exact kept.issued earlier (List.mem_of_mem_filter there)
  · cases stepped

theorem Kept.commit {next : Switches} (kept : Kept origin switches) {id : Nat}
    {flip : Flip} {heard : Bool} (running : switches.flips id = some flip)
    (stepped : switches.commit id flip heard = some next) :
    Kept origin next := by
  unfold Switches.commit at stepped
  split at stepped
  · cases stepped
    exact (kept.finish id flip).answer heard rfl
  · rename_i change stage
    cases stepped
    have holds : flip.stage ≠ .waiting := by
      rw [stage]
      exact Stage.noConfusion
    have knows := kept.knows id flip running
    unfold Knows at knows
    rw [stage] at knows
    obtain ⟨own, follows, number, later⟩ := knows
    have key : change.key = flip.key := congrArg Answer.key own
    have value : change.newValue = flip.value := congrArg Answer.value own
    have mine := kept.locked id flip running holds
    have ended := kept.finish id flip
    have same : Switches.finish { switches with
          configs := Function.update switches.configs flip.key
            (some change.switch)
          changes := switches.changes ++ [change] } id flip =
        { switches.finish id flip with
          configs := Function.update switches.configs change.key
            (some change.switch)
          changes := switches.changes ++ [change] } := by
      rw [key, Switches.finish, Switches.finish, if_pos mine, if_pos mine]
      rfl
    have rest : (switches.finish id flip).configs = switches.configs ∧
        (switches.finish id flip).changes = switches.changes ∧
        (switches.finish id flip).nextId = switches.nextId := by
      rw [Switches.finish, if_pos mine]
      exact ⟨rfl, rfl, rfl⟩
    obtain ⟨configs, changes, nextId⟩ := rest
    have record : (switches.finish id flip).record change.key =
        switches.record flip.key := by
      rw [Switches.record, changes, key]
      rfl
    rw [same, ← own, ← configs, ← changes]
    refine ended.change heard ?_ ?_ ?_ ?_ ?_
    · intro other theirs present waits
      rw [key]
      exact kept.alone running holds present waits
    · rw [configs, key]
      exact follows
    · rw [nextId]
      exact number
    · rw [record]
      exact later
    · have proper := kept.proper id flip running
      rw [key, value]
      exact proper
  · cases stepped

theorem Kept.step {next : Switches} {event : SwitchEvent}
    (kept : Kept origin switches)
    (stepped : Switches.step switches event = some next) :
    Kept origin next := by
  cases event with
  | wait =>
      cases stepped
      exact ⟨kept.locked, kept.proper, kept.knows, kept.chained,
        kept.increasing, kept.issued, kept.closed, kept.told⟩
  | call id age trusted key value actor => exact kept.call stepped
  | lock id =>
      obtain ⟨flip, running, locked⟩ := Option.bind_eq_some_iff.mp stepped
      exact kept.lock running locked
  | write id =>
      obtain ⟨flip, running, written⟩ := Option.bind_eq_some_iff.mp stepped
      exact kept.write running written
  | commit id heard =>
      obtain ⟨flip, running, committed⟩ := Option.bind_eq_some_iff.mp stepped
      exact kept.commit running committed
  | abort id =>
      obtain ⟨flip, -, rfl⟩ := Option.map_eq_some_iff.mp stepped
      exact kept.finish id flip

theorem run_kept {configs : String → Option Switch}
    {events : List SwitchEvent}
    (ran : run Switches.step (installed configs) events = some switches) :
    Kept configs switches :=
  run_preserves (Kept configs)
    (fun _ _ _ kept stepped => kept.step stepped) (kept_installed configs) ran

/-! ## Whole runs -/

/-- However flips are interleaved, held up, lost or refused: the record of a
switch is in the order of its numbers, each entry found what the one before it
left and wrote another value, and the row is what the last one made it; only
known switches change, to booleans; and who is told of a change made it, in
the order of the record. -/
theorem flips_are_recorded {configs : String → Option Switch}
    {events : List SwitchEvent}
    (ran : run step (installed configs) events = some switches) :
    (∀ key, Chained (configs key) (switches.record key)
        (switches.configs key) ∧
      (switches.record key).Pairwise Later) ∧
    (∀ change ∈ switches.changes,
      change.key ∈ switchKeys ∧ isBoolean change.newValue = true) ∧
    (switches.answers.filter (·.changed)).Sublist
      (switches.changes.map Change.answer) := by
  have kept := run_kept ran
  exact ⟨fun key => ⟨kept.chained key, kept.increasing key⟩, kept.closed,
    kept.told⟩

/-- The switch as the migration installs it. -/
def defaults (key : String) : Option Switch :=
  if key = "stateful_features_enabled" then
    some ⟨.bool true, 0, some "migration:17"⟩
  else none

def flip (id age : Nat) (value : Bool) : SwitchEvent :=
  .call id age true "stateful_features_enabled" (some (.bool value))
    (some "operator")

/-- Off, and on again by one who asked before and had to wait. -/
def offAndOn : List SwitchEvent :=
  [.wait, flip 1 1 true, .wait, flip 2 0 false, .lock 2, .write 2,
    .commit 2 true, .lock 1, .write 1, .commit 1 false]

theorem flips_are_recorded_offAndOn :
    ∃ switches, run step (installed defaults) offAndOn = some switches ∧
      (switches.record "stateful_features_enabled").map Change.changedAt =
        [2, 0] ∧
      Chained (defaults "stateful_features_enabled")
        (switches.record "stateful_features_enabled")
        (switches.configs "stateful_features_enabled") ∧
      (switches.answers.filter (·.changed)).Sublist
        (switches.changes.map Change.answer) := by
  have whole : (run step (installed defaults) offAndOn).map
      (fun switches => (switches.record "stateful_features_enabled").map
        Change.changedAt) = some [2, 0] := by
    decide +kernel
  obtain ⟨switches, ran, times⟩ := Option.map_eq_some_iff.mp whole
  obtain ⟨recorded, -, told⟩ := flips_are_recorded ran
  exact ⟨switches, ran, times, (recorded _).1, told⟩

end Switches

end IndustryFlow.Platform
