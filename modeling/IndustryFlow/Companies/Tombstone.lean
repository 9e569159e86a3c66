import IndustryFlow.Companies.Purge

/-!
# What a completed deletion leaves in the cold archive

The cold layer is recorded once, behind a listing that finds nothing, and the
rows of the tenant stay in the database until every other store is empty.  An
export in between writes what no pass removes again.  Where no export holds
rows of the tenant when that listing comes back, and none reads any behind it,
the prefix stays empty, and a completed deletion has left nothing there.
-/

namespace IndustryFlow.Purge

open Concurrent ColdExport

/-- The call writes an object. -/
def Writes : Op → Prop
  | .day _ (.writePart _ _) | .day _ (.writeManifest _) => True
  | _ => False

/-- The call reads the rows of a day. -/
def ReadsDay : Op → Prop
  | .day _ .snapshotDay => True
  | _ => False

/-- No rows have been read. -/
def NoRows : ∀ op, Reply op → Prop
  | .day _ .snapshotDay, some snapshot => snapshot.rows = 0
  | .day _ .snapshotDay, none => True
  | _, _ => False

def RecordsCold (op : Op) : Prop :=
  op = .record "cold_layer"

def NothingListed : ∀ op, Reply op → Prop
  | .listObjects, some keys => keys = []
  | _, _ => False

/-- The job may write an object before it reads another day. -/
abbrev Exporting (program : Job Unit) : Prop :=
  program.Reaches Writes ReadsDay

/-- Without rows a job writes nothing, and it records the cold layer behind an
empty listing only. -/
structure Sound (program : Job Unit) : Prop where
  careful : program.Careful Writes ReadsDay NoRows
  guards : program.Guards RecordsCold NothingListed True

/-! ## The export of a day -/

def WritesDay (op : ColdExport.Op) : Prop :=
  match op with
  | .writePart _ _ | .writeManifest _ => True
  | _ => False

def IsSnapshot (op : ColdExport.Op) : Prop :=
  op = .snapshotDay

def EmptySnapshot : ∀ op, ColdExport.Reply op → Prop
  | .snapshotDay, snapshot => snapshot.rows = 0
  | _, _ => False

/-- A call that neither writes an object nor reads the day. -/
def Checks (op : ColdExport.Op) : Prop :=
  ¬WritesDay op ∧ ¬IsSnapshot op

abbrev Calls {Answer : Type} (allowed : ColdExport.Op → Prop)
    (program : Export Answer) : Prop :=
  program.Always (fun _ _ => True) allowed fun _ => True

theorem orRaise_calls {Answer : Type} {allowed : ColdExport.Op → Prop}
    (answer : Option Answer) : Calls allowed (orRaise answer) := by
  cases answer with
  | none => trivial
  | some answer => trivial

theorem calls_bind {First Second : Type} {allowed : ColdExport.Op → Prop}
    {program : Export First} {continuation : First → Export Second}
    (first : Calls allowed program)
    (rest : ∀ answer, Calls allowed (continuation answer)) :
    Calls allowed (program >>= continuation) :=
  first.bind (fun answer _ => rest answer) fun _ _ => trivial

theorem perform_calls {allowed : ColdExport.Op → Prop} {op : ColdExport.Op}
    {Second : Type} {continuation : ColdExport.Reply op → Export Second}
    (now : allowed op)
    (rest : ∀ answer, Calls allowed (continuation answer)) :
    Calls allowed (Program.perform op >>= continuation) :=
  ⟨now, fun reply _ => rest reply⟩

theorem pendingPart_calls (manifest : Option Manifest) :
    Calls Checks (pendingPart manifest) := by
  unfold pendingPart
  split
  · trivial
  · split
    · trivial
    · exact perform_calls ⟨id, nofun⟩ fun _ => trivial

theorem checkPart_calls (part : Part) : Calls Checks (checkPart part) := by
  apply perform_calls ⟨id, nofun⟩
  intro counted
  apply calls_bind (orRaise_calls counted)
  intro footer
  split
  · trivial
  · trivial

theorem checkParts_calls (parts : List Part) :
    Calls Checks (checkParts parts) := by
  induction parts with
  | nil => trivial
  | cons part parts induction =>
      exact calls_bind (checkPart_calls part) fun _ => induction

theorem exportNothing_calls (parts : List Part) (pending : Option Part)
    (snapshot : Snapshot) :
    Calls Checks (exportNothing parts pending snapshot) := by
  cases pending with
  | none => trivial
  | some last =>
      apply calls_bind (checkPart_calls last)
      intro _
      apply perform_calls ⟨id, nofun⟩
      intro answer
      exact calls_bind (orRaise_calls answer) fun _ => trivial

/-- The calls of an export behind its snapshot. -/
abbrev Behind {Answer : Type} (program : Export Answer) : Prop :=
  Calls (fun op => ¬IsSnapshot op) program

theorem readArchivedKeys_calls (parts : List Part) :
    Behind (readArchivedKeys parts) := by
  induction parts with
  | nil => trivial
  | cons part parts induction =>
      apply perform_calls nofun
      intro read
      apply calls_bind (orRaise_calls read)
      intro held
      exact calls_bind induction fun _ => trivial

theorem freshRows_calls (snapshot : Snapshot) (base : List Part) :
    Behind (freshRows snapshot base) := by
  unfold freshRows
  split
  · trivial
  · refine calls_bind ?_ fun _ => trivial
    unfold withoutArchived
    split
    · trivial
    · exact calls_bind (readArchivedKeys_calls base) fun _ => trivial

theorem writeAndVerify_calls (part : String) (rows : List Measurement)
    (expected : Nat) : Behind (writeAndVerify part rows expected) := by
  apply perform_calls nofun
  intro written
  apply calls_bind (orRaise_calls written)
  intro wrote
  split
  · trivial
  · apply perform_calls nofun
    intro counted
    apply calls_bind (orRaise_calls counted)
    intro footer
    split
    · trivial
    · trivial

theorem writeFresh_calls (base : List Part) (rows : List Measurement)
    (expected : Nat) : Behind (writeFresh base rows expected) := by
  unfold writeFresh
  split
  · exact calls_bind (writeAndVerify_calls _ rows expected) fun _ => trivial
  · split
    · trivial
    · trivial

theorem exportRows_calls (target : Target) (pending : Option Part)
    (committed : List Part) (snapshot : Snapshot) :
    Behind (exportRows target pending committed snapshot) := by
  apply calls_bind (freshRows_calls snapshot committed)
  intro fresh
  apply calls_bind (writeFresh_calls committed fresh.1 fresh.2)
  intro written
  apply perform_calls nofun
  intro _
  apply perform_calls nofun
  intro answer
  exact calls_bind (orRaise_calls answer) fun _ => trivial

theorem checks_never_reach {Answer : Type} {program : Export Answer}
    (calls : Calls Checks program) :
    ¬program.Reaches WritesDay IsSnapshot :=
  (calls.mono (fun _ _ _ => trivial) (fun _ allowed => allowed.1)
    fun _ _ => trivial).not_reaches fun _ _ => trivial

/-- Two programs that do not reach the target, one after the other. -/
theorem bind_never_reaches {First Second : Type} {program : Export First}
    {continuation : First → Export Second}
    (first : ¬program.Reaches WritesDay IsSnapshot)
    (rest : ∀ answer, ¬(continuation answer).Reaches WritesDay IsSnapshot) :
    ¬(program >>= continuation).Reaches WritesDay IsSnapshot := by
  intro reaches
  rcases reaches.bind with before | ⟨answer, after⟩
  · exact first before
  · exact rest answer after

/-- Before its snapshot an export writes nothing. -/
theorem exportDay_waits (target : Target) :
    ¬(exportDay target).Reaches WritesDay IsSnapshot := by
  unfold exportDay
  have read : Calls Checks readManifest := ⟨⟨id, nofun⟩, fun _ _ => trivial⟩
  apply bind_never_reaches (checks_never_reach read)
  intro manifest
  apply bind_never_reaches (checks_never_reach (pendingPart_calls manifest))
  intro pending
  apply bind_never_reaches (checks_never_reach (checkParts_calls _))
  intro _
  rintro (never | ⟨stopped, -⟩)
  · exact never
  · exact stopped rfl

theorem snapshot_only_clears {op : ColdExport.Op}
    (other : ¬IsSnapshot op) (reply : ColdExport.Reply op) :
    ¬EmptySnapshot op reply := by
  intro clears
  cases op with
  | snapshotDay => exact other rfl
  | _ => exact clears

/-- A program without a snapshot has nothing to be careful about. -/
theorem behind_careful {Answer : Type} {program : Export Answer}
    (behind : Behind program) :
    program.Careful WritesDay IsSnapshot EmptySnapshot := by
  induction program with
  | done answer => trivial
  | fail error => trivial
  | call op next induction =>
      intro reply
      constructor
      · intro clears
        exact absurd clears (snapshot_only_clears behind.1 reply)
      · exact induction reply (behind.2 reply trivial)

theorem checks_behind {Answer : Type} {program : Export Answer}
    (calls : Calls Checks program) : Behind program :=
  calls.mono (fun _ _ _ => trivial) (fun _ allowed => allowed.2)
    fun _ _ => trivial

theorem behind_bind_careful {First Second : Type} {program : Export First}
    {continuation : First → Export Second} (behind : Behind program)
    (rest : ∀ answer,
      (continuation answer).Careful WritesDay IsSnapshot EmptySnapshot) :
    (program >>= continuation).Careful WritesDay IsSnapshot
      EmptySnapshot := by
  induction program with
  | done answer => exact rest answer
  | fail error => trivial
  | call op next induction =>
      intro reply
      constructor
      · intro clears
        exact absurd clears (snapshot_only_clears behind.1 reply)
      · exact induction reply (behind.2 reply trivial)

/-- Behind a snapshot without rows it writes nothing either. -/
theorem exportDay_careful (target : Target) :
    (exportDay target).Careful WritesDay IsSnapshot EmptySnapshot := by
  unfold exportDay
  have read : Behind readManifest := ⟨nofun, fun _ _ => trivial⟩
  apply behind_bind_careful read
  intro manifest
  apply behind_bind_careful (checks_behind (pendingPart_calls manifest))
  intro pending
  apply behind_bind_careful (checks_behind (checkParts_calls _))
  intro _ snapshot
  dsimp only [Program.bind]
  constructor
  · intro nothing
    have empty : snapshot.rows = 0 := nothing
    rw [if_pos empty]
    exact checks_never_reach (exportNothing_calls _ _ snapshot)
  · split
    · exact behind_careful (checks_behind (exportNothing_calls _ _ snapshot))
    · exact behind_careful (exportRows_calls _ _ _ snapshot)

/-! ## The jobs -/

variable (config : Config)

/-- A call of the export jobs or of the deletion, but none that records the
cold layer. -/
abbrev Never (allowed : Op → Prop) {Answer : Type} (program : Job Answer) :
    Prop :=
  program.Always (fun _ _ => True) (fun op => ¬allowed op) fun _ => True

theorem call_never {allowed : Op → Prop} {Answer : Type} {op : Op}
    (reply : Reply op = Option Answer) (other : ¬allowed op) :
    Never allowed (call op reply) := by
  refine ⟨other, fun answer _ => ?_⟩
  dsimp only
  split
  · trivial
  · trivial

theorem never_bind {allowed : Op → Prop} {First Second : Type}
    {program : Job First} {continuation : First → Job Second}
    (first : Never allowed program)
    (rest : ∀ answer, Never allowed (continuation answer)) :
    Never allowed (program >>= continuation) :=
  first.bind (fun answer _ => rest answer) fun _ _ => trivial

theorem never_attempt {allowed : Op → Prop} {Answer : Type}
    {program : Job Answer} (never : Never allowed program) :
    Never allowed program.attempt :=
  never.attempt

/-- A part of an export: it may read days, and it never records. -/
structure Exports {Answer : Type} (program : Job Answer) : Prop where
  waits : ¬program.Reaches Writes ReadsDay
  careful : program.Careful Writes ReadsDay NoRows
  records : Never RecordsCold program

theorem Exports.bind {First Second : Type} {program : Job First}
    {continuation : First → Job Second} (first : Exports program)
    (rest : ∀ answer, Exports (continuation answer)) :
    Exports (program >>= continuation) where
  waits reaches := by
    rcases reaches.bind with before | ⟨answer, after⟩
    · exact first.waits before
    · exact (rest answer).waits after
  careful := first.careful.bind (fun answer => (rest answer).careful)
    fun answer => (rest answer).waits
  records := never_bind first.records fun answer => (rest answer).records

theorem Exports.attempt {Answer : Type} {program : Job Answer}
    (exports : Exports program) : Exports program.attempt where
  waits reaches := exports.waits reaches.attempt
  careful := exports.careful.attempt
  records := exports.records.attempt

/-- A program that writes nothing and records nothing. -/
theorem Exports.quiet {Answer : Type} {program : Job Answer}
    (quiet : Never (fun op => Writes op ∨ RecordsCold op) program) :
    Exports program := by
  have writes : Never Writes program :=
    quiet.mono (fun _ _ _ => trivial) (fun _ other now => other (.inl now))
      fun _ _ => trivial
  exact {
    waits := writes.not_reaches fun _ _ => trivial
    careful := writes.careful fun _ _ => trivial
    records := quiet.mono (fun _ _ _ => trivial)
      (fun _ other now => other (.inr now)) fun _ _ => trivial }

theorem Exports.call {Answer : Type} {op : Op}
    (reply : Reply op = Option Answer)
    (other : ¬(Writes op ∨ RecordsCold op)) : Exports (call op reply) :=
  .quiet (call_never reply other)

theorem Exports.done {Answer : Type} (answer : Answer) :
    Exports (.done answer) :=
  .quiet trivial

theorem Exports.fail {Answer : Type} (failure : Failure) :
    Exports (.fail failure : Job Answer) :=
  .quiet trivial

theorem writes_day (day : String) :
    (fun op => Writes (.day day op)) = WritesDay := by
  funext op
  cases op with
  | _ => rfl

theorem reads_day (day : String) :
    (fun op => ReadsDay (.day day op)) = IsSnapshot := by
  funext op
  cases op with
  | snapshotDay => exact (eq_self _).symm
  | _ => exact (eq_false nofun).symm

theorem always_any {Answer : Type} {allowed : ColdExport.Op → Prop}
    (all : ∀ op, allowed op) (program : Export Answer) :
    Calls allowed program := by
  induction program with
  | done answer => trivial
  | fail error => trivial
  | call op next induction => exact ⟨all op, fun reply _ => induction reply⟩

theorem exportDayOf_exports (day : String) :
    Exports (exportDayOf config day) where
  waits reaches := by
    have lifted := reaches.lift
    rw [writes_day, reads_day] at lifted
    exact exportDay_waits _ lifted
  careful := by
    refine Program.Careful.lift ?_ fun op reply seen viewed sign =>
      (?_ : EmptySnapshot op seen)
    · rw [writes_day, reads_day]
      exact exportDay_careful _
    · cases op with
      | snapshotDay =>
          cases reply with
          | none => cases viewed
          | some snapshot =>
              cases viewed
              exact sign
      | _ => exact sign
  records := (always_any (fun _ => nofun) _).lift

theorem exportDays_exports (days : List String) :
    Exports (exportDays config days) := by
  induction days with
  | nil => exact .done ()
  | cons day days induction =>
      exact (exportDayOf_exports config day).bind fun _ => induction

theorem exportTenant_exports (cutoff schemaName : String) :
    Exports (exportTenant config cutoff schemaName) := by
  unfold exportTenant
  split
  · exact .fail .registry
  · apply Exports.bind (.call rfl (by simp [Writes, RecordsCold]))
    exact exportDays_exports config

theorem runExportLocked_exports (cutoff : String) :
    Exports (runExportLocked config cutoff) := by
  apply Exports.bind (.call rfl (by simp [Writes, RecordsCold]))
  intro listed
  cases listed with
  | none => exact .done ()
  | some schemaName => exact exportTenant_exports config cutoff schemaName

theorem perform_exports {op : Op}
    (other : ¬(Writes op ∨ RecordsCold op)) :
    Exports (Program.perform op : Job (Reply op)) :=
  .quiet ⟨other, fun _ _ => trivial⟩

theorem ended_exports (ended : Except Failure Unit) :
    Exports (match ended with
      | .ok _ => pure ()
      | .error failure => .fail failure : Job Unit) := by
  cases ended with
  | error failure => exact .fail failure
  | ok answer => exact .done ()

theorem runExport_exports (cutoff : String) :
    Exports (runExport config cutoff) := by
  apply Exports.bind (.call rfl (by simp [Writes, RecordsCold]))
  intro acquired
  split
  · apply (runExportLocked_exports config cutoff).attempt.bind
    intro ended
    apply (perform_exports (by simp [Writes, RecordsCold])).bind
    intro _
    exact ended_exports ended
  · exact .done ()

/-! ## The deletion -/

theorem call_deletes {Answer : Type} {op : Op}
    (reply : Reply op = Option Answer) (other : ¬RecordsCold op)
    (ready : Prop) :
    (call op reply).Guards RecordsCold NothingListed ready :=
  (call_never reply other).guards (fun _ _ => trivial) ready

/-- Behind a call that neither records the cold layer nor lists. -/
theorem call_bind_guards {Answer Result : Type} {op : Op}
    {reply : Reply op = Option Answer} {continuation : Answer → Job Result}
    (other : ¬RecordsCold op)
    (rest : ∀ answer, (continuation answer).Guards RecordsCold NothingListed
      False) (ready : Prop) :
    (call op reply >>= continuation).Guards RecordsCold NothingListed
      ready :=
  (call_deletes reply other ready).bind rest

/-- What follows a purge stands behind an empty listing. -/
theorem purge_guards {Result : Type} {continuation : Unit → Job Result}
    (rest : (continuation ()).Guards RecordsCold NothingListed True)
    (previous : Option (List ObjectKey)) (rounds : Nat) (ready : Prop) :
    (purge previous rounds >>= continuation).Guards RecordsCold NothingListed
      ready := by
  induction rounds generalizing previous ready with
  | zero => exact ⟨nofun, fun never => nomatch never⟩
  | succ rounds induction =>
      refine ⟨nofun, fun reply => ?_⟩
      cases reply with
      | none => trivial
      | some keys =>
          by_cases empty : keys = []
          · subst empty
            exact rest.mono fun _ => rfl
          · simp only [cast_eq, Program.bind]
            rw [if_neg empty]
            split
            · trivial
            · refine ⟨nofun, fun reply => ?_⟩
              cases reply with
              | none => trivial
              | some errors =>
                  simp only [cast_eq, Program.bind]
                  split
                  · exact induction _ _
                  · trivial

theorem step_guards {Result : Type} {continuation : Bool → Job Result}
    {store : String} {rounds : Nat}
    (emptied : (continuation true).Guards RecordsCold NothingListed
      (store = "cold_layer"))
    (waits : (continuation false).Guards RecordsCold NothingListed False) :
    (step rounds store >>= continuation).Guards RecordsCold NothingListed
      False := by
  unfold step
  split
  · rename_i cold
    rw [Program.bind_assoc]
    exact purge_guards (emptied.mono fun _ => trivial) none rounds False
  · rename_i other
    apply call_bind_guards (by nofun)
    intro empty
    cases empty with
    | false => exact waits
    | true => exact emptied.mono other

theorem emptyStores_guards (rounds : Nat) (removed : List String)
    (asked : Bool) (stores : List String) :
    (emptyStores config rounds removed asked stores).Guards RecordsCold
      NothingListed False := by
  induction stores generalizing asked with
  | nil => trivial
  | cons store stores induction =>
      have waits : ∀ asked, (do
          let _ ← emptyStores config rounds removed asked stores
          pure false : Job Bool).Guards RecordsCold NothingListed False :=
        fun asked => (induction asked).bind fun _ => trivial
      rw [emptyStores]
      split
      · exact induction asked
      · split
        · exact waits asked
        · have steps : (do
              let empty ← step rounds store
              if empty then do
                call (.record store) rfl
                emptyStores config rounds removed true stores
              else do
                let _ ← emptyStores config rounds removed true stores
                pure false : Job Bool).Guards RecordsCold NothingListed
                  False := by
            apply step_guards
            · refine ⟨fun cold => ?_, fun reply => ?_⟩
              · exact (Op.record.injEq _ _).mp cold
              · cases reply with
                | none => trivial
                | some recorded => exact induction true
            · exact waits true
          cases asked with
          | true => exact steps
          | false =>
              dsimp only
              exact call_bind_guards (by nofun) (fun _ => steps) False

theorem delete_guards (rounds : Nat) (removed : List String) :
    (delete config rounds removed).Guards RecordsCold NothingListed
      False := by
  apply (emptyStores_guards config rounds removed false _).bind
  intro empty
  split
  · exact call_deletes rfl (by nofun) False
  · trivial

theorem run_guards (rounds : Nat) :
    (run config rounds).Guards RecordsCold NothingListed False := by
  apply call_bind_guards (by nofun)
  intro acquired
  split
  · refine Program.Guards.bind (Program.Guards.attempt ?_) fun ended => ?_
    · apply call_bind_guards (by nofun)
      intro pending
      cases pending with
      | none => trivial
      | some removed =>
          exact (delete_guards config rounds removed).attempt.bind
            fun _ => trivial
    · refine ⟨nofun, fun _ => ?_⟩
      cases ended with
      | error failure => trivial
      | ok answer => trivial
  · trivial

/-- A call of the export of a day. -/
def OfExport : Op → Prop
  | .day _ _ => True
  | _ => False

theorem never_writes {Answer : Type} {program : Job Answer}
    (apart : Never OfExport program) : Never Writes program := by
  refine apart.mono (fun _ _ _ => trivial) ?_ fun _ _ => trivial
  intro op other writes
  apply other
  cases op with
  | day day op => trivial
  | _ => exact writes

theorem purge_apart (previous : Option (List ObjectKey)) (rounds : Nat) :
    Never OfExport (purge previous rounds) := by
  induction rounds generalizing previous with
  | zero => exact ⟨nofun, fun never => nomatch never⟩
  | succ rounds induction =>
      apply never_bind (call_never rfl (by nofun))
      intro keys
      split
      · trivial
      · split
        · trivial
        · apply never_bind (call_never rfl (by nofun))
          intro errors
          split
          · exact induction (some keys)
          · trivial

theorem step_apart (rounds : Nat) (store : String) :
    Never OfExport (step rounds store) := by
  unfold step
  split
  · exact never_bind (purge_apart none rounds) fun _ => trivial
  · exact call_never rfl (by nofun)

theorem emptyStores_apart (rounds : Nat) (removed : List String)
    (asked : Bool) (stores : List String) :
    Never OfExport (emptyStores config rounds removed asked stores) := by
  induction stores generalizing asked with
  | nil => trivial
  | cons store stores induction =>
      rw [emptyStores]
      split
      · exact induction asked
      · split
        · exact never_bind (induction asked) fun _ => trivial
        · have steps : Never OfExport (do
              let empty ← step rounds store
              if empty then do
                call (.record store) rfl
                emptyStores config rounds removed true stores
              else do
                let _ ← emptyStores config rounds removed true stores
                pure false : Job Bool) := by
            apply never_bind (step_apart rounds store)
            intro empty
            split
            · exact never_bind (call_never rfl (by nofun))
                fun _ => induction true
            · exact never_bind (induction true) fun _ => trivial
          cases asked with
          | true => exact steps
          | false =>
              dsimp only
              exact never_bind (call_never rfl (by nofun)) fun _ => steps

theorem delete_apart (rounds : Nat) (removed : List String) :
    Never OfExport (delete config rounds removed) := by
  apply never_bind (emptyStores_apart config rounds removed false _)
  intro empty
  split
  · exact call_never rfl (by nofun)
  · trivial

theorem run_apart (rounds : Nat) : Never OfExport (run config rounds) := by
  apply never_bind (call_never rfl (by nofun))
  intro acquired
  split
  · refine never_bind (never_attempt ?_) fun ended => ?_
    · apply never_bind (call_never rfl (by nofun))
      intro pending
      cases pending with
      | none => trivial
      | some removed =>
          exact never_bind (delete_apart config rounds removed).attempt
            fun _ => trivial
    · refine ⟨nofun, fun _ _ => ?_⟩
      cases ended with
      | error failure => trivial
      | ok answer => trivial
  · trivial

/-! ## Every job -/

theorem handle_idle (request : Request) :
    ¬Exporting (handle config request) := by
  cases request with
  | «export» cutoff => exact (runExport_exports config cutoff).waits
  | delete rounds =>
      exact (never_writes (run_apart config rounds)).not_reaches
        fun _ _ => trivial

theorem handle_careful (request : Request) :
    (handle config request).Careful Writes ReadsDay NoRows := by
  cases request with
  | «export» cutoff => exact (runExport_exports config cutoff).careful
  | delete rounds =>
      exact (never_writes (run_apart config rounds)).careful
        fun _ _ => trivial

theorem handle_guards (request : Request) :
    (handle config request).Guards RecordsCold NothingListed False := by
  cases request with
  | «export» cutoff =>
      exact (runExport_exports config cutoff).records.guards
        (fun _ _ => trivial) False
  | delete rounds => exact run_guards config rounds

/-! ## Runs -/

/-- The cold layer is recorded, or is the next thing a pass records. -/
def Purged (pool : Jobs) : Prop :=
  "cold_layer" ∈ pool.shared.steps ∨
    ∃ thread ∈ pool.threads,
      thread.program.next? = some (.record "cold_layer")

def Idle (pool : Jobs) : Prop :=
  ∀ thread ∈ pool.threads, ¬Exporting thread.program

/-- A day that is read once the cold layer is purged has no rows, and the
listing that finds nothing comes while no export is about to write. -/
def Undisturbed (pool : Jobs) : Event → Prop
  | .step index choice | .lose index choice =>
      ∀ request op next, pool.threads[index]? = some ⟨request, .call op next⟩ →
        (∀ day, op = .day day .snapshotDay → Purged pool →
          (pool.shared.day day).rows = []) ∧
        (op = .listObjects → choice ≠ .raises → pool.shared.keys = [] →
          Idle pool)
  | _ => True

structure Quiet (pool : Jobs) : Prop where
  sound : ∀ thread ∈ pool.threads, Sound thread.program
  empty : Purged pool → pool.shared.keys = []
  idle : Purged pool → Idle pool
  recorded : pool.shared.completed → "cold_layer" ∈ pool.shared.steps

theorem keys_absorb {platform : Platform} {day : String}
    {op : ColdExport.Op} {after : Stores} (other : ¬WritesDay op) :
    (platform.absorb day op after).keys = platform.keys := by
  cases op with
  | writePart part rows => exact absurd trivial other
  | writeManifest manifest => exact absurd trivial other
  | _ => rfl

theorem keys_deleteObjects (platform : Platform) (gone : List ObjectKey) :
    (platform.deleteObjects gone).keys ⊆ platform.keys := by
  intro key member
  rcases List.mem_append.mp member with part | manifest
  · apply List.mem_append_left
    obtain ⟨entry, listed, rfl⟩ := List.mem_map.mp part
    exact List.mem_map_of_mem (List.mem_of_mem_filter listed)
  · apply List.mem_append_right
    obtain ⟨entry, listed, rfl⟩ := List.mem_map.mp manifest
    exact List.mem_map_of_mem (List.mem_of_mem_filter listed)

/-- What a call can do to the prefix and to the record of the deletion. -/
structure Effect (op : Op) (platform after : Platform) : Prop where
  keys : ¬Writes op → after.keys ⊆ platform.keys
  steps : platform.steps ⊆ after.steps
  cold : "cold_layer" ∈ after.steps →
    "cold_layer" ∈ platform.steps ∨ RecordsCold op
  completed : after.completed →
    platform.completed ∨ "cold_layer" ∈ platform.steps

theorem Effect.keeps {op : Op} {platform after : Platform}
    (keys : ¬Writes op → after.keys ⊆ platform.keys)
    (steps : after.steps = platform.steps)
    (completed : after.completed = platform.completed) :
    Effect op platform after where
  keys := keys
  steps := by
    rw [steps]
    exact List.Subset.refl _
  cold now := .inl (steps ▸ now)
  completed now := .inl (completed ▸ now)

theorem Effect.refl (op : Op) (platform : Platform) :
    Effect op platform platform :=
  .keeps (fun _ => List.Subset.refl _) rfl rfl

theorem exec_day {platform after : Platform} {day : String}
    {op : ColdExport.Op} {choice : Choice} {reply : Reply (.day day op)}
    (executed : exec config platform (.day day op) choice =
      some (reply, after)) :
    after = platform ∨ ∃ stores, after = platform.absorb day op stores := by
  cases choice with
  | raises =>
      cases executed
      exact .inl rfl
  | _ =>
      rw [exec] at executed
      · split at executed
        · cases executed
          exact .inl rfl
        · obtain ⟨ran, -, same⟩ := Option.map_eq_some_iff.mp executed
          cases same
          exact .inr ⟨_, rfl⟩
      · exact nofun

theorem effect_record (platform : Platform) (store : String) :
    Effect (.record store) platform (platform.record store) where
  keys _ := List.Subset.refl _
  steps := by
    intro known member
    simp only [Platform.record]
    split
    · exact member
    · exact List.mem_cons_of_mem _ member
  cold now := by
    simp only [Platform.record] at now
    split at now
    · exact .inl now
    · rcases List.mem_cons.mp now with same | before
      · exact .inr (congrArg Op.record same.symm)
      · exact .inl before
  completed now := .inl now

theorem effect_complete {platform : Platform}
    (all : Deletion.requiredStores.all (· ∈ platform.steps) = true) :
    Effect .complete platform platform.complete where
  keys _ := List.Subset.refl _
  steps known member := by
    exact List.mem_cons_of_mem _ (List.mem_cons_of_mem _ member)
  cold now := by
    simp only [Platform.complete, List.mem_cons] at now
    rcases now with never | never | before
    · exact absurd never (by decide)
    · exact absurd never (by decide)
    · exact .inl before
  completed _ := by
    have listed : "cold_layer" ∈ Deletion.requiredStores := by decide
    exact .inr (of_decide_eq_true (List.all_eq_true.mp all _ listed))

theorem exec_effect {platform after : Platform} {op : Op} {choice : Choice}
    {reply : Reply op}
    (executed : exec config platform op choice = some (reply, after)) :
    Effect op platform after := by
  cases op with
  | day day op =>
      rcases exec_day config executed with rfl | ⟨stores, rfl⟩
      · exact .refl _ _
      · refine .keeps ?_ rfl rfl
        intro other
        have unwritten : ¬WritesDay op := by
          rw [← congrFun (writes_day day) op]
          exact other
        rw [keys_absorb unwritten]
        exact List.Subset.refl _
  | deleteObjects keys =>
      cases choice with
      | raises =>
          cases executed
          exact .refl _ _
      | _ =>
          cases executed
          exact .keeps (fun _ => keys_deleteObjects platform _) rfl rfl
  | record store =>
      cases choice with
      | raises =>
          cases executed
          exact .refl _ _
      | _ =>
          rw [exec] at executed
          · split at executed
            · cases executed
              exact effect_record platform store
            · cases executed
              exact .refl _ _
          · exact nofun
  | complete =>
      cases choice with
      | raises =>
          cases executed
          exact .refl _ _
      | _ =>
          rw [exec] at executed
          · split at executed
            · cases executed
              exact .refl _ _
            · split at executed
              · cases executed
                exact .refl _ _
              · split at executed
                · rename_i met
                  cases executed
                  exact effect_complete (Bool.and_eq_true_iff.mp met).1
                · cases executed
                  exact .refl _ _
          · exact nofun
  | hang => cases executed
  | _ =>
      cases choice with
      | _ =>
          cases executed
          exact .keeps (fun _ => List.Subset.refl _) rfl rfl

theorem change_effect {platform after : Platform} {event : Change}
    (changed : change platform event = some after) :
    after.keys = platform.keys ∧
      ("cold_layer" ∈ after.steps ↔ "cold_layer" ∈ platform.steps) ∧
      after.completed = platform.completed := by
  cases event with
  | source day event =>
      rw [change] at changed
      split at changed
      · cases changed
      · obtain ⟨stores, -, rfl⟩ := Option.map_eq_some_iff.mp changed
        exact ⟨rfl, .rfl, rfl⟩
  | volumesReclaimed =>
      rw [change] at changed
      split at changed
      · cases changed
        have effect := effect_record platform "notebook_volumes"
        refine ⟨rfl, ⟨fun now => ?_, fun before => effect.steps before⟩, rfl⟩
        rcases effect.cold now with before | never
        · exact before
        · exact absurd (Op.record.inj never) (by decide)
      · cases changed
  | _ =>
      cases changed
      exact ⟨rfl, .rfl, rfl⟩

theorem guarded_next {program : Job Unit}
    (guards : program.Guards RecordsCold NothingListed False) :
    program.next? ≠ some (.record "cold_layer") := by
  cases program with
  | done answer => nofun
  | fail failure => nofun
  | call op next =>
      intro same
      exact guards.1 (Option.some.inj same)

/-- A thread goes on: what it does next is sound, records the cold layer only
if nothing is left and none is writing, and does not turn to writing where it
must not. -/
theorem Quiet.replaced {pool : Jobs} (quiet : Quiet pool) {index : Nat}
    {request : Request} {op : Op} {next : Reply op → Job Unit}
    {after : Platform} {program : Job Unit}
    (running : pool.threads[index]? = some ⟨request, .call op next⟩)
    (effect : Effect op pool.shared after) (sound : Sound program)
    (opens : program.next? = some (.record "cold_layer") →
      pool.shared.keys = [] ∧ Idle pool ∧ ¬ReadsDay op)
    (waits : Idle pool → (Purged pool ∨ ¬ReadsDay op) →
      ¬Exporting program) :
    Quiet ⟨after, pool.threads.set index ⟨request, program⟩⟩ := by
  have clear : Purged ⟨after, pool.threads.set index ⟨request, program⟩⟩ →
      pool.shared.keys = [] ∧ Idle pool ∧ (Purged pool ∨ ¬ReadsDay op) := by
    have before : Purged pool →
        pool.shared.keys = [] ∧ Idle pool ∧ (Purged pool ∨ ¬ReadsDay op) :=
      fun purged => ⟨quiet.empty purged, quiet.idle purged, .inl purged⟩
    rintro (recorded | ⟨thread, member, next⟩)
    · rcases effect.cold recorded with known | records
      · exact before (.inl known)
      · apply before (.inr ⟨_, List.mem_of_getElem? running, ?_⟩)
        exact congrArg some records
    · rcases List.mem_or_eq_of_mem_set member with old | rfl
      · exact before (.inr ⟨thread, old, next⟩)
      · obtain ⟨empty, idle, other⟩ := opens next
        exact ⟨empty, idle, .inr other⟩
  refine ⟨?_, fun purged => ?_, fun purged => ?_, fun completed => ?_⟩
  · intro thread member
    rcases List.mem_or_eq_of_mem_set member with old | rfl
    · exact quiet.sound thread old
    · exact sound
  · obtain ⟨empty, idle, -⟩ := clear purged
    have silent : ¬Writes op := fun writes =>
      idle _ (List.mem_of_getElem? running) (.inl writes)
    have none := effect.keys silent
    rw [empty] at none
    exact List.subset_nil.mp none
  · obtain ⟨-, idle, condition⟩ := clear purged
    intro thread member
    rcases List.mem_or_eq_of_mem_set member with old | rfl
    · exact idle thread old
    · exact waits idle condition
  · rcases effect.completed completed with before | known
    · exact effect.steps (quiet.recorded before)
    · exact effect.steps known

theorem Sound.after {op : Op} {next : Reply op → Job Unit}
    (sound : Sound (.call op next)) (reply : Reply op) :
    Sound (next reply) where
  careful := (sound.careful reply).2
  guards := (sound.guards.2 reply).mono fun _ => trivial

theorem Sound.failed (failure : Failure) :
    Sound (.fail failure : Job Unit) :=
  ⟨trivial, trivial⟩

/-- The listing that lets the cold layer be recorded found nothing. -/
theorem listed_nothing {platform after : Platform} {op : Op}
    {choice : Choice} {reply : Reply op}
    (executed : exec config platform op choice = some (reply, after))
    (nothing : NothingListed op reply) :
    op = .listObjects ∧ choice ≠ .raises ∧ platform.keys = [] := by
  cases op with
  | listObjects =>
      cases choice with
      | raises =>
          cases executed
          exact nothing.elim
      | _ =>
          cases executed
          have none : platform.keys.take batch = [] := nothing
          refine ⟨rfl, nofun, ?_⟩
          rcases List.take_eq_nil_iff.mp none with zero | empty
          · exact absurd zero (by decide)
          · exact empty
  | _ => exact nothing.elim

theorem snapshot_rows {platform after : Platform} {day : String}
    {choice : Choice} {reply : Reply (.day day .snapshotDay)}
    (executed : exec config platform (.day day .snapshotDay) choice =
      some (reply, after))
    (none : (platform.day day).rows = []) :
    NoRows (.day day .snapshotDay) reply := by
  cases choice with
  | raises =>
      cases executed
      trivial
  | _ =>
      rw [exec] at executed
      · split at executed
        · cases executed
          trivial
        · cases executed
          exact congrArg List.length none
      · exact nofun

theorem quiet_step {pool next : Jobs} {event : Event} (quiet : Quiet pool)
    (undisturbed : Undisturbed pool event)
    (taken : Pool.step (jobs config) pool event = some next) :
    Quiet next := by
  cases Pool.stepped taken with
  | spawn request =>
      have before : Purged ⟨pool.shared, pool.threads ++
          [⟨request, handle config request⟩]⟩ → Purged pool := by
        rintro (recorded | ⟨thread, member, records⟩)
        · exact .inl recorded
        · rcases List.mem_append.mp member with old | new
          · exact .inr ⟨thread, old, records⟩
          · cases List.mem_singleton.mp new
            exact absurd records (guarded_next (handle_guards config request))
      refine ⟨?_, fun purged => quiet.empty (before purged), ?_,
        quiet.recorded⟩
      · intro thread member
        rcases List.mem_append.mp member with old | new
        · exact quiet.sound thread old
        · cases List.mem_singleton.mp new
          exact ⟨handle_careful config request,
            (handle_guards config request).mono False.elim⟩
      · intro purged thread member
        rcases List.mem_append.mp member with old | new
        · exact quiet.idle (before purged) thread old
        · cases List.mem_singleton.mp new
          exact handle_idle config request
  | @step index choice request op rest reply after running executed =>
      have sound := quiet.sound _ (List.mem_of_getElem? running)
      obtain ⟨reads, lists⟩ := undisturbed request op rest running
      apply quiet.replaced running (exec_effect config executed)
        (sound.after reply)
      · intro records
        have opened : NothingListed op reply := by
          by_contra closed
          apply guarded_next _ records
          exact (sound.guards.2 reply).mono closed
        obtain ⟨rfl, ran, empty⟩ := listed_nothing config executed opened
        exact ⟨empty, lists rfl ran empty, nofun⟩
      · intro idle condition exporting
        have before := idle _ (List.mem_of_getElem? running)
        by_cases read : ReadsDay op
        · have purged := condition.resolve_right (not_not_intro read)
          obtain ⟨day, rfl⟩ : ∃ day, op = .day day .snapshotDay := by
            cases op with
            | day day op =>
                cases op with
                | snapshotDay => exact ⟨day, rfl⟩
                | _ => exact read.elim
            | _ => exact read.elim
          apply (sound.careful reply).1 _ exporting
          exact snapshot_rows config executed (reads day rfl purged)
        · exact before (.inr ⟨read, reply, exporting⟩)
  | abort running =>
      exact quiet.replaced running (.refl _ _) (.failed _) nofun
        fun _ _ => id
  | lose running executed =>
      exact quiet.replaced running (exec_effect config executed) (.failed _)
        nofun fun _ _ => id
  | @environment change after changed =>
      obtain ⟨keys, steps, completed⟩ := change_effect changed
      have before : Purged ⟨after, pool.threads⟩ → Purged pool := by
        rintro (recorded | records)
        · exact .inl (steps.mp recorded)
        · exact .inr records
      refine ⟨quiet.sound, fun purged => ?_, fun purged => ?_, fun now => ?_⟩
      · exact keys.trans (quiet.empty (before purged))
      · exact quiet.idle (before purged)
      · exact steps.mpr (quiet.recorded (completed ▸ now))

/-- A completed deletion leaves nothing in the cold archive of the company,
and no later export creates anything there, where no day that an export reads
once the cold layer is purged has rows and none is about to write then. -/
theorem completed_leaves_nothing {platform : Platform} {final : Jobs}
    {events : List Event} (untouched : platform.steps = [])
    (uncompleted : platform.completed = false)
    (undisturbed : Along (Pool.step (jobs config)) Undisturbed
      (Pool.start platform) events)
    (ran : Concurrent.run (Pool.step (jobs config)) (Pool.start platform)
      events = some final)
    (completed : final.shared.completed = true) :
    final.shared.keys = [] := by
  have starts : Quiet (Pool.start platform) := by
    have unpurged : ¬Purged (Pool.start platform) := by
      rintro (recorded | ⟨thread, never, -⟩)
      · rw [Pool.start, untouched] at recorded
        cases recorded
      · cases never
    refine ⟨nofun, fun purged => absurd purged unpurged,
      fun purged => absurd purged unpurged, fun now => ?_⟩
    exact absurd (uncompleted.symm.trans now) nofun
  have ends : Quiet final := Concurrent.run_preserves_along Quiet
    (fun _ _ _ quiet allowed taken => quiet_step config quiet allowed taken)
    starts undisturbed ran
  exact ends.empty (.inl (ends.recorded completed))

def acme : Config where
  hash _ := 0
  schema := "tenant_acme"
  steps := ["capability_store", "cold_layer", "tracking_store",
    "device_certificates", "broker"]

def marchReading : Measurement where
  time := 0
  sensorId := "f2a4"
  equipmentId := "pump-1"
  siteId := "north"
  value := 0
  unit := none
  qualityCode := none
  isAnomaly := none

/-- The deletion is requested, and one day of the hot table is old enough. -/
def suspended : Platform where
  parts := []
  manifests := []
  schema := (Day.ofRows [marchReading]).map fun day => [("2026-03-01", day)]
  drops := []
  schemaName := some "tenant_acme"
  requested := true
  completed := false
  steps := []
  exportLock := false
  deleteLock := false

def goesOn (index calls : Nat) : List Event :=
  List.replicate calls (.step index .succeeds)

/-- The tracking store is not yet empty when the first pass comes; the export
runs before the second. -/
def exportBetween : List Event :=
  ([.spawn (.delete 1)] : List Event) ++ goesOn 0 7 ++
    ([.step 0 .notYet] : List Event) ++ goesOn 0 5 ++
    ([.spawn (.export "2026-06-01")] : List Event) ++ goesOn 1 10 ++
    ([.environment .volumesReclaimed, .spawn (.delete 1)] : List Event) ++
    goesOn 2 7

/-- The deletion has completed and the day is in the archive. -/
theorem archived_after_deletion :
    ((Concurrent.run (Pool.step (jobs acme)) (Pool.start suspended)
      exportBetween).map fun final =>
        (final.shared.completed, final.shared.keys)) =
      some (true, [.part "2026-03-01" (partFile 0),
        .manifest "2026-03-01"]) := by
  decide +kernel

/-! ## Passes without an export -/

def Apart (pool : Jobs) : Prop :=
  ∀ thread ∈ pool.threads, Never OfExport thread.program

def startsExport : Event → Bool
  | .spawn (.export _) => true
  | _ => false

theorem apart_step {pool next : Jobs} {event : Event} (apart : Apart pool)
    (passes : startsExport event = false)
    (taken : Pool.step (jobs config) pool event = some next) :
    Apart next := by
  have replaced {index : Nat} {request : Request} {program : Job Unit}
      (never : Never OfExport program) : ∀ thread ∈
        pool.threads.set index ⟨request, program⟩,
          Never OfExport thread.program := by
    intro thread member
    rcases List.mem_or_eq_of_mem_set member with old | rfl
    · exact apart thread old
    · exact never
  cases Pool.stepped taken with
  | spawn request =>
      intro thread member
      rcases List.mem_append.mp member with old | new
      · exact apart thread old
      · cases List.mem_singleton.mp new
        cases request with
        | «export» cutoff => cases passes
        | delete rounds => exact run_apart config rounds
  | step running executed =>
      exact replaced
        ((apart _ (List.mem_of_getElem? running)).2 _ trivial)
  | abort running => exact replaced trivial
  | lose running executed => exact replaced trivial
  | environment changed => exact apart

theorem Apart.undisturbed {pool : Jobs} (apart : Apart pool)
    (event : Event) : Undisturbed pool event := by
  have idle : Idle pool := fun thread member =>
    (never_writes (apart thread member)).not_reaches fun _ _ => trivial
  have called {index : Nat} {request : Request} {op : Op}
      {next : Reply op → Job Unit}
      (running : pool.threads[index]? = some ⟨request, .call op next⟩)
      (day : String) : op ≠ .day day .snapshotDay := by
    rintro rfl
    exact (apart _ (List.mem_of_getElem? running)).1 trivial
  cases event with
  | step index choice =>
      exact fun request op next running =>
        ⟨fun day same => absurd same (called running day),
          fun _ _ _ => idle⟩
  | lose index choice =>
      exact fun request op next running =>
        ⟨fun day same => absurd same (called running day),
          fun _ _ _ => idle⟩
  | _ => trivial

/-- Where no export runs beside the passes, none disturbs them. -/
theorem undisturbed_alone {pool : Jobs} {events : List Event}
    (apart : Apart pool)
    (passes : ∀ event ∈ events, startsExport event = false) :
    Along (Pool.step (jobs config)) Undisturbed pool events := by
  induction events generalizing pool with
  | nil => trivial
  | cons event events induction =>
      obtain ⟨now, later⟩ := List.forall_mem_cons.mp passes
      refine ⟨apart.undisturbed event, fun next taken => ?_⟩
      exact induction (apart_step config apart now taken) later

def onePass : List Event :=
  ([.environment .volumesReclaimed, .spawn (.delete 1)] : List Event) ++
    goesOn 0 15

theorem one_pass_leaves_nothing :
    ∃ final, Concurrent.run (Pool.step (jobs acme)) (Pool.start suspended)
        onePass = some final ∧
      final.shared.completed = true ∧ final.shared.keys = [] := by
  have ran : ((Concurrent.run (Pool.step (jobs acme)) (Pool.start suspended)
      onePass).map fun final => final.shared.completed) = some true := by
    decide +kernel
  obtain ⟨final, reached, completed⟩ := Option.map_eq_some_iff.mp ran
  have undisturbed : Along (Pool.step (jobs acme)) Undisturbed
      (Pool.start suspended) onePass :=
    undisturbed_alone acme nofun (by decide)
  exact ⟨final, reached, completed,
    completed_leaves_nothing acme rfl rfl undisturbed reached completed⟩

end IndustryFlow.Purge
