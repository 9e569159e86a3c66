import IndustryFlow.Alerts.Dedup

/-!
# One emit after the other

A sequence of emits and restarts does to the table what `record` does: the
window alone decides, and neither the caches nor their capacity show.  With
that the deduplication of the engine is stated for all runs at the end.
-/

namespace IndustryFlow.Alerts

open Concurrent

/-- The table's own answer: the alert is written unless one of its scope lies
strictly within the window. -/
def record (config : Config) (rows : List Row) (emission : Emission) :
    Bool × List Row :=
  if ∃ row ∈ rows, row.InScope emission.scope ∧
      |emission.triggeredAt - row.triggeredAt| <
        config.window emission.scope then (false, rows)
  else (true, rows ++ [config.row emission])

inductive Call where
  | emit (request : Request)
  | restart (replica : Nat)
deriving DecidableEq

namespace Call

def emission? : Call → Option Emission
  | .emit request => some request.emission
  | .restart _ => none

end Call

/-- The answers and the stores after a sequence of calls. -/
def runCalls (config : Config) (stores : Stores) :
    List Call → Option (List (Except EmitError Bool) × Stores)
  | [] => some ([], stores)
  | .emit request :: calls =>
      ((emit config request.replica request.emission).alone
        (fun later op => exec config later op ()) stores).bind fun emitted =>
          (runCalls config emitted.2 calls).map fun rest =>
            (emitted.1 :: rest.1, rest.2)
  | .restart replica :: calls =>
      (change stores (.restart replica)).bind fun after =>
        runCalls config after calls

/-- The answers and the table after a sequence of calls. -/
def recordCalls (config : Config) (rows : List Row) :
    List Call → List Bool × List Row
  | [] => ([], rows)
  | .emit request :: calls =>
      let recorded := record config rows request.emission
      let rest := recordCalls config recorded.2 calls
      (recorded.1 :: rest.1, rest.2)
  | .restart _ :: calls => recordCalls config rows calls

theorem recordCalls_capacity (config : Config) (size : Nat)
    (rows : List Row) (calls : List Call) :
    recordCalls { config with dedupCacheMax := size } rows calls =
      recordCalls config rows calls := by
  induction calls generalizing rows with
  | nil => rfl
  | cons call calls induction =>
      have recorded (emission : Emission) :
          record { config with dedupCacheMax := size } rows emission =
            record config rows emission := rfl
      cases call with
      | emit request => simp only [recordCalls, recorded, induction]
      | restart replica => exact induction rows

variable {config : Config} {emissions : Emission → Prop}

private theorem record_covered {emission : Emission} {stores : Stores}
    (covered : Covered config emission stores) :
    record config stores.rows emission = (false, stores.rows) :=
  if_pos covered

private theorem record_uncovered {emission : Emission} {stores : Stores}
    (uncovered : ¬Covered config emission stores) :
    record config stores.rows emission =
      (true, stores.rows ++ [config.row emission]) :=
  if_neg uncovered

/-- No transaction is open. -/
structure Quiet (stores : Stores) : Prop where
  opened : stores.opened = []
  locks : stores.locks = []
  pending : stores.pending = []

/-- The store as `save_alert_once` finds it after taking the lock. -/
private def locking (config : Config) (emission : Emission)
    (stores : Stores) : Stores :=
  { stores with
    next := stores.next + 1
    opened := stores.next :: stores.opened
    locks := (config.dedupLockKey emission.scope, stores.next) ::
      stores.locks }

private theorem saveOnce_answered {stores : Stores}
    (quiet : stores.pending = []) (transaction : Nat) (row : Row)
    (scope : Scope) (window : Int) :
    ∃ answer after, saveOnce stores transaction row scope window =
      some (answer, after) := by
  simp only [saveOnce, quiet, List.not_mem_nil, false_and, exists_false,
    ↓reduceIte]
  split
  · exact ⟨_, _, rfl⟩
  · split
    · exact ⟨_, _, rfl⟩
    · exact ⟨_, _, rfl⟩

private theorem saveAlertOnce_eq (emission : Emission)
    {stores saved : Stores} (quiet : Quiet stores)
    {answer : Bool × Option Int}
    (ran : saveOnce (locking config emission stores) stores.next
      (config.row emission) emission.scope (config.window emission.scope) =
        some (answer, saved)) (opened : stores.next ∈ saved.opened) :
    (saveAlertOnce config emission).alone
      (fun later op => exec config later op ()) stores =
        some (.ok answer, saved.commit stores.next) := by
  have locked : exec config { stores with
        next := stores.next + 1
        opened := stores.next :: stores.opened }
      (.advisoryLock stores.next (config.dedupLockKey emission.scope)) () =
        some (some (), locking config emission stores) := by
    simp [exec, quiet.locks, locking]
  have stated : exec config (locking config emission stores)
      (.saveOnce stores.next (config.row emission) emission.scope
        (config.window emission.scope)) () =
      some (some answer, saved) := by
    simp only [exec, ran]
    simp [locking]
  have committed : exec config saved (.commit stores.next) () =
      some (some (), saved.commit stores.next) := by
    simp [exec, opened]
  have begun : exec config stores .begin () =
      some (stores.next, { stores with
        next := stores.next + 1
        opened := stores.next :: stores.opened }) := rfl
  unfold saveAlertOnce
  simp only [Program.perform_bind]
  rw [Program.alone_call begun, Program.alone_call locked]
  simp only [orRaise, Program.done_bind]
  rw [Program.alone_call stated]
  simp only [Program.done_bind]
  rw [Program.alone_call committed]
  rfl

private theorem saveAlertOnce_alone (sound : config.Sound emissions)
    {emission : Emission} (emitted : emissions emission) {stores : Stores}
    (consistent : Consistent config emissions stores)
    (quiet : Quiet stores) :
    ∃ answer after,
      (saveAlertOnce config emission).alone
          (fun later op => exec config later op ()) stores =
        some (.ok answer, after) ∧ Quiet after ∧
      (answer.1, after.rows) = record config stores.rows emission ∧
      (answer.1 = false → ∃ time, answer.2 = some time) := by
  obtain ⟨answer, saved, ran⟩ := saveOnce_answered
    (show (locking config emission stores).pending = [] from quiet.pending)
    stores.next (config.row emission) emission.scope
    (config.window emission.scope)
  have visible : (locking config emission stores).visible stores.next =
      stores.rows := by
    simp [Stores.visible, Stores.waiting, locking, quiet.pending]
  have cases := saveOnce_cases ran
  rw [visible] at cases
  rcases cases with
    ⟨near, seen, inScope, close, rfl, rfl⟩ | ⟨clear, conflict | inserted⟩
  · refine ⟨_, _, saveAlertOnce_eq emission quiet ran
      (List.mem_cons_self), ?_, ?_, fun _ => ⟨_, rfl⟩⟩
    · constructor <;> simp [Stores.commit, Stores.close, locking,
        quiet.opened, quiet.locks, quiet.pending]
    · rw [record_covered ⟨near, seen, inScope, close⟩]
      exact congrArg (Prod.mk false) visible
  · obtain ⟨-, -, row, seen, same⟩ := conflict
    obtain ⟨other, before, rfl⟩ := consistent.emitted 0 row
      (List.mem_append_left _ seen)
    obtain ⟨inScope, close⟩ :=
      samePrimaryKey_near sound emitted before same
    exact absurd close (not_lt.mpr (clear _ seen inScope))
  · obtain ⟨rfl, rfl⟩ := inserted
    refine ⟨_, _, saveAlertOnce_eq emission quiet ran
      (List.mem_cons_self), ?_, ?_, by simp⟩
    · constructor <;> simp [Stores.commit, Stores.close, Stores.insert,
        locking, quiet.opened, quiet.locks, quiet.pending]
    · have uncovered : ¬Covered config emission stores := by
        intro covered
        obtain ⟨near, seen, inScope, close⟩ := covered
        exact absurd close (not_lt.mpr (clear near seen inScope))
      rw [record_uncovered uncovered]
      simp [Stores.commit, Stores.visible, Stores.waiting, Stores.insert,
        locking, quiet.pending]

/-- An emit on a quiet store, whatever its cache holds. -/
theorem emit_alone (sound : config.Sound emissions) (replica : Nat)
    {emission : Emission} (emitted : emissions emission) {stores : Stores}
    (consistent : Consistent config emissions stores)
    (quiet : Quiet stores) :
    ∃ after, (emit config replica emission).alone
        (fun later op => exec config later op ()) stores =
      some (.ok (record config stores.rows emission).1, after) ∧
      Quiet after ∧ Consistent config emissions after ∧
      after.rows = (record config stores.rows emission).2 := by
  have ran : ∃ after, (emit config replica emission).alone
        (fun later op => exec config later op ()) stores =
      some (.ok (record config stores.rows emission).1, after) ∧
      Quiet after ∧ after.rows = (record config stores.rows emission).2 := by
    have asked : exec config stores (.cachedWithin replica emission.scope
        emission.triggeredAt (config.window emission.scope)) () =
        some (cachedWithin (stores.caches replica) emission.scope
          emission.triggeredAt (config.window emission.scope), stores) := rfl
    unfold emit
    simp only [Program.perform_bind]
    rw [Program.alone_call asked]
    cases hit : cachedWithin (stores.caches replica) emission.scope
        emission.triggeredAt (config.window emission.scope) with
    | true =>
        rw [record_covered (consistent.covered hit)]
        exact ⟨stores, rfl, quiet, rfl⟩
    | false =>
        obtain ⟨⟨inserted, prior⟩, saved, ran, quietSaved, same, known⟩ :=
          saveAlertOnce_alone sound emitted consistent quiet
        simp only [Bool.false_eq_true, ↓reduceIte]
        rw [Program.alone_bind, ran]
        simp only [Option.bind_some]
        rw [← same]
        cases inserted with
        | true =>
            exact ⟨_, rfl, ⟨quietSaved.opened, quietSaved.locks,
              quietSaved.pending⟩, rfl⟩
        | false =>
            obtain ⟨time, rfl⟩ := known rfl
            exact ⟨_, rfl, ⟨quietSaved.opened, quietSaved.locks,
              quietSaved.pending⟩, rfl⟩
  obtain ⟨after, ran, quietAfter, same⟩ := ran
  have kept := (emit_safe sound replica emitted stores).alone consistent
    (fun _ _ => trivial) ran
  exact ⟨after, ran, quietAfter, kept.1, same⟩

/-- A sequence of calls stores what the table alone would. -/
theorem runCalls_records (sound : config.Sound emissions)
    {calls : List Call}
    (emitted : ∀ call ∈ calls, ∀ emission ∈ call.emission?,
      emissions emission) {stores : Stores}
    (consistent : Consistent config emissions stores)
    (quiet : Quiet stores) :
    ∃ after, runCalls config stores calls =
        some ((recordCalls config stores.rows calls).1.map .ok, after) ∧
      after.rows = (recordCalls config stores.rows calls).2 := by
  induction calls generalizing stores with
  | nil => exact ⟨stores, rfl, rfl⟩
  | cons call calls induction =>
      obtain ⟨head, tail⟩ := List.forall_mem_cons.mp emitted
      cases call with
      | emit request =>
          obtain ⟨after, ran, quietAfter, kept, same⟩ :=
            emit_alone sound request.replica (head _ rfl) consistent quiet
          obtain ⟨final, rest, rows⟩ := induction tail kept quietAfter
          rw [same] at rest rows
          refine ⟨final, ?_, rows⟩
          simp [runCalls, ran, rest, recordCalls]
      | restart replica =>
          exact induction tail (consistent.restart replica)
            ⟨quiet.opened, quiet.locks, quiet.pending⟩

/-! ## All runs of the engine -/

/-- The emits that come are of these `emissions`. -/
def Emits (emissions : Emission → Prop) :
    PoolEvent Request Unit Change → Prop
  | .spawn request => emissions request.emission
  | _ => True

/-- An emit of this emission has answered. -/
def AlreadyEmitted
    (pool : Pool Stores Request Op Reply EmitError Bool)
    (emission : Emission) : Prop :=
  ∃ thread ∈ pool.threads, thread.request.emission = emission ∧
    thread.program.answer?.isSome

instance (pool : Pool Stores Request Op Reply EmitError Bool)
    (emission : Emission) : Decidable (AlreadyEmitted pool emission) :=
  inferInstanceAs (Decidable (∃ _ ∈ _, _))

private theorem allowed_of_emits {contract : Contract Stores Op Unit}
    (all : ∀ stores op choice, contract.allowed stores op choice)
    (pool : Pool Stores Request Op Reply EmitError Bool)
    {event : PoolEvent Request Unit Change}
    (emits : Emits emissions event) :
    Pool.Allowed (fun request => emissions request.emission) contract pool
      event := by
  cases event with
  | spawn request => exact emits
  | step index choice => exact fun _ _ _ _ => all _ _ _
  | abort index => trivial
  | lose index choice => exact fun _ _ _ _ => all _ _ _
  | environment change => trivial

private theorem change_kept {stores after : Stores} {changed : Change}
    (consistent : Consistent config emissions stores)
    (done : change stores changed = some after) :
    Consistent config emissions after ∧ Grows stores after := by
  cases changed with
  | rollback transaction =>
      cases done
      exact ⟨consistent.close transaction, close_grows stores transaction⟩
  | restart replica =>
      cases done
      exact ⟨consistent.restart replica, { Grows.refl stores with }⟩

private theorem run_kept (sound : config.Sound emissions)
    {events : List (PoolEvent Request Unit Change)}
    {pool : Pool Stores Request Op Reply EmitError Bool}
    (emitted : ∀ event ∈ events, Emits emissions event)
    (ran : run (Pool.step (engine config)) (Pool.start .empty) events =
      some pool) :
    Pool.Kept (engine config) (emitContract config emissions)
      (fun request => EmitPost config request.emission) pool := by
  refine run_preserves_along _ ?_ ?_
    (Along.of_forall _ (Pool.start .empty) emitted) ran
  · intro before event next kept emits taken
    refine (Pool.step_keeps id ?_ ?_ ?_ kept
      (allowed_of_emits (fun _ _ _ => trivial) before emits) taken).1
    · exact fun request stores welcome _ =>
        emit_safe sound request.replica welcome stores
    · exact fun _ _ _ => trivial
    · exact fun _ _ _ consistent changed => change_kept consistent changed
  · exact ⟨Consistent.empty config emissions, by simp [Pool.start]⟩

/-- Emissions that were answered before leave the table as it is. -/
private theorem rerun_rows
    {pool final : Pool Stores Request Op Reply EmitError Bool}
    (kept : Pool.Kept (engine config) (emitContract config emissions)
      (fun request => EmitPost config request.emission) pool)
    (rest : pool.AtRest) {later : List (PoolEvent Request Unit Change)}
    (again : ∀ event ∈ later, Emits (AlreadyEmitted pool) event)
    (ran : run (Pool.step (engine config)) pool later = some final) :
    final.shared.rows = pool.shared.rows := by
  have replayed : Pool.Kept (engine config)
      (replayContract config emissions pool.shared.rows pool.shared.next)
      (fun _ _ _ => True) final := by
    refine run_preserves_along _ ?_ ?_ (Along.of_forall _ pool again) ran
    · intro before event next kept' emits taken
      refine (Pool.step_keeps id ?_ ?_ ?_ kept'
        (allowed_of_emits (fun _ _ _ => trivial) before emits) taken).1
      · intro request stores welcome _
        obtain ⟨⟨earlier, program⟩, member, same, answered⟩ := welcome
        cases program with
        | done answer =>
            have covered := (kept.answered member).1
            rw [show earlier.emission = request.emission from same]
              at covered
            exact reemit_safe request.replica covered stores
        | fail error => cases answered
        | call op next => cases answered
      · exact fun _ _ _ => trivial
      · intro stores changed after replaying done
        obtain ⟨consistent, grows⟩ :=
          change_kept replaying.consistent done
        refine ⟨⟨consistent, ?_, replaying.limit_le.trans grows.next, ?_⟩,
          grows⟩
        · cases changed <;> cases done <;> exact replaying.rows_eq
        · intro entry member
          cases changed with
          | rollback transaction =>
              cases done
              exact replaying.pending_old entry (List.mem_filter.mp member).1
          | restart replica =>
              cases done
              exact replaying.pending_old entry member
    · refine ⟨⟨kept.holds, rfl, Nat.le_refl _, kept.holds.begun⟩, ?_⟩
      intro thread member
      obtain ⟨request, program⟩ := thread
      cases program with
      | done answer => exact fun _ _ _ => trivial
      | fail error => exact fun _ _ _ => trivial
      | call op next =>
          have finished := rest _ member
          simp [Program.Finished, Program.next?] at finished
  exact replayed.holds.rows_eq

/-- Deduplication across replicas, restarts and redelivery: stored alerts of
one scope lie a window apart, only covered alerts are suppressed, repeating
answered emissions stores nothing, and the caches do not show. -/
theorem emit_deduplicates (sound : config.Sound emissions) :
    (∀ (events : List (PoolEvent Request Unit Change))
      (pool : Pool Stores Request Op Reply EmitError Bool),
      (∀ event ∈ events, Emits emissions event) →
      run (Pool.step (engine config)) (Pool.start .empty) events =
        some pool →
      pool.shared.rows.Pairwise (Apart config) ∧
      (pool.AtRest → ∀ later final,
        (∀ event ∈ later, Emits (AlreadyEmitted pool) event) →
        run (Pool.step (engine config)) pool later = some final →
          final.shared.rows = pool.shared.rows) ∧
      (∀ request, ⟨request, .done false⟩ ∈ pool.threads →
        Covered config request.emission pool.shared)) ∧
    (∀ (calls : List Call) (first second : Nat),
      (∀ call ∈ calls, ∀ emission ∈ call.emission?, emissions emission) →
      ∃ answers left right,
        runCalls { config with dedupCacheMax := first } .empty calls =
          some (answers, left) ∧
        runCalls { config with dedupCacheMax := second } .empty calls =
          some (answers, right) ∧
        left.rows = right.rows) := by
  constructor
  · intro events pool emitted ran
    have kept := run_kept sound emitted ran
    refine ⟨?_, ?_, ?_⟩
    · have apart := kept.holds.apart 0
      exact (List.pairwise_append.mp apart).1
    · intro rest later final again reran
      exact rerun_rows kept rest again reran
    · intro request member
      exact (kept.answered member).1
  · intro calls first second emitted
    have quiet : Quiet .empty := ⟨rfl, rfl, rfl⟩
    have capacity (size : Nat) :
        Config.Sound { config with dedupCacheMax := size } emissions :=
      { sound with }
    obtain ⟨left, ranLeft, rowsLeft⟩ :=
      runCalls_records (capacity first) emitted (.empty _ _) quiet
    obtain ⟨right, ranRight, rowsRight⟩ :=
      runCalls_records (capacity second) emitted (.empty _ _) quiet
    refine ⟨_, left, right, ranLeft, ?_, ?_⟩
    · rw [recordCalls_capacity config first]
      rw [recordCalls_capacity config second] at ranRight
      exact ranRight
    · rw [rowsLeft, rowsRight, recordCalls_capacity config first,
        recordCalls_capacity config second]

/-- A threshold alert of one rule of one company at the given time. -/
def thresholdAlert (time : Int) : Emission :=
  .alert
    { company := ⟨"11111111-1111-4111-8111-111111111111", by decide,
        by decide⟩
      rule := ⟨"22222222-2222-4222-8222-222222222222", by decide,
        by decide⟩
      sensor := none
      equipment := none
      site := none
      triggeredAt := time
      detectionType := "threshold"
      thresholdValue := none
      actualValue := none
      condition := some "greater_than"
      model := none
      anomalyScore := none
      severity := "high"
      message := "Threshold" } (by simp [retrainRecommended])

/-- Five minutes and a day, with the digests of two alerts of that rule. -/
def fiveMinutes : Config where
  cooldown := 300000000
  retrainCooldown := 86400000000
  dedupCacheMax := 1
  digest _ := -7002646327620460611
  uuid5 name :=
    if name = "11111111-1111-4111-8111-111111111111|" ++
        "22222222-2222-4222-8222-222222222222|||1970-01-01T00:00:00+00:00"
    then "f9c89809-57f1-5859-b8cd-e1e34ea29d3e"
    else "ad73256f-6ff1-51bd-a7ab-df1cd80f6413"
  isoformat time :=
    if time = 0 then "1970-01-01T00:00:00+00:00"
    else "1970-01-01T00:00:00.000001+00:00"

theorem fiveMinutes_sound :
    fiveMinutes.Sound (· ∈ [thresholdAlert 0, thresholdAlert 1]) where
  cooldown_pos := by decide
  retrainCooldown_pos := by decide
  uuid5_injective := by
    have separate : ∀ first ∈ [thresholdAlert 0, thresholdAlert 1],
        ∀ second ∈ [thresholdAlert 0, thresholdAlert 1],
          fiveMinutes.uuid5 (fiveMinutes.alertName first.scope
              first.triggeredAt) =
            fiveMinutes.uuid5 (fiveMinutes.alertName second.scope
              second.triggeredAt) →
          fiveMinutes.alertName first.scope first.triggeredAt =
            fiveMinutes.alertName second.scope second.triggeredAt := by
      decide +kernel
    exact fun first second left right => separate first left second right
  isoformat_barless := by
    decide +kernel

/-- Two replicas emit at the same time. -/
def atOnce : List (PoolEvent Request Unit Change) :=
  ([.spawn ⟨0, thresholdAlert 0⟩, .spawn ⟨1, thresholdAlert 1⟩] :
    List (PoolEvent Request Unit Change)) ++
    (List.replicate 6 (.step 0 ()) : List (PoolEvent Request Unit Change)) ++
    (List.replicate 6 (.step 1 ()) : List (PoolEvent Request Unit Change))

/-- A replica restarts and gets one of the readings again. -/
def redelivered : List (PoolEvent Request Unit Change) :=
  ([.environment (.restart 1), .spawn ⟨1, thresholdAlert 1⟩] :
    List (PoolEvent Request Unit Change)) ++
    (List.replicate 6 (.step 2 ()) : List (PoolEvent Request Unit Change))

theorem emit_deduplicates_two_replicas : ∃ pool final,
    run (Pool.step (engine fiveMinutes)) (Pool.start .empty) atOnce =
      some pool ∧
    run (Pool.step (engine fiveMinutes)) pool redelivered = some final ∧
    pool.shared.rows.Pairwise (Apart fiveMinutes) ∧
    final.shared.rows = pool.shared.rows := by
  have ran : ((run (Pool.step (engine fiveMinutes)) (Pool.start .empty)
      atOnce).any fun pool => decide (pool.AtRest ∧
        AlreadyEmitted pool (thresholdAlert 1) ∧
        (run (Pool.step (engine fiveMinutes)) pool redelivered).isSome)) =
          true := by
    decide +kernel
  obtain ⟨pool, ran, facts⟩ := (Option.any_eq_true _ _).mp ran
  obtain ⟨rest, emitted, reran⟩ := of_decide_eq_true facts
  obtain ⟨final, reran⟩ := Option.isSome_iff_exists.mp reran
  obtain ⟨apart, replay, -⟩ := (emit_deduplicates fiveMinutes_sound).1
    atOnce pool (by simp [atOnce, Emits]) ran
  exact ⟨pool, final, ran, reran, apart, replay rest redelivered final
    (by simp [redelivered, Emits, emitted]) reran⟩

end IndustryFlow.Alerts
