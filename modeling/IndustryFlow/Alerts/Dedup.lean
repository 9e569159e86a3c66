import IndustryFlow.Alerts.Window

/-!
# Deduplication over all runs

Every emit is safe beside every other (`emit_safe`), which gives the window
for all interleavings, restarts and lost workers.  A repeated emission finds
the alert that answered it before (`reemit_safe`).
-/

namespace IndustryFlow.Alerts

open Concurrent

variable {config : Config} {emissions : Emission → Prop}

/-- Emits rely on `Grows` and guarantee it to each other. -/
def emitContract (config : Config) (emissions : Emission → Prop) :
    Contract Stores Op Unit where
  invariant := Consistent config emissions
  allowed _ _ _ := True
  rely := Grows
  guarantee := Grows
  rely_refl := Grows.refl
  rely_trans := Grows.trans

/-- A stored alert stands behind the answer of `save_alert_once`. -/
def Answers (config : Config) (emission : Emission) (near : Row)
    (answer : Bool × Option Int) : Prop :=
  near.InScope emission.scope ∧
    |emission.triggeredAt - near.triggeredAt| <
      config.window emission.scope ∧
    (answer = (true, none) ∧ near = config.row emission ∨
      answer = (false, some near.triggeredAt))

def SavePost (config : Config) (emission : Emission) :
    Except EmitError (Bool × Option Int) → Stores → Prop
  | .ok answer, stores => ∃ near ∈ stores.rows,
      Answers config emission near answer
  | .error _, _ => True

/-- A written alert is stored, and a suppressed one is covered. -/
def EmitPost (config : Config) (emission : Emission) :
    Except EmitError Bool → Stores → Prop
  | .ok written, stores => Covered config emission stores ∧
      (written = true → config.row emission ∈ stores.rows)
  | .error _, _ => True

private theorem commit_safe {emission : Emission} {transaction : Nat}
    {near : Row} {answer : Bool × Option Int} {stores : Stores}
    (answers : Answers config emission near answer)
    (begun : transaction < stores.next)
    (seen : near ∈ stores.visible transaction) :
    (commit transaction >>= fun committed => orRaise committed >>=
      fun _ => (pure answer : Emit (Bool × Option Int))).Safe (exec config)
        (emitContract config emissions) (SavePost config emission) stores := by
  intro later consistent grows choice reply after _ executed
  refine ⟨?_, exec_grows config executed, ?_⟩
  · simp only [exec] at executed
    split at executed
    · cases executed
      exact consistent
    · cases executed
      exact consistent.commit transaction
  · simp only [exec] at executed
    split at executed
    · cases executed
      exact fun _ _ _ => trivial
    · rename_i opened
      cases executed
      intro last _ more
      refine ⟨near, more.rows ?_, answers⟩
      show near ∈ later.visible transaction
      rcases List.mem_append.mp seen with stored | waiting
      · exact List.mem_append_left _ (grows.rows stored)
      · exact List.mem_append_right _ (mem_waiting.mpr
          (grows.pending near transaction begun (mem_waiting.mp waiting)
            (not_not.mp opened)))

/-- A primary-key conflict is a row of the same scope at the same time. -/
theorem samePrimaryKey_near (sound : config.Sound emissions)
    {emission other : Emission} (emitted : emissions emission)
    (before : emissions other) (conflict : Stores.samePrimaryKey (config.row other)
      (config.row emission)) :
    (config.row other).InScope emission.scope ∧
      |emission.triggeredAt - (config.row other).triggeredAt| <
        config.window emission.scope := by
  obtain ⟨-, ids, times⟩ := conflict
  have names := sound.uuid5_injective other emission before emitted ids
  have scopes := alertName_scope sound before emitted names
  refine ⟨(row_inScope_iff config other _).mpr scopes.symm, ?_⟩
  rw [show (config.row other).triggeredAt = emission.triggeredAt from times,
    sub_self, abs_zero]
  exact sound.window_pos emission.scope

/-- The statement's answer stands on a row the transaction sees. -/
private theorem saveOnce_answers (sound : config.Sound emissions)
    {emission : Emission} {stores after : Stores} {transaction : Nat}
    {answer : Bool × Option Int}
    (consistent : Consistent config emissions stores)
    (emitted : emissions emission) (begun : transaction < stores.next)
    (held : (config.dedupLockKey emission.scope, transaction) ∈
      stores.locks)
    (saved : saveOnce stores transaction (config.row emission)
      emission.scope (config.window emission.scope) =
        some (answer, after)) :
    Consistent config emissions after ∧ after.next = stores.next ∧
      ∃ near ∈ after.visible transaction,
        Answers config emission near answer := by
  rcases saveOnce_cases saved with
    ⟨near, seen, inScope, close, rfl, rfl⟩ | ⟨clear, conflict | inserted⟩
  · exact ⟨consistent, rfl, near, seen, inScope, close, .inr rfl⟩
  · obtain ⟨-, -, row, seen, same⟩ := conflict
    obtain ⟨other, before, rfl⟩ := consistent.emitted transaction row seen
    obtain ⟨inScope, close⟩ :=
      samePrimaryKey_near sound emitted before same
    exact absurd close (not_lt.mpr (clear _ seen inScope))
  · obtain ⟨rfl, rfl⟩ := inserted
    refine ⟨consistent.insert emitted begun held clear, rfl, config.row emission, ?_,
      (row_inScope_iff config emission _).mpr rfl, ?_, .inl ⟨rfl, rfl⟩⟩
    · exact List.mem_append_right _
        (mem_waiting.mpr (List.mem_append_right _ (List.mem_singleton_self _)))
    · show |emission.triggeredAt - emission.triggeredAt| < _
      rw [sub_self, abs_zero]
      exact sound.window_pos emission.scope

private theorem saveStatement_safe (sound : config.Sound emissions)
    {emission : Emission} (emitted : emissions emission)
    {transaction : Nat} {stores : Stores}
    (begun : transaction < stores.next)
    (held : (config.dedupLockKey emission.scope, transaction) ∈
      stores.locks) :
    (saveStatement transaction (config.row emission) emission.scope
        (config.window emission.scope) >>= fun saved =>
      orRaise saved >>= fun answer =>
      commit transaction >>= fun committed =>
      orRaise committed >>= fun _ =>
        (pure answer : Emit (Bool × Option Int))).Safe (exec config)
      (emitContract config emissions) (SavePost config emission) stores := by
  intro later consistent grows choice reply after _ executed
  have grown := exec_grows config executed
  simp only [exec] at executed
  split at executed
  · cases executed
    exact ⟨consistent, grown, fun _ _ _ => trivial⟩
  · rename_i opened
    obtain ⟨⟨answer, saved⟩, ran, equal⟩ :=
      Option.map_eq_some_iff.mp executed
    cases equal
    have stillHeld := grows.locks _ transaction begun held
      (not_not.mp opened)
    have begunStill := begun.trans_le grows.next
    obtain ⟨kept, same, near, seen, answers⟩ :=
      saveOnce_answers sound consistent emitted begunStill stillHeld ran
    exact ⟨kept, grown, commit_safe answers (same ▸ begunStill) seen⟩

theorem saveAlertOnce_safe (sound : config.Sound emissions)
    {emission : Emission} (emitted : emissions emission)
    (stores : Stores) :
    (saveAlertOnce config emission).Safe (exec config)
      (emitContract config emissions) (SavePost config emission) stores := by
  intro later consistent _ choice transaction begun _ executed
  have grown := exec_grows config executed
  cases executed
  refine ⟨consistent.starting, grown, ?_⟩
  intro next consistent grows choice reply after _ executed
  have grownAgain := exec_grows config executed
  have open_ : later.next < next.next :=
    (Nat.lt_succ_self later.next).trans_le grows.next
  simp only [exec] at executed
  split at executed
  · cases executed
    exact ⟨consistent, grownAgain, fun _ _ _ => trivial⟩
  · split at executed
    · cases executed
    · rename_i free
      cases executed
      refine ⟨consistent.lock free, grownAgain, ?_⟩
      exact saveStatement_safe sound emitted open_ (List.mem_cons_self)

private theorem remember_safe {emission : Emission} {near : Row}
    {stores : Stores} (written : Bool) (replica : Nat) (time : Int)
    (stored : near ∈ stores.rows) (inScope : near.InScope emission.scope)
    (same : near.triggeredAt = time)
    (post : ∀ later, Grows stores later →
      EmitPost config emission (.ok written) later) :
    (remember replica emission.scope time >>=
      fun _ => (pure written : Emit Bool)).Safe (exec config)
        (emitContract config emissions) (EmitPost config emission) stores := by
  intro later consistent grows choice reply after _ executed
  have grown := exec_grows config executed
  cases executed
  refine ⟨consistent.remember (grows.rows stored) inScope same replica,
    grown, ?_⟩
  exact fun last _ more => post last (grows.trans (grown.trans more))

/-- An emit keeps the stores consistent beside all others, and its answer
stands on a stored alert. -/
theorem emit_safe (sound : config.Sound emissions) (replica : Nat)
    {emission : Emission} (emitted : emissions emission)
    (stores : Stores) :
    (emit config replica emission).Safe (exec config)
      (emitContract config emissions) (EmitPost config emission) stores := by
  unfold emit
  simp only [Program.perform_bind]
  intro later consistent _ choice reply after _ executed
  have grown := exec_grows config executed
  cases executed
  refine ⟨consistent, grown, ?_⟩
  cases hit : cachedWithin (later.caches replica) emission.scope
      emission.triggeredAt (config.window emission.scope) with
  | true =>
      simp only [↓reduceIte]
      exact fun last _ more =>
        ⟨(consistent.covered hit).mono more, fun written => by cases written⟩
  | false =>
      simp only [Bool.false_eq_true, ↓reduceIte]
      refine Program.Safe.bind consistent
        (saveAlertOnce_safe sound emitted later) ?_ (fun _ _ _ => trivial)
      rintro ⟨inserted, prior⟩ last _ ⟨near, stored, inScope, close, answer⟩
      have covered (final : Stores) (more : Grows last final) :
          Covered config emission final :=
        ⟨near, more.rows stored, inScope, close⟩
      rcases answer with ⟨answer, rfl⟩ | answer
      · cases answer
        exact remember_safe true replica _ stored inScope rfl
          fun final more => ⟨covered final more, fun _ => more.rows stored⟩
      · cases answer
        exact remember_safe false replica _ stored inScope rfl
          fun final more =>
            ⟨covered final more, fun written => by cases written⟩

/-! ## Emissions that were answered before -/

/-- The stored rows are `rows`, and only transactions from before `limit`
have inserted any. -/
structure Replaying (config : Config) (emissions : Emission → Prop)
    (rows : List Row) (limit : Nat) (stores : Stores) : Prop where
  consistent : Consistent config emissions stores
  rows_eq : stores.rows = rows
  limit_le : limit ≤ stores.next
  pending_old : ∀ entry ∈ stores.pending, entry.1 < limit

def replayContract (config : Config) (emissions : Emission → Prop)
    (rows : List Row) (limit : Nat) :
    Contract Stores Op Unit where
  invariant := Replaying config emissions rows limit
  allowed _ _ _ := True
  rely := Grows
  guarantee := Grows
  rely_refl := Grows.refl
  rely_trans := Grows.trans

private theorem Replaying.visible_eq {rows : List Row} {limit : Nat}
    {stores : Stores} (replaying : Replaying config emissions rows limit stores)
    {transaction : Nat} (recent : limit ≤ transaction) :
    stores.visible transaction = rows := by
  have none_waiting : stores.waiting transaction = [] := by
    rw [List.eq_nil_iff_forall_not_mem]
    intro row waiting
    have old := replaying.pending_old _ (mem_waiting.mp waiting)
    exact absurd recent (not_le.mpr old)
  rw [Stores.visible, none_waiting, List.append_nil, replaying.rows_eq]

/-- The window query finds the alert that covers the emission. -/
private theorem saveOnce_covered {emission : Emission}
    {stores after : Stores} {transaction : Nat} {answer : Bool × Option Int}
    (covered : Covered config emission stores)
    (saved : saveOnce stores transaction (config.row emission)
      emission.scope (config.window emission.scope) =
        some (answer, after)) :
    after = stores ∧ ∃ near ∈ stores.visible transaction,
      near.InScope emission.scope ∧
        answer = (false, some near.triggeredAt) := by
  obtain ⟨row, stored, inScope, close⟩ := covered
  rcases saveOnce_cases saved with
    ⟨near, seen, nearScope, -, answered, same⟩ | ⟨clear, -⟩
  · exact ⟨same, near, seen, nearScope, answered⟩
  · exact absurd close
      (not_lt.mpr (clear row (List.mem_append_left _ stored) inScope))

/-- The answer names a stored alert of the scope, and nothing is written. -/
private def ReplayPost (rows : List Row) (emission : Emission) :
    Except EmitError (Bool × Option Int) → Stores → Prop
  | .ok answer, _ => ∃ near ∈ rows, near.InScope emission.scope ∧
      answer = (false, some near.triggeredAt)
  | .error _, _ => True

private theorem recommit_safe {rows : List Row} {limit transaction : Nat}
    {emission : Emission} {near : Row} (recent : limit ≤ transaction)
    (stored : near ∈ rows) (inScope : near.InScope emission.scope)
    (stores : Stores) :
    (commit transaction >>= fun committed => orRaise committed >>=
      fun _ => (pure (false, some near.triggeredAt) :
        Emit (Bool × Option Int))).Safe (exec config)
      (replayContract config emissions rows limit) (ReplayPost rows emission)
      stores := by
  intro later replaying _ choice reply after _ executed
  have grown := exec_grows config executed
  simp only [exec] at executed
  split at executed
  · cases executed
    exact ⟨replaying, grown, fun _ _ _ => trivial⟩
  · cases executed
    refine ⟨⟨replaying.consistent.commit transaction,
      replaying.visible_eq recent, replaying.limit_le, ?_⟩, grown,
      fun _ _ _ => ⟨near, stored, inScope, rfl⟩⟩
    exact fun entry member =>
      replaying.pending_old entry (List.mem_filter.mp member).1

private theorem resave_safe {rows : List Row} {limit : Nat}
    {emission : Emission}
    (covered : ∃ row ∈ rows, row.InScope emission.scope ∧
      |emission.triggeredAt - row.triggeredAt| <
        config.window emission.scope)
    (stores : Stores) :
    (saveAlertOnce config emission).Safe (exec config)
      (replayContract config emissions rows limit) (ReplayPost rows emission)
      stores := by
  intro beginning replaying _ choice transaction begun _ executed
  have grown := exec_grows config executed
  have recent := replaying.limit_le
  cases executed
  refine ⟨⟨replaying.consistent.starting, replaying.rows_eq,
    Nat.le_succ_of_le recent, replaying.pending_old⟩, grown, ?_⟩
  intro locking replaying _ choice reply after _ executed
  have grown := exec_grows config executed
  simp only [exec] at executed
  split at executed
  · cases executed
    exact ⟨replaying, grown, fun _ _ _ => trivial⟩
  · split at executed
    · cases executed
    · rename_i free
      cases executed
      refine ⟨⟨replaying.consistent.lock free, replaying.rows_eq,
        replaying.limit_le, replaying.pending_old⟩, grown, ?_⟩
      intro saving replaying _ choice reply after _ executed
      have grown := exec_grows config executed
      simp only [exec] at executed
      split at executed
      · cases executed
        exact ⟨replaying, grown, fun _ _ _ => trivial⟩
      · obtain ⟨⟨answer, saved⟩, ran, equal⟩ :=
          Option.map_eq_some_iff.mp executed
        cases equal
        have coveredNow : Covered config emission saving := by
          unfold Covered
          rw [replaying.rows_eq]
          exact covered
        obtain ⟨rfl, near, seen, inScope, rfl⟩ :=
          saveOnce_covered coveredNow ran
        rw [replaying.visible_eq recent] at seen
        exact ⟨replaying, grown, recommit_safe recent seen inScope _⟩

/-- Emitting again what a stored alert covers stores nothing. -/
theorem reemit_safe {rows : List Row} {limit : Nat} (replica : Nat)
    {emission : Emission}
    (covered : ∃ row ∈ rows, row.InScope emission.scope ∧
      |emission.triggeredAt - row.triggeredAt| <
        config.window emission.scope)
    (stores : Stores) :
    (emit config replica emission).Safe (exec config)
      (replayContract config emissions rows limit) (fun _ _ => True) stores := by
  unfold emit
  simp only [Program.perform_bind]
  intro later replaying _ choice reply after _ executed
  have grown := exec_grows config executed
  cases executed
  refine ⟨replaying, grown, ?_⟩
  dsimp only
  split
  · exact fun _ _ _ => trivial
  · refine Program.Safe.bind replaying (resave_safe covered later) ?_
      (fun _ _ _ => trivial)
    rintro ⟨inserted, prior⟩ last _ ⟨near, stored, inScope, answer⟩
    cases answer
    intro remembering replaying _ choice reply after _ executed
    have grown := exec_grows config executed
    cases executed
    exact ⟨⟨replaying.consistent.remember (replaying.rows_eq ▸ stored)
      inScope rfl replica, replaying.rows_eq, replaying.limit_le,
      replaying.pending_old⟩, grown, fun _ _ _ => trivial⟩

end IndustryFlow.Alerts
