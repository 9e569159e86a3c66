import IndustryFlow.Alerts.Emit
import Mathlib.Algebra.Order.Group.Abs

/-!
# The window holds across replicas

`Consistent` is what holds of the database and the caches between any two
calls: the rows a transaction sees are a window apart in each scope, a row
that waits for its commit is covered by its scope's lock, and a cache only
remembers stored alerts.  `Grows` is what the emits do to each other.
-/

namespace IndustryFlow.Alerts

open Concurrent

/-- What the parameters are relied on for: positive windows, times rendered
without a bar, and no two of the `emissions` whose names have one digest. -/
structure Config.Sound (config : Config) (emissions : Emission → Prop) :
    Prop where
  cooldown_pos : 0 < config.cooldown
  retrainCooldown_pos : 0 < config.retrainCooldown
  uuid5_injective : ∀ first second, emissions first → emissions second →
    config.uuid5 (config.alertName first.scope first.triggeredAt) =
        config.uuid5 (config.alertName second.scope second.triggeredAt) →
      config.alertName first.scope first.triggeredAt =
        config.alertName second.scope second.triggeredAt
  isoformat_barless : ∀ emission, emissions emission →
    '|' ∉ (config.isoformat emission.triggeredAt).toList

namespace Scope

theorem parts_barless (scope : Scope) :
    ∀ part ∈ scope.parts, '|' ∉ part.toList := by
  have optional (identifier : Option Identifier) :
      '|' ∉ (optionalText identifier).toList := by
    cases identifier with
    | none => simp [optionalText]
    | some identifier => exact identifier.barless
  cases scope with
  | alert company rule sensor equipment =>
      simp [parts, company.barless, rule.barless, optional]
  | retrain company model =>
      simp [parts, company.barless, model.barless]

private theorem identifier_ext {left right : Identifier}
    (same : left.text = right.text) : left = right := by
  cases left
  cases right
  cases same
  rfl

private theorem optionalText_injective :
    Function.Injective optionalText := by
  intro left right same
  cases left with
  | none =>
      cases right with
      | none => rfl
      | some identifier => exact absurd same.symm identifier.nonempty
  | some identifier =>
      cases right with
      | none => exact absurd same identifier.nonempty
      | some other => rw [identifier_ext same]

theorem parts_injective : Function.Injective parts := by
  intro left right same
  cases left with
  | alert company rule sensor equipment =>
      cases right with
      | alert =>
          simp only [parts, List.cons.injEq, and_true] at same
          obtain ⟨companies, rules, sensors, equipments⟩ := same
          rw [identifier_ext companies, identifier_ext rules,
            optionalText_injective sensors,
            optionalText_injective equipments]
      | retrain => simp [parts] at same
  | retrain company model =>
      cases right with
      | alert => simp [parts] at same
      | retrain =>
          simp only [parts, List.cons.injEq, and_true, true_and] at same
          rw [identifier_ext same.1, identifier_ext same.2]

end Scope

/-- Alerts of one name are alerts of one scope. -/
theorem alertName_scope {config : Config} {emissions : Emission → Prop}
    (sound : config.Sound emissions) {first second : Emission}
    (emittedFirst : emissions first) (emittedSecond : emissions second)
    (same : config.alertName first.scope first.triggeredAt =
      config.alertName second.scope second.triggeredAt) :
    first.scope = second.scope := by
  have segments (emission : Emission) (emitted : emissions emission) :
      (config.alertName emission.scope
          emission.triggeredAt).toList.splitOn '|' =
        (emission.scope.parts ++
          [config.isoformat emission.triggeredAt]).map String.toList := by
    have name (scope : Scope) (time : Int) :
        (config.alertName scope time).toList =
          ['|'].intercalate ((scope.parts ++
            [config.isoformat time]).map String.toList) := by
      cases scope <;>
        simp [Config.alertName, Scope.parts, List.intercalate]
    rw [name, List.splitOn_intercalate]
    · intro part member
      obtain ⟨text, text_member, rfl⟩ := List.mem_map.mp member
      rcases List.mem_append.mp text_member with inScope | last
      · exact emission.scope.parts_barless text inScope
      · cases List.mem_singleton.mp last
        exact sound.isoformat_barless emission emitted
    · simp
  have names := congrArg (fun name => name.toList.splitOn '|') same
  simp only [segments first emittedFirst, segments second emittedSecond]
    at names
  have parts := (List.map_injective_iff.mpr
    fun _ _ equal => String.toList_inj.mp equal) names
  exact Scope.parts_injective (List.append_inj' parts rfl).1

theorem Config.Sound.window_pos {config : Config}
    {emissions : Emission → Prop} (sound : config.Sound emissions)
    (scope : Scope) : 0 < config.window scope := by
  cases scope with
  | alert => exact Int.natCast_pos.mpr sound.cooldown_pos
  | retrain => exact Int.natCast_pos.mpr sound.retrainCooldown_pos

/-- An emission's row stands in the emission's scope and in no other. -/
theorem row_inScope_iff (config : Config) (emission : Emission)
    (scope : Scope) :
    (config.row emission).InScope scope ↔ scope = emission.scope := by
  cases emission with
  | alert written other =>
      cases scope with
      | alert company rule sensor equipment =>
          simp only [Row.InScope, Config.row, Emission.scope,
            Emission.content, Scope.alert.injEq]
          constructor
          · rintro ⟨rfl, rfl, rfl, rfl, -⟩
            exact ⟨rfl, rfl, rfl, rfl⟩
          · rintro ⟨rfl, rfl, rfl, rfl⟩
            exact ⟨rfl, rfl, rfl, rfl, other⟩
      | retrain company model =>
          simp [Row.InScope, Config.row, Emission.scope, Emission.content,
            other]
  | retrain written model named condition =>
      cases scope with
      | alert company rule sensor equipment =>
          simp [Row.InScope, Config.row, Emission.scope, Emission.content,
            condition]
      | retrain company other =>
          simp only [Row.InScope, Config.row, Emission.scope,
            Emission.content, Scope.retrain.injEq]
          constructor
          · rintro ⟨rfl, model, -⟩
            exact ⟨rfl, Option.some.inj (model.symm.trans named)⟩
          · rintro ⟨rfl, rfl⟩
            exact ⟨rfl, named, condition⟩

/-- Two rows of one scope lie at least the scope's window apart. -/
def Apart (config : Config) (left right : Row) : Prop :=
  ∀ scope, left.InScope scope → right.InScope scope →
    config.window scope ≤ |left.triggeredAt - right.triggeredAt|

/-- A stored alert of the emission's scope lies strictly within the window. -/
def Covered (config : Config) (emission : Emission) (stores : Stores) :
    Prop :=
  ∃ row ∈ stores.rows, row.InScope emission.scope ∧
    |emission.triggeredAt - row.triggeredAt| <
      config.window emission.scope

structure Consistent (config : Config) (emissions : Emission → Prop)
    (stores : Stores) : Prop where
  /-- An advisory lock has one holder. -/
  exclusive : ∀ key first second, (key, first) ∈ stores.locks →
    (key, second) ∈ stores.locks → first = second
  locked : ∀ transaction row, (transaction, row) ∈ stores.pending →
    ∀ scope, row.InScope scope →
      (config.dedupLockKey scope, transaction) ∈ stores.locks
  apart : ∀ transaction,
    (stores.visible transaction).Pairwise (Apart config)
  emitted : ∀ transaction, ∀ row ∈ stores.visible transaction,
    ∃ emission, emissions emission ∧ row = config.row emission
  begun : ∀ entry ∈ stores.pending, entry.1 < stores.next
  cached : ∀ replica, ∀ entry ∈ stores.caches replica,
    ∃ row ∈ stores.rows, row.InScope entry.1 ∧
      row.triggeredAt = entry.2

/-- What the emits and the environment do to an emit under way: stored rows
stay, and an open transaction keeps its locks and its rows. -/
structure Grows (before after : Stores) : Prop where
  rows : before.rows ⊆ after.rows
  next : before.next ≤ after.next
  opened : ∀ transaction < before.next,
    transaction ∈ after.opened → transaction ∈ before.opened
  locks : ∀ key, ∀ transaction < before.next,
    (key, transaction) ∈ before.locks → transaction ∈ after.opened →
      (key, transaction) ∈ after.locks
  pending : ∀ row, ∀ transaction < before.next,
    (transaction, row) ∈ before.pending → transaction ∈ after.opened →
      (transaction, row) ∈ after.pending

theorem Grows.refl (stores : Stores) : Grows stores stores where
  rows := List.Subset.refl _
  next := Nat.le_refl _
  opened _ _ member := member
  locks _ _ _ member _ := member
  pending _ _ _ member _ := member

theorem Grows.trans {first second third : Stores}
    (before : Grows first second) (after : Grows second third) :
    Grows first third where
  rows := List.Subset.trans before.rows after.rows
  next := Nat.le_trans before.next after.next
  opened transaction bound member :=
    before.opened transaction bound
      (after.opened transaction (bound.trans_le before.next) member)
  locks key transaction bound held member :=
    have later := bound.trans_le before.next
    after.locks key transaction later
      (before.locks key transaction bound held
        (after.opened transaction later member)) member
  pending row transaction bound waiting member :=
    have later := bound.trans_le before.next
    after.pending row transaction later
      (before.pending row transaction bound waiting
        (after.opened transaction later member)) member

theorem Covered.mono {config : Config} {emission : Emission}
    {before after : Stores} (covered : Covered config emission before)
    (grows : Grows before after) : Covered config emission after := by
  obtain ⟨row, member, inScope, near⟩ := covered
  exact ⟨row, grows.rows member, inScope, near⟩

theorem close_grows (stores : Stores) (transaction : Nat) :
    Grows stores (stores.close transaction) where
  rows := List.Subset.refl _
  next := Nat.le_refl _
  opened _ _ member := (List.mem_filter.mp member).1
  locks _ _ _ held member := List.mem_filter.mpr
    ⟨held, (List.mem_filter.mp member).2⟩
  pending _ _ _ waiting member := List.mem_filter.mpr
    ⟨waiting, (List.mem_filter.mp member).2⟩

theorem commit_grows (stores : Stores) (transaction : Nat) :
    Grows stores (stores.commit transaction) :=
  { close_grows stores transaction with
    rows := List.subset_append_left _ _ }

theorem exec_grows (config : Config) {stores after : Stores} {op : Op}
    {reply : Reply op}
    (executed : exec config stores op () = some (reply, after)) :
    Grows stores after := by
  cases op with
  | cachedWithin replica scope time window =>
      cases executed
      exact .refl _
  | begin =>
      cases executed
      refine ⟨List.Subset.refl _, Nat.le_succ _, ?_,
        fun _ _ _ held _ => held, fun _ _ _ waiting _ => waiting⟩
      intro transaction bound member
      rcases List.mem_cons.mp member with rfl | before
      · exact absurd bound (Nat.lt_irrefl _)
      · exact before
  | advisoryLock transaction key =>
      simp only [exec] at executed
      split at executed
      · cases executed
        exact .refl _
      · split at executed
        · cases executed
        · cases executed
          exact { Grows.refl stores with
            locks := fun _ _ _ held _ => List.mem_cons_of_mem _ held }
  | saveOnce transaction row scope window =>
      simp only [exec] at executed
      split at executed
      · cases executed
        exact .refl _
      · obtain ⟨⟨answer, saved⟩, ran, equal⟩ :=
          Option.map_eq_some_iff.mp executed
        cases equal
        simp only [saveOnce] at ran
        split at ran
        · cases ran
          exact .refl _
        · split at ran
          · cases ran
          · split at ran
            · cases ran
              exact .refl _
            · cases ran
              exact { Grows.refl stores with
                pending := fun _ _ _ waiting _ =>
                  List.mem_append_left _ waiting }
  | commit transaction =>
      simp only [exec] at executed
      split at executed
      · cases executed
        exact .refl _
      · cases executed
        exact commit_grows stores transaction
  | remember replica scope time =>
      cases executed
      exact { Grows.refl stores with }

/-! ## What the calls do to a consistent store -/

theorem mem_waiting {stores : Stores} {transaction : Nat} {row : Row} :
    row ∈ stores.waiting transaction ↔
      (transaction, row) ∈ stores.pending := by
  unfold Stores.waiting
  constructor
  · intro member
    obtain ⟨⟨holder, waiting⟩, found, rfl⟩ := List.mem_map.mp member
    obtain ⟨pending, same⟩ := List.mem_filter.mp found
    cases of_decide_eq_true same
    exact pending
  · intro pending
    exact List.mem_map.mpr
      ⟨(transaction, row), List.mem_filter.mpr ⟨pending, by simp⟩, rfl⟩

/-- What the window query and the insert do. -/
theorem saveOnce_cases {stores after : Stores} {transaction : Nat}
    {row : Row} {scope : Scope} {window : Int} {answer : Bool × Option Int}
    (saved : saveOnce stores transaction row scope window =
      some (answer, after)) :
    (∃ near ∈ stores.visible transaction, near.InScope scope ∧
      |row.triggeredAt - near.triggeredAt| < window ∧
        answer = (false, some near.triggeredAt) ∧ after = stores) ∨
    (∀ near ∈ stores.visible transaction, near.InScope scope →
      window ≤ |row.triggeredAt - near.triggeredAt|) ∧
      ((answer = (false, none) ∧ after = stores ∧
        ∃ other ∈ stores.visible transaction,
          Stores.samePrimaryKey other row) ∨
      answer = (true, none) ∧ after = stores.insert transaction row) := by
  simp only [saveOnce] at saved
  split at saved
  · rename_i prior latest
    cases saved
    obtain ⟨near, member, rfl⟩ :=
      List.mem_map.mp (List.max?_mem latest)
    simp only [List.mem_filter, decide_eq_true_eq] at member
    obtain ⟨seen, inScope, low, high⟩ := member
    refine .inl ⟨near, seen, inScope, ?_, rfl, rfl⟩
    rw [abs_sub_lt_iff]
    constructor <;> omega
  · rename_i nothing
    have clear : ∀ near ∈ stores.visible transaction,
        near.InScope scope →
          window ≤ |row.triggeredAt - near.triggeredAt| := by
      intro near seen inScope
      by_contra close
      have empty := List.max?_eq_none_iff.mp nothing
      have member : near.triggeredAt ∈ Stores.priors
          (stores.visible transaction) scope row.triggeredAt window := by
        refine List.mem_map_of_mem (List.mem_filter.mpr ⟨seen, ?_⟩)
        rw [not_le, abs_sub_lt_iff] at close
        simp only [decide_eq_true_eq]
        exact ⟨inScope, by omega, by omega⟩
      rw [empty] at member
      cases member
    split at saved
    · cases saved
    · split at saved
      · rename_i conflict
        cases saved
        exact .inr ⟨clear, .inl ⟨rfl, rfl, conflict⟩⟩
      · cases saved
        exact .inr ⟨clear, .inr ⟨rfl, rfl⟩⟩

namespace Consistent

variable {config : Config} {emissions : Emission → Prop}
variable {stores : Stores}

theorem empty (config : Config) (emissions : Emission → Prop) :
    Consistent config emissions .empty where
  exclusive := by simp [Stores.empty]
  locked := by simp [Stores.empty]
  apart := by simp [Stores.empty, Stores.visible, Stores.waiting]
  emitted := by simp [Stores.empty, Stores.visible, Stores.waiting]
  begun := by simp [Stores.empty]
  cached := by simp [Stores.empty]

private theorem waiting_close (stores : Stores) (ended transaction : Nat) :
    ((stores.close ended).waiting transaction).Sublist
      (stores.waiting transaction) :=
  (List.filter_sublist.filter _).map _

theorem close (consistent : Consistent config emissions stores) (transaction : Nat) :
    Consistent config emissions (stores.close transaction) := by
  have visible (other : Nat) :
      ((stores.close transaction).visible other).Sublist
        (stores.visible other) :=
    (waiting_close stores transaction other).append_left _
  constructor
  · intro key first second held again
    exact consistent.exclusive key first second
      (List.mem_filter.mp held).1 (List.mem_filter.mp again).1
  · intro other row waiting scope inScope
    obtain ⟨before, kept⟩ := List.mem_filter.mp waiting
    exact List.mem_filter.mpr
      ⟨consistent.locked other row before scope inScope, kept⟩
  · exact fun other => (consistent.apart other).sublist (visible other)
  · exact fun other row member =>
      consistent.emitted other row ((visible other).subset member)
  · exact fun entry member =>
      consistent.begun entry (List.mem_filter.mp member).1
  · exact consistent.cached

theorem commit (consistent : Consistent config emissions stores)
    (transaction : Nat) :
    Consistent config emissions (stores.commit transaction) := by
  have closed := consistent.close transaction
  have waiting (other : Nat) :
      ((stores.commit transaction).waiting other).Sublist
        (stores.waiting other) :=
    waiting_close stores transaction other
  have left (other : Nat) {row : Row}
      (member : row ∈ (stores.commit transaction).waiting other) :
      other ≠ transaction := by
    have pending := (List.mem_filter.mp (mem_waiting.mp member)).2
    simpa using pending
  constructor
  · exact closed.exclusive
  · exact closed.locked
  · intro other
    show ((stores.visible transaction) ++ _).Pairwise _
    rw [List.pairwise_append]
    refine ⟨consistent.apart transaction, ?_, ?_⟩
    · have all := consistent.apart other
      exact ((List.pairwise_append.mp all).2.1).sublist (waiting other)
    · intro stored seen late lateWaiting
      have elsewhere := left other lateWaiting
      have lateBefore := (waiting other).subset lateWaiting
      rcases List.mem_append.mp seen with committed | own
      · exact (List.pairwise_append.mp (consistent.apart other)).2.2
          stored committed late lateBefore
      · intro scope storedScope lateScope
        have first := consistent.locked transaction stored
          (mem_waiting.mp own) scope storedScope
        have second := consistent.locked other late
          (mem_waiting.mp lateBefore) scope lateScope
        exact absurd (consistent.exclusive _ _ _ second first) elsewhere
  · intro other row member
    rcases List.mem_append.mp member with committed | late
    · exact consistent.emitted transaction row committed
    · exact consistent.emitted other row
        (List.mem_append_right _ ((waiting other).subset late))
  · exact closed.begun
  · intro replica entry member
    obtain ⟨row, stored, found⟩ := consistent.cached replica entry member
    exact ⟨row, List.mem_append_left _ stored, found⟩

theorem starting (consistent : Consistent config emissions stores) :
    Consistent config emissions { stores with
      next := stores.next + 1
      opened := stores.next :: stores.opened } := by
  refine { consistent with begun := ?_ }
  intro entry member
  exact (consistent.begun entry member).trans (Nat.lt_succ_self _)

theorem lock (consistent : Consistent config emissions stores) {key : Int}
    {transaction : Nat}
    (free : ¬∃ lock ∈ stores.locks, lock.1 = key ∧ lock.2 ≠ transaction) :
    Consistent config emissions
      { stores with locks := (key, transaction) :: stores.locks } := by
  have holder {other : Nat} (held : (key, other) ∈ stores.locks) :
      other = transaction := by
    by_contra different
    exact free ⟨(key, other), held, rfl, different⟩
  refine { consistent with exclusive := ?_, locked := ?_ }
  · intro other first second held again
    rcases List.mem_cons.mp held with new | old
    · cases new
      rcases List.mem_cons.mp again with same | before
      · cases same
        rfl
      · exact (holder before).symm
    · rcases List.mem_cons.mp again with new | before
      · cases new
        exact holder old
      · exact consistent.exclusive other first second old before
  · intro other row waiting scope inScope
    exact List.mem_cons_of_mem _
      (consistent.locked other row waiting scope inScope)

theorem insert (consistent : Consistent config emissions stores)
    {emission : Emission} {transaction : Nat}
    (emitted : emissions emission) (open_ : transaction < stores.next)
    (held : (config.dedupLockKey emission.scope, transaction) ∈
      stores.locks)
    (clear : ∀ near ∈ stores.visible transaction,
      near.InScope emission.scope → config.window emission.scope ≤
        |(config.row emission).triggeredAt - near.triggeredAt|) :
    Consistent config emissions
      (stores.insert transaction (config.row emission)) := by
  have visible (other : Nat) :
      (stores.insert transaction (config.row emission)).visible other =
        stores.visible other ++
          if transaction = other then [config.row emission] else [] := by
    unfold Stores.visible Stores.waiting Stores.insert
    by_cases same : transaction = other <;>
      simp [same, List.filter_append]
  refine { consistent with
    locked := ?_, apart := ?_, emitted := ?_, begun := ?_ }
  · intro other row waiting scope inScope
    rcases List.mem_append.mp waiting with before | new
    · exact consistent.locked other row before scope inScope
    · cases List.mem_singleton.mp new
      rw [(row_inScope_iff config emission scope).mp inScope]
      exact held
  · intro other
    rw [visible, List.pairwise_append]
    refine ⟨consistent.apart other, ?_, ?_⟩
    · split <;> simp
    · intro near seen row new scope nearScope rowScope
      split at new
      · rename_i same
        subst same
        cases List.mem_singleton.mp new
        cases (row_inScope_iff config emission scope).mp rowScope
        rw [abs_sub_comm]
        exact clear near seen nearScope
      · cases new
  · intro other row member
    rw [visible] at member
    rcases List.mem_append.mp member with before | new
    · exact consistent.emitted other row before
    · split at new
      · cases List.mem_singleton.mp new
        exact ⟨emission, emitted, rfl⟩
      · cases new
  · intro entry member
    rcases List.mem_append.mp member with before | new
    · exact consistent.begun entry before
    · cases List.mem_singleton.mp new
      exact open_

/-- The cache suppresses only what a stored alert covers. -/
theorem covered (consistent : Consistent config emissions stores)
    {replica : Nat} {emission : Emission}
    (hit : cachedWithin (stores.caches replica) emission.scope
      emission.triggeredAt (config.window emission.scope) = true) :
    Covered config emission stores := by
  unfold cachedWithin at hit
  split at hit
  · cases hit
  · rename_i last found
    obtain ⟨⟨scope, time⟩, entry, rfl⟩ :=
      Option.map_eq_some_iff.mp found
    have matched := List.find?_some entry
    obtain ⟨row, stored, inScope, same⟩ := consistent.cached replica _
      (List.mem_of_find?_eq_some entry)
    refine ⟨row, stored, ?_, ?_⟩
    · rw [← of_decide_eq_true matched]
      exact inScope
    · rw [same]
      exact of_decide_eq_true hit

theorem remember (consistent : Consistent config emissions stores) {scope : Scope}
    {time : Int} {row : Row} (stored : row ∈ stores.rows)
    (inScope : row.InScope scope) (same : row.triggeredAt = time)
    (replica : Nat) :
    Consistent config emissions { stores with
      caches := Function.update stores.caches replica
        ((stores.caches replica).remember config.dedupCacheMax scope
          time) } := by
  refine { consistent with cached := ?_ }
  intro other entry member
  by_cases own : other = replica
  · subst own
    simp only [Function.update_self] at member
    rcases List.mem_append.mp (List.mem_of_mem_drop member) with old | new
    · exact consistent.cached other entry (List.mem_filter.mp old).1
    · cases List.mem_singleton.mp new
      exact ⟨row, stored, inScope, same⟩
  · simp only [Function.update_of_ne own] at member
    exact consistent.cached other entry member

theorem restart (consistent : Consistent config emissions stores) (replica : Nat) :
    Consistent config emissions { stores with
      caches := Function.update stores.caches replica [] } := by
  refine { consistent with cached := ?_ }
  intro other entry member
  by_cases own : other = replica
  · subst own
    simp at member
  · simp only [Function.update_of_ne own] at member
    exact consistent.cached other entry member

end Consistent

end IndustryFlow.Alerts
