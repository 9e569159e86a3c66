import Mathlib.Data.List.Basic

/-!
# Row locks

The locks that transactions hold on rows until they end, in the four modes of
PostgreSQL.  A transaction gets a lock when no other one holds a conflicting
lock on the row.
-/

namespace Concurrent

/-- From the weakest to the strongest. -/
inductive LockMode where
  | keyShare
  | share
  | noKeyUpdate
  | update
deriving DecidableEq

namespace LockMode

def strength : LockMode → Nat
  | keyShare => 0
  | share => 1
  | noKeyUpdate => 2
  | update => 3

/-- The modes exclude each other when they are strong enough together: a key
share lock bars an update only, and two share locks stand beside each other. -/
def Conflicts (first second : LockMode) : Prop :=
  3 ≤ first.strength + second.strength

instance (first second : LockMode) : Decidable (first.Conflicts second) :=
  inferInstanceAs (Decidable (_ ≤ _))

theorem Conflicts.symm {first second : LockMode}
    (conflicts : first.Conflicts second) : second.Conflicts first := by
  unfold Conflicts at conflicts ⊢
  omega

end LockMode

structure RowLock (Key : Type) where
  owner : Nat
  key : Key
  mode : LockMode
deriving DecidableEq

/-- The transactions in progress and their locks. -/
structure Locking (Key : Type) where
  held : List (RowLock Key)
  active : List Nat
  /-- The number of the next transaction. -/
  next : Nat

namespace Locking

variable {Key : Type}

/-- No transaction yet. -/
def idle : Locking Key := ⟨[], [], 0⟩

def begin (locking : Locking Key) : Locking Key :=
  { locking with
    active := locking.next :: locking.active
    next := locking.next + 1 }

/-- No other transaction holds a lock that conflicts with this one. -/
def Free (locking : Locking Key) (lock : RowLock Key) : Prop :=
  ∀ other ∈ locking.held, other.key = lock.key → other.owner ≠ lock.owner →
    ¬other.mode.Conflicts lock.mode

instance [DecidableEq Key] (locking : Locking Key) (lock : RowLock Key) :
    Decidable (locking.Free lock) :=
  inferInstanceAs (Decidable (∀ _ ∈ _, _))

def take (locking : Locking Key) (lock : RowLock Key) : Locking Key :=
  { locking with held := lock :: locking.held }

/-- The transaction has ended, and its locks are gone. -/
def finish (locking : Locking Key) (owner : Nat) : Locking Key :=
  { locking with
    held := locking.held.filter (·.owner ≠ owner)
    active := locking.active.filter (· ≠ owner) }

structure Sound (locking : Locking Key) : Prop where
  compatible : ∀ lock ∈ locking.held, locking.Free lock
  owned : ∀ lock ∈ locking.held, lock.owner ∈ locking.active
  known : ∀ owner ∈ locking.active, owner < locking.next

theorem idle_sound : (idle : Locking Key).Sound := by
  constructor
  · intro lock never
    cases never
  · intro lock never
    cases never
  · intro owner never
    cases never

theorem Sound.begin {locking : Locking Key} (sound : locking.Sound) :
    locking.begin.Sound where
  compatible := sound.compatible
  owned lock member := List.mem_cons_of_mem _ (sound.owned lock member)
  known owner member := by
    rcases List.mem_cons.mp member with rfl | earlier
    · exact Nat.lt_succ_self _
    · exact Nat.lt_succ_of_lt (sound.known owner earlier)

theorem Sound.take {locking : Locking Key} {lock : RowLock Key}
    (sound : locking.Sound) (free : locking.Free lock)
    (running : lock.owner ∈ locking.active) : (locking.take lock).Sound where
  compatible first held other beside same different := by
    rcases List.mem_cons.mp held with rfl | earlier
    · rcases List.mem_cons.mp beside with rfl | between
      · exact absurd rfl different
      · exact free other between same different
    · rcases List.mem_cons.mp beside with rfl | between
      · intro conflicts
        exact free first earlier same.symm different.symm conflicts.symm
      · exact sound.compatible first earlier other between same different
  owned first held := by
    rcases List.mem_cons.mp held with rfl | held
    · exact running
    · exact sound.owned first held
  known := sound.known

theorem Sound.finish {locking : Locking Key} (sound : locking.Sound)
    (owner : Nat) : (locking.finish owner).Sound where
  compatible lock held other beside :=
    sound.compatible lock (List.mem_of_mem_filter held) other
      (List.mem_of_mem_filter beside)
  owned lock held := by
    obtain ⟨held, other⟩ := List.mem_filter.mp held
    exact List.mem_filter.mpr ⟨sound.owned lock held, other⟩
  known other member := sound.known other (List.mem_of_mem_filter member)

/-- Conflicting locks on one row have one owner. -/
theorem Sound.same_owner {locking : Locking Key} {first second : RowLock Key}
    (sound : locking.Sound) (left : first ∈ locking.held)
    (right : second ∈ locking.held) (same : first.key = second.key)
    (conflicts : first.mode.Conflicts second.mode) :
    first.owner = second.owner := by
  by_contra different
  exact sound.compatible second right first left same different conflicts

/-- A transaction that is still in progress later has been so all along, and
has kept its locks. -/
structure Keeps (before after : Locking Key) : Prop where
  next : before.next ≤ after.next
  active : ∀ owner, owner < before.next → owner ∈ after.active →
    owner ∈ before.active
  held : ∀ lock ∈ before.held, lock.owner < before.next →
    lock.owner ∈ after.active → lock ∈ after.held

theorem Keeps.refl (locking : Locking Key) : Keeps locking locking :=
  ⟨Nat.le_refl _, fun _ _ running => running, fun _ held _ _ => held⟩

theorem Keeps.trans {first second third : Locking Key}
    (left : Keeps first second) (right : Keeps second third) :
    Keeps first third where
  next := Nat.le_trans left.next right.next
  active owner known running :=
    left.active owner known
      (right.active owner (Nat.lt_of_lt_of_le known left.next) running)
  held lock held known running := by
    have later := Nat.lt_of_lt_of_le known left.next
    have between := right.active lock.owner later running
    exact right.held lock (left.held lock held known between) later running

theorem keeps_begin {locking : Locking Key} :
    Keeps locking locking.begin where
  next := Nat.le_succ _
  active owner known running := by
    rcases List.mem_cons.mp running with rfl | running
    · exact absurd known (Nat.lt_irrefl _)
    · exact running
  held _ held _ _ := held

theorem keeps_take {locking : Locking Key} (lock : RowLock Key) :
    Keeps locking (locking.take lock) where
  next := Nat.le_refl _
  active _ _ running := running
  held _ held _ _ := List.mem_cons_of_mem _ held

theorem keeps_finish {locking : Locking Key} (owner : Nat) :
    Keeps locking (locking.finish owner) where
  next := Nat.le_refl _
  active _ _ running := List.mem_of_mem_filter running
  held lock held _ running := by
    obtain ⟨-, other⟩ := List.mem_filter.mp running
    exact List.mem_filter.mpr ⟨held, other⟩

end Locking

end Concurrent
