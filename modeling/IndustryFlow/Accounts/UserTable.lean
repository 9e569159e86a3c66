import Mathlib.Data.List.Pairwise

/-!
# The user table

The rows of `public."user"` with its primary key and its unique index on the
email.  An update sets the columns that differ from the row as the session
loaded it.
-/

namespace IndustryFlow.UserAdmin

inductive Role where
  | admin
  | engineer
  | observer
deriving DecidableEq

structure User where
  id : Nat
  email : String
  hashedPassword : String
  companyId : Nat
  role : Role
  isActive : Bool
  isSuperuser : Bool
  isVerified : Bool
  passwordChangeRequired : Bool
deriving DecidableEq

/-! ## Columns -/

/-- A column with its new value; `none` is null. -/
inductive Assignment where
  | email (value : Option String)
  | hashedPassword (value : String)
  | companyId (value : Option Nat)
  | role (value : Option Role)
  | isActive (value : Option Bool)
  | isSuperuser (value : Option Bool)
  | isVerified (value : Option Bool)
  | passwordChangeRequired (value : Bool)
deriving DecidableEq

namespace Assignment

/-- The value is not the one that was loaded. -/
def differs (loaded : User) : Assignment → Bool
  | email value => value ≠ some loaded.email
  | hashedPassword value => value ≠ loaded.hashedPassword
  | companyId value => value ≠ some loaded.companyId
  | role value => value ≠ some loaded.role
  | isActive value => value ≠ some loaded.isActive
  | isSuperuser value => value ≠ some loaded.isSuperuser
  | isVerified value => value ≠ some loaded.isVerified
  | passwordChangeRequired value => value ≠ loaded.passwordChangeRequired

/-- No column takes null. -/
def apply (row : User) : Assignment → Option User
  | email value => value.map fun email => { row with email }
  | hashedPassword value => some { row with hashedPassword := value }
  | companyId value => value.map fun companyId => { row with companyId }
  | role value => value.map fun role => { row with role }
  | isActive value => value.map fun isActive => { row with isActive }
  | isSuperuser value => value.map fun isSuperuser => { row with isSuperuser }
  | isVerified value => value.map fun isVerified => { row with isVerified }
  | passwordChangeRequired value =>
      some { row with passwordChangeRequired := value }

def applyAll : User → List Assignment → Option User
  | row, [] => some row
  | row, assignment :: rest =>
      (assignment.apply row).bind fun changed => applyAll changed rest

/-- The assignment is of the company or of the superuser flag. -/
def ofScope : Assignment → Bool
  | companyId _ | isSuperuser _ => true
  | _ => false

theorem apply_id {row changed : User} {assignment : Assignment}
    (applied : assignment.apply row = some changed) :
    changed.id = row.id := by
  cases assignment with
  | hashedPassword value =>
      cases applied
      rfl
  | passwordChangeRequired value =>
      cases applied
      rfl
  | _ =>
      obtain ⟨value, -, rfl⟩ := Option.map_eq_some_iff.mp applied
      rfl

theorem apply_scope {row changed : User} {assignment : Assignment}
    (outside : assignment.ofScope = false)
    (applied : assignment.apply row = some changed) :
    changed.companyId = row.companyId ∧
      changed.isSuperuser = row.isSuperuser := by
  cases assignment with
  | companyId value => cases outside
  | isSuperuser value => cases outside
  | hashedPassword value =>
      cases applied
      exact ⟨rfl, rfl⟩
  | passwordChangeRequired value =>
      cases applied
      exact ⟨rfl, rfl⟩
  | _ =>
      obtain ⟨value, -, rfl⟩ := Option.map_eq_some_iff.mp applied
      exact ⟨rfl, rfl⟩

theorem applyAll_id {row changed : User} {assignments : List Assignment}
    (applied : applyAll row assignments = some changed) :
    changed.id = row.id := by
  induction assignments generalizing row with
  | nil =>
      cases applied
      rfl
  | cons assignment rest induction =>
      obtain ⟨middle, first, later⟩ := Option.bind_eq_some_iff.mp applied
      exact (induction later).trans (apply_id first)

theorem applyAll_scope {row changed : User} {assignments : List Assignment}
    (outside : ∀ assignment ∈ assignments, assignment.ofScope = false)
    (applied : applyAll row assignments = some changed) :
    changed.companyId = row.companyId ∧
      changed.isSuperuser = row.isSuperuser := by
  induction assignments generalizing row with
  | nil =>
      cases applied
      exact ⟨rfl, rfl⟩
  | cons assignment rest induction =>
      obtain ⟨middle, first, later⟩ := Option.bind_eq_some_iff.mp applied
      obtain ⟨head, tail⟩ := List.forall_mem_cons.mp outside
      have before := apply_scope head first
      have after := induction tail later
      exact ⟨after.1.trans before.1, after.2.trans before.2⟩

end Assignment

/-! ## Rows -/

/-- Neither the primary key nor the email is the same. -/
def Distinct (first second : User) : Prop :=
  first.id ≠ second.id ∧ first.email ≠ second.email

instance (first second : User) : Decidable (Distinct first second) :=
  inferInstanceAs (Decidable (_ ∧ _))

instance : Std.Symm Distinct where
  symm _ _ distinct := ⟨distinct.1.symm, distinct.2.symm⟩

structure Table where
  rows : List User
  distinct : rows.Pairwise Distinct

namespace Table

def find (table : Table) (id : Nat) : Option User :=
  table.rows.find? (·.id = id)

/-- The row goes where its id is. -/
def replace (rows : List User) (row : User) : List User :=
  rows.map fun other => if other.id = row.id then row else other

/-- An update of one row; the unique index refuses another one's email. -/
def write (table : Table) (row : User) : Option Table :=
  if free : ∀ other ∈ table.rows, other.id ≠ row.id →
      other.email ≠ row.email then
    some ⟨replace table.rows row, by
      rw [replace, List.pairwise_map]
      apply table.distinct.imp_of_mem
      intro first second earlier later apart
      split
      · next same =>
        have other : second.id ≠ row.id := fun equal =>
          apart.1 (same.trans equal.symm)
        rw [if_neg other]
        exact ⟨other.symm, (free second later other).symm⟩
      · next different =>
        split
        · exact ⟨different, free first earlier different⟩
        · exact apart⟩
  else none

def insert (table : Table) (row : User) : Option Table :=
  if free : ∀ other ∈ table.rows, Distinct other row then
    some ⟨table.rows ++ [row], by
      apply List.pairwise_append.mpr
      refine ⟨table.distinct, List.pairwise_singleton _ _, ?_⟩
      intro first earlier second last
      cases List.mem_singleton.mp last
      exact free first earlier⟩
  else none

def erase (table : Table) (id : Nat) : Table where
  rows := table.rows.filter (·.id ≠ id)
  distinct := table.distinct.filter _

theorem find_id {table : Table} {id : Nat} {row : User}
    (found : table.find id = some row) : row.id = id := by
  simpa using List.find?_some found

theorem find_mem {table : Table} {id : Nat} {row : User}
    (found : table.find id = some row) : row ∈ table.rows :=
  List.mem_of_find?_eq_some found

theorem find_of_mem {table : Table} {row : User}
    (member : row ∈ table.rows) : table.find row.id = some row := by
  have unique : ∀ other ∈ table.rows, other.id = row.id → other = row := by
    intro other present same
    by_contra different
    have apart : Distinct other row :=
      table.distinct.forall present member different
    exact apart.1 same
  cases looked : table.find row.id with
  | none =>
      have absent := List.find?_eq_none.mp looked row member
      simp at absent
  | some found =>
      rw [unique found (find_mem looked) (find_id looked)]

theorem write_rows {table after : Table} {row : User}
    (written : table.write row = some after) :
    after.rows = replace table.rows row := by
  rw [write] at written
  split at written
  · cases written
    rfl
  · cases written

theorem insert_rows {table after : Table} {row : User}
    (written : table.insert row = some after) :
    after.rows = table.rows ++ [row] := by
  rw [insert] at written
  split at written
  · cases written
    rfl
  · cases written

theorem mem_replace {rows : List User} {row other : User}
    (member : other ∈ replace rows row) :
    other = row ∨ other ∈ rows := by
  obtain ⟨before, present, same⟩ := List.mem_map.mp member
  split at same
  · exact .inl same.symm
  · exact .inr (same ▸ present)

/-- A row found after an update is that row or was there before. -/
theorem find_write {table after : Table} {row found : User} {id : Nat}
    (written : table.write row = some after)
    (looked : after.find id = some found) :
    found = row ∨ table.find id = some found := by
  have member := find_mem looked
  rw [write_rows written] at member
  rcases mem_replace member with same | before
  · exact .inl same
  · have kept := find_of_mem before
    rw [find_id looked] at kept
    exact .inr kept

theorem find_insert {table after : Table} {row found : User} {id : Nat}
    (written : table.insert row = some after)
    (looked : after.find id = some found) :
    found = row ∨ table.find id = some found := by
  have member := find_mem looked
  rw [insert_rows written] at member
  rcases List.mem_append.mp member with before | last
  · have kept := find_of_mem before
    rw [find_id looked] at kept
    exact .inr kept
  · exact .inl (List.mem_singleton.mp last)

theorem find_erase {table : Table} {found : User} {id other : Nat}
    (looked : (table.erase other).find id = some found) :
    table.find id = some found := by
  have kept := find_of_mem (List.mem_filter.mp (find_mem looked)).1
  rw [find_id looked] at kept
  exact kept

end Table

end IndustryFlow.UserAdmin
