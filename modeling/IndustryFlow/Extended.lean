import Mathlib.Algebra.Order.Field.Basic
import Mathlib.Data.Nat.Cast.Order.Field

/-!
# Numbers with the infinities

The numbers of an ordered field with two infinities and what is not a number,
computed with and compared as IEEE 754 has it, but not rounded.  There is one
zero, and it divides as the positive one.
-/

inductive Extended (K : Type) where
  | nan
  | negInf
  | finite (value : K)
  | posInf

namespace Extended

variable {K : Type}

def isFinite : Extended K → Bool
  | .finite _ => true
  | _ => false

theorem isFinite_iff {number : Extended K} :
    number.isFinite = true ↔ ∃ value, number = .finite value := by
  cases number with
  | finite value => simp [isFinite]
  | nan => simp [isFinite]
  | negInf => simp [isFinite]
  | posInf => simp [isFinite]

section Order

variable [LinearOrder K]

/-- `first <= second`. -/
def le : Extended K → Extended K → Bool
  | .nan, _ | _, .nan => false
  | .negInf, _ | _, .posInf => true
  | .finite first, .finite second => first ≤ second
  | _, _ => false

/-- `first < second`. -/
def lt : Extended K → Extended K → Bool
  | .nan, _ | _, .nan => false
  | .posInf, _ | _, .negInf => false
  | .finite first, .finite second => first < second
  | _, _ => true

/-- `min(first, second)`: the second only if it is less. -/
def least (first second : Extended K) : Extended K :=
  if lt second first then second else first

/-- `max(first, second)`: the second only if it is greater. -/
def greatest (first second : Extended K) : Extended K :=
  if lt first second then second else first

theorem le_finite {first second : K} :
    le (.finite first) (.finite second) = true ↔ first ≤ second := by
  simp [le]

end Order

section Sums

variable [Field K]

def neg : Extended K → Extended K
  | .nan => .nan
  | .negInf => .posInf
  | .finite value => .finite (-value)
  | .posInf => .negInf

def add : Extended K → Extended K → Extended K
  | .nan, _ | _, .nan => .nan
  | .negInf, .posInf | .posInf, .negInf => .nan
  | .negInf, _ | _, .negInf => .negInf
  | .posInf, _ | _, .posInf => .posInf
  | .finite first, .finite second => .finite (first + second)

def sub (first second : Extended K) : Extended K :=
  add first (neg second)

def sum (numbers : List (Extended K)) : Extended K :=
  numbers.foldr add (.finite 0)

/-- `exp`, by what it is on the numbers. -/
def exp (f : K → K) : Extended K → Extended K
  | .nan => .nan
  | .negInf => .finite 0
  | .finite value => .finite (f value)
  | .posInf => .posInf

theorem isFinite_add (first second : Extended K) :
    (add first second).isFinite =
      (first.isFinite && second.isFinite) := by
  cases first <;> cases second <;> rfl

theorem isFinite_sub (first second : Extended K) :
    (sub first second).isFinite =
      (first.isFinite && second.isFinite) := by
  cases first <;> cases second <;> rfl

theorem isFinite_sum (numbers : List (Extended K)) :
    (sum numbers).isFinite = numbers.all isFinite := by
  induction numbers with
  | nil => rfl
  | cons first numbers induction =>
      rw [List.all_cons, ← induction]
      exact isFinite_add first (sum numbers)

theorem isFinite_zipWith_sub {first second : List (Extended K)}
    (same : first.length = second.length) :
    (∀ number ∈ List.zipWith sub first second, number.isFinite = true) ↔
      (∀ number ∈ first, number.isFinite = true) ∧
        ∀ number ∈ second, number.isFinite = true := by
  induction first generalizing second with
  | nil =>
      rw [List.length_nil, eq_comm, List.length_eq_zero_iff] at same
      simp [same]
  | cons number first induction =>
      cases second with
      | nil => cases same
      | cons other second =>
          rw [List.zipWith_cons_cons, List.forall_mem_cons,
            List.forall_mem_cons, List.forall_mem_cons, isFinite_sub,
            Bool.and_eq_true, induction (Nat.succ.inj same)]
          exact and_and_and_comm

end Sums

section Products

variable [Field K] [LinearOrder K]

/-- What infinity times a number is. -/
def signed (value : K) : Extended K :=
  if 0 < value then .posInf else if value < 0 then .negInf else .nan

def mul : Extended K → Extended K → Extended K
  | .nan, _ | _, .nan => .nan
  | .negInf, .negInf | .posInf, .posInf => .posInf
  | .negInf, .posInf | .posInf, .negInf => .negInf
  | .posInf, .finite value | .finite value, .posInf => signed value
  | .negInf, .finite value | .finite value, .negInf => neg (signed value)
  | .finite first, .finite second => .finite (first * second)

def div : Extended K → Extended K → Extended K
  | .nan, _ | _, .nan => .nan
  | .finite _, .negInf | .finite _, .posInf => .finite 0
  | .negInf, .negInf | .negInf, .posInf => .nan
  | .posInf, .negInf | .posInf, .posInf => .nan
  | .posInf, .finite value => if value < 0 then .negInf else .posInf
  | .negInf, .finite value => if value < 0 then .posInf else .negInf
  | .finite first, .finite second =>
      if second = 0 then signed first else .finite (first / second)

def square (number : Extended K) : Extended K :=
  mul number number

/-- The mean; of no numbers it is none. -/
def mean (numbers : List (Extended K)) : Extended K :=
  div (sum numbers) (.finite numbers.length)

theorem isFinite_square (number : Extended K) :
    (square number).isFinite = number.isFinite := by
  cases number <;> rfl

theorem div_positive {divisor : K} (positive : 0 < divisor) (value : K) :
    div (.finite value) (.finite divisor) = .finite (value / divisor) :=
  if_neg positive.ne'

theorem isFinite_div_positive {divisor : K} (positive : 0 < divisor)
    (number : Extended K) :
    (div number (.finite divisor)).isFinite = number.isFinite := by
  cases number with
  | finite value =>
      rw [div_positive positive]
      rfl
  | nan => rfl
  | negInf =>
      rw [div, if_neg positive.not_gt]
  | posInf =>
      rw [div, if_neg positive.not_gt]

variable [IsStrictOrderedRing K]

theorem isFinite_mean (numbers : List (Extended K)) :
    (mean numbers).isFinite = true ↔
      numbers ≠ [] ∧ ∀ number ∈ numbers, number.isFinite = true := by
  rw [← List.all_eq_true, ← isFinite_sum, mean]
  cases numbers with
  | nil => simp [sum, div, signed, isFinite]
  | cons first numbers =>
      have several : (0 : K) < ((first :: numbers).length : K) :=
        Nat.cast_pos.mpr (Nat.succ_pos _)
      rw [isFinite_div_positive several]
      exact ⟨fun finite => ⟨List.cons_ne_nil _ _, finite⟩, And.right⟩

/-- A sum of squares that is finite is not negative. -/
theorem sum_squares_nonneg {numbers : List (Extended K)} {value : K}
    (is : sum (numbers.map square) = .finite value) : 0 ≤ value := by
  induction numbers generalizing value with
  | nil =>
      cases is
      exact le_refl 0
  | cons first numbers induction =>
      have whole : add (square first) (sum (numbers.map square)) =
          .finite value := is
      have both : (square first).isFinite = true ∧
          (sum (numbers.map square)).isFinite = true := by
        rw [← Bool.and_eq_true, ← isFinite_add, whole]
        rfl
      obtain ⟨others, rest⟩ := isFinite_iff.mp both.2
      rw [isFinite_square] at both
      obtain ⟨number, rfl⟩ := isFinite_iff.mp both.1
      rw [rest] at whole
      cases whole
      exact add_nonneg (mul_self_nonneg number) (induction rest)

theorem mean_squares_nonneg {numbers : List (Extended K)} {value : K}
    (is : mean (numbers.map square) = .finite value) : 0 ≤ value := by
  have finite : (mean (numbers.map square)).isFinite = true := by
    rw [is]
    rfl
  obtain ⟨some, -⟩ := (isFinite_mean _).mp finite
  have several : (0 : K) < ((numbers.map square).length : K) :=
    Nat.cast_pos.mpr (List.length_pos_iff.mpr some)
  rw [mean, isFinite_div_positive several] at finite
  obtain ⟨total, summed⟩ := isFinite_iff.mp finite
  rw [mean, summed, div_positive several] at is
  cases is
  exact div_nonneg (sum_squares_nonneg summed) several.le

end Products

end Extended
