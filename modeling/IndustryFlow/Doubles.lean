import Mathlib.Algebra.Group.Nat.Defs
import Mathlib.Tactic.Common

/-!
# Comparing doubles

A double is its bits.  Below the sign bit they order the numbers by their size,
the infinities after the finite ones and what is not a number after these.
-/

namespace Doubles

/-- The bits below the sign. -/
def magnitude (double : UInt64) : Nat :=
  double.toNat % 9223372036854775808

/-- The exponent of what is not finite, with no fraction. -/
def infinity : Nat := 9218868437227405312

def isNaN (double : UInt64) : Bool :=
  infinity < magnitude double

def isFinite (double : UInt64) : Bool :=
  magnitude double < infinity

/-- The place among the numbers; both zeros have the same. -/
def place (double : UInt64) : Int :=
  if double.toNat < 9223372036854775808 then magnitude double
  else -magnitude double

/-- `first < second`. -/
def lt (first second : UInt64) : Bool :=
  !isNaN first && !isNaN second && place first < place second

/-- `first <= second`. -/
def le (first second : UInt64) : Bool :=
  !isNaN first && !isNaN second && place first ≤ place second

/-- `first == second`. -/
def eq (first second : UInt64) : Bool :=
  !isNaN first && !isNaN second && place first = place second

theorem le_iff {first second : UInt64} :
    le first second = true ↔ isNaN first = false ∧ isNaN second = false ∧
      place first ≤ place second := by
  simp [le, and_assoc]

theorem lt_iff {first second : UInt64} :
    lt first second = true ↔ isNaN first = false ∧ isNaN second = false ∧
      place first < place second := by
  simp [lt, and_assoc]

/-- Nothing is at least and less. -/
theorem not_lt_of_le {first second : UInt64} (le : le first second = true) :
    lt second first = false := by
  rw [Bool.eq_false_iff]
  intro less
  exact absurd (le_iff.mp le).2.2 (Int.not_le.mpr (lt_iff.mp less).2.2)

/-- What lies between zero and a finite double is finite. -/
theorem finite_between {double bound : UInt64} (positive : le 0 double = true)
    (below : le double bound = true) (finite : isFinite bound = true) :
    isFinite double = true := by
  obtain ⟨-, -, first⟩ := le_iff.mp positive
  obtain ⟨-, -, second⟩ := le_iff.mp below
  have zero : place 0 = 0 := by decide
  rw [zero] at first
  simp only [isFinite, decide_eq_true_eq, place] at *
  split at first <;> split at second <;> omega

/-! ## The double of an integer -/

/-- The bits below the sign of the double nearest to a number, of two the one
with an even fraction.  What is too large comes out at or past infinity. -/
def ofNat (number : Nat) : Nat :=
  if number = 0 then 0
  else
    let exponent := Nat.log2 number
    if exponent ≤ 52 then
      (exponent + 1022) * 4503599627370496 + number * 2 ^ (52 - exponent)
    else
      let unit := 2 ^ (exponent - 52)
      let quotient := number / unit
      let rest := number % unit
      (exponent + 1022) * 4503599627370496 +
        if unit < 2 * rest ∨ (unit = 2 * rest ∧ quotient % 2 = 1) then
          quotient + 1
        else quotient

/-- `float(number)`; `none` is an `OverflowError`. -/
def ofInt? (number : Int) : Option UInt64 :=
  let bits := ofNat number.natAbs
  if bits < infinity then
    some (UInt64.ofNat
      (if number < 0 then bits + 9223372036854775808 else bits))
  else none

/-- The whole number that a double is. -/
def whole? (double : UInt64) : Option Int :=
  let exponent := magnitude double / 4503599627370496
  let fraction := magnitude double % 4503599627370496
  let mantissa :=
    if exponent = 0 then fraction else fraction + 4503599627370496
  let sign : Int := if double.toNat < 9223372036854775808 then 1 else -1
  if exponent = 2047 then none
  else if 1075 ≤ exponent then
    some (sign * (mantissa * 2 ^ (exponent - 1075) : Nat))
  else
    let unit := 2 ^ (1075 - max exponent 1)
    if mantissa % unit = 0 then some (sign * (mantissa / unit : Nat))
    else none

example : ofInt? 5000 = some 4662219572839972864 := by decide

example : whole? 4662219572839972864 = some 5000 := by decide

end Doubles
