import IndustryFlow.Doubles
import IndustryFlow.Fallible

/-!
# JSON values with their numbers

What `json.loads` returns, where the services look at the numbers.  An integer
has any size, and a float is its bits.
-/

namespace IndustryFlow

inductive JsonValue where
  | null
  | bool (value : Bool)
  | int (number : Int)
  | float (bits : UInt64)
  | str (text : String)
  | arr (items : List JsonValue)
  | obj (fields : List (String × JsonValue))

/-- An integer that no double is near to. -/
inductive OverflowError where
  | overflow
deriving DecidableEq

namespace JsonValue

/-- `fields.get(key)`. -/
def get (fields : List (String × JsonValue)) (key : String) : JsonValue :=
  (fields.lookup key).getD .null

/-- `bool(value)`. -/
def truthy : JsonValue → Bool
  | .null => false
  | .bool value => value
  | .int number => number ≠ 0
  | .float bits => Doubles.magnitude bits ≠ 0
  | .str text => text ≠ ""
  | .arr items => !items.isEmpty
  | .obj fields => !fields.isEmpty

/-- `value is None`. -/
def isNull : JsonValue → Bool
  | .null => true
  | _ => false

/-- Whether it can be in a set. -/
def hashable : JsonValue → Bool
  | .arr _ | .obj _ => false
  | _ => true

/-- The whole number that a number is. -/
def whole? : JsonValue → Option Int
  | .bool value => some (if value then 1 else 0)
  | .int number => some number
  | .float bits => Doubles.whole? bits
  | _ => none

/-- `first == second` in a set of what JSON holds; it reads every `NaN` as one
object. -/
def same (first second : JsonValue) : Bool :=
  match first, second with
  | .null, .null => true
  | .str text, .str other => text = other
  | .float bits, .float other =>
      Doubles.eq bits other || (Doubles.isNaN bits && Doubles.isNaN other)
  | first, second =>
      match whole? first, whole? second with
      | some number, some other => number = other
      | _, _ => false

/-- `float(value)` of a number. -/
def double? : JsonValue → Option UInt64
  | .int number => Doubles.ofInt? number
  | .float bits => some bits
  | _ => none

/-- A number, and neither an infinity nor something that is no number. -/
def IsFinite : JsonValue → Prop
  | .int _ => True
  | .float bits => Doubles.isFinite bits = true
  | _ => False

instance : DecidablePred IsFinite
  | .int _ => isTrue trivial
  | .float bits => inferInstanceAs (Decidable (Doubles.isFinite bits = true))
  | .null | .bool _ | .str _ | .arr _ | .obj _ => isFalse id

/-- An integer past the doubles. -/
def Overflows : JsonValue → Prop
  | .int number => Doubles.ofInt? number = none
  | _ => False

instance : DecidablePred Overflows
  | .int number => inferInstanceAs (Decidable (Doubles.ofInt? number = none))
  | .null | .bool _ | .float _ | .str _ | .arr _ | .obj _ => isFalse id

/-- `math.isfinite(value)` of a number; it makes a double of an integer. -/
def isfinite : JsonValue → Except OverflowError Bool
  | .int number =>
      if Doubles.ofInt? number = none then .error .overflow else .ok true
  | .float bits => .ok (Doubles.isFinite bits)
  | _ => .ok false

theorem isfinite_ok {value : JsonValue} (fits : ¬value.Overflows) :
    value.isfinite = .ok (decide value.IsFinite) := by
  cases value with
  | int number =>
      exact if_neg (show ¬Doubles.ofInt? number = none from fits)
  | float bits =>
      have same : decide (IsFinite (.float bits)) =
          decide (Doubles.isFinite bits = true) := rfl
      rw [isfinite, same, Bool.decide_eq_true]
  | null => rfl
  | bool value => rfl
  | str text => rfl
  | arr items => rfl
  | obj fields => rfl

theorem isfinite_error {value : JsonValue} (large : value.Overflows) :
    value.isfinite = .error .overflow := by
  cases value with
  | int number =>
      exact if_pos (show Doubles.ofInt? number = none from large)
  | float bits => exact large.elim
  | null => exact large.elim
  | bool value => exact large.elim
  | str text => exact large.elim
  | arr items => exact large.elim
  | obj fields => exact large.elim

/-- `missing_sensors`, of a reading that gives a value under a name. -/
def missingSensors {Name : Type} (reading : Name → JsonValue) :
    List Name → Except OverflowError (List Name)
  | [] => .ok []
  | sensor :: sensors => do
      let found ← (reading sensor).isfinite
      let missing ← missingSensors reading sensors
      pure (if found then missing else sensor :: missing)

theorem missingSensors_ok {Name : Type} {reading : Name → JsonValue}
    {sensors : List Name}
    (fit : ∀ sensor ∈ sensors, ¬(reading sensor).Overflows) :
    missingSensors reading sensors =
      .ok (sensors.filter fun sensor => !decide (reading sensor).IsFinite) := by
  induction sensors with
  | nil => rfl
  | cons sensor sensors induction =>
      rw [missingSensors, JsonValue.isfinite_ok (fit sensor (by simp)),
        induction fun other member => fit other (by simp [member])]
      by_cases finite : (reading sensor).IsFinite
      · simp [finite, bind, Except.bind, pure, Except.pure]
      · simp [finite, bind, Except.bind, pure, Except.pure]

/-- Nothing is missing exactly if every sensor has a finite number. -/
theorem missingSensors_nil_iff {Name : Type} {reading : Name → JsonValue}
    {sensors : List Name} :
    missingSensors reading sensors = .ok [] ↔
      ∀ sensor ∈ sensors, (reading sensor).isfinite = .ok true := by
  induction sensors with
  | nil => exact iff_of_true rfl nofun
  | cons sensor sensors induction =>
      rw [missingSensors, bind_ok_iff, List.forall_mem_cons, ← induction]
      constructor
      · rintro ⟨found, read, rest⟩
        obtain ⟨missing, others, none⟩ := bind_ok_iff.mp rest
        cases found with
        | true =>
            cases none
            exact ⟨read, others⟩
        | false => cases none
      · rintro ⟨read, others⟩
        refine ⟨true, read, ?_⟩
        rw [others]
        rfl

end JsonValue

end IndustryFlow
