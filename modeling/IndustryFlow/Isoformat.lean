import Mathlib.Algebra.Group.Nat.Defs
import Mathlib.Data.List.Basic
import Mathlib.Data.Nat.Notation

/-!
# Times as texts

A time is written with numbers of fixed widths, with microseconds only where
there are any, and with the offset of its zone where it has one.  What is
written is read back as the same time (`fromIsoformat_isoformat`).  The texts
of other shapes that the reader takes are a parameter.
-/

namespace IndustryFlow.Isoformat

/-! ## Numbers of a fixed width -/

/-- `%0<width>d`. -/
def fixed (width number : Nat) : List Char :=
  (Nat.toDigits 10 number).leftpad width '0'

def readFixed (width : Nat) (text : List Char) : Option (Nat × List Char) :=
  if (text.take width).length = width ∧ (text.take width).all Char.isDigit then
    some (Nat.ofDigitChars 10 (text.take width) 0, text.drop width)
  else none

theorem fixed_length {width number : Nat} (positive : 0 < width)
    (small : number < 10 ^ width) : (fixed width number).length = width := by
  have short := (Nat.length_toDigits_le_iff (by decide : 1 < 10)
    positive).mpr small
  rw [fixed, List.leftpad, List.length_append, List.length_replicate]
  omega

theorem fixed_isDigit (width number : Nat) :
    (fixed width number).all Char.isDigit = true := by
  rw [List.all_eq_true]
  intro char member
  rcases List.mem_append.mp member with zero | digit
  · rw [(List.mem_replicate.mp zero).2]
    decide
  · exact Nat.isDigit_of_mem_toDigits (by decide) (by decide) digit

theorem ofDigitChars_fixed (width number : Nat) :
    Nat.ofDigitChars 10 (fixed width number) 0 = number := by
  rw [fixed, List.leftpad, Nat.ofDigitChars_append,
    Nat.ofDigitChars_replicate_zero, Nat.mul_zero,
    Nat.ofDigitChars_ten_toDigits]

theorem readFixed_fixed {width number : Nat} (positive : 0 < width)
    (small : number < 10 ^ width) (rest : List Char) :
    readFixed width (fixed width number ++ rest) = some (number, rest) := by
  have length := fixed_length positive small
  have taken : (fixed width number ++ rest).take width =
      fixed width number := by
    exact List.take_left' length
  have dropped : (fixed width number ++ rest).drop width = rest := by
    exact List.drop_left' length
  rw [readFixed, taken, dropped, ofDigitChars_fixed,
    if_pos ⟨length, fixed_isDigit width number⟩]

/-! ## Dates and times -/

/-- A time; the offset of its zone is in microseconds. -/
structure Fields where
  year : Nat
  month : Nat
  day : Nat
  hour : Nat
  minute : Nat
  second : Nat
  microsecond : Nat
  offset : Option Int
deriving DecidableEq

def isLeap (year : Nat) : Bool :=
  year % 4 = 0 && (year % 100 ≠ 0 || year % 400 = 0)

def daysInMonth (year month : Nat) : Nat :=
  if month = 2 then (if isLeap year then 29 else 28)
  else if month ∈ [4, 6, 9, 11] then 30
  else 31

/-- The microseconds of a day. -/
def dayLength : Nat := 86400000000

structure Fields.Valid (fields : Fields) : Prop where
  year : 1 ≤ fields.year ∧ fields.year ≤ 9999
  month : 1 ≤ fields.month ∧ fields.month ≤ 12
  day : 1 ≤ fields.day ∧ fields.day ≤ daysInMonth fields.year fields.month
  hour : fields.hour < 24
  minute : fields.minute < 60
  second : fields.second < 60
  microsecond : fields.microsecond < 1000000
  offset : ∀ offset ∈ fields.offset, offset.natAbs < dayLength

instance (fields : Fields) : Decidable fields.Valid :=
  decidable_of_iff
    ((1 ≤ fields.year ∧ fields.year ≤ 9999) ∧
      (1 ≤ fields.month ∧ fields.month ≤ 12) ∧
      (1 ≤ fields.day ∧
        fields.day ≤ daysInMonth fields.year fields.month) ∧
      fields.hour < 24 ∧ fields.minute < 60 ∧ fields.second < 60 ∧
      fields.microsecond < 1000000 ∧
      ∀ offset ∈ fields.offset, offset.natAbs < dayLength)
    ⟨fun ⟨year, month, day, hour, minute, second, microsecond, offset⟩ =>
      ⟨year, month, day, hour, minute, second, microsecond, offset⟩,
    fun ⟨year, month, day, hour, minute, second, microsecond, offset⟩ =>
      ⟨year, month, day, hour, minute, second, microsecond, offset⟩⟩

structure Datetime extends Fields where
  valid : toFields.Valid
deriving DecidableEq

/-- `tzinfo` answers with an offset. -/
def Datetime.aware (time : Datetime) : Bool :=
  time.offset.isSome

/-- A time of the zone UTC. -/
structure Utc extends Datetime where
  utc : toFields.offset = some 0

/-! ## Writing -/

def fractionText (microsecond : Nat) : List Char :=
  if microsecond = 0 then [] else '.' :: fixed 6 microsecond

/-- The seconds of an offset, where it has any. -/
def secondsText (microseconds : Nat) : List Char :=
  if microseconds = 0 then []
  else ':' :: (fixed 2 (microseconds / 1000000) ++
    fractionText (microseconds % 1000000))

/-- `_format_offset`. -/
def offsetText : Option Int → List Char
  | none => []
  | some offset =>
      (if offset < 0 then '-' else '+') ::
        (fixed 2 (offset.natAbs / 3600000000) ++ ':' ::
          (fixed 2 (offset.natAbs / 60000000 % 60) ++
            secondsText (offset.natAbs % 60000000)))

/-- `datetime.isoformat`. -/
def isoformat (fields : Fields) : String :=
  String.ofList (fixed 4 fields.year ++ '-' ::
    (fixed 2 fields.month ++ '-' ::
      (fixed 2 fields.day ++ 'T' ::
        (fixed 2 fields.hour ++ ':' ::
          (fixed 2 fields.minute ++ ':' ::
            (fixed 2 fields.second ++
              (fractionText fields.microsecond ++
                offsetText fields.offset)))))))

/-! ## Reading -/

def skip (char : Char) : List Char → Option (List Char)
  | first :: rest => if first = char then some rest else none
  | [] => none

def readFraction : List Char → Option (Nat × List Char)
  | '.' :: rest => readFixed 6 rest
  | rest => some (0, rest)

def readSeconds : List Char → Option Nat
  | [] => some 0
  | ':' :: text => do
      let (second, text) ← readFixed 2 text
      let (microsecond, text) ← readFraction text
      if text = [] then some (second * 1000000 + microsecond) else none
  | _ => none

def readOffset : List Char → Option (Option Int)
  | [] => some none
  | sign :: text => do
      let (hour, text) ← readFixed 2 text
      let text ← skip ':' text
      let (minute, text) ← readFixed 2 text
      let microseconds ← readSeconds text
      let size := hour * 3600000000 + minute * 60000000 + microseconds
      if sign = '+' then some (some size)
      else if sign = '-' then some (some (-size))
      else none

/-- The shape that `isoformat` writes. -/
def readFields (text : List Char) : Option Fields := do
  let (year, text) ← readFixed 4 text
  let text ← skip '-' text
  let (month, text) ← readFixed 2 text
  let text ← skip '-' text
  let (day, text) ← readFixed 2 text
  let text ← skip 'T' text
  let (hour, text) ← readFixed 2 text
  let text ← skip ':' text
  let (minute, text) ← readFixed 2 text
  let text ← skip ':' text
  let (second, text) ← readFixed 2 text
  let (microsecond, text) ← readFraction text
  let offset ← readOffset text
  some { year, month, day, hour, minute, second, microsecond, offset }

/-- `datetime.fromisoformat`.  `other` is what it makes of a text that no time
is written as. -/
def fromIsoformat (other : String → Option Datetime) (text : String) :
    Option Datetime :=
  match readFields text.toList with
  | some fields =>
      if valid : fields.Valid then some ⟨fields, valid⟩ else other text
  | none => other text

/-! ## What is written is read back -/

theorem readFraction_fractionText {microsecond : Nat}
    (small : microsecond < 1000000) {rest : List Char}
    (apart : rest.head? ≠ some '.') :
    readFraction (fractionText microsecond ++ rest) =
      some (microsecond, rest) := by
  by_cases zero : microsecond = 0
  · rw [fractionText, if_pos zero, List.nil_append, zero]
    rw [readFraction]
    intro later same
    apply apart
    rw [same]
    rfl
  · rw [fractionText, if_neg zero, List.cons_append, readFraction]
    exact readFixed_fixed (by decide) small rest

theorem readSeconds_secondsText {microseconds : Nat}
    (small : microseconds < 60000000) :
    readSeconds (secondsText microseconds) = some microseconds := by
  by_cases zero : microseconds = 0
  · rw [secondsText, if_pos zero, readSeconds, zero]
  · have second : microseconds / 1000000 < 10 ^ 2 := by omega
    have fraction := readFraction_fractionText
      (Nat.mod_lt microseconds (by decide : 0 < 1000000))
      (by simp : ([] : List Char).head? ≠ some '.')
    rw [List.append_nil] at fraction
    rw [secondsText, if_neg zero, readSeconds, readFixed_fixed (by decide) second]
    simp only [Option.bind_eq_bind, Option.bind_some, fraction, if_true]
    congr 1
    omega

theorem readOffset_offsetText {offset : Option Int}
    (bounded : ∀ shift ∈ offset, shift.natAbs < dayLength) :
    readOffset (offsetText offset) = some offset := by
  cases offset with
  | none => rfl
  | some shift =>
      have small := bounded shift rfl
      rw [dayLength] at small
      have hour : shift.natAbs / 3600000000 < 10 ^ 2 := by omega
      have minute : shift.natAbs / 60000000 % 60 < 10 ^ 2 := by omega
      have seconds := readSeconds_secondsText
        (Nat.mod_lt shift.natAbs (by decide : 0 < 60000000))
      simp only [offsetText, readOffset, readFixed_fixed (by decide) hour,
        readFixed_fixed (by decide) minute, skip, seconds,
        Option.bind_eq_bind, Option.bind_some, if_true]
      by_cases negative : shift < 0
      · simp only [if_pos negative]
        rw [if_neg (by decide), if_true]
        congr 2
        omega
      · simp only [if_neg negative]
        rw [if_true]
        congr 2
        omega

theorem offsetText_head (offset : Option Int) :
    (offsetText offset).head? ≠ some '.' := by
  cases offset with
  | none => simp [offsetText]
  | some shift =>
      by_cases negative : shift < 0
      · simp [offsetText, negative]
      · simp [offsetText, negative]

theorem readFields_isoformat {fields : Fields} (valid : fields.Valid) :
    readFields (isoformat fields).toList = some fields := by
  have year : fields.year < 10 ^ 4 := by
    have bound := valid.year.2
    omega
  have month : fields.month < 10 ^ 2 := by
    have bound := valid.month.2
    omega
  have day : fields.day < 10 ^ 2 := by
    have bound := valid.day.2
    rw [daysInMonth] at bound
    split at bound
    · split at bound <;> omega
    · split at bound <;> omega
  have hour : fields.hour < 10 ^ 2 := by
    have bound := valid.hour
    omega
  have minute : fields.minute < 10 ^ 2 := by
    have bound := valid.minute
    omega
  have second : fields.second < 10 ^ 2 := by
    have bound := valid.second
    omega
  have fraction := readFraction_fractionText valid.microsecond
    (offsetText_head fields.offset)
  have offset := readOffset_offsetText valid.offset
  simp only [isoformat, String.toList_ofList, readFields,
    readFixed_fixed (by decide) year, readFixed_fixed (by decide) month,
    readFixed_fixed (by decide) day, readFixed_fixed (by decide) hour,
    readFixed_fixed (by decide) minute, readFixed_fixed (by decide) second,
    skip, fraction, offset, Option.bind_eq_bind, Option.bind_some, if_true]

theorem fromIsoformat_isoformat (other : String → Option Datetime)
    (time : Datetime) :
    fromIsoformat other (isoformat time.toFields) = some time := by
  rw [fromIsoformat, readFields_isoformat time.valid]
  exact dif_pos time.valid

end IndustryFlow.Isoformat
