import Mathlib.Data.List.Basic
import Mathlib.Data.Nat.Notation

/-!
# Base64

Three bytes are written as four characters, and the last one or two bytes are
padded.  The reader passes over characters that are not of the alphabet and
stops at a padding that is complete; it reads what was written
(`decode_encode`).
-/

namespace Base64

def alphabet : List Char :=
  ['A', 'B', 'C', 'D', 'E', 'F', 'G', 'H', 'I', 'J', 'K', 'L', 'M', 'N', 'O',
    'P', 'Q', 'R', 'S', 'T', 'U', 'V', 'W', 'X', 'Y', 'Z', 'a', 'b', 'c', 'd',
    'e', 'f', 'g', 'h', 'i', 'j', 'k', 'l', 'm', 'n', 'o', 'p', 'q', 'r', 's',
    't', 'u', 'v', 'w', 'x', 'y', 'z', '0', '1', '2', '3', '4', '5', '6', '7',
    '8', '9', '+', '/']

def char (digit : Nat) : Char :=
  alphabet.getD digit '='

def value (char : Char) : Option Nat :=
  alphabet.findIdx? (· = char)

/-- `base64.b64encode`. -/
def encode : List UInt8 → List Char
  | [] => []
  | [first] =>
      [char (first.toNat / 4), char (first.toNat % 4 * 16), '=', '=']
  | [first, second] =>
      [char (first.toNat / 4),
        char (first.toNat % 4 * 16 + second.toNat / 16),
        char (second.toNat % 16 * 4), '=']
  | first :: second :: third :: rest =>
      char (first.toNat / 4) ::
        char (first.toNat % 4 * 16 + second.toNat / 16) ::
        char (second.toNat % 16 * 4 + third.toNat / 64) ::
        char (third.toNat % 64) :: encode rest

/-- `binascii.a2b_base64`, from a place in a group of four on: the bits that
are left of the last character, and the padding since. -/
def decodeFrom (place left pads : Nat) : List Char → Option (List UInt8)
  | [] => if place = 0 then some [] else none
  | char :: rest =>
      if char = '=' then
        if 2 ≤ place ∧ 4 ≤ place + (pads + 1) then some []
        else
          decodeFrom place left (if 2 ≤ place then pads + 1 else pads) rest
      else
        match value char with
        | none => decodeFrom place left pads rest
        | some digit =>
            match place with
            | 0 => decodeFrom 1 digit 0 rest
            | 1 => (decodeFrom 2 (digit % 16) 0 rest).map
                (.ofNat (left * 4 + digit / 16) :: ·)
            | 2 => (decodeFrom 3 (digit % 4) 0 rest).map
                (.ofNat (left * 16 + digit / 4) :: ·)
            | _ => (decodeFrom 0 0 0 rest).map
                (.ofNat (left * 64 + digit) :: ·)

/-- `base64.b64decode`. -/
def decode (text : List Char) : Option (List UInt8) :=
  if text.all fun char => char.toNat < 128 then decodeFrom 0 0 0 text
  else none

/-! ## Reading what was written -/

theorem digit_read : ∀ digit : Fin 64,
    char digit ≠ '=' ∧ value (char digit) = some digit.val := by
  decide +kernel

theorem decodeFrom_char {place digit left pads : Nat} (rest : List Char)
    (small : digit < 64) :
    decodeFrom place left pads (char digit :: rest) =
      match place with
      | 0 => decodeFrom 1 digit 0 rest
      | 1 => (decodeFrom 2 (digit % 16) 0 rest).map
          (.ofNat (left * 4 + digit / 16) :: ·)
      | 2 => (decodeFrom 3 (digit % 4) 0 rest).map
          (.ofNat (left * 16 + digit / 4) :: ·)
      | _ => (decodeFrom 0 0 0 rest).map
          (.ofNat (left * 64 + digit) :: ·) := by
  obtain ⟨solid, read⟩ := digit_read ⟨digit, small⟩
  rw [decodeFrom, if_neg solid]
  simp only [read]

/-- A byte from its two parts. -/
theorem ofNat_parts (byte : UInt8) {value : Nat}
    (same : value = byte.toNat) : UInt8.ofNat value = byte := by
  rw [same, UInt8.ofNat_toNat]

theorem decodeFrom_encode (bytes : List UInt8) :
    decodeFrom 0 0 0 (encode bytes) = some bytes := by
  induction bytes using encode.induct with
  | case1 => rfl
  | case2 first =>
      have bound := first.toNat_lt
      rw [encode, decodeFrom_char _ (by omega)]
      simp only
      rw [decodeFrom_char _ (by omega)]
      simp only [decodeFrom, if_true]
      rw [ofNat_parts first (by omega)]
      rfl
  | case3 first second =>
      have bound := first.toNat_lt
      have bound' := second.toNat_lt
      rw [encode, decodeFrom_char _ (by omega)]
      simp only
      rw [decodeFrom_char _ (by omega)]
      simp only
      rw [decodeFrom_char _ (by omega)]
      simp only [decodeFrom, if_true]
      rw [ofNat_parts first (by omega), ofNat_parts second (by omega)]
      rfl
  | case4 first second third rest induction =>
      have bound := first.toNat_lt
      have bound' := second.toNat_lt
      have bound'' := third.toNat_lt
      rw [encode, decodeFrom_char _ (by omega)]
      simp only
      rw [decodeFrom_char _ (by omega)]
      simp only
      rw [decodeFrom_char _ (by omega)]
      simp only
      rw [decodeFrom_char _ (by omega)]
      simp only [induction, Option.map_some]
      rw [ofNat_parts first (by omega), ofNat_parts second (by omega),
        ofNat_parts third (by omega)]

/-! ## The characters -/

theorem char_mem (digit : Nat) : char digit ∈ '=' :: alphabet := by
  rw [char, List.getD_eq_getElem?_getD]
  cases found : alphabet[digit]? with
  | none => exact List.mem_cons_self
  | some char =>
      exact List.mem_cons_of_mem _ (List.mem_of_getElem? found)

theorem mem_alphabet {bytes : List UInt8} {char : Char}
    (member : char ∈ encode bytes) : char ∈ '=' :: alphabet := by
  induction bytes using encode.induct with
  | case1 => cases member
  | case2 first =>
      simp only [encode, List.mem_cons, List.not_mem_nil, or_false] at member
      rcases member with rfl | rfl | rfl | rfl
      · exact char_mem _
      · exact char_mem _
      · exact List.mem_cons_self
      · exact List.mem_cons_self
  | case3 first second =>
      simp only [encode, List.mem_cons, List.not_mem_nil, or_false] at member
      rcases member with rfl | rfl | rfl | rfl
      · exact char_mem _
      · exact char_mem _
      · exact char_mem _
      · exact List.mem_cons_self
  | case4 first second third rest induction =>
      simp only [encode, List.mem_cons] at member
      rcases member with rfl | rfl | rfl | rfl | later
      · exact char_mem _
      · exact char_mem _
      · exact char_mem _
      · exact char_mem _
      · exact induction (by simpa using later)

/-- A character that is not used. -/
theorem not_mem_encode {bytes : List UInt8} {char : Char}
    (other : char ∉ '=' :: alphabet) : char ∉ encode bytes :=
  fun member => other (mem_alphabet member)

theorem decode_encode (bytes : List UInt8) :
    decode (encode bytes) = some bytes := by
  have ascii : ((encode bytes).all fun char => char.toNat < 128) = true := by
    apply List.all_eq_true.mpr
    intro char member
    have all := List.all_eq_true.mp (by decide :
      ('=' :: alphabet).all (fun char => decide (char.toNat < 128)) = true)
    exact all char (mem_alphabet member)
  rw [decode, if_pos ascii, decodeFrom_encode]

end Base64
