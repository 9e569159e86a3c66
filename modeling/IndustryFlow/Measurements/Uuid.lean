import IndustryFlow.Words
import Mathlib.Algebra.Group.Int.Defs
import Mathlib.Algebra.Group.Nat.Defs
import Mathlib.Data.List.Basic

/-!
# Three readings of a UUID text

The guard of the measurement writer matches an identifier with Java's regular
expressions, the driver parses it with Python's `uuid.UUID`, and PostgreSQL
reads it into a `uuid` column.  A text that the pattern accepts is five groups
of hexadecimal digits and, since `$` also matches before a final line
terminator, perhaps a line terminator (`rlikeUuid_cases`).  The other two
accept it exactly without the terminator.
-/

namespace IndustryFlow.Measurements

def hexValue (char : Char) : Option Nat :=
  if '0' ≤ char ∧ char ≤ '9' then some (char.toNat - 48)
  else if 'a' ≤ char ∧ char ≤ 'f' then some (char.toNat - 87)
  else if 'A' ≤ char ∧ char ≤ 'F' then some (char.toNat - 55)
  else none

def isHex (char : Char) : Bool :=
  (hexValue char).isSome

/-! ## The pattern -/

/-- `[0-9a-fA-F]{count}`, and the text after it. -/
def hexGroup (count : Nat) (text : List Char) : Option (List Char) :=
  if (text.take count).length = count ∧ (text.take count).all isHex then
    some (text.drop count)
  else none

/-- The groups of the pattern with their hyphens. -/
def hexGroups : List Nat → List Char → Option (List Char)
  | [], text => some text
  | [count], text => hexGroup count text
  | count :: counts, text =>
      match hexGroup count text with
      | some ('-' :: rest) => hexGroups counts rest
      | _ => none

def uuidGroups : List Nat := [8, 4, 4, 4, 12]

/-- What `$` skips at the end of the input. -/
def lineTerminators : List (List Char) :=
  [['\n'], ['\r', '\n'], ['\r'], ['\x85'], ['\u2028'], ['\u2029']]

attribute [local instance] Words.lawful_list in
/-- `rlike(UUID_PATTERN)`. -/
def rlikeUuid (text : String) : Bool :=
  match hexGroups uuidGroups text.toList with
  | some rest => rest.isEmpty || rest ∈ lineTerminators
  | none => false

/-! ## Python -/

/-- The exceptions of the batch path. -/
inductive Raised where
  /-- `ValueError: badly formed hexadecimal UUID string`. -/
  | badlyFormed
  /-- `ValueError` of `int(text, 16)`. -/
  | invalidLiteral
  /-- `ValueError: int is out of range (need a 128-bit value)`. -/
  | outOfRange
  /-- `ValueError: year is out of range`. -/
  | yearOutOfRange
  /-- `ValueError: A string literal cannot contain NUL`. -/
  | nulCharacter
  /-- PostgreSQL: `invalid input syntax for type uuid`. -/
  | invalidSyntax
deriving DecidableEq

/-- `str.replace(pattern, '')`; `skip` characters of a match are left. -/
def removeAll (pattern : List Char) : Nat → List Char → List Char
  | _, [] => []
  | skip + 1, _ :: rest => removeAll pattern skip rest
  | 0, char :: rest =>
      if pattern.isPrefixOf (char :: rest) then
        removeAll pattern (pattern.length - 1) rest
      else char :: removeAll pattern 0 rest

def isBrace (char : Char) : Bool :=
  char = '\x7b' || char = '\x7d'

/-- `str.strip` of braces. -/
def stripBraces (text : List Char) : List Char :=
  ((text.dropWhile isBrace).reverse.dropWhile isBrace).reverse

def ofHex (digits : List Char) : Nat :=
  digits.foldl (fun total digit => total * 16 + (hexValue digit).getD 0) 0

/-- `int(text, 16)`.  `other` is what it makes of a text that is not all
hexadecimal digits: blanks, signs, underscores, prefixes, other scripts. -/
def intBase16 (other : List Char → Option Int) (text : List Char) :
    Option Int :=
  if text ≠ [] ∧ text.all isHex then some (ofHex text) else other text

/-- `uuid.UUID(text).int`. -/
def uuidInt (other : List Char → Option Int) (text : String) :
    Except Raised Nat :=
  let plain := removeAll "uuid:".toList 0
    (removeAll "urn:".toList 0 text.toList)
  let hex := (stripBraces plain).filter (· ≠ '-')
  if hex.length ≠ 32 then .error .badlyFormed
  else
    match intBase16 other hex with
    | none => .error .invalidLiteral
    | some value =>
        if 0 ≤ value ∧ value < 2 ^ 128 then .ok value.toNat
        else .error .outOfRange

/-- `str` of a UUID. -/
def uuidText (value : Nat) : String :=
  let hex := (Nat.toDigits 16 value).leftpad 32 '0'
  String.ofList (hex.take 8 ++ ['-'] ++ (hex.drop 8).take 4 ++ ['-'] ++
    (hex.drop 12).take 4 ++ ['-'] ++ (hex.drop 16).take 4 ++ ['-'] ++
    hex.drop 20)

/-- `canonical_uuid`. -/
def canonicalUuid (other : List Char → Option Int) (text : String) :
    Except Raised String :=
  (uuidInt other text).map uuidText

/-- `tenancy.schema_name`. -/
def schemaName (other : List Char → Option Int) (company : String) :
    Except Raised String := do
  let canonical ← canonicalUuid other company
  pure ("tenant_" ++ String.ofList (canonical.toList.map fun char =>
    if char = '-' then '_' else char))

/-! ## PostgreSQL -/

/-- A hyphen may follow every second byte but the last. -/
def skipHyphen (left : Nat) : List Char → List Char
  | '-' :: rest => if left % 2 = 0 ∧ 0 < left then rest else '-' :: rest
  | rest => rest

/-- The text after `left` bytes. -/
def pgBytes : Nat → List Char → Option (List Char)
  | 0, rest => some rest
  | left + 1, high :: low :: rest =>
      if isHex high ∧ isHex low then pgBytes left (skipHyphen left rest)
      else none
  | _ + 1, _ => none

/-- `uuid_in`. -/
def uuidIn : List Char → Except Raised Unit
  | '\x7b' :: text =>
      if pgBytes 16 text = some ['\x7d'] then .ok () else .error .invalidSyntax
  | text => if pgBytes 16 text = some [] then .ok () else .error .invalidSyntax

/-! ## What the pattern accepts -/

/-- The digits between the hyphens of a UUID. -/
structure IsUuid (groups : List (List Char)) : Prop where
  lengths : groups.map List.length = uuidGroups
  digits : ∀ group ∈ groups, ∀ char ∈ group, isHex char = true

def EndsInLineTerminator (text : String) : Prop :=
  ∃ terminator ∈ lineTerminators, terminator <:+ text.toList

instance (text : String) : Decidable (EndsInLineTerminator text) :=
  inferInstanceAs (Decidable (∃ _ ∈ _, _))

private theorem hexGroup_some {count : Nat} {text rest : List Char}
    (found : hexGroup count text = some rest) :
    ∃ group, group.length = count ∧
      (∀ char ∈ group, isHex char = true) ∧ text = group ++ rest := by
  unfold hexGroup at found
  split at found
  · rename_i matched
    cases found
    exact ⟨text.take count, matched.1, List.all_eq_true.mp matched.2,
      (List.take_append_drop count text).symm⟩
  · cases found

theorem hexGroups_some {count : Nat} {counts : List Nat}
    {text rest : List Char}
    (found : hexGroups (count :: counts) text = some rest) :
    ∃ groups, groups.map List.length = count :: counts ∧
      (∀ group ∈ groups, ∀ char ∈ group, isHex char = true) ∧
      text = ['-'].intercalate groups ++ rest := by
  induction counts generalizing count text with
  | nil =>
      obtain ⟨group, length, digits, rfl⟩ := hexGroup_some found
      exact ⟨[group], by simp [length], by simpa using digits, by simp⟩
  | cons next counts induction =>
      simp only [hexGroups] at found
      split at found
      · rename_i after matched
        obtain ⟨group, length, digits, rfl⟩ := hexGroup_some matched
        obtain ⟨groups, lengths, allDigits, rfl⟩ := induction found
        refine ⟨group :: groups, by simp [length, lengths], ?_, ?_⟩
        · intro other member
          rcases List.mem_cons.mp member with rfl | later
          · exact digits
          · exact allDigits other later
        · cases groups with
          | nil => simp at lengths
          | cons first groups => simp [List.intercalate_cons_cons]
      · cases found

theorem rlikeUuid_cases {text : String} (matched : rlikeUuid text = true) :
    ∃ groups tail, IsUuid groups ∧
      text.toList = ['-'].intercalate groups ++ tail ∧
      (tail = [] ∨ tail ∈ lineTerminators) := by
  unfold rlikeUuid at matched
  split at matched
  · rename_i rest found
    obtain ⟨groups, lengths, digits, spelled⟩ := hexGroups_some found
    refine ⟨groups, rest, ⟨lengths, digits⟩, spelled, ?_⟩
    rcases Bool.or_eq_true_iff.mp matched with empty | terminator
    · exact .inl (List.isEmpty_iff.mp empty)
    · exact .inr (of_decide_eq_true terminator)
  · cases matched

private theorem mem_intercalate {groups : List (List Char)} {char : Char}
    (member : char ∈ ['-'].intercalate groups) :
    char = '-' ∨ ∃ group ∈ groups, char ∈ group := by
  induction groups with
  | nil => simp at member
  | cons group groups induction =>
      cases groups with
      | nil => exact .inr ⟨group, by simp, by simpa using member⟩
      | cons next groups =>
          rw [List.intercalate_cons_cons] at member
          rcases List.mem_append.mp member with front | later
          · rcases List.mem_append.mp front with own | hyphen
            · exact .inr ⟨group, by simp, own⟩
            · exact .inl (List.mem_singleton.mp hyphen)
          · rcases induction later with hyphen | ⟨other, found, inside⟩
            · exact .inl hyphen
            · exact .inr ⟨other, List.mem_cons_of_mem _ found, inside⟩

theorem IsUuid.mem {groups : List (List Char)} (uuid : IsUuid groups)
    {char : Char} (member : char ∈ ['-'].intercalate groups) :
    char = '-' ∨ isHex char = true := by
  rcases mem_intercalate member with hyphen | ⟨group, found, inside⟩
  · exact .inl hyphen
  · exact .inr (uuid.digits group found char inside)

/-- No digit and no hyphen stands in a line terminator. -/
private theorem lineTerminator_chars :
    ∀ terminator ∈ lineTerminators, terminator ≠ [] ∧
      ∀ char ∈ terminator, char ≠ '-' ∧ isHex char = false ∧
        char ≠ 'u' ∧ isBrace char = false := by
  have all : lineTerminators.all (fun terminator =>
      terminator ≠ [] && terminator.all fun char =>
        char ≠ '-' && !isHex char && (char ≠ 'u' && !isBrace char)) =
        true := by
    decide
  simpa [and_assoc] using all

theorem IsUuid.endsInLineTerminator_iff {groups : List (List Char)}
    (uuid : IsUuid groups) {text : String} {tail : List Char}
    (spelled : text.toList = ['-'].intercalate groups ++ tail)
    (known : tail = [] ∨ tail ∈ lineTerminators) :
    EndsInLineTerminator text ↔ tail ≠ [] := by
  constructor
  · rintro ⟨terminator, listed, suffix⟩ rfl
    obtain ⟨nonempty, chars⟩ := lineTerminator_chars terminator listed
    obtain ⟨char, member⟩ := List.exists_mem_of_ne_nil _ nonempty
    rw [spelled, List.append_nil] at suffix
    obtain ⟨noHyphen, noDigit, -⟩ := chars char member
    rcases uuid.mem (suffix.subset member) with hyphen | digit
    · exact noHyphen hyphen
    · rw [noDigit] at digit
      cases digit
  · intro nonempty
    rw [EndsInLineTerminator, spelled]
    exact ⟨tail, known.resolve_left nonempty, List.suffix_append _ _⟩

/-! ## What Python makes of it -/

theorem removeAll_self {first : Char} {pattern : List Char}
    {text : List Char} (absent : first ∉ text) :
    removeAll (first :: pattern) 0 text = text := by
  induction text with
  | nil => rfl
  | cons char text induction =>
      have different : first ≠ char := by
        intro same
        exact absent (same ▸ List.mem_cons_self)
      have unmatched :
          (first :: pattern).isPrefixOf (char :: text) = false := by
        simp [List.isPrefixOf, different]
      simp only [removeAll, unmatched, Bool.false_eq_true, ↓reduceIte]
      rw [induction fun member => absent (List.mem_cons_of_mem _ member)]

private theorem dropWhile_self {predicate : Char → Bool} {text : List Char}
    (none_holds : ∀ char ∈ text, predicate char = false) :
    text.dropWhile predicate = text := by
  cases text with
  | nil => rfl
  | cons char text =>
      simp [none_holds char List.mem_cons_self]

theorem hex_harmless {char : Char} (digit : isHex char = true) :
    char ≠ 'u' ∧ isBrace char = false := by
  constructor
  · rintro rfl
    exact absurd digit (by decide)
  · by_contra brace
    unfold isBrace at brace
    simp only [Bool.not_eq_false, Bool.or_eq_true,
      decide_eq_true_eq] at brace
    rcases brace with rfl | rfl
    · exact absurd digit (by decide)
    · exact absurd digit (by decide)

theorem stripBraces_self {text : List Char}
    (absent : ∀ char ∈ text, isBrace char = false) :
    stripBraces text = text := by
  unfold stripBraces
  rw [dropWhile_self absent, dropWhile_self, List.reverse_reverse]
  exact fun char member => absent char (List.mem_reverse.mp member)

private theorem filter_intercalate {groups : List (List Char)}
    (digits : ∀ group ∈ groups, ∀ char ∈ group, isHex char = true) :
    (['-'].intercalate groups).filter (· ≠ '-') = groups.flatten := by
  have whole {group : List Char} (member : group ∈ groups) :
      group.filter (· ≠ '-') = group := by
    refine List.filter_eq_self.mpr fun char inside => ?_
    have digit := digits group member char inside
    apply decide_eq_true
    rintro rfl
    exact absurd digit (by decide)
  induction groups with
  | nil => rfl
  | cons group groups induction =>
      have rest := induction
        (fun other member => digits other (List.mem_cons_of_mem _ member))
        (fun member => whole (List.mem_cons_of_mem _ member))
      have own := whole List.mem_cons_self
      cases groups with
      | nil => simpa using own
      | cons next groups =>
          rw [List.intercalate_cons_cons, List.filter_append,
            List.filter_append, own, rest]
          simp

theorem ofHex_lt (digits : List Char) :
    ofHex digits < 16 ^ digits.length := by
  have general (total : Nat) :
      digits.foldl (fun total digit =>
        total * 16 + (hexValue digit).getD 0) total <
          (total + 1) * 16 ^ digits.length := by
    induction digits generalizing total with
    | nil => simp
    | cons digit digits induction =>
        have small : (hexValue digit).getD 0 < 16 := by
          unfold hexValue
          split
          · rename_i bounds
            have top : digit.toNat ≤ 57 := bounds.2
            simp only [Option.getD_some]
            omega
          · split
            · rename_i bounds
              have top : digit.toNat ≤ 102 := bounds.2
              simp only [Option.getD_some]
              omega
            · split
              · rename_i bounds
                have top : digit.toNat ≤ 70 := bounds.2
                simp only [Option.getD_some]
                omega
              · simp
        rw [List.foldl_cons, List.length_cons, Nat.pow_succ]
        calc
          _ < (total * 16 + (hexValue digit).getD 0 + 1) *
              16 ^ digits.length := induction _
          _ ≤ ((total + 1) * 16) * 16 ^ digits.length :=
              Nat.mul_le_mul_right _ (by omega)
          _ = (total + 1) * (16 ^ digits.length * 16) := by
              rw [Nat.mul_assoc, Nat.mul_comm 16]
  simpa [ofHex] using general 0

/-- `uuid.UUID` reads 32 hexadecimal digits, wherever hyphens stand. -/
theorem uuidInt_digits {text : String}
    (chars : ∀ char ∈ text.toList, char = '-' ∨ isHex char = true)
    (count : (text.toList.filter (· ≠ '-')).length = 32)
    (other : List Char → Option Int) :
    uuidInt other text = .ok (ofHex (text.toList.filter (· ≠ '-'))) ∧
      ofHex (text.toList.filter (· ≠ '-')) < 2 ^ 128 := by
  have harmless : ∀ char ∈ text.toList,
      char ≠ 'u' ∧ isBrace char = false := by
    intro char member
    rcases chars char member with rfl | digit
    · decide
    · exact hex_harmless digit
  have noU : 'u' ∉ text.toList := fun member => (harmless 'u' member).1 rfl
  have plain : stripBraces (removeAll "uuid:".toList 0
      (removeAll "urn:".toList 0 text.toList)) = text.toList := by
    have urn : "urn:".toList = 'u' :: ['r', 'n', ':'] := by decide
    have uuidColon : "uuid:".toList = 'u' :: ['u', 'i', 'd', ':'] := by
      decide
    rw [urn, uuidColon, removeAll_self noU, removeAll_self noU,
      stripBraces_self fun char member => (harmless char member).2]
  have digits : (text.toList.filter (· ≠ '-')).all isHex = true := by
    rw [List.all_eq_true]
    intro char member
    obtain ⟨inside, other⟩ := List.mem_filter.mp member
    exact (chars char inside).resolve_left (of_decide_eq_true other)
  have nonempty : text.toList.filter (· ≠ '-') ≠ [] := by
    intro empty
    rw [empty] at count
    cases count
  have small : ofHex (text.toList.filter (· ≠ '-')) < 2 ^ 128 := by
    have below := ofHex_lt (text.toList.filter (· ≠ '-'))
    rw [count] at below
    exact Nat.lt_of_lt_of_eq below (by decide)
  have inside : (0 : Int) ≤ ofHex (text.toList.filter (· ≠ '-')) ∧
      (ofHex (text.toList.filter (· ≠ '-')) : Int) < 2 ^ 128 :=
    ⟨Int.natCast_nonneg _, by omega⟩
  have read : intBase16 other (text.toList.filter (· ≠ '-')) =
      some (ofHex (text.toList.filter (· ≠ '-')) : Int) := by
    rw [intBase16, if_pos ⟨nonempty, digits⟩]
  refine ⟨?_, small⟩
  unfold uuidInt
  simp only [plain, count, ne_eq, not_true_eq_false, if_false, read, inside,
    and_self, if_true, Int.toNat_natCast]

/-- `uuid.UUID` takes the groups alone and refuses a line terminator. -/
theorem IsUuid.uuidInt_ok_iff {groups : List (List Char)}
    (uuid : IsUuid groups) {text : String} {tail : List Char}
    (spelled : text.toList = ['-'].intercalate groups ++ tail)
    (known : tail = [] ∨ tail ∈ lineTerminators)
    (other : List Char → Option Int) :
    (∃ value, uuidInt other text = .ok value) ↔ tail = [] := by
  have chars : ∀ char ∈ text.toList, char ≠ 'u' ∧ isBrace char = false := by
    intro char member
    rw [spelled] at member
    rcases List.mem_append.mp member with inside | after
    · rcases uuid.mem inside with rfl | digit
      · decide
      · exact hex_harmless digit
    · rcases known with rfl | listed
      · cases after
      · exact ((lineTerminator_chars tail listed).2 char after).2.2
  have noU : 'u' ∉ text.toList := fun member => (chars 'u' member).1 rfl
  have tailKept : tail.filter (· ≠ '-') = tail := by
    refine List.filter_eq_self.mpr fun char member => ?_
    rcases known with rfl | listed
    · cases member
    · exact decide_eq_true
        ((lineTerminator_chars tail listed).2 char member).1
  have hex : (stripBraces (removeAll "uuid:".toList 0
      (removeAll "urn:".toList 0 text.toList))).filter (· ≠ '-') =
        groups.flatten ++ tail := by
    have urn : "urn:".toList = 'u' :: ['r', 'n', ':'] := by decide
    have uuidColon : "uuid:".toList = 'u' :: ['u', 'i', 'd', ':'] := by
      decide
    rw [urn, uuidColon, removeAll_self noU, removeAll_self noU,
      stripBraces_self fun char member => (chars char member).2, spelled,
      List.filter_append, filter_intercalate uuid.digits, tailKept]
  have count : groups.flatten.length = 32 := by
    rw [List.length_flatten, uuid.lengths]
    rfl
  unfold uuidInt
  simp only [hex, List.length_append, count]
  constructor
  · rintro ⟨value, parsed⟩
    by_contra nonempty
    have longer : 32 + tail.length ≠ 32 := by
      have := List.length_pos_iff.mpr nonempty
      omega
    rw [if_pos longer] at parsed
    cases parsed
  · rintro rfl
    have allHex : (groups.flatten ++ []).all isHex = true := by
      rw [List.append_nil, List.all_eq_true]
      intro char member
      obtain ⟨group, found, inside⟩ := List.mem_flatten.mp member
      exact uuid.digits group found char inside
    have nonempty : groups.flatten ++ [] ≠ [] := by
      intro empty
      rw [List.append_nil] at empty
      rw [empty] at count
      cases count
    have bound : ofHex (groups.flatten ++ []) < 2 ^ 128 := by
      have small := ofHex_lt groups.flatten
      rw [count] at small
      rw [List.append_nil]
      exact Nat.lt_of_lt_of_eq small (by decide)
    have inside : (0 : Int) ≤ ofHex (groups.flatten ++ []) ∧
        (ofHex (groups.flatten ++ []) : Int) < 2 ^ 128 :=
      ⟨Int.natCast_nonneg _, by omega⟩
    simp only [intBase16, nonempty, allHex, List.length_nil, Nat.add_zero,
      ne_eq, not_true_eq_false, not_false_eq_true, and_self, ↓reduceIte,
      inside]
    exact ⟨_, rfl⟩

/-! ## What PostgreSQL makes of it -/

private theorem skipHyphen_digit {left : Nat} {char : Char}
    (digit : isHex char = true) (rest : List Char) :
    skipHyphen left (char :: rest) = char :: rest := by
  have other : char ≠ '-' := by
    rintro rfl
    exact absurd digit (by decide)
  unfold skipHyphen
  split
  · rename_i same
    cases same
    exact absurd rfl other
  · rfl

/-- A group of whole bytes and the hyphen after it. -/
private theorem pgBytes_group {group : List Char}
    (digits : ∀ char ∈ group, isHex char = true) (bytes : Nat)
    {left : Nat} (length : group.length = 2 * (bytes + 1)) (even : left % 2 = 0)
    (more : 0 < left) (rest : List Char) :
    pgBytes (left + (bytes + 1)) (group ++ '-' :: rest) =
      pgBytes left rest := by
  induction bytes generalizing group with
  | zero =>
      obtain ⟨high, low, rfl⟩ := List.length_eq_two.mp length
      simp [pgBytes, skipHyphen, digits, even, more]
  | succ bytes induction =>
      obtain ⟨high, low, third, group, rfl⟩ :
          ∃ high low third rest, group = high :: low :: third :: rest := by
        rcases group with _ | ⟨high, _ | ⟨low, _ | ⟨third, rest⟩⟩⟩
        · simp only [List.length_nil] at length
          omega
        · simp only [List.length_cons, List.length_nil] at length
          omega
        · simp only [List.length_cons, List.length_nil] at length
          omega
        · exact ⟨high, low, third, rest, rfl⟩
      have first := digits high (by simp)
      have second := digits low (by simp)
      have next := digits third (by simp)
      have step : pgBytes (left + (bytes + 1 + 1))
          (high :: low :: third :: group ++ '-' :: rest) =
            pgBytes (left + (bytes + 1))
              (third :: group ++ '-' :: rest) := by
        rw [← Nat.add_assoc left]
        simp only [List.cons_append, pgBytes, first, second, and_self,
          ↓reduceIte, skipHyphen_digit next]
      rw [step]
      apply induction
      · exact fun char member => digits char (by simp [member])
      · simp only [List.length_cons] at length ⊢
        omega

private theorem pgBytes_last {group : List Char}
    (digits : ∀ char ∈ group, isHex char = true) {bytes : Nat}
    (length : group.length = 2 * bytes) :
    pgBytes bytes group = some [] := by
  induction bytes generalizing group with
  | zero =>
      rw [List.eq_nil_of_length_eq_zero length]
      rfl
  | succ bytes induction =>
      obtain ⟨high, low, group, rfl⟩ :
          ∃ high low rest, group = high :: low :: rest := by
        rcases group with _ | ⟨high, _ | ⟨low, rest⟩⟩
        · simp at length
        · simp at length
          omega
        · exact ⟨high, low, rest, rfl⟩
      have first := digits high (by simp)
      have second := digits low (by simp)
      have whole : skipHyphen bytes group = group := by
        cases group with
        | nil => rfl
        | cons third group => exact skipHyphen_digit (digits third (by simp)) _
      simp only [pgBytes, first, second, and_self, ↓reduceIte, whole]
      apply induction
      · exact fun char member => digits char (by simp [member])
      · simp only [List.length_cons] at length
        omega

theorem IsUuid.uuidIn_ok {groups : List (List Char)}
    (uuid : IsUuid groups) :
    uuidIn (['-'].intercalate groups) = .ok () := by
  obtain ⟨first, second, third, fourth, fifth, rfl⟩ :
      ∃ first second third fourth fifth,
        groups = [first, second, third, fourth, fifth] := by
    have five : groups.length = 5 := by
      rw [← List.length_map List.length, uuid.lengths]
      rfl
    match groups, five with
    | [first, second, third, fourth, fifth], _ =>
        exact ⟨first, second, third, fourth, fifth, rfl⟩
  have lengths := uuid.lengths
  simp only [List.map_cons, List.map_nil, uuidGroups,
    List.cons.injEq, and_true] at lengths
  obtain ⟨one, two, three, four, five⟩ := lengths
  have digits := uuid.digits
  simp only [List.mem_cons, List.not_mem_nil, or_false,
    forall_eq_or_imp, forall_eq] at digits
  obtain ⟨d1, d2, d3, d4, d5⟩ := digits
  have spelled : ['-'].intercalate [first, second, third, fourth, fifth] =
      first ++ '-' :: (second ++ '-' :: (third ++ '-' ::
        (fourth ++ '-' :: fifth))) := by
    simp [List.intercalate_cons_cons]
  have bytes : pgBytes 16 (['-'].intercalate
      [first, second, third, fourth, fifth]) = some [] := by
    rw [spelled]
    calc
      _ = pgBytes 12 _ := pgBytes_group d1 3 one rfl (by omega) _
      _ = pgBytes 10 _ := pgBytes_group d2 1 two rfl (by omega) _
      _ = pgBytes 8 _ := pgBytes_group d3 1 three rfl (by omega) _
      _ = pgBytes 6 _ := pgBytes_group d4 1 four rfl (by omega) _
      _ = some [] := pgBytes_last d5 five
  unfold uuidIn
  split
  · rename_i brace
    have member : '\x7b' ∈ ['-'].intercalate
        [first, second, third, fourth, fifth] := by
      rw [brace]
      exact List.mem_cons_self
    rcases uuid.mem member with hyphen | digit
    · exact absurd hyphen (by decide)
    · exact absurd digit (by decide)
  · rw [if_pos bytes]

end IndustryFlow.Measurements
