import IndustryFlow.Fallible
import IndustryFlow.Tenancy.Boundary
import Mathlib.Algebra.Group.Nat.Defs

/-!
# Tenant names

The names built from a company id, as the builders compute them from any text
that `uuid.UUID` takes.  Every name is the canonical UUID with one of two
separators between a fixed front and a fixed back (`Kind.name_ok_iff`), so a
name tells its kind and its tenant; and the decoder of schema names accepts
what the builder makes and nothing else.
-/

namespace IndustryFlow.Tenancy.Names

open Measurements (Raised canonicalUuid uuidInt uuidText ofHex hexValue isHex)

section Builders

variable (other : List Char → Option Int)

/-- `canonical_company_id`. -/
def canonicalCompanyId (companyId : String) : Except Raised String :=
  canonicalUuid other companyId

/-- `str.replace`, of a character. -/
def replaceAll (old new : Char) (text : String) : String :=
  String.ofList (text.toList.map fun char => if char = old then new else char)

/-- `_underscored`. -/
def underscored (companyId : String) : Except Raised String := do
  let canonical ← canonicalCompanyId other companyId
  pure (replaceAll '-' '_' canonical)

/-- `_PREFIX`. -/
def prefixText : String := "tenant_"

/-- `tenant_token`. -/
def tenantToken (companyId : String) : Except Raised String := do
  let tail ← underscored other companyId
  pure (prefixText ++ tail)

/-- `schema_name`. -/
def schemaName (companyId : String) : Except Raised String :=
  tenantToken other companyId

/-- `reader_role_name`. -/
def readerRoleName (companyId : String) : Except Raised String := do
  let tail ← underscored other companyId
  pure (prefixText ++ "reader_" ++ tail)

/-- `sql_login_name`. -/
def sqlLoginName (companyId : String) : Except Raised String := do
  let tail ← underscored other companyId
  pure (prefixText ++ "sqlproxy_" ++ tail)

/-- `mlflow_name_prefix`. -/
def mlflowNamePrefix (companyId : String) : Except Raised String := do
  let token ← tenantToken other companyId
  pure (token ++ ".")

/-- `MLFLOW_DELETED_NAME_ROOT`. -/
def mlflowDeletedNameRoot : String := "_deleted."

/-- `mlflow_deleted_name_prefix`. -/
def mlflowDeletedNamePrefix (companyId : String) : Except Raised String := do
  let owned ← mlflowNamePrefix other companyId
  pure (mlflowDeletedNameRoot ++ owned)

/-- `mlflow_artifact_prefix`. -/
def mlflowArtifactPrefix (companyId : String) : Except Raised String := do
  let token ← tenantToken other companyId
  pure (token ++ "/")

/-- `cold_object_prefix`. -/
def coldObjectPrefix (companyId : String) : Except Raised String := do
  let canonical ← canonicalCompanyId other companyId
  pure (prefixText ++ canonical)

/-- `cold_key_prefix`. -/
def coldKeyPrefix (companyId : String) : Except Raised String := do
  let object ← coldObjectPrefix other companyId
  pure (object ++ "/")

inductive SchemaError where
  /-- `ValueError: not a tenant schema`. -/
  | notATenantSchema (name : String)
  | company (raised : Raised)
deriving DecidableEq

/-- `company_id_from_schema`, of a text. -/
def companyIdFromSchema (name : String) : Except SchemaError String := do
  if !prefixText.toList.isPrefixOf name.toList then
    throw (.notATenantSchema name)
  let tail := String.ofList (name.toList.drop prefixText.length)
  let companyId ← (canonicalCompanyId other (replaceAll '_' '-' tail)).mapError
    SchemaError.company
  let schema ← (schemaName other companyId).mapError SchemaError.company
  if schema ≠ name then
    throw (.notATenantSchema name)
  pure companyId

end Builders

/-! ## The canonical text -/

/-- The digits of a UUID. -/
def digitsOf (value : Nat) : Text :=
  (Nat.toDigits 16 value).leftpad 32 '0'

theorem digitChar_hex {value : Nat} (small : value < 16) :
    isLowerHex (Nat.digitChar value) = true ∧
      hexValue (Nat.digitChar value) = some value := by
  have all : ∀ value : Fin 16, isLowerHex (Nat.digitChar value) = true ∧
      hexValue (Nat.digitChar value) = some value.val := by
    decide
  exact all ⟨value, small⟩

theorem toDigits_lowerHex (value : Nat) :
    (Nat.toDigits 16 value).all isLowerHex = true := by
  induction value using Nat.strongRecOn with
  | ind value induction =>
      by_cases small : value < 16
      · rw [Nat.toDigits_of_lt_base small]
        simpa using (digitChar_hex small).1
      · have last := digitChar_hex (Nat.mod_lt value (by decide : 0 < 16))
        have shorter := induction (value / 16) (by omega)
        rw [Nat.toDigits_of_base_le (by decide) (by omega), List.all_append,
          shorter]
        simpa using last.1

theorem ofHex_append (digits : Text) (digit : Char) :
    ofHex (digits ++ [digit]) =
      ofHex digits * 16 + (hexValue digit).getD 0 := by
  simp [ofHex]

theorem ofHex_toDigits (value : Nat) :
    ofHex (Nat.toDigits 16 value) = value := by
  induction value using Nat.strongRecOn with
  | ind value induction =>
      by_cases small : value < 16
      · rw [Nat.toDigits_of_lt_base small]
        simp [ofHex, digitChar_hex small]
      · have last := digitChar_hex (Nat.mod_lt value (by decide : 0 < 16))
        have shorter := induction (value / 16) (by omega)
        rw [Nat.toDigits_of_base_le (by decide) (by omega), ofHex_append,
          shorter, last.2, Option.getD_some]
        omega

private theorem ofHex_leftpad (digits : Text) (count : Nat) :
    ofHex (digits.leftpad count '0') = ofHex digits := by
  have zeros (length : Nat) :
      (List.replicate length '0').foldl (fun total digit =>
        total * 16 + (hexValue digit).getD 0) 0 = 0 := by
    induction length with
    | zero => rfl
    | succ length induction =>
        have zero : (hexValue '0').getD 0 = 0 := by decide
        rw [List.replicate_succ, List.foldl_cons, zero]
        exact induction
  rw [List.leftpad, ofHex, List.foldl_append, zeros]
  rfl

/-- The company that a UUID stands for. -/
def companyOf (value : Nat) (small : value < 2 ^ 128) : Company where
  digits := digitsOf value
  length := by
    have short := (Nat.length_toDigits_le_iff (b := 16) (k := 32) (n := value)
      (by decide) (by decide)).mpr (small.trans_le (by decide))
    rw [digitsOf, List.leftpad, List.length_append, List.length_replicate]
    omega
  hex := by
    rw [digitsOf, List.leftpad, List.all_append, toDigits_lowerHex]
    simp [isLowerHex]

theorem ofHex_digitsOf (value : Nat) : ofHex (digitsOf value) = value := by
  rw [digitsOf, ofHex_leftpad, ofHex_toDigits]

theorem uuidText_toList (value : Nat) :
    (uuidText value).toList = grouped '-' (digitsOf value) := by
  simp [uuidText, grouped, digitsOf]

theorem companyOf_grouped (value : Nat) (small : value < 2 ^ 128) :
    (uuidText value).toList = grouped '-' (companyOf value small).digits :=
  uuidText_toList value

theorem companyOf_injective {left right : Nat} {smallLeft : left < 2 ^ 128}
    {smallRight : right < 2 ^ 128}
    (same : companyOf left smallLeft = companyOf right smallRight) :
    left = right := by
  have digits := congrArg (fun company => ofHex company.digits) same
  have ofLeft := ofHex_digitsOf left
  have ofRight := ofHex_digitsOf right
  exact ofLeft.symm.trans (digits.trans ofRight)

theorem isHex_of_isLowerHex {char : Char} (digit : isLowerHex char = true) :
    isHex char = true := by
  simp only [isLowerHex, Bool.or_eq_true, Bool.and_eq_true,
    decide_eq_true_eq] at digit
  rw [isHex, hexValue]
  rcases digit with decimal | letter
  · rw [if_pos decimal]
    rfl
  · by_cases decimal : '0' ≤ char ∧ char ≤ '9'
    · rw [if_pos decimal]
      rfl
    · rw [if_neg decimal, if_pos letter]
      rfl

theorem uuidText_filter {value : Nat} (small : value < 2 ^ 128) :
    (uuidText value).toList.filter (· ≠ '-') =
      (companyOf value small).digits := by
  have digits := grouped_filter (by decide : isLowerHex '-' = false)
    (companyOf value small).hex
  rw [← companyOf_grouped] at digits
  exact digits

theorem uuidText_chars {value : Nat} (small : value < 2 ^ 128) :
    ∀ char ∈ (uuidText value).toList, char = '-' ∨ isHex char = true := by
  intro char member
  by_cases hyphen : char = '-'
  · exact .inl hyphen
  · have inside : char ∈ (companyOf value small).digits := by
      rw [← uuidText_filter]
      exact List.mem_filter.mpr ⟨member, by simpa using hyphen⟩
    right
    apply isHex_of_isLowerHex
    exact List.all_eq_true.mp (companyOf value small).hex char inside

/-- The parser takes a canonical text for the UUID that it spells. -/
theorem uuidInt_uuidText (other : List Char → Option Int) {value : Nat}
    (small : value < 2 ^ 128) :
    uuidInt other (uuidText value) = .ok value := by
  have digits := uuidText_filter small
  have count : ((uuidText value).toList.filter (· ≠ '-')).length = 32 := by
    rw [digits, (companyOf value small).length]
  have parsed := (Measurements.uuidInt_digits (uuidText_chars small) count
    other).1
  rw [digits] at parsed
  rw [parsed]
  exact congrArg Except.ok (ofHex_digitsOf value)

theorem uuidInt_small {other : List Char → Option Int} {text : String}
    {value : Nat} (parsed : uuidInt other text = .ok value) :
    value < 2 ^ 128 := by
  simp only [uuidInt] at parsed
  split at parsed
  · cases parsed
  · split at parsed
    · cases parsed
    · split at parsed
      · rename_i bounds
        cases parsed
        omega
      · cases parsed

/-! ## The kinds of names -/

inductive Kind where
  | token
  | schema
  | reader
  | sqlLogin
  | namePrefix
  | deletedPrefix
  | artifactPrefix
  | coldObject
  | coldKey
deriving DecidableEq

namespace Kind

/-- The name of a kind. -/
def name (other : List Char → Option Int) (companyId : String) :
    Kind → Except Raised String
  | token => tenantToken other companyId
  | schema => schemaName other companyId
  | reader => readerRoleName other companyId
  | sqlLogin => sqlLoginName other companyId
  | namePrefix => mlflowNamePrefix other companyId
  | deletedPrefix => mlflowDeletedNamePrefix other companyId
  | artifactPrefix => mlflowArtifactPrefix other companyId
  | coldObject => coldObjectPrefix other companyId
  | coldKey => coldKeyPrefix other companyId

def front : Kind → Text
  | reader => prefixText.toList ++ "reader_".toList
  | sqlLogin => prefixText.toList ++ "sqlproxy_".toList
  | deletedPrefix => mlflowDeletedNameRoot.toList ++ prefixText.toList
  | _ => prefixText.toList

def separator : Kind → Char
  | coldObject | coldKey => '-'
  | _ => '_'

def back : Kind → Text
  | namePrefix | deletedPrefix => ".".toList
  | artifactPrefix | coldKey => "/".toList
  | _ => []

def text (kind : Kind) (company : Company) : Text :=
  kind.front ++ grouped kind.separator company.digits ++ kind.back

/-- The schema is the token itself. -/
def Same (left right : Kind) : Prop :=
  left = right ∨
    (left ∈ [token, schema] ∧ right ∈ [token, schema])

end Kind

theorem grouped_map (company : Company) (replace : Char → Char)
    (kept : ∀ char, isLowerHex char = true → replace char = char)
    (separator : Char) :
    (grouped separator company.digits).map replace =
      grouped (replace separator) company.digits := by
  have all := List.all_eq_true.mp company.hex
  have whole : company.digits.map replace = company.digits := by
    calc
      _ = company.digits.map id :=
          List.map_congr_left fun char member => kept char (all char member)
      _ = company.digits := List.map_id _
  simp only [grouped, List.map_append, List.map_cons, List.map_take,
    List.map_drop, whole]

theorem replaceAll_canonical {canonical : String} {company : Company}
    (spelled : canonical.toList = grouped '-' company.digits) :
    (replaceAll '-' '_' canonical).toList = grouped '_' company.digits := by
  rw [replaceAll, String.toList_ofList, spelled, grouped_map]
  · simp
  · intro char digit
    have other : char ≠ '-' := by
      rintro rfl
      exact absurd digit (by decide)
    rw [if_neg other]

/-- The names of a company id with a given canonical text. -/
theorem Kind.name_of_canonical {other : List Char → Option Int}
    {companyId canonical : String} {company : Company}
    (accepted : canonicalCompanyId other companyId = .ok canonical)
    (spelled : canonical.toList = grouped '-' company.digits) (kind : Kind) :
    ∃ text, kind.name other companyId = .ok text ∧
      text.toList = kind.text company := by
  have below : underscored other companyId =
      .ok (replaceAll '-' '_' canonical) :=
    bind_ok_iff.mpr ⟨_, accepted, rfl⟩
  have token : tenantToken other companyId =
      .ok (prefixText ++ replaceAll '-' '_' canonical) :=
    bind_ok_iff.mpr ⟨_, below, rfl⟩
  have owned : mlflowNamePrefix other companyId =
      .ok (prefixText ++ replaceAll '-' '_' canonical ++ ".") :=
    bind_ok_iff.mpr ⟨_, token, rfl⟩
  have object : coldObjectPrefix other companyId =
      .ok (prefixText ++ canonical) :=
    bind_ok_iff.mpr ⟨_, accepted, rfl⟩
  have replaced := replaceAll_canonical spelled
  cases kind with
  | token =>
      refine ⟨_, token, ?_⟩
      simp only [String.toList_append, replaced, text, front, back, separator,
        List.append_nil]
  | schema =>
      refine ⟨_, token, ?_⟩
      simp only [String.toList_append, replaced, text, front, back, separator,
        List.append_nil]
  | reader =>
      refine ⟨_, bind_ok_iff.mpr ⟨_, below, rfl⟩, ?_⟩
      simp only [String.toList_append, replaced, text, front, back, separator,
        List.append_nil]
  | sqlLogin =>
      refine ⟨_, bind_ok_iff.mpr ⟨_, below, rfl⟩, ?_⟩
      simp only [String.toList_append, replaced, text, front, back, separator,
        List.append_nil]
  | namePrefix =>
      refine ⟨_, owned, ?_⟩
      simp only [String.toList_append, replaced, text, front, back, separator]
  | deletedPrefix =>
      refine ⟨_, bind_ok_iff.mpr ⟨_, owned, rfl⟩, ?_⟩
      simp only [String.toList_append, replaced, text, front, back, separator,
        List.append_assoc]
  | artifactPrefix =>
      refine ⟨_, bind_ok_iff.mpr ⟨_, token, rfl⟩, ?_⟩
      simp only [String.toList_append, replaced, text, front, back, separator]
  | coldObject =>
      refine ⟨_, object, ?_⟩
      simp only [String.toList_append, spelled, text, front, back, separator,
        List.append_nil]
  | coldKey =>
      refine ⟨_, bind_ok_iff.mpr ⟨_, object, rfl⟩, ?_⟩
      simp only [String.toList_append, spelled, text, front, back, separator]

/-- Every name is built from the canonical text. -/
theorem Kind.canonical_of_name {other : List Char → Option Int}
    {companyId text : String} {kind : Kind}
    (named : kind.name other companyId = .ok text) :
    ∃ canonical, canonicalCompanyId other companyId = .ok canonical := by
  have ofUnderscored {tail : String}
      (below : underscored other companyId = .ok tail) :
      ∃ canonical, canonicalCompanyId other companyId = .ok canonical := by
    obtain ⟨canonical, accepted, -⟩ := bind_ok_iff.mp below
    exact ⟨canonical, accepted⟩
  have ofToken {token : String}
      (tokened : tenantToken other companyId = .ok token) :
      ∃ canonical, canonicalCompanyId other companyId = .ok canonical := by
    obtain ⟨tail, below, -⟩ := bind_ok_iff.mp tokened
    exact ofUnderscored below
  have ofObject {object : String}
      (placed : coldObjectPrefix other companyId = .ok object) :
      ∃ canonical, canonicalCompanyId other companyId = .ok canonical := by
    obtain ⟨canonical, accepted, -⟩ := bind_ok_iff.mp placed
    exact ⟨canonical, accepted⟩
  cases kind with
  | token => exact ofToken named
  | schema => exact ofToken named
  | reader =>
      obtain ⟨tail, below, -⟩ := bind_ok_iff.mp named
      exact ofUnderscored below
  | sqlLogin =>
      obtain ⟨tail, below, -⟩ := bind_ok_iff.mp named
      exact ofUnderscored below
  | namePrefix =>
      obtain ⟨token, tokened, -⟩ := bind_ok_iff.mp named
      exact ofToken tokened
  | deletedPrefix =>
      obtain ⟨owned, qualified, -⟩ := bind_ok_iff.mp named
      obtain ⟨token, tokened, -⟩ := bind_ok_iff.mp qualified
      exact ofToken tokened
  | artifactPrefix =>
      obtain ⟨token, tokened, -⟩ := bind_ok_iff.mp named
      exact ofToken tokened
  | coldObject => exact ofObject named
  | coldKey =>
      obtain ⟨object, placed, -⟩ := bind_ok_iff.mp named
      exact ofObject placed

theorem canonicalCompanyId_ok_iff {other : List Char → Option Int}
    {companyId canonical : String} :
    canonicalCompanyId other companyId = .ok canonical ↔
      ∃ value, uuidInt other companyId = .ok value ∧
        canonical = uuidText value := by
  rw [canonicalCompanyId, canonicalUuid]
  cases uuidInt other companyId with
  | error raised => simp [Except.map]
  | ok value => simp [Except.map, eq_comm]

/-- A name is the canonical digits of the UUID, grouped, in its frame. -/
theorem Kind.name_ok_iff {other : List Char → Option Int}
    {companyId name : String} {kind : Kind} :
    kind.name other companyId = .ok name ↔
      ∃ value, ∃ small : value < 2 ^ 128,
        uuidInt other companyId = .ok value ∧
          name.toList = kind.text (companyOf value small) := by
  constructor
  · intro named
    obtain ⟨canonical, accepted⟩ := canonical_of_name named
    obtain ⟨value, parsed, rfl⟩ := canonicalCompanyId_ok_iff.mp accepted
    have small := uuidInt_small parsed
    obtain ⟨built, known, spelled⟩ :=
      name_of_canonical accepted (companyOf_grouped value small) kind
    rw [known] at named
    cases named
    exact ⟨value, small, parsed, spelled⟩
  · rintro ⟨value, small, parsed, spelled⟩
    have accepted := canonicalCompanyId_ok_iff.mpr ⟨value, parsed, rfl⟩
    obtain ⟨built, known, same⟩ :=
      name_of_canonical accepted (companyOf_grouped value small) kind
    rw [known, String.toList_injective (same.trans spelled.symm)]

/-! ## What a name tells -/

namespace Kind

theorem grouped_length (separator : Char) (company : Company) :
    (grouped separator company.digits).length = 36 := by
  simp [grouped, company.length]

theorem hyphen_mem_grouped (separator : Char) (company : Company) :
    '-' ∈ grouped separator company.digits ↔ separator = '-' := by
  have digit {part : Text} (inside : part ⊆ company.digits) : '-' ∉ part := by
    intro member
    exact absurd (List.all_eq_true.mp company.hex '-' (inside member))
      (by decide)
  have first : '-' ∉ company.digits.take 8 :=
    digit fun _ member => List.mem_of_mem_take member
  have middle (start : Nat) : '-' ∉ (company.digits.drop start).take 4 :=
    digit fun _ member => List.mem_of_mem_drop (List.mem_of_mem_take member)
  have last : '-' ∉ company.digits.drop 20 :=
    digit fun _ member => List.mem_of_mem_drop member
  simp [grouped, first, middle, last, eq_comm]

theorem separator_apart (kind : Kind) :
    isLowerHex kind.separator = false := by
  cases kind <;> decide

theorem company_of_grouped {separator separator' : Char}
    {left right : Company} (known : isLowerHex separator = false)
    (same : grouped separator left.digits = grouped separator' right.digits)
    (separators : separator = separator') : left = right := by
  subst separators
  apply Company.ext
  rw [← grouped_filter known left.hex, same, grouped_filter known right.hex]

theorem text_injective (kind : Kind) {left right : Company}
    (same : kind.text left = kind.text right) : left = right := by
  have inner := List.append_cancel_left (List.append_cancel_right same)
  exact company_of_grouped kind.separator_apart inner rfl

theorem text_length (kind : Kind) (company : Company) :
    (kind.text company).length =
      kind.front.length + kind.back.length + 36 := by
  rw [text, List.length_append, List.length_append, grouped_length]
  omega

theorem hyphen_mem_text (kind : Kind) (company : Company) :
    '-' ∈ kind.text company ↔ kind.separator = '-' := by
  have front : '-' ∉ kind.front := by cases kind <;> decide
  have back : '-' ∉ kind.back := by cases kind <;> decide
  simp [text, front, back, hyphen_mem_grouped]

theorem separator_of_hyphens {left right : Kind}
    (hyphens : left.separator = '-' ↔ right.separator = '-') :
    left.separator = right.separator := by
  have known (kind : Kind) :
      kind.separator = '_' ∨ kind.separator = '-' := by
    cases kind <;> decide
  rcases known left with low | hyphen
  · rcases known right with low' | hyphen
    · rw [low, low']
    · rw [hyphen, hyphens.mpr hyphen]
  · rw [hyphen, hyphens.mp hyphen]

theorem back_of_text {left right : Kind} {ofLeft ofRight : Company}
    (same : left.text ofLeft = right.text ofRight)
    (sized : left.back.length = right.back.length) :
    left.back = right.back :=
  (List.append_inj' same sized).2

/-- The length, the separator and the last character tell the kind. -/
theorem same_of_shape (left right : Kind)
    (sized : left.front.length + left.back.length =
      right.front.length + right.back.length)
    (separators : left.separator = right.separator)
    (backs : left.back.length = right.back.length → left.back = right.back) :
    Same left right := by
  revert sized separators backs
  cases left <;> cases right <;> simp only [Same] <;> decide

/-- A name tells its kind and its company. -/
theorem text_tells {left right : Kind} {ofLeft ofRight : Company}
    (same : left.text ofLeft = right.text ofRight) :
    Same left right ∧ ofLeft = ofRight := by
  have kinds : Same left right := by
    apply same_of_shape
    · have lengths := congrArg List.length same
      rw [text_length, text_length] at lengths
      omega
    · apply separator_of_hyphens
      rw [← hyphen_mem_text left ofLeft, same, hyphen_mem_text]
    · exact back_of_text same
  refine ⟨kinds, ?_⟩
  have shared : left.text ofRight = right.text ofRight := by
    rcases kinds with rfl | ⟨ofToken, toToken⟩
    · rfl
    · have token {kind : Kind} (listed : kind ∈ [token, schema]) :
          kind.text ofRight = token.text ofRight := by
        rcases List.mem_pair.mp listed with rfl | rfl
        · rfl
        · rfl
      rw [token ofToken, token toToken]
  exact left.text_injective (same.trans shared.symm)

/-- The kinds that are tested as a prefix. -/
def prefixes : List Kind :=
  [namePrefix, deletedPrefix, artifactPrefix, coldObject, coldKey]

theorem front_of_prefixes {left right : Kind} (ofLeft : left ∈ prefixes)
    (ofRight : right ∈ prefixes)
    (starts : left.front <+: right.front ∨ right.front <+: left.front) :
    left.front = right.front := by
  revert starts
  simp only [← List.isPrefixOf_iff_prefix]
  simp only [prefixes, List.mem_cons, List.not_mem_nil, or_false] at *
  rcases ofLeft with rfl | rfl | rfl | rfl | rfl <;>
    rcases ofRight with rfl | rfl | rfl | rfl | rfl <;> decide

/-- A prefix of another prefix is of the same company. -/
theorem company_of_prefix {left right : Kind} (listedLeft : left ∈ prefixes)
    (listedRight : right ∈ prefixes) {ofLeft ofRight : Company}
    (inside : left.text ofLeft <+: right.text ofRight) :
    ofLeft = ofRight := by
  have startsLeft : left.front <+: right.text ofRight := by
    apply List.IsPrefix.trans _ inside
    rw [text, List.append_assoc]
    exact List.prefix_append _ _
  have startsRight : right.front <+: right.text ofRight := by
    rw [text, List.append_assoc]
    exact List.prefix_append _ _
  have fronts := front_of_prefixes listedLeft listedRight
    (List.prefix_or_prefix_of_prefix startsLeft startsRight)
  obtain ⟨rest, joined⟩ := inside
  simp only [text, fronts, List.append_assoc,
    List.append_cancel_left_eq] at joined
  have same := (List.append_inj joined (by
    rw [grouped_length, grouped_length])).1
  have separators : left.separator = right.separator := by
    apply separator_of_hyphens
    rw [← hyphen_mem_grouped left.separator ofLeft, same, hyphen_mem_grouped]
  exact company_of_grouped left.separator_apart same separators

end Kind

/-! ## The decoder of schema names -/

/-- The exceptions that are a `ValueError`. -/
def SchemaError.isValueError : SchemaError → Bool
  | .notATenantSchema _ => true
  | .company raised => raised ≠ .invalidSyntax

theorem mapError_ok_iff {Error Raised' Answer : Type}
    {wrap : Error → Raised'} {action : Except Error Answer} {answer : Answer} :
    action.mapError wrap = .ok answer ↔ action = .ok answer := by
  cases action with
  | error raised => simp [Except.mapError]
  | ok result => simp [Except.mapError]

theorem companyIdFromSchema_ok_iff {other : List Char → Option Int}
    {name companyId : String} :
    companyIdFromSchema other name = .ok companyId ↔
      prefixText.toList <+: name.toList ∧
        canonicalCompanyId other (replaceAll '_' '-'
          (String.ofList (name.toList.drop prefixText.length))) =
            .ok companyId ∧
        schemaName other companyId = .ok name := by
  rw [companyIdFromSchema, check_ok_iff]
  simp only [bind_ok_iff, mapError_ok_iff, check_ok_iff, Bool.not_eq_true',
    Bool.not_eq_false, List.isPrefixOf_iff_prefix, ne_eq, not_not]
  constructor
  · rintro ⟨starts, answer, canonical, schema, built, rfl, returned⟩
    cases returned
    exact ⟨starts, canonical, built⟩
  · rintro ⟨starts, canonical, built⟩
    exact ⟨starts, companyId, canonical, name, built, rfl, rfl⟩

theorem canonicalCompanyId_error {other : List Char → Option Int}
    {companyId : String} {raised : Raised}
    (refused : canonicalCompanyId other companyId = .error raised) :
    raised ≠ .invalidSyntax := by
  have parsed : uuidInt other companyId = .error raised := by
    rw [canonicalCompanyId, canonicalUuid] at refused
    cases parsed : uuidInt other companyId with
    | error first =>
        rw [parsed] at refused
        cases refused
        rfl
    | ok value =>
        rw [parsed] at refused
        cases refused
  simp only [uuidInt] at parsed
  split at parsed
  · cases parsed
    decide
  · split at parsed
    · cases parsed
      decide
    · split at parsed
      · cases parsed
      · cases parsed
        decide

theorem schemaName_error {other : List Char → Option Int}
    {companyId : String} {raised : Raised}
    (refused : schemaName other companyId = .error raised) :
    raised ≠ .invalidSyntax := by
  rw [schemaName, tenantToken, underscored] at refused
  simp only [bind_error_iff, bind_ok_iff] at refused
  rcases refused with (own | ⟨canonical, -, ended⟩) | ⟨tail, -, ended⟩
  · exact canonicalCompanyId_error own
  · cases ended
  · cases ended

theorem mapError_error_iff {Error Raised' Answer : Type}
    {wrap : Error → Raised'} {action : Except Error Answer}
    {raised : Raised'} :
    action.mapError wrap = .error raised ↔
      ∃ first, action = .error first ∧ wrap first = raised := by
  cases action with
  | error first => simp [Except.mapError]
  | ok result => simp [Except.mapError]

theorem companyIdFromSchema_error {other : List Char → Option Int}
    {name : String} {error : SchemaError}
    (refused : companyIdFromSchema other name = .error error) :
    error.isValueError = true := by
  rw [companyIdFromSchema] at refused
  split at refused
  · cases refused
    rfl
  · dsimp only at refused
    simp only [bind_error_iff, mapError_error_iff] at refused
    rcases refused with ⟨raised, own, rfl⟩ | ⟨companyId, -,
      ⟨raised, built, rfl⟩ | ⟨schema, -, ended⟩⟩
    · exact decide_eq_true (canonicalCompanyId_error own)
    · exact decide_eq_true (schemaName_error built)
    · split at ended
      · cases ended
        rfl
      · cases ended

theorem Kind.schema_text (company : Company) :
    Kind.schema.text company =
      prefixText.toList ++ grouped '_' company.digits :=
  List.append_nil _

/-- The hyphens come back from the underscores. -/
theorem replaceAll_underscored {name : String} {company : Company}
    (spelled : name.toList = Kind.schema.text company) :
    (replaceAll '_' '-' (String.ofList
      (name.toList.drop prefixText.length))).toList =
        grouped '-' company.digits := by
  have tail : name.toList.drop prefixText.length =
      grouped '_' company.digits := by
    have front : prefixText.length = prefixText.toList.length := rfl
    rw [spelled, Kind.schema_text, front, List.drop_left]
  rw [replaceAll, String.toList_ofList, String.toList_ofList, tail,
    grouped_map]
  · simp
  · intro char digit
    have other : char ≠ '_' := by
      rintro rfl
      exact absurd digit (by decide)
    rw [if_neg other]

/-- The decoder takes back what the builder makes of a canonical id, and
nothing else. -/
theorem companyIdFromSchema_exact (other : List Char → Option Int)
    (name companyId : String) :
    companyIdFromSchema other name = .ok companyId ↔
      canonicalCompanyId other companyId = .ok companyId ∧
        schemaName other companyId = .ok name := by
  rw [companyIdFromSchema_ok_iff]
  constructor
  · rintro ⟨-, canonical, built⟩
    obtain ⟨value, parsed, rfl⟩ := canonicalCompanyId_ok_iff.mp canonical
    refine ⟨?_, built⟩
    apply canonicalCompanyId_ok_iff.mpr
    exact ⟨value, uuidInt_uuidText other (uuidInt_small parsed), rfl⟩
  · rintro ⟨canonical, built⟩
    obtain ⟨value, parsed, spelledId⟩ := canonicalCompanyId_ok_iff.mp canonical
    have small := uuidInt_small parsed
    have named : Kind.schema.name other companyId = .ok name := built
    obtain ⟨value', small', parsed', spelled⟩ := Kind.name_ok_iff.mp named
    rw [parsed] at parsed'
    cases parsed'
    refine ⟨?_, ?_, built⟩
    · rw [spelled, Kind.schema_text]
      exact List.prefix_append _ _
    · have back := replaceAll_underscored spelled
      rw [← companyOf_grouped value small, ← spelledId] at back
      rw [String.toList_injective back]
      exact canonical

theorem canonicalCompanyId_uuidText (other : List Char → Option Int)
    {value : Nat} (small : value < 2 ^ 128) :
    canonicalCompanyId other (uuidText value) = .ok (uuidText value) :=
  canonicalCompanyId_ok_iff.mpr ⟨value, uuidInt_uuidText other small, rfl⟩

theorem Kind.name_uuidText (other : List Char → Option Int) (kind : Kind)
    {value : Nat} (small : value < 2 ^ 128) :
    kind.name other (uuidText value) =
      .ok (String.ofList (kind.text (companyOf value small))) :=
  Kind.name_ok_iff.mpr ⟨value, small, uuidInt_uuidText other small,
    String.toList_ofList⟩

/-- The decoder takes back the schema of a company. -/
theorem companyIdFromSchema_text (other : List Char → Option Int)
    {value : Nat} (small : value < 2 ^ 128) :
    companyIdFromSchema other
      (String.ofList (Kind.schema.text (companyOf value small))) =
        .ok (uuidText value) :=
  (companyIdFromSchema_exact other _ _).mpr
    ⟨canonicalCompanyId_uuidText other small,
      Kind.schema.name_uuidText other small⟩

/-- Tenant names are told apart and schema names decode exactly. -/
theorem tenant_names_exact (other : List Char → Option Int) :
    (∀ (left right : Kind) (a b name : String),
      left.name other a = .ok name → right.name other b = .ok name →
        left.Same right ∧
          ∃ value, uuidInt other a = .ok value ∧
            uuidInt other b = .ok value) ∧
    (∀ left ∈ Kind.prefixes, ∀ right ∈ Kind.prefixes,
      ∀ a b first second : String,
        left.name other a = .ok first → right.name other b = .ok second →
          first.toList <+: second.toList →
            ∃ value, uuidInt other a = .ok value ∧
              uuidInt other b = .ok value) ∧
    ∀ name : String,
      (∀ companyId, companyIdFromSchema other name = .ok companyId ↔
        canonicalCompanyId other companyId = .ok companyId ∧
          schemaName other companyId = .ok name) ∧
      ∀ error, companyIdFromSchema other name = .error error →
        error.isValueError = true := by
  refine ⟨?_, ?_, ?_⟩
  · intro left right a b name ofLeft ofRight
    obtain ⟨value, small, parsed, spelled⟩ := Kind.name_ok_iff.mp ofLeft
    obtain ⟨value', small', parsed', spelled'⟩ := Kind.name_ok_iff.mp ofRight
    obtain ⟨kinds, companies⟩ := Kind.text_tells (spelled.symm.trans spelled')
    have values := companyOf_injective companies
    subst values
    exact ⟨kinds, value, parsed, parsed'⟩
  · intro left listedLeft right listedRight a b first second ofLeft ofRight
      inside
    obtain ⟨value, small, parsed, spelled⟩ := Kind.name_ok_iff.mp ofLeft
    obtain ⟨value', small', parsed', spelled'⟩ := Kind.name_ok_iff.mp ofRight
    rw [spelled, spelled'] at inside
    have values := companyOf_injective
      (Kind.company_of_prefix listedLeft listedRight inside)
    subst values
    exact ⟨value, parsed, parsed'⟩
  · intro name
    constructor
    · exact companyIdFromSchema_exact other name
    · intro error refused
      exact companyIdFromSchema_error refused

/-- Two spellings of one UUID have one schema. -/
theorem tenant_names_exact_spellings :
    ∃ value,
      uuidInt (fun _ => none)
        "urn:uuid:\x7b0000000000000000-00000000000000AB\x7d" = .ok value ∧
      uuidInt (fun _ => none)
        "00000000-0000-0000-0000-0000000000ab" = .ok value := by
  have small : 0xab < 2 ^ 128 := by decide
  have spelled : uuidInt (fun _ => none)
      "urn:uuid:\x7b0000000000000000-00000000000000AB\x7d" = .ok 0xab := by
    decide +kernel
  exact ((tenant_names_exact _).1 .schema .token _ _ _
    (Kind.schema.name_ok_iff.mpr ⟨_, small, spelled, String.toList_ofList⟩)
    (Kind.token.name_uuidText _ small)).2

end IndustryFlow.Tenancy.Names
