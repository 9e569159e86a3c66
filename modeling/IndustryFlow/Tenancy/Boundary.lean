import IndustryFlow.Measurements.Uuid
import IndustryFlow.Tenancy.Keys

/-!
# The boundary of a tenant's keys

The two key prefixes of a tenant, and what the ownership tests promise about
them: an owned key means what it spells, no key is owned twice, and a scoped
path stays under its prefix.  `scope_key` takes all the slashes from the end
of a path before it looks at its segments, so a path that ends in several of
them keeps empty segments.
-/

namespace IndustryFlow.Tenancy

open Measurements (hexValue)

inductive KeyPlane where
  | artifact
  | cold
deriving DecidableEq

def KeyPlane.separator : KeyPlane → Char
  | .artifact => '_'
  | .cold => '-'

/-- `mlflow_artifact_prefix` and `cold_key_prefix`. -/
def keyPrefix (plane : KeyPlane) (company : Company) : Text :=
  spelled plane.separator company ++ ['/']

theorem KeyPlane.separator_known (plane : KeyPlane) :
    plane.separator ∈ separators := by
  cases plane with
  | artifact => exact List.mem_cons_self
  | cold => exact List.mem_cons_of_mem _ List.mem_cons_self

/-! ## Percent-decoding -/

/-- The octets of a text. -/
def octets (text : Text) : List UInt8 :=
  text.flatMap String.utf8EncodeChar

/-- The octets of a text whose escapes are decoded. -/
def percentDecode : Text → List UInt8
  | [] => []
  | [char] => String.utf8EncodeChar char
  | [first, second] =>
      String.utf8EncodeChar first ++ String.utf8EncodeChar second
  | first :: high :: low :: rest =>
      if first = '%' then
        match hexValue high, hexValue low with
        | some upper, some lower =>
            UInt8.ofNat (16 * upper + lower) :: percentDecode rest
        | _, _ =>
            String.utf8EncodeChar first ++ percentDecode (high :: low :: rest)
      else String.utf8EncodeChar first ++ percentDecode (high :: low :: rest)

theorem percentDecode_plain {text : Text} (unescaped : '%' ∉ text) :
    percentDecode text = octets text := by
  induction text with
  | nil => rfl
  | cons first text induction =>
      have later := induction fun inside =>
        unescaped (List.mem_cons_of_mem _ inside)
      have other : first ≠ '%' := by
        rintro rfl
        exact unescaped List.mem_cons_self
      have decoded : percentDecode (first :: text) =
          String.utf8EncodeChar first ++ percentDecode text := by
        match text with
        | [] => simp [percentDecode]
        | [second] => simp [percentDecode]
        | high :: low :: rest => rw [percentDecode, if_neg other]
      rw [decoded, later]
      rfl

/-! ## Owned keys -/

theorem ownsKey_iff {owner key : Text} {encoded : Bool} :
    ownsKey owner key encoded = true ↔
      stripLeft key ≠ [] ∧ (encoded = true → '%' ∉ stripLeft key) ∧
        isPlainKey (stripLeft key) = true ∧ owner <+: stripLeft key := by
  simp only [ownsKey]
  split
  · rename_i refused
    simp only [Bool.or_eq_true, Bool.and_eq_true, decide_eq_true_eq,
      List.isEmpty_iff] at refused
    simp only [Bool.false_eq_true, false_iff]
    rintro ⟨nonempty, unescaped, -⟩
    rcases refused with empty | ⟨escaped, inside⟩
    · exact nonempty empty
    · exact unescaped escaped inside
  · rename_i taken
    simp only [Bool.or_eq_true, Bool.and_eq_true, decide_eq_true_eq,
      List.isEmpty_iff, not_or, not_and] at taken
    simp [taken.1, List.isPrefixOf_iff_prefix]
    tauto

/-- Two prefixes of one key are the same prefix. -/
theorem keyPrefix_disjoint {plane other : KeyPlane} {left right : Company}
    {key : Text} (ofLeft : keyPrefix plane left <+: key)
    (ofRight : keyPrefix other right <+: key) :
    plane = other ∧ left = right := by
  have lengths : (keyPrefix plane left).length =
      (keyPrefix other right).length := by
    simp [keyPrefix, spelled_length]
  have same := (List.prefix_of_prefix_length_le ofLeft ofRight
    lengths.le).eq_of_length lengths
  have tokens : spelled plane.separator left =
      spelled other.separator right := List.append_cancel_right same
  have hyphenless (company : Company) : '-' ∉ spelled '_' company := by
    intro member
    rcases spelled_chars (by decide) member with literal | own | digit
    · exact absurd literal (by decide)
    · exact absurd own (by decide)
    · exact absurd digit (by decide)
  have hyphen (company : Company) : '-' ∈ spelled '-' company := by
    simp [spelled, grouped]
  cases plane with
  | artifact =>
      cases other with
      | artifact => exact ⟨rfl, spelled_injective (by decide) tokens⟩
      | cold => exact absurd (tokens ▸ hyphen right) (hyphenless left)
  | cold =>
      cases other with
      | artifact => exact absurd (tokens ▸ hyphen left) (hyphenless right)
      | cold => exact ⟨rfl, spelled_injective (by decide) tokens⟩

/-! ## Scoped paths -/

/-- Every segment is plain, but for one empty segment at the end. -/
def PlainButLast (key : Text) : Prop :=
  isPlainKey key = true ∨
    ∃ front, key = front ++ ['/'] ∧ isPlainKey front = true

theorem stripRight_idem (key : Text) :
    stripRight (stripRight key) = stripRight key :=
  List.rdropWhile_idempotent _ key

theorem stripRight_ne_slash {front : Text} (ending : stripRight front = front)
    (rest : Text) : front ≠ rest ++ ['/'] := by
  rintro rfl
  have stripped := stripRight_append_slashes rest 1
  rw [List.replicate_one, ending] at stripped
  have shorter := (List.rdropWhile_prefix (· = '/') rest).length_le
  have lengths := congrArg List.length stripped
  rw [List.length_append, List.length_singleton] at lengths
  rw [stripRight] at lengths
  omega

/-- A text ends in two slashes when two or more were taken from its end. -/
theorem doubled_iff {front : Text} {count : Nat}
    (ending : stripRight front = front) :
    ['/', '/'] <:+ front ++ List.replicate count '/' ↔ 2 ≤ count := by
  constructor
  · rintro ⟨rest, joined⟩
    rcases count with _ | _ | count
    · rw [List.replicate_zero, List.append_nil] at joined
      have last : front = (rest ++ ['/']) ++ ['/'] := by
        rw [← joined]
        simp
      exact absurd last (stripRight_ne_slash ending _)
    · have last : (rest ++ ['/']) ++ ['/'] = front ++ ['/'] := by
        simpa using joined
      exact absurd (List.append_cancel_right last).symm
        (stripRight_ne_slash ending rest)
    · omega
  · intro several
    obtain ⟨less, rfl⟩ := Nat.exists_eq_add_of_le' several
    refine ⟨front ++ List.replicate less '/', ?_⟩
    rw [List.replicate_add, List.append_assoc]
    rfl

theorem isPlainKey_append_slashes (front : Text) (count : Nat) :
    isPlainKey (front ++ List.replicate (count + 1) '/') = false := by
  rw [Bool.eq_false_iff]
  intro plain
  have segments := List.all_eq_true.mp (isPlainKey_segments plain)
  have inside : [] ∈ (front ++ List.replicate (count + 1) '/').splitOn '/' := by
    rw [splitOn_append_slashes, List.replicate_succ]
    simp
  have empty := segments [] inside
  simp [isPlainSegment] at empty

/-- Where all but the slashes at the end is plain, at most one of these keeps
the rest plain. -/
theorem plainButLast_iff {front : Text} {count : Nat}
    (plain : isPlainKey front = true) :
    PlainButLast (front ++ List.replicate count '/') ↔ count < 2 := by
  constructor
  · intro kept
    rcases count with _ | count
    · omega
    · rcases kept with whole | ⟨shorter, joined, below⟩
      · rw [isPlainKey_append_slashes] at whole
        cases whole
      · rw [List.replicate_succ', ← List.append_assoc] at joined
        have same := List.append_cancel_right joined
        rcases count with _ | count
        · omega
        · rw [← same, isPlainKey_append_slashes] at below
          cases below
  · intro few
    rcases count with _ | _ | count
    · left
      simpa using plain
    · right
      exact ⟨front, rfl, plain⟩
    · omega

/-- What a scoped path is: the path itself or the path under the prefix, with
the slashes that stand at its end. -/
theorem scopeKey_cases {token path key : Text} (slashless : '/' ∉ token)
    (placed : scopeKey (token ++ ['/']) path = some key) :
    ∃ front count, stripRight front = front ∧
      key = front ++ List.replicate count '/' ∧
      (count < 2 ↔ ¬['/', '/'] <:+ stripLeft path) := by
  simp only [scopeKey] at placed
  split at placed
  · cases placed
  · by_cases empty : stripLeft path = []
    · have same : key = token ++ ['/'] := by
        simp [empty] at placed
        exact placed.symm
      refine ⟨token, 1, stripRight_token slashless, same, ?_⟩
      simp [empty]
    · obtain ⟨count, joined⟩ := stripRight_append (stripLeft path)
      have ending := stripRight_idem (stripLeft path)
      have ends : count < 2 ↔ ¬['/', '/'] <:+ stripLeft path := by
        rw [joined, doubled_iff ending]
        omega
      split at placed
      · cases placed
        exact ⟨_, count, ending, joined, ends⟩
      · cases placed
        refine ⟨(token ++ ['/']) ++ stripRight (stripLeft path), count, ?_,
          ?_, ends⟩
        · rw [stripRight_append_of_ne_nil, ending]
          rw [ending]
          exact stripLeft_stripRight empty
        · rw [List.append_assoc (token ++ ['/']), ← joined]

/-- A key that is already under its prefix is scoped to itself. -/
theorem scopeKey_idem {token path key : Text}
    (plain : isPlainKey token = true) (slashless : '/' ∉ token)
    (nonempty : token ≠ [])
    (placed : scopeKey (token ++ ['/']) path = some key) :
    scopeKey (token ++ ['/']) key = some key := by
  obtain ⟨owned, below⟩ := scopeKey_spec plain slashless placed
  have whole : stripLeft key = key := by
    obtain ⟨rest, rfl⟩ := owned
    cases token with
    | nil => exact absurd rfl nonempty
    | cons first token =>
        have other : first ≠ '/' := by
          rintro rfl
          exact slashless List.mem_cons_self
        simp [stripLeft, other]
  simp only [scopeKey, whole, below, Bool.not_true, Bool.and_false,
    Bool.false_eq_true, if_false, List.isPrefixOf_iff_prefix.mpr owned,
    if_true]

/-- The ownership tests: an owned key means what it spells, no key has two
owners, and a scoped path stays under its prefix, with plain segments exactly
when the path does not end in several slashes. -/
theorem key_ownership (plane other : KeyPlane) (left right : Company)
    (key path : Text) (encoded otherEncoded : Bool) :
    (ownsKey (keyPrefix plane left) key encoded = true →
      normalize (stripLeft key) = stripLeft key ∧
      (encoded = true →
        percentDecode (stripLeft key) = octets (stripLeft key)) ∧
      keyPrefix plane left <+: normalize (stripLeft key)) ∧
    (ownsKey (keyPrefix plane left) key encoded = true →
      ownsKey (keyPrefix other right) key otherEncoded = true →
        plane = other ∧ left = right) ∧
    ∀ placedKey, scopeKey (keyPrefix plane left) path = some placedKey →
      keyPrefix plane left <+: placedKey ∧
      scopeKey (keyPrefix plane left) placedKey = some placedKey ∧
      (PlainButLast placedKey ↔ ¬['/', '/'] <:+ stripLeft path) := by
  refine ⟨?_, ?_, ?_⟩
  · intro owns
    obtain ⟨-, unescaped, plain, owned⟩ := ownsKey_iff.mp owns
    have fixed := normalize_of_segments (isPlainKey_segments plain)
    refine ⟨fixed, fun escaped => percentDecode_plain (unescaped escaped), ?_⟩
    rw [fixed]
    exact owned
  · intro ofLeft ofRight
    exact keyPrefix_disjoint (ownsKey_iff.mp ofLeft).2.2.2
      (ownsKey_iff.mp ofRight).2.2.2
  · intro placedKey placed
    have plain := spelled_plain plane.separator_known left
    have slashless := spelled_no_slash plane.separator_known left
    obtain ⟨owned, below⟩ := scopeKey_spec plain slashless placed
    obtain ⟨front, count, ending, rfl, ends⟩ :=
      scopeKey_cases slashless placed
    refine ⟨owned, scopeKey_idem plain slashless (by simp [spelled]) placed,
      ?_⟩
    rw [stripRight_append_slashes, ending] at below
    rw [plainButLast_iff below, ends]

/-- A key in the directory `a`, and a path into it with one slash at its
end. -/
theorem key_ownership_directory :
    let owner := keyPrefix .cold (.uniform '0' rfl)
    normalize (owner ++ ['a']) = owner ++ ['a'] ∧
      PlainButLast (owner ++ ['a', '/']) := by
  intro owner
  obtain ⟨owned, -, placed⟩ := key_ownership .cold .cold
    (.uniform '0' rfl) (.uniform '0' rfl) (owner ++ ['a']) ['a', '/'] true
    true
  constructor
  · have fixed := owned (by decide)
    exact fixed.1
  · have kept := placed (owner ++ ['a', '/']) (by decide)
    apply kept.2.2.mpr
    decide

/-- The path `a//` keeps an empty segment. -/
theorem scopeKey_doubled :
    ¬∀ (plane : KeyPlane) (company : Company) (path key : Text),
      scopeKey (keyPrefix plane company) path = some key →
        keyPrefix plane company <+: key ∧
        scopeKey (keyPrefix plane company) key = some key ∧
        PlainButLast key := by
  intro claimed
  let owner := keyPrefix .cold (.uniform '0' rfl)
  obtain ⟨-, -, plain⟩ := claimed .cold (.uniform '0' rfl) ['a', '/', '/']
    (owner ++ ['a', '/', '/']) (by decide)
  have keyed : isPlainKey (owner ++ ['a']) = true := by decide
  have few : 2 < 2 := (plainButLast_iff keyed).mp
    (by simpa [List.append_assoc] using plain)
  omega

end IndustryFlow.Tenancy
