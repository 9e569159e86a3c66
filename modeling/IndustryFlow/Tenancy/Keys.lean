import IndustryFlow.Words
import Mathlib.Data.List.DropRight
import Mathlib.Data.List.Infix

/-!
# Tenant names and object-store keys

The mapping from a company to the names derived from it, and the tests of
whether a name or a key belongs to it.  A text is the list of its characters.
A key that is plain means only what it spells: reading it as a path, with
doubled slashes collapsed and dot segments resolved, leaves it as it is
(`normalize_of_plain`).
-/

namespace IndustryFlow.Tenancy

abbrev Text := List Char

def isLowerHex (char : Char) : Bool :=
  ('0' ≤ char && char ≤ '9') || ('a' ≤ char && char ≤ 'f')

/-- A company, by the digits of its canonical UUID. -/
@[ext]
structure Company where
  digits : Text
  length : digits.length = 32
  hex : digits.all isLowerHex = true
  deriving DecidableEq

/-- A company whose digits are all the same. -/
def Company.uniform (digit : Char) (hex : isLowerHex digit = true) : Company where
  digits := List.replicate 32 digit
  length := List.length_replicate
  hex := List.all_eq_true.mpr fun _ member =>
    (List.mem_replicate.mp member).2 ▸ hex

theorem isLowerHex_a : isLowerHex 'a' = true := by
  decide

/-- The digits in the five groups of a UUID. -/
def grouped (separator : Char) (digits : Text) : Text :=
  digits.take 8 ++ separator :: (digits.drop 8).take 4 ++
    separator :: (digits.drop 12).take 4 ++
    separator :: (digits.drop 16).take 4 ++ separator :: digits.drop 20

/-- `tenant_token`. -/
def tenantToken (company : Company) : Text :=
  ['t', 'e', 'n', 'a', 'n', 't', '_'] ++ grouped '_' company.digits

/-- `mlflow_name_prefix`. -/
def namePrefix (company : Company) : Text :=
  tenantToken company ++ ['.']

/-- `mlflow_artifact_prefix`. -/
def artifactPrefix (company : Company) : Text :=
  tenantToken company ++ ['/']

/-! ## Names -/

/-- `qualify_name`. -/
def qualifyName (owner name : Text) : Text :=
  if owner.isPrefixOf name then name else owner ++ name

/-- `owned_name`, of a text. -/
def ownedName (owner qualified : Text) : Option Text :=
  if qualified.isEmpty || !owner.isPrefixOf qualified then none
  else some (qualified.drop owner.length)

theorem ownedName_append {owner rest : Text}
    (nonempty : owner ++ rest ≠ []) :
    ownedName owner (owner ++ rest) = some rest := by
  simp [ownedName, nonempty]

/-! ## Keys -/

/-- `unicodedata.category(char) == "Cc"`. -/
def isControl (char : Char) : Bool :=
  char.toNat < 32 || (127 ≤ char.toNat && char.toNat < 160)

attribute [local instance] Words.lawful_list in
def isPlainSegment (segment : Text) : Bool :=
  segment ∉ [[], ['.'], ['.', '.']]

/-- `is_plain_key`. -/
def isPlainKey (key : Text) : Bool :=
  '\\' ∉ key && !key.any isControl && (key.splitOn '/').all isPlainSegment

theorem isPlainKey_segments {key : Text} (plain : isPlainKey key = true) :
    (key.splitOn '/').all isPlainSegment = true := by
  simp only [isPlainKey, Bool.and_eq_true] at plain
  exact plain.2

def stripLeft (text : Text) : Text :=
  text.dropWhile (· = '/')

def stripRight (text : Text) : Text :=
  text.rdropWhile (· = '/')

/-- `owns_key`. -/
def ownsKey (owner key : Text) (encoded : Bool) : Bool :=
  let key := stripLeft key
  if key.isEmpty || (encoded && '%' ∈ key) then false
  else isPlainKey key && owner.isPrefixOf key

/-- `scope_key`; `none` is its `ValueError`. -/
def scopeKey (owner path : Text) : Option Text :=
  let path := stripLeft path
  if !path.isEmpty && !isPlainKey (stripRight path) then none
  else if owner.isPrefixOf path then some path
  else some (owner ++ path)

/-! ## A key read as a path -/

/-- The path read so far, and its next segment. -/
def resolveStep (kept : List Text) (segment : Text) : List Text :=
  if segment = [] ∨ segment = ['.'] then kept
  else if segment = ['.', '.'] then kept.dropLast
  else kept ++ [segment]

/-- The segments with empty and dot segments removed and `..` resolved. -/
def resolve (segments : List Text) : List Text :=
  segments.foldl resolveStep []

/-- Slashes collapsed and `.` and `..` resolved. -/
def normalize (key : Text) : Text :=
  ['/'].intercalate (resolve (key.splitOn '/'))

theorem foldl_resolveStep_plain {segments : List Text}
    (plain : segments.all isPlainSegment = true) (kept : List Text) :
    segments.foldl resolveStep kept = kept ++ segments := by
  induction segments generalizing kept with
  | nil => simp
  | cons segment segments induction =>
      simp only [List.all_cons, Bool.and_eq_true] at plain
      have ⟨nonempty, single, double⟩ : segment ≠ [] ∧
          segment ≠ ['.'] ∧ segment ≠ ['.', '.'] := by
        simpa [isPlainSegment] using plain.1
      simp only [List.foldl_cons, resolveStep, nonempty, single, double,
        or_self, if_false]
      rw [induction plain.2, List.append_assoc, List.singleton_append]

private theorem foldl_resolveStep_empty (kept : List Text) (count : Nat) :
    (List.replicate count []).foldl resolveStep kept = kept := by
  induction count with
  | zero => rfl
  | succ count induction =>
      simpa [List.replicate_succ, resolveStep] using induction

private theorem splitOn_slashes (count : Nat) :
    (List.replicate count '/').splitOn '/' =
      List.replicate (count + 1) [] := by
  induction count with
  | zero => rfl
  | succ count induction =>
      have split := List.splitOn_append_cons_self [] (a := '/')
        (List.replicate count '/')
      simpa [List.replicate_succ, induction] using split

theorem splitOn_append_slashes (key : Text) (count : Nat) :
    (key ++ List.replicate count '/').splitOn '/' =
      key.splitOn '/' ++ List.replicate count [] := by
  cases count with
  | zero => simp
  | succ count =>
      rw [List.replicate_succ, List.splitOn_append_cons_self,
        splitOn_slashes]

/-- A text is what is left of it and the slashes at its end. -/
theorem stripRight_append (key : Text) :
    ∃ count, key = stripRight key ++ List.replicate count '/' := by
  refine ⟨(key.rtakeWhile (· = '/')).length, ?_⟩
  have slashes : key.rtakeWhile (· = '/') =
      List.replicate (key.rtakeWhile (· = '/')).length '/' := by
    refine List.eq_replicate_of_mem fun char member => ?_
    simpa using List.mem_rtakeWhile_imp member
  have joined := List.rdropWhile_append_rtakeWhile (p := (· = '/')) (l := key)
  rw [← slashes]
  exact joined.symm

theorem stripRight_append_slashes (key : Text) (count : Nat) :
    stripRight (key ++ List.replicate count '/') = stripRight key := by
  induction count with
  | zero => simp
  | succ count induction =>
      rw [List.replicate_succ', ← List.append_assoc, stripRight,
        List.rdropWhile_concat_pos _ _ _ (by simp)]
      exact induction

/-- Where the key is plain up to slashes at its end, it is already
normalized up to them. -/
theorem normalize_of_plain {key : Text}
    (plain : isPlainKey (stripRight key) = true) :
    normalize key = stripRight key := by
  obtain ⟨count, joined⟩ := stripRight_append key
  simp only [isPlainKey, Bool.and_eq_true] at plain
  have segments : resolve (key.splitOn '/') =
      (stripRight key).splitOn '/' := by
    conv_lhs => rw [joined]
    rw [splitOn_append_slashes, resolve, List.foldl_append,
      foldl_resolveStep_plain plain.2, foldl_resolveStep_empty,
      List.nil_append]
  rw [normalize, segments, List.intercalate_splitOn]

theorem normalize_of_segments {key : Text}
    (plain : (key.splitOn '/').all isPlainSegment = true) :
    normalize key = key := by
  rw [normalize, resolve, foldl_resolveStep_plain plain, List.nil_append,
    List.intercalate_splitOn]

theorem splitOn_slash_cons (key : Text) :
    ('/' :: key).splitOn '/' = [] :: key.splitOn '/' :=
  List.splitOn_append_cons_self [] key

theorem mem_of_mem_splitOn {key segment : Text} {char : Char}
    (part : segment ∈ key.splitOn '/') (member : char ∈ segment) :
    char ∈ key ∧ char ≠ '/' := by
  induction key generalizing segment with
  | nil =>
      rw [List.splitOn_nil, List.mem_singleton] at part
      rw [part] at member
      cases member
  | cons first key induction =>
      by_cases slash : first = '/'
      · subst slash
        rw [splitOn_slash_cons] at part
        rcases List.mem_cons.mp part with rfl | later
        · cases member
        · have inside := induction later member
          exact ⟨List.mem_cons_of_mem _ inside.1, inside.2⟩
      · rw [List.splitOn_cons_eq_if_modifyHead,
          if_neg (by simpa using slash)] at part
        cases split : key.splitOn '/' with
        | nil => exact absurd split (List.splitOn_ne_nil '/' key)
        | cons head rest =>
            rw [split] at part induction
            rcases List.mem_cons.mp part with rfl | later
            · rcases List.mem_cons.mp member with rfl | inside
              · exact ⟨List.mem_cons_self, slash⟩
              · have found := induction List.mem_cons_self inside
                exact ⟨List.mem_cons_of_mem _ found.1, found.2⟩
            · have found := induction (List.mem_cons_of_mem _ later) member
              exact ⟨List.mem_cons_of_mem _ found.1, found.2⟩

/-- A text without a slash, or what stands around its last slash. -/
theorem last_slash (key : Text) :
    '/' ∉ key ∨ ∃ front last, key = front ++ '/' :: last ∧ '/' ∉ last := by
  by_cases slash : '/' ∈ key
  · refine .inr ?_
    obtain ⟨last, front, joined, slashless⟩ :=
      List.eq_append_cons_of_mem (List.mem_reverse.mpr slash)
    refine ⟨front.reverse, last.reverse, ?_, by simpa using slashless⟩
    rw [← List.reverse_reverse key, joined]
    simp
  · exact .inl slash

/-- Plain segments stay plain when a text without a slash or a dot follows. -/
theorem splitOn_append_plain {key rest : Text}
    (plain : (key.splitOn '/').all isPlainSegment = true)
    (slashless : '/' ∉ rest) (dotless : '.' ∉ rest) :
    ((key ++ rest).splitOn '/').all isPlainSegment = true := by
  have longer {segment : Text} (own : isPlainSegment segment = true) :
      isPlainSegment (segment ++ rest) = true := by
    have ⟨nonempty, single, double⟩ : segment ≠ [] ∧
        segment ≠ ['.'] ∧ segment ≠ ['.', '.'] := by
      simpa [isPlainSegment] using own
    cases rest with
    | nil => simpa using own
    | cons char rest =>
        have different : char ≠ '.' := by
          intro same
          exact dotless (same ▸ List.mem_cons_self)
        simp only [isPlainSegment, List.mem_cons, List.not_mem_nil, or_false,
          decide_eq_true_eq, not_or]
        refine ⟨by simp, ?_, ?_⟩
        · intro same
          have inside : char ∈ ['.'] := by
            rw [← same]
            simp
          exact different (List.mem_singleton.mp inside)
        · intro same
          have inside : char ∈ ['.', '.'] := by
            rw [← same]
            simp
          exact different (by simpa using inside)
  rcases last_slash key with whole | ⟨front, last, rfl, ending⟩
  · rw [List.splitOn_eq_singleton whole] at plain
    rw [List.splitOn_eq_singleton (by simp [whole, slashless])]
    simpa using longer (by simpa using plain)
  · rw [List.splitOn_append_cons_self, List.all_append,
      Bool.and_eq_true, List.splitOn_eq_singleton ending] at plain
    rw [List.append_assoc, List.cons_append, List.splitOn_append_cons_self,
      List.all_append, plain.1,
      List.splitOn_eq_singleton (by simp [ending, slashless])]
    simpa using longer (by simpa using plain.2)

/-- A plain token without a slash, and a plain key below it. -/
theorem isPlainKey_below {token key : Text}
    (plainToken : isPlainKey token = true)
    (plainKey : isPlainKey key = true) :
    isPlainKey (token ++ '/' :: key) = true := by
  simp only [isPlainKey, Bool.and_eq_true, decide_eq_true_eq,
    Bool.not_eq_true', List.any_eq_false] at plainToken plainKey ⊢
  obtain ⟨⟨tokenSlash, tokenControl⟩, tokenSegments⟩ := plainToken
  obtain ⟨⟨keySlash, keyControl⟩, keySegments⟩ := plainKey
  refine ⟨⟨?_, ?_⟩, ?_⟩
  · simp [tokenSlash, keySlash]
  · intro char member
    rcases List.mem_append.mp member with inToken | inKey
    · exact tokenControl char inToken
    · rcases List.mem_cons.mp inKey with rfl | below
      · decide
      · exact keyControl char below
  · rw [List.splitOn_append_cons_self, List.all_append, tokenSegments,
      keySegments]
    rfl

theorem stripRight_append_of_ne_nil {front key : Text}
    (rest : stripRight key ≠ []) :
    stripRight (front ++ key) = front ++ stripRight key := by
  obtain ⟨count, joined⟩ := stripRight_append key
  have last := List.rdropWhile_last_not (p := (· = '/')) (l := key) rest
  have kept : stripRight (front ++ stripRight key) =
      front ++ stripRight key := by
    refine List.rdropWhile_eq_self_iff.mpr fun nonempty => ?_
    rw [List.getLast_append_of_ne_nil nonempty rest]
    exact last
  conv_lhs => rw [joined, ← List.append_assoc]
  rw [stripRight_append_slashes, kept]

theorem stripLeft_stripRight {path : Text} (rest : stripLeft path ≠ []) :
    stripRight (stripLeft path) ≠ [] := by
  have head : decide ((stripLeft path).head rest = '/') = false :=
    List.head_dropWhile_not (· = '/') rest
  intro empty
  have slashes := List.rdropWhile_eq_nil_iff.mp empty
  rw [slashes _ (List.head_mem rest)] at head
  cases head

theorem stripRight_token {token : Text} (slashless : '/' ∉ token) :
    stripRight token = token := by
  refine List.rdropWhile_eq_self_iff.mpr fun nonempty last => ?_
  have member := List.getLast_mem nonempty
  rw [of_decide_eq_true last] at member
  exact slashless member

/-- What is left of a key under a token still begins with the token, and a
slash stands after it unless the token is all that is left. -/
theorem stripRight_below {token : Text} (slashless : '/' ∉ token)
    (rest : Text) :
    stripRight (token ++ '/' :: rest) = token ∨
      token ++ ['/'] <+: stripRight (token ++ '/' :: rest) := by
  by_cases empty : stripRight rest = []
  · refine .inl ?_
    obtain ⟨count, joined⟩ := stripRight_append rest
    rw [empty, List.nil_append] at joined
    rw [joined, ← List.replicate_succ, stripRight_append_slashes]
    exact stripRight_token slashless
  · refine .inr ?_
    have kept : stripRight ((token ++ ['/']) ++ rest) =
        (token ++ ['/']) ++ stripRight rest :=
      stripRight_append_of_ne_nil empty
    rw [List.append_assoc, List.singleton_append] at kept
    rw [kept]
    exact List.prefix_append _ _

/-- A scoped key is under the prefix it was scoped to, and plain up to slashes
at its end. -/
theorem scopeKey_spec {token path key : Text}
    (plain : isPlainKey token = true) (slashless : '/' ∉ token)
    (placed : scopeKey (token ++ ['/']) path = some key) :
    token ++ ['/'] <+: key ∧ isPlainKey (stripRight key) = true := by
  simp only [scopeKey] at placed
  split at placed
  · cases placed
  · rename_i accepted
    by_cases empty : stripLeft path = []
    · have same : key = token ++ ['/'] := by
        simp [empty] at placed
        exact placed.symm
      subst same
      refine ⟨List.prefix_refl _, ?_⟩
      have stripped := stripRight_append_slashes token 1
      rw [stripRight_token slashless] at stripped
      rw [List.replicate_one] at stripped
      rw [stripped]
      exact plain
    · have below : isPlainKey (stripRight (stripLeft path)) = true := by
        simpa [empty] using accepted
      split at placed
      · rename_i owned
        cases placed
        exact ⟨List.isPrefixOf_iff_prefix.mp owned, below⟩
      · cases placed
        refine ⟨List.prefix_append _ _, ?_⟩
        rw [stripRight_append_of_ne_nil (stripLeft_stripRight empty),
          List.append_assoc, List.singleton_append]
        exact isPlainKey_below plain below

/-! ## Tokens -/

/-- A company's token, with either separator. -/
def spelled (separator : Char) (company : Company) : Text :=
  ['t', 'e', 'n', 'a', 'n', 't', '_'] ++ grouped separator company.digits

/-- The digits are what is left of their groups without the separators. -/
theorem grouped_filter_of_not_mem {separator : Char} {digits : Text}
    (apart : separator ∉ digits) :
    (grouped separator digits).filter (· ≠ separator) = digits := by
  have kept {part : Text} (inside : part ⊆ digits) :
      part.filter (· ≠ separator) = part := by
    apply List.filter_eq_self.mpr
    intro char member
    rw [decide_eq_true_eq]
    rintro rfl
    exact apart (inside member)
  have taken (start count : Nat) :
      ((digits.drop start).take count).filter (· ≠ separator) =
        (digits.drop start).take count := by
    apply kept
    intro char member
    exact List.mem_of_mem_drop (List.mem_of_mem_take member)
  have first := taken 0 8
  rw [List.drop_zero] at first
  have rest : (digits.drop 20).filter (· ≠ separator) = digits.drop 20 := by
    apply kept
    intro char member
    exact List.mem_of_mem_drop member
  have group (start : Nat) :
      (digits.drop start).take 4 ++ digits.drop (start + 4) =
        digits.drop start := by
    rw [← List.drop_drop]
    exact List.take_append_drop 4 _
  rw [grouped]
  repeat rw [List.filter_append]
  repeat rw [List.filter_cons_of_neg (by simp)]
  rw [first, taken, taken, taken, rest]
  repeat rw [List.append_assoc]
  rw [group 16, group 12, group 8, List.take_append_drop]

theorem grouped_filter {separator : Char}
    (apart : isLowerHex separator = false) {digits : Text}
    (hex : digits.all isLowerHex = true) :
    (grouped separator digits).filter (· ≠ separator) = digits := by
  apply grouped_filter_of_not_mem
  intro member
  have digit := List.all_eq_true.mp hex separator member
  rw [apart] at digit
  cases digit

theorem spelled_injective {separator : Char}
    (apart : isLowerHex separator = false) {left right : Company}
    (same : spelled separator left = spelled separator right) :
    left = right := by
  simp only [spelled, List.append_cancel_left_eq] at same
  apply Company.ext
  rw [← grouped_filter apart left.hex, same, grouped_filter apart right.hex]

theorem spelled_length (separator : Char) (company : Company) :
    (spelled separator company).length = 43 := by
  simp [spelled, grouped, company.length]

/-- What a company's token is made of. -/
theorem spelled_chars {separator : Char}
    (apart : isLowerHex separator = false) {company : Company} {char : Char}
    (member : char ∈ spelled separator company) :
    char ∈ ['t', 'e', 'n', 'a', 'n', 't', '_'] ∨ char = separator ∨
      isLowerHex char = true := by
  have all := List.all_eq_true.mp company.hex
  rcases List.mem_append.mp member with literal | inGroups
  · exact .inl literal
  · by_cases own : char = separator
    · exact .inr (.inl own)
    · refine .inr (.inr (all char ?_))
      rw [← grouped_filter apart company.hex]
      exact List.mem_filter.mpr ⟨inGroups, by simpa using own⟩

theorem tenantToken_injective {left right : Company}
    (same : tenantToken left = tenantToken right) : left = right :=
  spelled_injective (by decide : isLowerHex '_' = false) same

theorem tenantToken_length (company : Company) :
    (tenantToken company).length = 43 :=
  spelled_length '_' company

private theorem isLowerHex_toNat {char : Char}
    (digit : isLowerHex char = true) :
    48 ≤ char.toNat ∧ char.toNat ≤ 102 := by
  simp only [isLowerHex, Bool.or_eq_true, Bool.and_eq_true,
    decide_eq_true_eq, Char.le_def, UInt32.le_iff_toNat_le] at digit
  simp only [Char.toNat]
  rcases digit with decimal | letter
  · exact ⟨decimal.1, decimal.2.trans (by decide)⟩
  · exact ⟨le_trans (by decide) letter.1, letter.2⟩

/-- The separators of the two spellings. -/
def separators : List Char := ['_', '-']

private theorem spelled_harmless {separator : Char}
    (known : separator ∈ separators) {company : Company} {char : Char}
    (member : char ∈ spelled separator company) :
    char ≠ '/' ∧ char ≠ '\\' ∧ isControl char = false := by
  have literals : (separators ++ ['t', 'e', 'n', 'a', 'n', 't', '_']).all
      (fun char => char ≠ '/' && (char ≠ '\\' && !isControl char)) = true := by
    decide
  have harmless {other : Char}
      (listed : other ∈ separators ++ ['t', 'e', 'n', 'a', 'n', 't', '_']) :
      other ≠ '/' ∧ other ≠ '\\' ∧ isControl other = false := by
    simpa using List.all_eq_true.mp literals other listed
  have apart : isLowerHex separator = false := by
    have all : separators.all (fun char => !isLowerHex char) = true := by
      decide
    simpa using List.all_eq_true.mp all separator known
  rcases spelled_chars apart member with literal | rfl | digit
  · exact harmless (List.mem_append_right _ literal)
  · exact harmless (List.mem_append_left _ known)
  · have bounds := isLowerHex_toNat digit
    refine ⟨?_, ?_, ?_⟩
    · rintro rfl
      exact absurd digit (by decide)
    · rintro rfl
      exact absurd digit (by decide)
    · simp only [isControl, Bool.or_eq_false_iff, decide_eq_false_iff_not,
        Bool.and_eq_false_iff]
      omega

theorem spelled_no_slash {separator : Char}
    (known : separator ∈ separators) (company : Company) :
    '/' ∉ spelled separator company :=
  fun member => (spelled_harmless known member).1 rfl

theorem spelled_plain {separator : Char} (known : separator ∈ separators)
    (company : Company) :
    isPlainKey (spelled separator company) = true := by
  have single : (spelled separator company).splitOn '/' =
      [spelled separator company] :=
    List.splitOn_eq_singleton (spelled_no_slash known company)
  have length := spelled_length separator company
  have segment : isPlainSegment (spelled separator company) = true := by
    have long (text : Text) (short : text.length < 43) :
        spelled separator company ≠ text := by
      intro same
      rw [← same, length] at short
      exact absurd short (by decide)
    simp [isPlainSegment, long [] (by decide), long ['.'] (by decide),
      long ['.', '.'] (by decide)]
  have backslash : '\\' ∉ spelled separator company := by
    intro member
    exact (spelled_harmless known member).2.1 rfl
  have control : (spelled separator company).any isControl = false := by
    rw [List.any_eq_false]
    intro char member
    simp [(spelled_harmless known member).2.2]
  simp [isPlainKey, single, segment, backslash, control]

theorem tenantToken_no_slash (company : Company) :
    '/' ∉ tenantToken company :=
  spelled_no_slash (by decide : '_' ∈ separators) company

theorem tenantToken_plain (company : Company) :
    isPlainKey (tenantToken company) = true :=
  spelled_plain (by decide : '_' ∈ separators) company

/-- Two tenants' keys never meet. -/
theorem artifactPrefix_disjoint {left right : Company} {key : Text}
    (ofLeft : artifactPrefix left <+: key)
    (ofRight : artifactPrefix right <+: key) : left = right := by
  have lengths : (artifactPrefix left).length =
      (artifactPrefix right).length := by
    simp [artifactPrefix, tenantToken_length]
  have same := (List.prefix_of_prefix_length_le ofLeft ofRight
    lengths.le).eq_of_length lengths
  exact tenantToken_injective (List.append_cancel_right same)

end IndustryFlow.Tenancy
