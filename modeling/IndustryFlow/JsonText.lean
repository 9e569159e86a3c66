import IndustryFlow.Fallible
import Mathlib.Data.List.TakeWhile

/-!
# Reading a text as JSON

The reader takes a text apart into tokens and walks over them with a stack of
the containers that are open.  Where it expects a value it refuses two things
that are no error of syntax: an integer with too many digits, and a container
that would lie too deep.  `loads_limit_iff` says when it comes to that.
-/

namespace IndustryFlow.JsonText

/-- A string, by its code points; surrogates may stand alone. -/
abbrev Text := List Nat

/-- A value.  A number is what was written. -/
inductive Value where
  | null
  | bool (value : Bool)
  | int (negative : Bool) (digits : List Char)
  | real (literal : List Char)
  | text (value : Text)
  | array (items : List Value)
  | object (fields : List (Text × Value))

inductive Token where
  | openArray
  | closeArray
  | openObject
  | closeObject
  | comma
  | colon
  | null
  | bool (value : Bool)
  | int (negative : Bool) (digits : List Char)
  | real (literal : List Char)
  | text (value : Text)
  | bad

/-! ## Numbers -/

def takeDigits (text : List Char) : List Char :=
  text.takeWhile Char.isDigit

def dropDigits (text : List Char) : List Char :=
  text.dropWhile Char.isDigit

/-- A point and digits, and the text after them. -/
def fraction : List Char → List Char × List Char
  | '.' :: rest =>
      if takeDigits rest = [] then ([], '.' :: rest)
      else ('.' :: takeDigits rest, dropDigits rest)
  | text => ([], text)

/-- A sign, and the text after it. -/
def sign : List Char → List Char × List Char
  | '+' :: rest => (['+'], rest)
  | '-' :: rest => (['-'], rest)
  | text => ([], text)

def exponent : List Char → List Char × List Char
  | char :: rest =>
      if char = 'e' ∨ char = 'E' then
        let after := (sign rest).2
        if takeDigits after = [] then ([], char :: rest)
        else (char :: (sign rest).1 ++ takeDigits after, dropDigits after)
      else ([], char :: rest)
  | [] => ([], [])

/-- The number that goes on after its integer part. -/
def numberFrom (negative : Bool) (digits text : List Char) :
    Token × List Char :=
  let (point, rest) := fraction text
  let (power, rest) := exponent rest
  if point = [] ∧ power = [] then (.int negative digits, rest)
  else
    (.real ((if negative then ['-'] else []) ++ digits ++ point ++ power), rest)

def unsigned (negative : Bool) : List Char → Option (Token × List Char)
  | '0' :: rest => some (numberFrom negative ['0'] rest)
  | char :: rest =>
      if char.isDigit then
        some (numberFrom negative (char :: takeDigits rest) (dropDigits rest))
      else none
  | [] => none

def number : List Char → Option (Token × List Char)
  | '-' :: rest => unsigned true rest
  | text => unsigned false text

/-! ## Strings -/

def hexDigit (char : Char) : Option Nat :=
  if '0' ≤ char ∧ char ≤ '9' then some (char.toNat - 48)
  else if 'a' ≤ char ∧ char ≤ 'f' then some (char.toNat - 87)
  else if 'A' ≤ char ∧ char ≤ 'F' then some (char.toNat - 55)
  else none

def fourHex (first second third fourth : Char) : Option Nat := do
  let first ← hexDigit first
  let second ← hexDigit second
  let third ← hexDigit third
  let fourth ← hexDigit fourth
  some (((first * 16 + second) * 16 + third) * 16 + fourth)

/-- What stands after a backslash. -/
def escape : Char → Option Nat
  | '"' => some 34
  | '\\' => some 92
  | '/' => some 47
  | 'b' => some 8
  | 'f' => some 12
  | 'n' => some 10
  | 'r' => some 13
  | 't' => some 9
  | _ => none

/-- The code units up to the closing quote, and the text after it. -/
def units : List Char → Option (List Nat × List Char)
  | [] => none
  | '"' :: rest => some ([], rest)
  | '\\' :: 'u' :: first :: second :: third :: fourth :: rest => do
      let code ← fourHex first second third fourth
      let (codes, rest) ← units rest
      some (code :: codes, rest)
  | '\\' :: char :: rest => do
      let code ← escape char
      let (codes, rest) ← units rest
      some (code :: codes, rest)
  | char :: rest => do
      if char.toNat < 32 ∨ char = '\\' then none
      let (codes, rest) ← units rest
      some (char.toNat :: codes, rest)

/-- Pairs of surrogates are one code point. -/
def joinPairs : List Nat → Text
  | high :: low :: rest =>
      if 0xd800 ≤ high ∧ high < 0xdc00 ∧ 0xdc00 ≤ low ∧ low < 0xe000 then
        (0x10000 + (high - 0xd800) * 1024 + (low - 0xdc00)) :: joinPairs rest
      else high :: joinPairs (low :: rest)
  | rest => rest

/-! ## Tokens -/

def isSpace (char : Char) : Bool :=
  char ∈ [' ', '\t', '\n', '\r']

def punctuation : Char → Option Token
  | '[' => some .openArray
  | ']' => some .closeArray
  | '\x7b' => some .openObject
  | '\x7d' => some .closeObject
  | ',' => some .comma
  | ':' => some .colon
  | _ => none

def words : List (String × Token) :=
  [("null", .null), ("true", .bool true), ("false", .bool false),
    ("NaN", .real "NaN".toList), ("Infinity", .real "Infinity".toList),
    ("-Infinity", .real "-Infinity".toList)]

def string (text : List Char) : Option (Token × List Char) := do
  let (codes, rest) ← units text
  some (.text (joinPairs codes), rest)

/-- The token that begins here, and the text after it. -/
def token (char : Char) (rest : List Char) : Option (Token × List Char) :=
  match punctuation char with
  | some token => some (token, rest)
  | none =>
      if char = '"' then string rest
      else
        match words.find? (·.1.toList.isPrefixOf (char :: rest)) with
        | some (word, token) =>
            some (token, (char :: rest).drop word.toList.length)
        | none => number (char :: rest)

theorem dropDigits_length (text : List Char) :
    (dropDigits text).length ≤ text.length :=
  List.length_dropWhile_le _ _

theorem fraction_length (text : List Char) :
    (fraction text).2.length ≤ text.length := by
  unfold fraction
  split
  · rename_i rest
    split
    · exact Nat.le_refl _
    · exact Nat.le_succ_of_le (dropDigits_length rest)
  · exact Nat.le_refl _

theorem sign_length (text : List Char) :
    (sign text).2.length ≤ text.length := by
  unfold sign
  split
  · exact Nat.le_succ _
  · exact Nat.le_succ _
  · exact Nat.le_refl _

theorem exponent_length (text : List Char) :
    (exponent text).2.length ≤ text.length := by
  unfold exponent
  split
  · rename_i char rest
    have after := (dropDigits_length (sign rest).2).trans (sign_length rest)
    dsimp only
    split
    · split
      · exact Nat.le_refl _
      · exact Nat.le_succ_of_le after
    · exact Nat.le_refl _
  · exact Nat.le_refl _

theorem numberFrom_length (negative : Bool) (digits text : List Char) :
    (numberFrom negative digits text).2.length ≤ text.length := by
  have rest := (exponent_length (fraction text).2).trans (fraction_length text)
  unfold numberFrom
  dsimp only
  split
  · exact rest
  · exact rest

theorem unsigned_length {negative : Bool} {text rest : List Char}
    {token : Token} (found : unsigned negative text = some (token, rest)) :
    rest.length < text.length := by
  unfold unsigned at found
  split at found
  · rename_i after
    have shorter := numberFrom_length negative ['0'] after
    rw [Option.some.inj found] at shorter
    exact Nat.lt_succ_of_le shorter
  · rename_i char after _
    split at found
    · have shorter := numberFrom_length negative (char :: takeDigits after)
        (dropDigits after)
      rw [Option.some.inj found] at shorter
      exact Nat.lt_succ_of_le (shorter.trans (dropDigits_length after))
    · cases found
  · cases found

theorem number_length {text rest : List Char} {token : Token}
    (found : number text = some (token, rest)) :
    rest.length < text.length := by
  unfold number at found
  split at found
  · exact Nat.lt_succ_of_lt (unsigned_length found)
  · exact unsigned_length found

theorem units_length {text rest : List Char} {codes : List Nat}
    (found : units text = some (codes, rest)) :
    rest.length < text.length := by
  induction text using units.induct generalizing codes rest with
  | case1 => cases found
  | case2 after =>
      cases found
      exact Nat.lt_succ_self _
  | case3 first second third fourth after induction =>
      simp only [units, Option.bind_eq_bind, Option.bind_eq_some_iff] at found
      obtain ⟨code, -, ⟨later, remaining⟩, inner, ended⟩ := found
      cases ended
      have shorter := induction inner
      simp only [List.length_cons]
      omega
  | case4 char after other induction =>
      rw [units] at found
      · simp only [Option.bind_eq_bind, Option.bind_eq_some_iff] at found
        obtain ⟨code, -, ⟨later, remaining⟩, inner, ended⟩ := found
        cases ended
        have shorter := induction inner
        simp only [List.length_cons]
        omega
      · exact other
  | case5 char after quote unicode single refused induction =>
      rw [units] at found
      · rw [if_pos refused] at found
        cases found
      · exact quote
      · exact unicode
      · exact single
  | case6 char after quote unicode single taken induction =>
      rw [units] at found
      · rw [if_neg taken] at found
        simp only [Option.bind_eq_bind, Option.bind_eq_some_iff] at found
        obtain ⟨⟨later, remaining⟩, inner, ended⟩ := found
        cases ended
        exact Nat.lt_succ_of_lt (induction inner)
      · exact quote
      · exact unicode
      · exact single

theorem words_nonempty {word : String × Token} (known : word ∈ words) :
    word.1.toList ≠ [] := by
  have all : words.all (fun word => word.1.toList ≠ []) = true := by
    decide
  simpa using List.all_eq_true.mp all word known

/-- A token takes at least one character. -/
theorem token_length {char : Char} {text rest : List Char} {found : Token}
    (read : token char text = some (found, rest)) :
    rest.length < (char :: text).length := by
  unfold token at read
  split at read
  · cases read
    exact Nat.lt_succ_self _
  · split at read
    · simp only [string, Option.bind_eq_bind, Option.bind_eq_some_iff] at read
      obtain ⟨⟨codes, after⟩, inner, ended⟩ := read
      cases ended
      exact Nat.lt_succ_of_lt (units_length inner)
    · split at read
      · rename_i word token listed
        cases read
        have nonempty := words_nonempty (List.mem_of_find?_eq_some listed)
        have positive : 0 < word.toList.length :=
          List.length_pos_iff.mpr nonempty
        rw [List.length_drop, List.length_cons]
        omega
      · exact number_length read

/-- The tokens of a text, up to the first bad one. -/
def lex (text : List Char) : List Token :=
  match text with
  | [] => []
  | char :: rest =>
      if isSpace char then lex rest
      else
        match _read : token char rest with
        | some (token, after) => token :: lex after
        | none => [.bad]
termination_by text.length
decreasing_by
  · exact Nat.lt_succ_self _
  · exact token_length _read

/-! ## Values -/

inductive Container where
  | array
  | object
deriving DecidableEq

/-- An open container: the items before the current one, the last first. -/
inductive Frame where
  | array (items : List Value)
  | object (fields : List (Text × Value)) (key : Text)

def Frame.container : Frame → Container
  | .array _ => .array
  | .object _ _ => .object

/-- What is expected next. -/
inductive State where
  | value (stack : List Frame)
  | firstItem (stack : List Frame)
  | firstKey (stack : List Frame)
  | nextKey (fields : List (Text × Value)) (stack : List Frame)
  | colon (key : Text) (fields : List (Text × Value)) (stack : List Frame)
  | after (value : Value) (stack : List Frame)

inductive ReadError where
  | malformed
  /-- More digits than an integer may have. -/
  | digits
  /-- A container deeper than the interpreter goes. -/
  | depth
deriving DecidableEq

/-- `tooDeep` is asked with the containers that are to be open. -/
structure Limits where
  maxDigits : Nat
  tooDeep : List Container → Bool

section

variable (limits : Limits)

def startValue (stack : List Frame) : Token → Except ReadError State
  | .openArray =>
      if limits.tooDeep (.array :: stack.map Frame.container) then
        .error .depth
      else .ok (.firstItem stack)
  | .openObject =>
      if limits.tooDeep (.object :: stack.map Frame.container) then
        .error .depth
      else .ok (.firstKey stack)
  | .int negative digits =>
      if limits.maxDigits < digits.length then .error .digits
      else .ok (.after (.int negative digits) stack)
  | .real literal => .ok (.after (.real literal) stack)
  | .text value => .ok (.after (.text value) stack)
  | .null => .ok (.after .null stack)
  | .bool value => .ok (.after (.bool value) stack)
  | _ => .error .malformed

def step : State → Token → Except ReadError State
  | .value stack, token => startValue limits stack token
  | .firstItem stack, .closeArray => .ok (.after (.array []) stack)
  | .firstItem stack, token => startValue limits (.array [] :: stack) token
  | .firstKey stack, .closeObject => .ok (.after (.object []) stack)
  | .firstKey stack, .text key => .ok (.colon key [] stack)
  | .nextKey fields stack, .text key => .ok (.colon key fields stack)
  | .colon key fields stack, .colon =>
      .ok (.value (.object fields key :: stack))
  | .after value (.array items :: stack), .comma =>
      .ok (.value (.array (value :: items) :: stack))
  | .after value (.array items :: stack), .closeArray =>
      .ok (.after (.array (value :: items).reverse) stack)
  | .after value (.object fields key :: stack), .comma =>
      .ok (.nextKey ((key, value) :: fields) stack)
  | .after value (.object fields key :: stack), .closeObject =>
      .ok (.after (.object ((key, value) :: fields).reverse) stack)
  | _, _ => .error .malformed

def finish : State → Except ReadError Value
  | .after value [] => .ok value
  | _ => .error .malformed

def run (state : State) : List Token → Except ReadError Value
  | [] => finish state
  | token :: tokens => do
      let state ← step limits state token
      run state tokens

/-- `json.loads`. -/
def loads (text : String) : Except ReadError Value :=
  run limits (.value []) (lex text.toList)

end

/-! ## What is refused though it is well formed -/

/-- The containers around a value that is expected. -/
def State.expects : State → Option (List Frame)
  | .value stack => some stack
  | .firstItem stack => some (.array [] :: stack)
  | _ => none

/-- The token goes beyond a limit. -/
def Limits.exceeded (limits : Limits) (stack : List Frame) : Token → Bool
  | .openArray => limits.tooDeep (.array :: stack.map Frame.container)
  | .openObject => limits.tooDeep (.object :: stack.map Frame.container)
  | .int _ digits => limits.maxDigits < digits.length
  | _ => false

/-- The reader comes, without an error, to a token beyond a limit. -/
def Oversized (limits : Limits) (text : String) : Prop :=
  ∃ before token after state stack,
    lex text.toList = before ++ token :: after ∧
      before.foldlM (step limits) (.value []) = .ok state ∧
      state.expects = some stack ∧ limits.exceeded stack token = true

theorem startValue_limit_iff {limits : Limits} {stack : List Frame}
    {token : Token} :
    (∃ error, error ≠ .malformed ∧
      startValue limits stack token = .error error) ↔
        limits.exceeded stack token = true := by
  cases token with
  | openArray =>
      by_cases deep :
          limits.tooDeep (.array :: stack.map Frame.container) = true
      · simp [startValue, Limits.exceeded, deep]
      · simp [startValue, Limits.exceeded, deep]
  | openObject =>
      by_cases deep :
          limits.tooDeep (.object :: stack.map Frame.container) = true
      · simp [startValue, Limits.exceeded, deep]
      · simp [startValue, Limits.exceeded, deep]
  | int negative digits =>
      by_cases long : limits.maxDigits < digits.length
      · simp [startValue, Limits.exceeded, long]
      · simp [startValue, Limits.exceeded, long]
  | closeArray => simp [startValue, Limits.exceeded]
  | closeObject => simp [startValue, Limits.exceeded]
  | comma => simp [startValue, Limits.exceeded]
  | colon => simp [startValue, Limits.exceeded]
  | null => simp [startValue, Limits.exceeded]
  | bool value => simp [startValue, Limits.exceeded]
  | real literal => simp [startValue, Limits.exceeded]
  | text value => simp [startValue, Limits.exceeded]
  | bad => simp [startValue, Limits.exceeded]

/-- A step goes beyond a limit only where a value is expected. -/
theorem step_limit_iff {limits : Limits} {state : State} {token : Token} :
    (∃ error, error ≠ .malformed ∧ step limits state token = .error error) ↔
      ∃ stack, state.expects = some stack ∧
        limits.exceeded stack token = true := by
  have refused {error : ReadError} (other : error ≠ .malformed)
      (same : (Except.error .malformed : Except ReadError State) =
        .error error) : False := by
    cases same
    exact other rfl
  cases state with
  | value stack =>
      simp only [State.expects, Option.some.injEq, exists_eq_left', step]
      exact startValue_limit_iff
  | firstItem stack =>
      simp only [State.expects, Option.some.injEq, exists_eq_left']
      rw [← startValue_limit_iff]
      cases token with
      | closeArray => simp [step, startValue]
      | _ => rfl
  | firstKey stack =>
      simp only [State.expects, reduceCtorEq, false_and, exists_false,
        iff_false]
      rintro ⟨error, other, stepped⟩
      cases token with
      | closeObject => cases stepped
      | text key => cases stepped
      | _ => exact refused other stepped
  | nextKey fields stack =>
      simp only [State.expects, reduceCtorEq, false_and, exists_false,
        iff_false]
      rintro ⟨error, other, stepped⟩
      cases token with
      | text key => cases stepped
      | _ => exact refused other stepped
  | colon key fields stack =>
      simp only [State.expects, reduceCtorEq, false_and, exists_false,
        iff_false]
      rintro ⟨error, other, stepped⟩
      cases token with
      | colon => cases stepped
      | _ => exact refused other stepped
  | after value stack =>
      simp only [State.expects, reduceCtorEq, false_and, exists_false,
        iff_false]
      rintro ⟨error, other, stepped⟩
      cases stack with
      | nil => exact refused other stepped
      | cons frame stack =>
          cases frame with
          | array items =>
              cases token with
              | comma => cases stepped
              | closeArray => cases stepped
              | _ => exact refused other stepped
          | object fields key =>
              cases token with
              | comma => cases stepped
              | closeObject => cases stepped
              | _ => exact refused other stepped

theorem finish_malformed {state : State} {error : ReadError}
    (refused : finish state = .error error) : error = .malformed := by
  unfold finish at refused
  split at refused
  · cases refused
  · cases refused
    rfl

theorem run_limit_iff {limits : Limits} {tokens : List Token}
    {state : State} :
    (∃ error, error ≠ .malformed ∧ run limits state tokens = .error error) ↔
      ∃ before token after later stack,
        tokens = before ++ token :: after ∧
          before.foldlM (step limits) state = .ok later ∧
          later.expects = some stack ∧
          limits.exceeded stack token = true := by
  induction tokens generalizing state with
  | nil =>
      constructor
      · rintro ⟨error, other, refused⟩
        exact absurd (finish_malformed refused) other
      · rintro ⟨before, token, after, later, stack, split, -⟩
        cases before <;> cases split
  | cons token tokens induction =>
      constructor
      · rintro ⟨error, other, refused⟩
        rw [run, bind_error_iff] at refused
        rcases refused with own | ⟨next, stepped, refused⟩
        · obtain ⟨stack, expected, beyond⟩ :=
            step_limit_iff.mp ⟨error, other, own⟩
          exact ⟨[], token, tokens, state, stack, rfl, rfl, expected, beyond⟩
        · obtain ⟨before, found, after, later, stack, split, walked, expected,
            beyond⟩ := induction.mp ⟨error, other, refused⟩
          refine ⟨token :: before, found, after, later, stack, ?_, ?_,
            expected, beyond⟩
          · rw [split]
            rfl
          · rw [List.foldlM_cons]
            exact bind_ok_iff.mpr ⟨next, stepped, walked⟩
      · rintro ⟨before, found, after, later, stack, split, walked, expected,
          beyond⟩
        cases before with
        | nil =>
            cases split
            cases walked
            obtain ⟨error, other, refused⟩ :=
              step_limit_iff.mpr ⟨stack, expected, beyond⟩
            exact ⟨error, other, bind_error_iff.mpr (.inl refused)⟩
        | cons first before =>
            cases split
            rw [List.foldlM_cons, bind_ok_iff] at walked
            obtain ⟨next, stepped, walked⟩ := walked
            obtain ⟨error, other, refused⟩ := induction.mpr
              ⟨before, found, after, later, stack, rfl, walked, expected,
                beyond⟩
            exact ⟨error, other, bind_error_iff.mpr
              (.inr ⟨next, stepped, refused⟩)⟩

/-- A run of ones is one integer. -/
theorem lex_ones (count : Nat) :
    lex (List.replicate (count + 1) '1') =
      [.int false (List.replicate (count + 1) '1')] := by
  have digits : ∀ char ∈ List.replicate count '1', char.isDigit = true := by
    intro char member
    rw [(List.mem_replicate.mp member).2]
    decide
  have taken : takeDigits (List.replicate count '1') =
      List.replicate count '1' := List.takeWhile_eq_self_iff.mpr digits
  have dropped : dropDigits (List.replicate count '1') = [] :=
    List.dropWhile_eq_nil_iff.mpr digits
  have whole : token '1' (List.replicate count '1') =
      some (.int false (List.replicate (count + 1) '1'), []) := by
    have noWord : words.find? (·.1.toList.isPrefixOf
        ('1' :: List.replicate count '1')) = none := by
      simp [words, List.find?, List.isPrefixOf]
    have digit : '1'.isDigit = true := by decide
    simp [token, punctuation, noWord, number, unsigned, digit, taken, dropped,
      numberFrom, fraction, exponent, List.replicate_succ]
  rw [List.replicate_succ, lex]
  have space : isSpace '1' = false := by decide
  simp only [space, Bool.false_eq_true, if_false]
  split
  · rename_i found after read
    rw [whole] at read
    cases read
    rw [lex, List.replicate_succ]
  · rename_i read
    rw [whole] at read
    cases read

/-- What `loads` refuses beside an error of syntax. -/
theorem loads_limit_iff {limits : Limits} {text : String} :
    (∃ error, error ≠ .malformed ∧ loads limits text = .error error) ↔
      Oversized limits text :=
  run_limit_iff

end IndustryFlow.JsonText
