import IndustryFlow.Regexes
import IndustryFlow.Tracking.Sources
import Mathlib.Logic.Function.Basic

/-!
# Redaction

A redactor runs thirteen patterns over a text, one after the other, and puts a
placeholder where each match, or its named part, was.
-/

namespace IndustryFlow.OpsAgent

open Regexes
open Tracking (isSpace strip)

abbrev Text := List Char

/-- What the tables of Unicode hold of `\w` and `\d`. -/
structure Unicode where
  word : Char → Bool
  digit : Char → Bool
  word_ascii : ∀ char, char.toNat < 128 →
    word char = (char.isAlphanum || char = '_')
  digit_ascii : ∀ char, char.toNat < 128 → digit char = char.isDigit
  word_space : ∀ char, word char = true → isSpace char = false
  digit_word : ∀ char, digit char = true → word char = true

theorem alphanum_toNat {char : Char} (alphanum : char.isAlphanum = true) :
    (48 ≤ char.toNat ∧ char.toNat ≤ 57) ∨ (65 ≤ char.toNat ∧
      char.toNat ≤ 90) ∨ (97 ≤ char.toNat ∧ char.toNat ≤ 122) := by
  rcases Bool.or_eq_true_iff.mp alphanum with letter | digit
  · rcases Bool.or_eq_true_iff.mp letter with upper | lower
    · exact .inr (.inl (of_decide_eq_true upper))
    · obtain ⟨above, beneath⟩ := Bool.and_eq_true_iff.mp lower
      exact .inr (.inr ⟨of_decide_eq_true above, of_decide_eq_true beneath⟩)
  · exact .inl (Char.isDigit_iff_toNat.mp digit)

theorem alphanum_solid {char : Char} (alphanum : char.isAlphanum = true) :
    isSpace char = false := by
  have between := alphanum_toNat alphanum
  unfold isSpace
  simp only [Bool.or_eq_false_iff, Bool.and_eq_false_iff,
    decide_eq_false_iff_not]
  omega

/-- Tables that hold no character beyond ASCII. -/
def Unicode.ascii : Unicode where
  word char := char.isAlphanum || char = '_'
  digit := Char.isDigit
  word_ascii _ _ := rfl
  digit_ascii _ _ := rfl
  word_space char word := by
    rcases Bool.or_eq_true_iff.mp word with alphanum | low
    · exact alphanum_solid alphanum
    · rw [of_decide_eq_true low]
      rfl
  digit_word char digit := by
    simp [Char.isAlphanum, digit]

/-! ## Addresses -/

/-- `str.strip("[]")`. -/
def stripBrackets (text : Text) : Text :=
  let bracket (char : Char) : Bool := char = '[' || char = ']'
  (text.dropWhile bracket).rdropWhile bracket

/-- `_parse_octet`. -/
def isOctet (text : Text) : Bool :=
  !text.isEmpty && text.all Char.isDigit && text.length ≤ 3 &&
    (text = ['0'] || text.head? ≠ some '0') &&
      text.foldl (fun value char => 10 * value + (char.toNat - 48)) 0 ≤ 255

/-- `IPv4Address`. -/
def isIpv4 (text : Text) : Bool :=
  let octets := text.splitOn '.'
  octets.length = 4 && octets.all isOctet

def isHex (char : Char) : Bool :=
  char.isDigit || ('a' ≤ char && char ≤ 'f') || ('A' ≤ char && char ≤ 'F')

/-- `_parse_hextet`. -/
def isHextet (text : Text) : Bool :=
  !text.isEmpty && text.all isHex && text.length ≤ 4

/-- The parts of an IPv6 address, of which an address at its end makes two. -/
def hextets (text : Text) : Option (List Text) :=
  let parts := text.splitOn ':'
  let last := parts.getLastD []
  if parts.length < 3 then none
  else if '.' ∈ last then
    if isIpv4 last then some (parts.dropLast ++ [['0'], ['0']]) else none
  else some parts

/-- `IPv6Address`. -/
def isIpv6 (text : Text) : Bool :=
  match hextets text with
  | none => false
  | some parts =>
      if 9 < parts.length then false
      else match parts.tail.dropLast.findIdx? (· = []) with
        | none => parts.length = 8 && parts.all isHextet
        | some index =>
            -- an empty part at an end of the text is alone on its side of `::`
            let side (parts : List Text) : List Text :=
              if parts = [[]] then [] else parts
            let shown := side (parts.take (index + 1)) ++
              side (parts.drop (index + 2))
            shown.all isHextet && shown.length < 8

/-- `_is_ip`. -/
def isIp (text : Text) : Bool :=
  let candidate := (stripBrackets text).takeWhile (· ≠ '%')
  !candidate.contains '/' && (isIpv4 candidate || isIpv6 candidate)

/-! ## The patterns -/

/-- The letter that a character stands for under `(?i)`. -/
def fold (char : Char) : Char :=
  if char = 'İ' || char = 'ı' then 'i'
  else if char = '\u212a' then 'k'
  else if char = 'ſ' then 's'
  else char.toLower

/-- The characters of a class. -/
def among (others : List Char) (char : Char) : Bool :=
  char.isAlphanum || others.contains char

/-- A class under `(?i)`. -/
def foldAmong (others : List Char) (char : Char) : Bool :=
  among others (fold char)

def exact (text : Text) : Regex :=
  .literal (fun char other => char = other) text

/-- A literal under `(?i)`. -/
def folded (text : Text) : Regex :=
  .literal (fun char other => char = fold other) text

def atLeast (least : Nat) (member : Char → Bool) : Regex :=
  .run member least none

def times (count : Nat) (member : Char → Bool) : Regex :=
  .run member count (some count)

def notBehind (member : Char → Bool) : Regex :=
  .behind fun char => !char.any member

def notAhead (member : Char → Bool) : Regex :=
  .ahead fun char => !char.any member

def hyphen (char : Char) : Bool :=
  char = '-' || char = '_'

/-- `_UUID`. -/
def uuid : Regex :=
  .sequence [times 8 isHex, .one hyphen, times 4 isHex, .one hyphen,
    times 4 isHex, .one hyphen, times 4 isHex, .one hyphen, times 12 isHex]

/-- `_KEY`, under `(?i)`. -/
def key : Regex :=
  let inside := atLeast 0 (foldAmong ['_', '.', '-'])
  let separator := Regex.optional (.one hyphen)
  let suffix := folded ['k', 'e', 'y']
  .sequence
    [inside,
      .oneOf
        [.sequence [folded ['p', 'a', 's', 's', 'w'],
            .optional (folded ['o', 'r']), folded ['d']],
          folded ['p', 'w', 'd'],
          folded ['s', 'e', 'c', 'r', 'e', 't'],
          folded ['t', 'o', 'k', 'e', 'n'],
          .sequence [folded ['a', 'p', 'i'], separator, suffix],
          .sequence
            [folded ['a', 'c', 'c', 'e', 's', 's'], separator, suffix],
          .sequence
            [folded ['p', 'r', 'i', 'v', 'a', 't', 'e'], separator, suffix]],
      inside]

inductive Category where
  | secret
  | tenant
  | email
  | address
deriving DecidableEq

def Category.text : Category → Text
  | .secret => ['s', 'e', 'c', 'r', 'e', 't']
  | .tenant => ['t', 'e', 'n', 'a', 'n', 't']
  | .email => ['e', 'm', 'a', 'i', 'l']
  | .address => ['a', 'd', 'd', 'r', 'e', 's', 's']

/-- A row of `_PATTERNS`.  Where it names no part, `value` is the whole. -/
structure Rule where
  category : Category
  pattern : Pattern
  /-- The pattern has a group `v`. -/
  named : Bool
  accept : Option (Text → Bool)

def whole (category : Category) (regex : Regex)
    (accept : Option (Text → Bool)) : Rule :=
  ⟨category, ⟨.empty, regex, .empty⟩, false, accept⟩

def named (category : Category) (head value tail : Regex) : Rule :=
  ⟨category, ⟨head, value, tail⟩, true, none⟩

namespace Unicode

variable (unicode : Unicode)

def bearer : Rule :=
  named .secret
    (.sequence [.boundary unicode.word,
      .either (folded ['b', 'e', 'a', 'r', 'e', 'r'])
        (folded ['b', 'a', 's', 'i', 'c']),
      atLeast 1 isSpace])
    (atLeast 8 (foldAmong ['.', '_', '~', '+', '/', '=', '-'])) .empty

def jwt : Rule :=
  let part := atLeast 8 (among ['_', '-'])
  whole .secret
    (.sequence [.boundary unicode.word, exact ['e', 'y', 'J'], part,
      exact ['.'], part, exact ['.'], part]) none

def serviceKey : Rule :=
  whole .secret
    (.sequence [.boundary unicode.word,
      .oneOf [exact ['s', 'k'], exact ['g', 'h', 'p'], exact ['g', 'h', 'o'],
        exact ['g', 'h', 'u'], exact ['g', 'h', 's'], exact ['g', 'h', 'r'],
        exact ['g', 'i', 't', 'h', 'u', 'b', '_', 'p', 'a', 't'],
        .seq (exact ['x', 'o', 'x']) (.one fun char =>
          ['a', 'b', 'p', 'r'].contains char)],
      .one hyphen, atLeast 16 (among ['_', '-'])]) none

def awsKey : Rule :=
  whole .secret
    (.sequence [.boundary unicode.word,
      .either (exact ['A', 'K', 'I', 'A']) (exact ['A', 'S', 'I', 'A']),
      times 16 fun char => char.isDigit || char.isUpper,
      .boundary unicode.word]) none

end Unicode

def urlPassword : Rule :=
  named .secret
    (.sequence [.one Char.isAlpha, atLeast 0 (among ['+', '.', '-']),
      exact [':', '/', '/'],
      atLeast 0 fun char => !(isSpace char || ['/', ':', '@'].contains char),
      exact [':']])
    (atLeast 1 fun char => !(isSpace char || ['@', '/'].contains char))
    (exact ['@'])

def jsonPair : Rule :=
  named .secret
    (.sequence [exact ['"'], key, exact ['"'], atLeast 0 isSpace, exact [':'],
      atLeast 0 isSpace, exact ['"']])
    (atLeast 1 fun char => char ≠ '"') (exact ['"'])

def keyValue : Rule :=
  named .secret
    (.sequence [notBehind (foldAmong []), key, atLeast 0 isSpace,
      .one fun char => char = '=' || char = ':', atLeast 0 isSpace,
      .optional (.one fun char => char = '"' || char = '\'')])
    (atLeast 2 fun char => !(isSpace char ||
      [',', ';', '&', '"', '\'', '<', '>'].contains char)) .empty

def hyphenUuid : Rule :=
  whole .tenant (.sequence [notBehind isHex, uuid, notAhead isHex]) none

def plainUuid : Rule :=
  whole .tenant (.sequence [notBehind isHex, times 32 isHex, notAhead isHex])
    none

def email : Rule :=
  whole .email
    (.sequence [atLeast 1 (among ['.', '_', '%', '+', '-']),
      .either (exact ['@']) (exact ['%', '4', '0']),
      atLeast 1 (among ['.', '-']), exact ['.'], atLeast 2 Char.isAlpha]) none

namespace Unicode

variable (unicode : Unicode)

def ipv4 : Rule :=
  let part := Regex.run unicode.digit 1 (some 3)
  let outside (char : Char) : Bool := unicode.word char || char = '.'
  whole .address
    (.sequence [notBehind outside, part, exact ['.'], part, exact ['.'], part,
      exact ['.'], part, notAhead outside]) (some isIp)

def ipv6 : Rule :=
  let part := atLeast 0 fun char => isHex char || char = ':'
  let outside (char : Char) : Bool :=
    unicode.word char || char = ':' || char = '.'
  whole .address
    (.sequence [notBehind outside, .optional (exact ['[']), part, exact [':'],
      part, .optional (.seq (exact ['%']) (atLeast 1 unicode.word)),
      .optional (exact [']']), notAhead outside]) (some isIp)

def hexSecret : Rule :=
  whole .secret (.sequence [notBehind isHex, atLeast 40 isHex, notAhead isHex])
    none

/-- `_PATTERNS`. -/
def rules : List Rule :=
  [unicode.bearer, unicode.jwt, unicode.serviceKey, unicode.awsKey,
    urlPassword, jsonPair, keyValue, hyphenUuid, plainUuid, email,
    unicode.ipv4, unicode.ipv6, hexSecret]

end Unicode

/-! ## The redactor -/

structure Replacement where
  category : Category
  value : Text
  placeholder : Text
deriving DecidableEq

/-- `Redactor`.  The code does not keep `replaced`. -/
structure Redactor where
  seen : List ((Category × Text) × Text)
  counts : Category → Nat
  /-- What was replaced so far. -/
  replaced : List Replacement

def Redactor.start : Redactor where
  seen := []
  counts _ := 0
  replaced := []

/-- `<category-n>`. -/
def placeholderText (category : Category) (number : Nat) : Text :=
  '<' :: category.text ++ '-' :: Nat.toDigits 10 number ++ ['>']

/-- Whether a rule replaces a match. -/
def Rule.accepts (rule : Rule) (part : Match) : Bool :=
  !rule.accept.any fun accept => !accept part.text

namespace Redactor

variable (redactor : Redactor)

/-- A value gives way to its placeholder. -/
def count (category : Category) (value text : Text) : Redactor :=
  { redactor with
    counts := Function.update redactor.counts category
      (redactor.counts category + 1)
    replaced := redactor.replaced ++ [⟨category, value, text⟩] }

/-- `_placeholder`. -/
def placeholder (category : Category) (value : Text) : Redactor × Text :=
  match redactor.seen.lookup (category, value) with
  | some text => (redactor.count category value text, text)
  | none =>
      let number := redactor.seen.countP (fun entry =>
        entry.1.1 = category) + 1
      let text := placeholderText category number
      let known : Redactor :=
        { redactor with
          seen := redactor.seen ++ [((category, value), text)] }
      (known.count category value text, text)

/-- `_replace`, of what stands between two matches too. -/
def replace (rule : Rule) : Piece → Redactor × Text
  | .kept char => (redactor, [char])
  | .found part =>
      if rule.accepts part then
        let value := if rule.named then part.value else strip part.text
        let (counted, text) := redactor.placeholder rule.category value
        (counted, if rule.named then part.head ++ text ++ part.tail else text)
      else (redactor, part.text)

end Redactor

/-- The pieces of a text, put together again. -/
def replaceAll (rule : Rule) :
    Redactor → List Piece → Redactor × Text
  | redactor, [] => (redactor, [])
  | redactor, piece :: rest =>
      let (replaced, text) := redactor.replace rule piece
      let (last, others) := replaceAll rule replaced rest
      (last, text ++ others)

/-- `pattern.sub`. -/
def Redactor.sub (redactor : Redactor) (rule : Rule) (text : Text) :
    Redactor × Text :=
  replaceAll rule redactor (split rule.pattern text)

/-- `__call__`. -/
def Redactor.redact (redactor : Redactor) (rules : List Rule) (text : Text) :
    Redactor × Text :=
  rules.foldl (fun (redactor, text) rule => redactor.sub rule text)
    (redactor, text)

end IndustryFlow.OpsAgent
