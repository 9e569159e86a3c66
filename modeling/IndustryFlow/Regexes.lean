import Mathlib.Data.List.Basic

/-!
# Regular expressions

A backtracking matcher tries the ways in which an expression matches a text one
after the other, and the first one counts.  `ways` is the list of what is
consumed, in this order; an expression sees the text from where it stands on
and the character before.
-/

namespace Regexes

inductive Regex where
  /-- It matches where nothing is consumed. -/
  | empty
  /-- As many such characters as there are, up to `most`; then fewer. -/
  | run (member : Char → Bool) (least : Nat) (most : Option Nat)
  | seq (first second : Regex)
  | either (first second : Regex)
  /-- What stands before, if anything does. -/
  | behind (allowed : Option Char → Bool)
  /-- What comes next. -/
  | ahead (allowed : Option Char → Bool)
  /-- The end of a word. -/
  | boundary (word : Char → Bool)

namespace Regex

def one (member : Char → Bool) : Regex :=
  .run member 1 (some 1)

def optional (regex : Regex) : Regex :=
  .either regex .empty

/-- Characters that are equal to those of a text. -/
def literal (same : Char → Char → Bool) : List Char → Regex
  | [] => .empty
  | [char] => .one (same char)
  | char :: rest => .seq (.one (same char)) (literal same rest)

def oneOf : List Regex → Regex
  | [] => .run (fun _ => false) 1 none
  | [regex] => regex
  | regex :: rest => .either regex (oneOf rest)

def sequence : List Regex → Regex
  | [] => .empty
  | [regex] => regex
  | regex :: rest => .seq regex (sequence rest)

end Regex

/-- The character before what comes after `consumed`. -/
def after (before : Option Char) (consumed : List Char) : Option Char :=
  consumed.getLast?.or before

/-- The texts of one run, the longest first. -/
def runs (member : Char → Bool) (least : Nat) (most : Option Nat)
    (rest : List Char) : List (List Char) :=
  let available := rest.takeWhile member
  let longest := match most with
    | none => available
    | some limit => available.take limit
  (List.range (longest.length + 1 - least)).map fun fewer =>
    longest.take (longest.length - fewer)

def isWord (word : Char → Bool) (char : Option Char) : Bool :=
  char.any word

/-- What an expression consumes of a text, the preferred way first. -/
def ways : Regex → Option Char → List Char → List (List Char)
  | .empty, _, _ => [[]]
  | .run member least most, _, rest => runs member least most rest
  | .seq first second, before, rest =>
      (ways first before rest).flatMap fun consumed =>
        (ways second (after before consumed)
          (rest.drop consumed.length)).map (consumed ++ ·)
  | .either first second, before, rest =>
      ways first before rest ++ ways second before rest
  | .behind allowed, before, _ => if allowed before then [[]] else []
  | .ahead allowed, _, rest => if allowed rest.head? then [[]] else []
  | .boundary word, before, rest =>
      if isWord word before ≠ isWord word rest.head? then [[]] else []

/-- A pattern with a named part. -/
structure Pattern where
  head : Regex
  value : Regex
  tail : Regex

structure Match where
  head : List Char
  value : List Char
  tail : List Char

def Match.text (found : Match) : List Char :=
  found.head ++ found.value ++ found.tail

/-- The ways in which a pattern matches. -/
def Pattern.all (pattern : Pattern) (before : Option Char)
    (rest : List Char) : List Match :=
  (ways pattern.head before rest).flatMap fun head =>
    (ways pattern.value (after before head)
      (rest.drop head.length)).flatMap fun value =>
        (ways pattern.tail (after (after before head) value)
          (rest.drop (head ++ value).length)).map fun tail =>
            ⟨head, value, tail⟩

def Pattern.match? (pattern : Pattern) (before : Option Char)
    (rest : List Char) : Option Match :=
  (pattern.all before rest).head?

inductive Piece where
  | kept (char : Char)
  | found (part : Match)

def Piece.text : Piece → List Char
  | .kept char => [char]
  | .found part => part.text

def Piece.part : Piece → Option Match
  | .kept _ => none
  | .found part => some part

/-- The matches of a text from left to right, and what stands between them; the
first `skip` characters belong to the match before.  A match of nothing is not
one. -/
def pieces (pattern : Pattern) :
    (skip : Nat) → Option Char → List Char → List Piece
  | _, _, [] => []
  | skip + 1, _, char :: rest => pieces pattern skip (some char) rest
  | 0, before, char :: rest =>
      match pattern.match? before (char :: rest) with
      | none => .kept char :: pieces pattern 0 (some char) rest
      | some found =>
          if found.text = [] then
            .kept char :: pieces pattern 0 (some char) rest
          else .found found ::
            pieces pattern (found.text.length - 1) (some char) rest

def split (pattern : Pattern) (text : List Char) : List Piece :=
  pieces pattern 0 none text

/-! ## What is consumed is the start of the text -/

theorem runs_prefix {member : Char → Bool} {least : Nat} {most : Option Nat}
    {rest consumed : List Char}
    (member_runs : consumed ∈ runs member least most rest) :
    consumed <+: rest := by
  obtain ⟨fewer, -, rfl⟩ := List.mem_map.mp member_runs
  refine (List.take_prefix _ _).trans ?_
  cases most with
  | none => exact List.takeWhile_prefix _
  | some limit => exact (List.take_prefix _ _).trans (List.takeWhile_prefix _)

theorem ways_prefix {regex : Regex} {before : Option Char}
    {rest consumed : List Char} (way : consumed ∈ ways regex before rest) :
    consumed <+: rest := by
  induction regex generalizing before rest consumed with
  | empty =>
      rw [List.mem_singleton.mp way]
      exact List.nil_prefix
  | run member least most => exact runs_prefix way
  | seq first second left right =>
      obtain ⟨head, before_way, later⟩ := List.mem_flatMap.mp way
      obtain ⟨tail, after_way, rfl⟩ := List.mem_map.mp later
      obtain ⟨more, split⟩ := left before_way
      have rest_way := right after_way
      rw [← split, List.drop_left] at rest_way
      rw [← split]
      exact (List.prefix_append_right_inj head).mpr rest_way
  | either first second left right =>
      rcases List.mem_append.mp way with first_way | second_way
      · exact left first_way
      · exact right second_way
  | behind allowed =>
      simp only [ways] at way
      split at way
      · rw [List.mem_singleton.mp way]
        exact List.nil_prefix
      · cases way
  | ahead allowed =>
      simp only [ways] at way
      split at way
      · rw [List.mem_singleton.mp way]
        exact List.nil_prefix
      · cases way
  | boundary word =>
      simp only [ways] at way
      split at way
      · rw [List.mem_singleton.mp way]
        exact List.nil_prefix
      · cases way

theorem Pattern.match?_prefix {pattern : Pattern} {before : Option Char}
    {rest : List Char} {found : Match}
    (way : pattern.match? before rest = some found) : found.text <+: rest := by
  have member := List.mem_of_mem_head? way
  obtain ⟨head, first, more⟩ := List.mem_flatMap.mp member
  obtain ⟨value, second, last⟩ := List.mem_flatMap.mp more
  obtain ⟨tail, third, rfl⟩ := List.mem_map.mp last
  obtain ⟨later, split⟩ := ways_prefix first
  subst split
  rw [List.drop_left] at second
  obtain ⟨latest, split⟩ := ways_prefix second
  subst split
  rw [← List.append_assoc, List.drop_left] at third
  obtain ⟨others, split⟩ := ways_prefix third
  subst split
  exact ⟨others, by simp [Match.text]⟩

/-- The pieces of a text are the text. -/
theorem pieces_text (pattern : Pattern) (skip : Nat) (before : Option Char)
    (text : List Char) :
    (pieces pattern skip before text).flatMap Piece.text = text.drop skip := by
  induction text generalizing skip before with
  | nil => simp [pieces]
  | cons char rest induction =>
      cases skip with
      | succ skip => simp [pieces, induction]
      | zero =>
          simp only [pieces, List.drop_zero]
          split
          · simp [Piece.text, induction]
          · rename_i found way
            split
            · simp [Piece.text, induction]
            · rename_i some_text
              obtain ⟨later, whole⟩ := Pattern.match?_prefix way
              rw [List.flatMap_cons, induction, Piece.text]
              obtain ⟨first, others, same⟩ :=
                List.exists_cons_of_ne_nil some_text
              rw [same] at whole ⊢
              obtain ⟨rfl, rfl⟩ := List.cons.inj whole
              simp

theorem split_text (pattern : Pattern) (text : List Char) :
    (split pattern text).flatMap Piece.text = text :=
  pieces_text pattern 0 none text

/-! ## What an expression can consume -/

/-- What an expression consumes, wherever it stands. -/
def Accepts : Regex → List Char → Prop
  | .empty, text => text = []
  | .run member least most, text =>
      (∀ char ∈ text, member char = true) ∧ least ≤ text.length ∧
        ∀ limit ∈ most, text.length ≤ limit
  | .seq first second, text => ∃ head tail, text = head ++ tail ∧
      Accepts first head ∧ Accepts second tail
  | .either first second, text => Accepts first text ∨ Accepts second text
  | .behind _, text => text = []
  | .ahead _, text => text = []
  | .boundary _, text => text = []

structure Pattern.Accepts (pattern : Pattern) (part : Match) : Prop where
  head : Regexes.Accepts pattern.head part.head
  value : Regexes.Accepts pattern.value part.value
  tail : Regexes.Accepts pattern.tail part.tail

/-- Every character that an expression can consume is of this kind. -/
def Regex.Only (kind : Char → Prop) : Regex → Prop
  | .run member _ _ => ∀ char, member char = true → kind char
  | .seq first second => first.Only kind ∧ second.Only kind
  | .either first second => first.Only kind ∧ second.Only kind
  | _ => True

theorem Accepts.only {kind : Char → Prop} {regex : Regex} {text : List Char}
    (accepts : Accepts regex text) (only : regex.Only kind) :
    ∀ char ∈ text, kind char := by
  induction regex generalizing text with
  | run member least most =>
      exact fun char own => only char (accepts.1 char own)
  | seq first second left right =>
      obtain ⟨head, tail, rfl, first_part, second_part⟩ := accepts
      exact List.forall_mem_append.mpr
        ⟨left first_part only.1, right second_part only.2⟩
  | either first second left right =>
      rcases accepts with first_way | second_way
      · exact left first_way only.1
      · exact right second_way only.2
  | empty => cases accepts; exact nofun
  | behind allowed => cases accepts; exact nofun
  | ahead allowed => cases accepts; exact nofun
  | boundary word => cases accepts; exact nofun

end Regexes
