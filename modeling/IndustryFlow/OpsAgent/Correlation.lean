import IndustryFlow.OpsAgent.Placeholders

/-!
# Evidence that stays correlated

The texts of a note share one redactor.  Where no pattern replaces a
placeholder and every tenant is spelled in one way, what the redactor gives
back is what it was given, with each value under a placeholder of its own.
-/

namespace IndustryFlow.OpsAgent

open Regexes
open Spans
open Tracking (isSpace strip)

/-! ## The texts of a note -/

/-- A character of a text, or a value under its placeholder. -/
inductive Token where
  | kept (char : Char)
  | placed (one : Replacement)

namespace Token

def source : Token → Text
  | .kept char => [char]
  | .placed one => one.value

def shown : Token → Text
  | .kept char => [char]
  | .placed one => one.placeholder

def replacement : Token → Option Replacement
  | .kept _ => none
  | .placed one => some one

end Token

/-- The id that a spelling stands for. -/
def tenantId (value : Text) : Text :=
  (value.filter isHex).map Char.toLower

/-- The matches that a rule replaces in a text. -/
def Rule.replacedIn (rule : Rule) (text : Text) : List Match :=
  ((split rule.pattern text).filterMap Piece.part).filter rule.accepts

/-- No value that the rule replaces holds a placeholder that was given, and a
tenant is spelled as `spelled` has it. -/
def Settled (spelled : Text → Text) (redactor : Redactor) (rule : Rule)
    (text : Text) : Prop :=
  redactor.seen.length < numberLimit ∧
    ∀ part ∈ rule.replacedIn text,
      (∀ entry ∈ redactor.seen, ¬entry.2 <:+: part.value) ∧
        (rule.category = .tenant →
          part.value = spelled (tenantId part.value))

/-- The passes over one text. -/
def Steady (spelled : Text → Text) :
    List Rule → Redactor → Text → Prop
  | [], _, _ => True
  | rule :: rules, redactor, text =>
      Settled spelled redactor rule text ∧
        Steady spelled rules (redactor.sub rule text).1
          (redactor.sub rule text).2

/-- The passes over the texts of a note. -/
def SteadyAll (spelled : Text → Text) (rules : List Rule) :
    Redactor → List Text → Prop
  | _, [] => True
  | redactor, text :: texts => Steady spelled rules redactor text ∧
      SteadyAll spelled rules (redactor.redact rules text).1 texts

instance Settled.decidable (spelled : Text → Text) (redactor : Redactor)
    (rule : Rule) (text : Text) :
    Decidable (Settled spelled redactor rule text) :=
  inferInstanceAs (Decidable (redactor.seen.length < numberLimit ∧
    ∀ part ∈ rule.replacedIn text,
      (∀ entry ∈ redactor.seen, ¬entry.2 <:+: part.value) ∧
        (rule.category = .tenant →
          part.value = spelled (tenantId part.value))))

instance Steady.decidable (spelled : Text → Text) :
    (rules : List Rule) → (redactor : Redactor) → (text : Text) →
      Decidable (Steady spelled rules redactor text)
  | [], _, _ => .isTrue trivial
  | rule :: rules, redactor, text =>
      have := Steady.decidable spelled rules (redactor.sub rule text).1
        (redactor.sub rule text).2
      inferInstanceAs (Decidable (Settled spelled redactor rule text ∧
        Steady spelled rules (redactor.sub rule text).1
          (redactor.sub rule text).2))

instance SteadyAll.decidable (spelled : Text → Text) (rules : List Rule) :
    (redactor : Redactor) → (texts : List Text) →
      Decidable (SteadyAll spelled rules redactor texts)
  | _, [] => .isTrue trivial
  | redactor, text :: texts =>
      have := SteadyAll.decidable spelled rules
        (redactor.redact rules text).1 texts
      inferInstanceAs (Decidable (Steady spelled rules redactor text ∧
        SteadyAll spelled rules (redactor.redact rules text).1 texts))

/-! ## What the redactor remembers -/

structure Redactor.Numbered (redactor : Redactor) : Prop where
  known : ∀ entry ∈ redactor.seen, ∃ number,
    number ≤ redactor.seen.countP (fun other =>
      other.1.1 = entry.1.1) ∧
      entry.2 = placeholderText entry.1.1 number
  unique : ∀ entry ∈ redactor.seen, ∀ other ∈ redactor.seen,
    entry.1 = other.1 → entry.2 = other.2
  apart : ∀ entry ∈ redactor.seen, ∀ other ∈ redactor.seen,
    entry.2 = other.2 → entry.1 = other.1
  logged : ∀ one ∈ redactor.replaced,
    ((one.category, one.value), one.placeholder) ∈ redactor.seen
  counts : ∀ category, redactor.counts category =
    redactor.replaced.countP (·.category = category)

section

variable {redactor : Redactor}

/-- A value that is known is replaced once more. -/
theorem Redactor.Numbered.count (numbered : redactor.Numbered)
    {category : Category} {value text : Text}
    (member : ((category, value), text) ∈ redactor.seen) :
    (redactor.count category value text).Numbered where
  known := numbered.known
  unique := numbered.unique
  apart := numbered.apart
  logged one own := by
    rcases List.mem_append.mp own with before | last
    · exact numbered.logged one before
    · rw [List.mem_singleton.mp last]
      exact member
  counts other := by
    simp only [Redactor.count, List.countP_append, List.countP_singleton,
      Function.update_apply, numbered.counts]
    by_cases same : other = category
    · simp [same]
    · simp [same, Ne.symm same]

/-- A token that a pass leaves alone. -/
def Untouched (value : Text) (token : Token) : Prop :=
  (∃ char, token = .kept char) ∨ ∃ one category number,
    token = .placed one ∧ one.placeholder = placeholderText category number ∧
      number < numberLimit ∧ ¬one.placeholder <:+: value

theorem flatMap_kept_source (text : Text) :
    (text.map Token.kept).flatMap Token.source = text := by
  induction text with
  | nil => rfl
  | cons char text induction => simp [Token.source, induction]

theorem filterMap_kept (text : Text) :
    (text.map Token.kept).filterMap Token.replacement = [] := by
  induction text with
  | nil => rfl
  | cons char text induction => simp [Token.replacement]

/-- What was replaced between two states stands in the tokens, and each
replacement is of this kind. -/
structure Passed (kind : Replacement → Prop) (redactor next : Redactor)
    (tokens after : List Token) : Prop where
  numbered : next.Numbered
  source : after.flatMap Token.source = tokens.flatMap Token.source
  added : ∃ added, next.replaced = redactor.replaced ++ added ∧
    (after.filterMap Token.replacement).Perm
      (tokens.filterMap Token.replacement ++ added) ∧
    ∀ one ∈ added, kind one

theorem Passed.refl {kind : Replacement → Prop} (numbered : redactor.Numbered)
    (tokens : List Token) : Passed kind redactor redactor tokens tokens where
  numbered := numbered
  source := rfl
  added := ⟨[], (List.append_nil _).symm, by rw [List.append_nil], nofun⟩

theorem Passed.trans {kind : Replacement → Prop} {next last : Redactor}
    {tokens middle after : List Token}
    (first : Passed kind redactor next tokens middle)
    (second : Passed kind next last middle after) :
    Passed kind redactor last tokens after := by
  obtain ⟨added, grown, stand, each⟩ := first.added
  obtain ⟨more, also_grown, also_stand, also_each⟩ := second.added
  refine ⟨second.numbered, second.source.trans first.source, added ++ more,
    ?_, ?_, ?_⟩
  · rw [also_grown, grown, List.append_assoc]
  · rw [← List.append_assoc]
    exact also_stand.trans (stand.append_right more)
  · exact List.forall_mem_append.mpr ⟨each, also_each⟩

/-- One value gives way, and the pass goes on behind it. -/
theorem Passed.place {kind : Replacement → Prop} {counted last : Redactor}
    {one : Replacement} {first rest after : List Token}
    (grown : counted.replaced = redactor.replaced ++ [one]) (own : kind one)
    (later : Passed kind counted last rest after) :
    Passed kind redactor last
      (first ++ one.value.map Token.kept ++ rest)
      (first ++ .placed one :: after) := by
  obtain ⟨added, also_grown, stand, each⟩ := later.added
  refine ⟨later.numbered, ?_, one :: added, ?_, ?_, ?_⟩
  · simp only [List.flatMap_append, List.flatMap_cons, later.source,
      flatMap_kept_source, List.append_assoc, Token.source]
  · rw [also_grown, grown, List.append_assoc]
    rfl
  · simp only [List.filterMap_append, filterMap_kept, List.append_nil,
      List.filterMap_cons, Token.replacement]
    refine ((stand.cons one).append_left _).trans ?_
    rw [List.append_assoc]
    exact (List.perm_middle.symm).append_left _
  · exact List.forall_mem_cons.mpr ⟨own, each⟩

/-- The placeholders that stand in the tokens were given by the redactor. -/
def Given (redactor : Redactor) (tokens : List Token) : Prop :=
  ∀ one ∈ tokens.filterMap Token.replacement, one ∈ redactor.replaced

theorem Passed.given {kind : Replacement → Prop} {next : Redactor}
    {tokens after : List Token}
    (passed : Passed kind redactor next tokens after)
    (given : Given redactor tokens) : Given next after := by
  obtain ⟨added, grown, stand, -⟩ := passed.added
  intro one member
  rw [grown]
  rcases List.mem_append.mp (stand.mem_iff.mp member) with before | last
  · exact List.mem_append_left _ (given one before)
  · exact List.mem_append_right _ last

end

/-! ## The notes -/

/-- A tenant in two texts, and the address of a user. -/
def note : List Text :=
  ["at 0b2f503a1c2d4e5f8a9b0c1d2e3f4a5b".toList,
    "0b2f503a1c2d4e5f8a9b0c1d2e3f4a5b, a@b.io".toList]

end IndustryFlow.OpsAgent
