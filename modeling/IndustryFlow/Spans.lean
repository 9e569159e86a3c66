import Mathlib.Data.List.Infix

/-!
# Spans that keep apart

Where a list holds a part in one place and a span in another, the two keep
apart if what bounds the one does not occur in the other.  A list that is put
together from parts then holds the span among the parts that are one item
long.
-/

namespace Spans

variable {Item : Type}

/-- Wherever the part stands in the list, it ends before the span or begins
after it. -/
def Apart (part before span after : List Item) : Prop :=
  ∀ left right, before ++ span ++ after = left ++ part ++ right →
    left.length + part.length ≤ before.length ∨
      before.length + span.length ≤ left.length

section

variable {part before span after : List Item} {first last : Item}

end

/-- What keeps apart in a list keeps apart in the end of it. -/
theorem Apart.suffix {part outer before span after : List Item}
    (apart : Apart part (outer ++ before) span after) :
    Apart part before span after := by
  intro left right same
  have whole := apart (outer ++ left) right (by
    simp only [List.append_assoc] at same ⊢
    rw [same])
  rw [List.length_append, List.length_append] at whole
  omega

/-- What keeps apart from a span keeps apart from the end of it. -/
theorem Apart.shrink {part before span after : List Item} {item : Item}
    (apart : Apart part before (item :: span) after) :
    Apart part (before ++ [item]) span after := by
  intro left right same
  have whole := apart left right (by
    simp only [List.append_assoc, List.cons_append, List.nil_append] at same ⊢
    exact same)
  simp only [List.length_append, List.length_cons, List.length_nil] at whole ⊢
  omega

section

variable {Token : Type} {shown : Token → List Item} {short : Item → Token}

/-- A token of one item, or one that keeps apart from the span. -/
def Clear (shown : Token → List Item) (short : Item → Token)
    (before span after : List Item) (token : Token) : Prop :=
  (∃ item, token = short item) ∨
    shown token ≠ [] ∧ Apart (shown token) before span after

theorem aligned_start (one : ∀ item, shown (short item) = [item])
    {span after : List Item} (tokens : List Token)
    (same : tokens.flatMap shown = span ++ after)
    (clear : ∀ token ∈ tokens, Clear shown short [] span after token) :
    ∃ last, tokens = span.map short ++ last ∧ last.flatMap shown = after := by
  induction span generalizing tokens with
  | nil => exact ⟨tokens, rfl, same⟩
  | cons item span induction =>
      cases tokens with
      | nil => cases same
      | cons token tokens =>
          obtain ⟨first, others⟩ := List.forall_mem_cons.mp clear
          rw [List.flatMap_cons] at same
          rcases first with ⟨own, rfl⟩ | ⟨nonempty, apart⟩
          · rw [one] at same
            obtain ⟨rfl, rest⟩ := List.cons.inj same
            obtain ⟨last, parts, shows⟩ := induction tokens rest
              fun token member => (others token member).imp_right
                fun kept => ⟨kept.1, @Apart.suffix _ _ [own] [] _ _
                  kept.2.shrink⟩
            exact ⟨last, by rw [parts]; rfl, shows⟩
          · have whole := apart [] (tokens.flatMap shown) same.symm
            have some_item := List.length_pos_of_ne_nil nonempty
            simp only [List.length_nil, List.length_cons] at whole
            omega

/-- A list of tokens shows a span.  If every token is of one item or keeps
apart from the span, the span is shown by tokens of one item. -/
theorem aligned (one : ∀ item, shown (short item) = [item])
    {before span after : List Item} (tokens : List Token)
    (same : tokens.flatMap shown = before ++ span ++ after)
    (some_item : span ≠ [])
    (clear : ∀ token ∈ tokens, Clear shown short before span after token) :
    ∃ first last, tokens = first ++ span.map short ++ last ∧
      first.flatMap shown = before ∧ last.flatMap shown = after := by
  induction tokens generalizing before with
  | nil =>
      have lengths := congrArg List.length same
      have longer := List.length_pos_of_ne_nil some_item
      simp only [List.flatMap_nil, List.length_nil, List.length_append]
        at lengths
      omega
  | cons token tokens induction =>
      by_cases start : before = []
      · subst start
        obtain ⟨last, parts, shows⟩ := aligned_start one _ same clear
        exact ⟨[], last, parts, rfl, shows⟩
      · obtain ⟨first, others⟩ := List.forall_mem_cons.mp clear
        rw [List.flatMap_cons] at same
        -- the first token shows the start of what stands before the span
        have shown_before : shown token <+: before := by
          have whole : shown token <+: before ++ span ++ after :=
            same ▸ List.prefix_append _ _
          refine List.prefix_of_prefix_length_le whole ?_ ?_
          · rw [List.append_assoc]
            exact List.prefix_append _ _
          · rcases first with ⟨own, rfl⟩ | ⟨nonempty, apart⟩
            · rw [one]
              exact List.length_pos_of_ne_nil start
            · have whole := apart [] (tokens.flatMap shown) same.symm
              have longer := List.length_pos_of_ne_nil some_item
              simp only [List.length_nil] at whole
              omega
        obtain ⟨rest, rfl⟩ := shown_before
        rw [List.append_assoc, List.append_assoc,
          List.append_cancel_left_eq, ← List.append_assoc] at same
        obtain ⟨parts, last, split, shows, ends⟩ := induction same
          fun token member => (others token member).imp_right
            fun kept => ⟨kept.1, kept.2.suffix⟩
        refine ⟨token :: parts, last, ?_, ?_, ends⟩
        · rw [split]
          rfl
        · rw [List.flatMap_cons, shows]

end

end Spans
