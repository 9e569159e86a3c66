import Mathlib.Data.List.Basic

/-!
# Words of a text

The words of a text are its longest parts without a blank.  A text that is put
together from words, each with one blank after it, has these words.
-/

namespace Words

/-- A name for the instance, for definitions that look for a text among
others. -/
theorem lawful_list {Item : Type} [DecidableEq Item] :
    LawfulBEq (List Item) :=
  inferInstance

/-- A space, a tab or a line break. -/
def isBlank (char : Char) : Bool :=
  char = ' ' || char = '\t' || char = '\n'

/-- A text that is one word. -/
structure IsWord (text : String) : Prop where
  nonempty : text.toList ≠ []
  solid : ∀ char ∈ text.toList, isBlank char = false

/-- The words of a text, as the fields that `awk` splits a line into. -/
def words (text : List Char) : List String :=
  ((text.splitOnP isBlank).filter (· ≠ [])).map String.ofList

@[simp] theorem words_nil : words [] = [] := rfl

theorem words_word {text : String} (word : IsWord text) :
    words text.toList = [text] := by
  rw [words, List.splitOnP_eq_singleton word.solid]
  simp [word.nonempty]

theorem words_cons {text : String} (word : IsWord text) (rest : List Char) :
    words (text.toList ++ ' ' :: rest) = text :: words rest := by
  rw [words, List.splitOnP_append_cons_of_forall_mem word.solid ' ' rfl]
  simp [words, word.nonempty]

/-- Two words with a blank between them. -/
theorem words_pair {first second : String} (left : IsWord first)
    (right : IsWord second) :
    words (first.toList ++ ' ' :: second.toList) = [first, second] := by
  rw [words_cons left, words_word right]

/-- Words with a blank after each. -/
theorem words_spaced {texts : List String}
    (each : ∀ text ∈ texts, IsWord text) :
    words (texts.flatMap fun text => text.toList ++ [' ']) = texts := by
  induction texts with
  | nil => rfl
  | cons text texts induction =>
      obtain ⟨word, others⟩ := List.forall_mem_cons.mp each
      rw [List.flatMap_cons, List.append_assoc, List.singleton_append,
        words_cons word, induction others]

end Words
