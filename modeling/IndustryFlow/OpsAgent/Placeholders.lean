import IndustryFlow.OpsAgent.Prompt
import IndustryFlow.Spans
import Mathlib.Algebra.Group.Nat.Defs

/-!
# Placeholders that stay

A later pattern runs over a text that holds the placeholders of the earlier
ones.  What stands around a value, or in it, keeps every pattern away from
them, except where a quoted value or the password of a URL holds one.
-/

namespace IndustryFlow.OpsAgent

open Regexes
open Spans
open Tracking (isSpace strip)

/-! ## The characters of a placeholder -/

/-- No placeholder holds the character. -/
def Foreign (char : Char) : Prop :=
  ∀ category number, char ∉ placeholderText category number

/-- Numbers of so many digits are not the value of a pattern. -/
def numberLimit : Nat := 10 ^ 30

/-! ## What keeps a pattern away -/

/-- Neither a blank nor the end of a placeholder. -/
def Solid (char : Char) : Prop :=
  isSpace char = false ∧ char ≠ '<' ∧ char ≠ '>'

instance Solid.decidable (char : Char) : Decidable (Solid char) :=
  inferInstanceAs
    (Decidable (isSpace char = false ∧ char ≠ '<' ∧ char ≠ '>'))

/-- Whatever is consumed holds what no placeholder holds. -/
def Holds (regex : Regex) : Prop :=
  ∀ text, Accepts regex text → ∃ char ∈ text, Foreign char

end IndustryFlow.OpsAgent
