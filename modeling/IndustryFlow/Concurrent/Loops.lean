import IndustryFlow.Concurrent.Safety

/-!
# Loops of a program

A loop over a list, and a loop over the pages of a search that another service
answers in parts.  The rules carry what is left to do through a loop, and say
what a search of pages finds while nothing it looks at changes.
-/

namespace Concurrent

/-- A part of what a search finds, with the start of the next one. -/
structure Page (Item : Type) where
  items : List Item
  next : Option Nat
deriving DecidableEq

/-- At most `size` of what is found, from where the token points. -/
def pageOf {Item : Type} (found : List Item) (size : Nat)
    (token : Option Nat) : Page Item where
  items := (found.drop (token.getD 0)).take size
  next := if token.getD 0 + size < found.length then
    some (token.getD 0 + size) else none

namespace Program

variable {Op : Type} {Reply : Op → Type} {Error Answer Item Found : Type}
variable {Shared Choice : Type}

def each (body : Item → Program Op Reply Error Unit) :
    List Item → Program Op Reply Error Unit
  | [] => .done ()
  | item :: items => body item >>= fun _ => each body items

/-- All pages from `token` on, for so many requests. -/
def pages (hang : Program Op Reply Error (List Found))
    (fetch : Option Nat → Program Op Reply Error (Page Item))
    (select : Item → Option Found) : Nat → Option Nat →
      Program Op Reply Error (List Found)
  | 0, _ => hang
  | rounds + 1, token => fetch token >>= fun page =>
      match page.next with
      | none => .done (page.items.filterMap select)
      | some next => pages hang fetch select rounds (some next) >>=
          fun rest => .done (page.items.filterMap select ++ rest)

variable {exec : Shared → (op : Op) → Choice → Option (Reply op × Shared)}
variable {contract : Contract Shared Op Choice}

/-- What is left to do before the first item is done after the last. -/
theorem Safe.each {body : Item → Program Op Reply Error Unit}
    {left : List Item → Shared → Prop}
    (one : ∀ item items shared, contract.invariant shared →
      left (item :: items) shared →
        (body item).Safe exec contract
          (fun result later => result = .ok () → left items later) shared)
    {items : List Item} {shared : Shared}
    (holds : contract.invariant shared) (starts : left items shared)
    (stable : ∀ {before after}, contract.rely before after →
      left [] before → left [] after) :
    (each body items).Safe exec contract
      (fun result later => result = .ok () → left [] later) shared := by
  induction items generalizing shared with
  | nil =>
      intro later _ changed _
      exact stable changed starts
  | cons item items induction =>
      apply (one item items shared holds starts).bind holds
      · intro answer later kept done
        exact induction kept (done rfl)
      · intro error later _ impossible
        cases impossible

theorem pageOf_rest {found : List Item} {size : Nat} {token : Option Nat}
    {next : Nat} (more : (pageOf found size token).next = some next) :
    (pageOf found size token).items ++ found.drop next =
      found.drop (token.getD 0) := by
  simp only [pageOf] at more
  split at more
  · cases more
    have same := List.take_append_drop size (found.drop (token.getD 0))
    rw [List.drop_drop] at same
    exact same
  · cases more

theorem pageOf_last {found : List Item} {size : Nat} {token : Option Nat}
    (last : (pageOf found size token).next = none) :
    (pageOf found size token).items = found.drop (token.getD 0) := by
  simp only [pageOf] at last
  split at last
  · cases last
  · apply List.take_of_length_le
    rw [List.length_drop]
    omega

/-- A search answers with what there is to find, where what the others do
leaves that as it is. -/
theorem Safe.pages {hang : Program Op Reply Error (List Found)}
    {fetch : Option Nat → Program Op Reply Error (Page Item)}
    {select : Item → Option Found} {found : Shared → List Item} (size : Nat)
    {sought : Shared → Prop}
    (stable : ∀ {before after}, sought before →
      contract.rely before after → sought after ∧ found after = found before)
    (fetches : ∀ token shared, contract.invariant shared → sought shared →
      (fetch token).Safe exec contract (fun result later =>
        contract.rely shared later ∧ ∀ page, result = .ok page →
          page = pageOf (found later) size token) shared)
    (hangs : ∀ shared, contract.invariant shared →
      hang.Safe exec contract (fun _ _ => False) shared)
    (rounds : Nat) (token : Option Nat) {shared : Shared}
    (holds : contract.invariant shared) (seeks : sought shared) :
    (pages hang fetch select rounds token).Safe exec contract
      (fun result later => contract.rely shared later ∧
        ∀ answer, result = .ok answer → answer =
          ((found later).drop (token.getD 0)).filterMap select) shared := by
  induction rounds generalizing token shared with
  | zero => exact (hangs shared holds).mono fun _ _ _ never => never.elim
  | succ rounds induction =>
      apply (fetches token shared holds seeks).bind holds
      · intro page later kept ⟨within, known⟩
        obtain rfl := known page rfl
        have seeking := (stable seeks within).1
        split
        · rename_i last
          intro final _ changed
          refine ⟨contract.rely_trans within changed, fun answer same => ?_⟩
          cases same
          rw [pageOf_last last, (stable seeking changed).2]
        · rename_i next more
          apply (induction (some next) kept seeking).bind kept
          · intro rest middle _ ⟨between, collected⟩
            obtain rfl := collected rest rfl
            have known := stable seeking between
            intro final _ changed
            refine ⟨contract.rely_trans within
              (contract.rely_trans between changed), fun answer same => ?_⟩
            cases same
            rw [← List.filterMap_append, known.2, Option.getD_some,
              pageOf_rest more, (stable known.1 changed).2, known.2]
          · intro error final ⟨between, _⟩
            exact ⟨contract.rely_trans within between, nofun⟩
      · intro error later ⟨within, _⟩
        exact ⟨within, nofun⟩

end Program

end Concurrent
