import Mathlib.Data.List.Basic
import Mathlib.Data.List.Forall2

/-!
# Actions that may fail

A sequence of actions succeeds exactly when each of them does, and a check
exactly when its condition holds.
-/

namespace IndustryFlow

variable {Error First Second : Type}

theorem bind_ok_iff {action : Except Error First}
    {continuation : First → Except Error Second} {result : Second} :
    action >>= continuation = .ok result ↔
      ∃ answer, action = .ok answer ∧ continuation answer = .ok result := by
  cases action with
  | error raised => simp [bind, Except.bind]
  | ok answer => simp [bind, Except.bind]

theorem bind_error_iff {action : Except Error First}
    {continuation : First → Except Error Second} {raised : Error} :
    action >>= continuation = .error raised ↔
      action = .error raised ∨
        ∃ answer, action = .ok answer ∧
          continuation answer = .error raised := by
  cases action with
  | error first => simp [bind, Except.bind]
  | ok answer => simp [bind, Except.bind]

/-- A text that is there and not empty. -/
def given? : Option String → Option String
  | none | some "" => none
  | some text => some text

theorem given?_some {text : String} (present : text ≠ "") :
    given? (some text) = some text := by
  unfold given?
  split
  · rename_i never
    cases never
  · rename_i empty
    exact absurd (Option.some.inj empty) present
  · rename_i same
    rw [Option.some.inj same]

/-- A text that was encoded is decoded. -/
theorem fromUTF8?_toUTF8 (text : String) :
    String.fromUTF8? text.toUTF8 = some text := by
  have valid : text.toUTF8.IsValidUTF8 := text.isValidUTF8
  rw [String.fromUTF8?, dif_pos valid]
  rfl

theorem exists_ok {f : Except Error First} (succeeds : f.isOk = true) :
    ∃ answer, f = .ok answer := by
  cases f with
  | error raised => cases succeeds
  | ok answer => exact ⟨answer, rfl⟩

/-- A check, and then the rest. -/
theorem check_ok_iff {condition : Prop} [Decidable condition] {raised : Error}
    {skipped : First → Except Error Second} {rest : Except Error Second}
    {result : Second} :
    (if condition then throw raised >>= skipped else rest) = .ok result ↔
      ¬condition ∧ rest = .ok result := by
  by_cases holds : condition
  · simp [holds, bind, Except.bind, throw, throwThe, MonadExceptOf.throw]
  · simp [holds]

/-- An action that is taken only under a condition, and then the rest. -/
theorem when_ok_iff {condition : Prop} [Decidable condition]
    {action : Except Error Unit} {rest : Unit → Except Error Second}
    {result : Second} :
    (if condition then action >>= rest else rest ()) = .ok result ↔
      (condition → action = .ok ()) ∧ rest () = .ok result := by
  by_cases holds : condition
  · simp only [holds, if_true, true_implies, bind_ok_iff]
    constructor
    · rintro ⟨⟨⟩, taken, ended⟩
      exact ⟨taken, ended⟩
    · rintro ⟨taken, ended⟩
      exact ⟨(), taken, ended⟩
  · simp [holds]

theorem mapM_cons_ok_iff {action : First → Except Error Second}
    {item : First} {items : List First} {answers : List Second} :
    (item :: items).mapM action = .ok answers ↔
      ∃ answer rest, action item = .ok answer ∧
        items.mapM action = .ok rest ∧ answers = answer :: rest := by
  rw [List.mapM_cons]
  cases action item with
  | error raised => simp [bind, Except.bind]
  | ok answer =>
      cases items.mapM action with
      | error raised => simp [bind, Except.bind]
      | ok rest =>
          simp [bind, Except.bind, pure, Except.pure, eq_comm]

theorem mapM_ok_iff {action : First → Except Error Second}
    {items : List First} {answers : List Second} :
    items.mapM action = .ok answers ↔
      List.Forall₂ (fun item answer => action item = .ok answer) items
        answers := by
  induction items generalizing answers with
  | nil =>
      rw [List.mapM_nil, List.forall₂_nil_left_iff]
      exact ⟨fun same => (Except.ok.inj same).symm, fun same => same ▸ rfl⟩
  | cons item items induction =>
      rw [mapM_cons_ok_iff, List.forall₂_cons_left_iff]
      constructor
      · rintro ⟨answer, rest, head, tail, rfl⟩
        exact ⟨answer, rest, head, induction.mp tail, rfl⟩
      · rintro ⟨answer, rest, head, tail, rfl⟩
        exact ⟨answer, rest, head, induction.mpr tail, rfl⟩

/-- A second map answers the same exactly if its actions do. -/
theorem mapM_same_iff {action other : First → Except Error Second}
    {items : List First} {answers : List Second}
    (mapped : items.mapM action = .ok answers) :
    items.mapM other = .ok answers ↔
      ∀ item ∈ items, other item = action item := by
  induction items generalizing answers with
  | nil =>
      cases mapped
      exact iff_of_true rfl nofun
  | cons item items induction =>
      obtain ⟨answer, rest, head, tail, rfl⟩ := mapM_cons_ok_iff.mp mapped
      rw [List.forall_mem_cons, ← induction tail, mapM_cons_ok_iff, head]
      constructor
      · rintro ⟨first, others, same, again, is⟩
        cases is
        exact ⟨same, again⟩
      · rintro ⟨same, again⟩
        exact ⟨answer, rest, same, again, rfl⟩

/-- Every item has its answer among those of a map that returned. -/
theorem mapM_mem {action : First → Except Error Second}
    {items : List First} {answers : List Second} {item : First}
    (mapped : items.mapM action = .ok answers) (member : item ∈ items) :
    ∃ answer ∈ answers, action item = .ok answer := by
  induction items generalizing answers with
  | nil => cases member
  | cons first items induction =>
      obtain ⟨answer, rest, head, tail, rfl⟩ := mapM_cons_ok_iff.mp mapped
      rcases List.mem_cons.mp member with rfl | later
      · exact ⟨answer, List.mem_cons_self, head⟩
      · obtain ⟨found, inside, done⟩ := induction tail later
        exact ⟨found, List.mem_cons_of_mem _ inside, done⟩

/-- Every answer of a map that returned is one of its items'. -/
theorem mapM_answer {action : First → Except Error Second}
    {items : List First} {answers : List Second} {answer : Second}
    (mapped : items.mapM action = .ok answers) (member : answer ∈ answers) :
    ∃ item ∈ items, action item = .ok answer := by
  induction items generalizing answers with
  | nil =>
      cases mapped
      cases member
  | cons first items induction =>
      obtain ⟨head, rest, done, tail, rfl⟩ := mapM_cons_ok_iff.mp mapped
      rcases List.mem_cons.mp member with rfl | later
      · exact ⟨first, List.mem_cons_self, done⟩
      · obtain ⟨item, inside, found⟩ := induction tail later
        exact ⟨item, List.mem_cons_of_mem _ inside, found⟩

/-- A map with an item that fails: what it raises is that item's, or an
earlier one's. -/
theorem mapM_error {action : First → Except Error Second} {item : First}
    {raised : Error} (before after : List First)
    (fails : action item = .error raised) :
    ∃ error, (before ++ item :: after).mapM action = .error error ∧
      (error = raised ∨ ∃ earlier ∈ before, action earlier = .error error) := by
  induction before with
  | nil =>
      refine ⟨raised, ?_, .inl rfl⟩
      rw [List.nil_append, List.mapM_cons, fails]
      rfl
  | cons first before induction =>
      rw [List.cons_append, List.mapM_cons]
      cases head : action first with
      | error other =>
          exact ⟨other, rfl, .inr ⟨first, List.mem_cons_self, head⟩⟩
      | ok answer =>
          obtain ⟨error, mapped, origin⟩ := induction
          refine ⟨error, ?_, ?_⟩
          · rw [mapped]
            rfl
          · rcases origin with same | ⟨earlier, member, raises⟩
            · exact .inl same
            · exact .inr ⟨earlier, List.mem_cons_of_mem _ member, raises⟩

theorem forM_ok_iff {check : First → Except Error Unit}
    {items : List First} :
    items.forM check = .ok () ↔ ∀ item ∈ items, check item = .ok () := by
  induction items with
  | nil => simp [List.forM_nil, pure, Except.pure]
  | cons first items induction =>
      have both : (first :: items).forM check =
          (check first >>= fun _ => items.forM check) := rfl
      rw [both, bind_ok_iff, List.forall_mem_cons, ← induction]
      constructor
      · rintro ⟨⟨⟩, passes, later⟩
        exact ⟨passes, later⟩
      · rintro ⟨passes, later⟩
        exact ⟨(), passes, later⟩

/-- A map all of whose items succeed. -/
theorem mapM_ok {action : First → Except Error Second}
    {answer : First → Second} {items : List First}
    (all : ∀ item ∈ items, action item = .ok (answer item)) :
    items.mapM action = .ok (items.map answer) := by
  induction items with
  | nil => rfl
  | cons item items induction =>
      obtain ⟨head, tail⟩ := List.forall_mem_cons.mp all
      exact mapM_cons_ok_iff.mpr ⟨_, _, head, induction tail, rfl⟩

/-- A map that pairs its items with their answers can be looked up in. -/
theorem mapM_lookup [BEq First] [LawfulBEq First]
    {action : First → Except Error (First × Second)}
    (keyed : ∀ item answer, action item = .ok answer → answer.1 = item)
    {items : List First} {answers : List (First × Second)} {item : First}
    (mapped : items.mapM action = .ok answers) (member : item ∈ items) :
    ∃ answer, answers.lookup item = some answer ∧
      action item = .ok (item, answer) := by
  induction items generalizing answers with
  | nil => cases member
  | cons first items induction =>
      obtain ⟨⟨key, answer⟩, rest, head, tail, rfl⟩ :=
        mapM_cons_ok_iff.mp mapped
      have same : key = first := keyed first _ head
      subst same
      by_cases own : item = key
      · subst own
        exact ⟨answer, by simp, head⟩
      · have later := (List.mem_cons.mp member).resolve_left own
        obtain ⟨found, looked, done⟩ := induction tail later
        refine ⟨found, ?_, done⟩
        rw [List.lookup_cons, beq_false_of_ne own]
        exact looked

end IndustryFlow
