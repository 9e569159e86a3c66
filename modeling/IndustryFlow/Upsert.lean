import Mathlib.Data.List.Dedup
import Mathlib.Data.List.Perm.Basic
import Mathlib.Logic.Function.Basic

/-!
# Keyed tables, groups and pages

A table with a unique key is written by upserts: a row replaces the row with
its key.  One statement carries a page of rows and is refused when it proposes
a key twice.  A sequence of statements that is not refused leaves for each key
the last row proposed for it.
-/

namespace IndustryFlow

/-! ## Groups -/

theorem nodup_eraseDups {Item : Type} [DecidableEq Item] (items : List Item) :
    items.eraseDups.Nodup := by
  induction sized : items.length using Nat.strongRecOn
      generalizing items with
  | _ size induction =>
      cases items with
      | nil => exact List.nodup_nil
      | cons item items =>
          subst sized
          rw [List.eraseDups_cons]
          refine List.nodup_cons.mpr ⟨?_, ?_⟩
          · simp [List.mem_eraseDups]
          · refine induction _ ?_ _ rfl
            exact Nat.lt_succ_of_le (List.length_filter_le _ _)

/-- Items dealt out by group are the items of these groups. -/
theorem flatMap_filter_perm {Item Group : Type} [DecidableEq Group]
    (group : Item → Group) {groups : List Group} (distinct : groups.Nodup)
    (items : List Item) :
    (groups.flatMap fun one => items.filter (group · = one)).Perm
      (items.filter (group · ∈ groups)) := by
  induction groups with
  | nil => simp
  | cons one groups induction =>
      obtain ⟨absent, later⟩ := List.nodup_cons.mp distinct
      have own : (items.filter (group · ∈ one :: groups)).filter
          (group · = one) = items.filter (group · = one) := by
        rw [List.filter_filter]
        refine List.filter_congr fun item _ => ?_
        simp +contextual
      have others : (items.filter (group · ∈ one :: groups)).filter
          (fun item => !decide (group item = one)) =
            items.filter (group · ∈ groups) := by
        rw [List.filter_filter]
        refine List.filter_congr fun item _ => ?_
        by_cases same : group item = one
        · simp [same, absent]
        · simp [same]
      have split := List.filter_append_perm
        (fun item => decide (group item = one))
        (items.filter (group · ∈ one :: groups))
      rw [own, others] at split
      rw [List.flatMap_cons]
      exact ((induction later).append_left _).trans split

/-! ## Tables -/

abbrev Table (Key Value : Type) := Key → Option Value

section

variable {Key Value : Type} [DecidableEq Key]

def Table.put (table : Table Key Value) (row : Key × Value) :
    Table Key Value :=
  Function.update table row.1 (some row.2)

/-- The rows one after the other. -/
def Table.putAll (table : Table Key Value) (rows : List (Key × Value)) :
    Table Key Value :=
  rows.foldl Table.put table

@[simp] theorem Table.putAll_nil (table : Table Key Value) :
    table.putAll [] = table := rfl

@[simp] theorem Table.putAll_cons (table : Table Key Value)
    (row : Key × Value) (rows : List (Key × Value)) :
    table.putAll (row :: rows) = (table.put row).putAll rows := rfl

theorem Table.putAll_append (table : Table Key Value)
    (rows more : List (Key × Value)) :
    table.putAll (rows ++ more) = (table.putAll rows).putAll more :=
  List.foldl_append

theorem Table.putAll_absent {table : Table Key Value}
    {rows : List (Key × Value)} {key : Key}
    (absent : key ∉ rows.map Prod.fst) :
    table.putAll rows key = table key := by
  induction rows generalizing table with
  | nil => rfl
  | cons row rows induction =>
      rw [List.map_cons, List.mem_cons, not_or] at absent
      rw [putAll_cons, induction absent.2]
      exact Function.update_of_ne absent.1 _ _

/-- A key that is proposed has one of the rows proposed for it. -/
theorem Table.putAll_mem (table : Table Key Value)
    {rows : List (Key × Value)} {key : Key}
    (proposed : key ∈ rows.map Prod.fst) :
    ∃ value, (key, value) ∈ rows ∧ table.putAll rows key = some value := by
  induction rows generalizing table with
  | nil => cases proposed
  | cons row rows induction =>
      by_cases later : key ∈ rows.map Prod.fst
      · have below : ∃ value, (key, value) ∈ rows ∧
            (table.put row).putAll rows key = some value := induction _ later
        obtain ⟨value, member, holds⟩ := below
        exact ⟨value, List.mem_cons_of_mem _ member, holds⟩
      · rw [List.map_cons, List.mem_cons] at proposed
        have own : key = row.1 := proposed.resolve_right later
        subst own
        refine ⟨row.2, List.mem_cons_self, ?_⟩
        rw [putAll_cons, putAll_absent later]
        exact Function.update_self _ _ _

/-! ## Statements -/

/-- The keys of the statements that were run, the refused one included, and
the table unless a statement was refused. -/
def runStatements (table : Table Key Value) :
    List (List (Key × Value)) →
      List (List Key) × Option (Table Key Value)
  | [] => ([], some table)
  | page :: pages =>
      if (page.map Prod.fst).Nodup then
        let rest := runStatements (table.putAll page) pages
        (page.map Prod.fst :: rest.1, rest.2)
      else ([page.map Prod.fst], none)

theorem runStatements_some {table final : Table Key Value}
    {pages : List (List (Key × Value))}
    (ran : (runStatements table pages).2 = some final) :
    final = table.putAll pages.flatten := by
  induction pages generalizing table with
  | nil =>
      cases ran
      rfl
  | cons page pages induction =>
      unfold runStatements at ran
      split at ran
      · rw [List.flatten_cons, Table.putAll_append]
        exact induction ran
      · cases ran

/-- Statements that propose no key twice are all run. -/
theorem runStatements_distinct {table : Table Key Value}
    {pages : List (List (Key × Value))}
    (distinct : ∀ page ∈ pages, (page.map Prod.fst).Nodup) :
    runStatements table pages =
      (pages.map (·.map Prod.fst), some (table.putAll pages.flatten)) := by
  induction pages generalizing table with
  | nil => rfl
  | cons page pages induction =>
      obtain ⟨own, later⟩ := List.forall_mem_cons.mp distinct
      unfold runStatements
      rw [if_pos own, induction later, List.flatten_cons,
        Table.putAll_append]
      rfl

end

/-! ## Pages -/

/-- The pages of a sequence, after the rows of the page that is open. -/
def pagesAfter {Row : Type} (size : Nat) (page : List Row) :
    List Row → List (List Row)
  | [] => if page.isEmpty then [] else [page]
  | row :: rows =>
      if page.length + 1 = size then
        (page ++ [row]) :: pagesAfter size [] rows
      else pagesAfter size (page ++ [row]) rows

theorem pagesAfter_flatten {Row : Type} (size : Nat) (page rows : List Row) :
    (pagesAfter size page rows).flatten = page ++ rows := by
  induction rows generalizing page with
  | nil =>
      unfold pagesAfter
      split
      · rename_i empty
        simp [List.isEmpty_iff.mp empty]
      · simp
  | cons row rows induction =>
      unfold pagesAfter
      split
      · simp [induction]
      · simp [induction]

end IndustryFlow
