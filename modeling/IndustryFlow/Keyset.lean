import Mathlib.Data.List.Sort

/-!
# Paging by the last key

A reader takes the newest rows of a table, so many at a time, and each time
those older than the last one it has.  Rows come and go between two pages.
What it has found comes newest first and no key twice, and when a page falls
short it has every row that was there all along.
-/

namespace Keyset

variable {Row : Type} (key : Row → Nat)

/-- `before IS NULL OR key < before`. -/
def older (before : Option Nat) (row : Row) : Bool :=
  before.all (key row < ·)

/-- `… ORDER BY key DESC`. -/
def newestFirst (rows : List Row) : List Row :=
  rows.insertionSort fun first second => key second ≤ key first

/-- `… LIMIT limit`, of the rows older than `before`. -/
def page (limit : Nat) (before : Option Nat) (rows : List Row) : List Row :=
  (newestFirst key (rows.filter (older key before))).take limit

/-- What the next page has to be older than. -/
def next (before : Option Nat) (found : List Row) : Option Nat :=
  (found.getLast?.map key).or before

/-- The order of a page, which is strict as no two rows have one key. -/
def Newer (first second : Row) : Prop :=
  key second < key first

/-- What the pages so far have in them: `always` are the rows that have been
there in each of them, `ever` those that were in one. -/
structure Walked (always ever : Row → Prop) (before : Option Nat)
    (found : List Row) : Prop where
  sorted : found.Pairwise (Newer key)
  above : ∀ row ∈ found, older key before row = false
  within : ∀ row ∈ found, ever row
  covers : ∀ row, always row → older key before row = false → row ∈ found

section

variable {key}

theorem older_some {bound : Nat} {row : Row} :
    older key (some bound) row = true ↔ key row < bound := by
  rw [older, Option.all_some, decide_eq_true_eq]

theorem not_older_some {bound : Nat} {row : Row} :
    older key (some bound) row = false ↔ bound ≤ key row := by
  rw [← Bool.not_eq_true, older_some, Nat.not_lt]

theorem mem_newestFirst {rows : List Row} {row : Row} :
    row ∈ newestFirst key rows ↔ row ∈ rows :=
  (List.perm_insertionSort _ rows).mem_iff

theorem newestFirst_sorted {rows : List Row} (distinct : (rows.map key).Nodup) :
    (newestFirst key rows).Pairwise (Newer key) := by
  have ordered : (newestFirst key rows).Pairwise
      fun first second => key second ≤ key first := by
    have : Std.Total fun first second : Row => key second ≤ key first :=
      ⟨fun first second => Nat.le_total (key second) (key first)⟩
    have : IsTrans Row fun first second => key second ≤ key first :=
      ⟨fun _ _ _ left right => Nat.le_trans right left⟩
    exact List.pairwise_insertionSort _ rows
  have perm := (List.perm_insertionSort
    (fun first second : Row => key second ≤ key first) rows).map key
  have apart : ((newestFirst key rows).map key).Nodup :=
    perm.nodup_iff.mpr distinct
  have different := List.pairwise_map.mp apart
  exact (ordered.and different).imp fun both =>
    Nat.lt_of_le_of_ne both.1 both.2.symm

/-- The last of what is sorted is the oldest. -/
theorem newer_last {found : List Row} {last row : Row}
    (sorted : found.Pairwise (Newer key)) (ends : found.getLast? = some last)
    (member : row ∈ found) : key last ≤ key row := by
  obtain ⟨front, rfl⟩ := List.getLast?_eq_some_iff.mp ends
  rcases List.mem_append.mp member with inside | same
  · have before := (List.pairwise_append.mp sorted).2.2 row inside last
      (List.mem_singleton.mpr rfl)
    exact Nat.le_of_lt before
  · cases List.mem_singleton.mp same
    exact Nat.le_refl _

variable {always ever : Row → Prop} {before : Option Nat} {found : List Row}

theorem Walked.start : Walked key always ever none [] where
  sorted := List.Pairwise.nil
  above := by
    intro row member
    cases member
  within := by
    intro row member
    cases member
  covers := by
    intro row _ never
    cases never

/-- Rows have come and gone. -/
theorem Walked.mono {still known : Row → Prop}
    (walked : Walked key always ever before found)
    (fewer : ∀ row, still row → always row)
    (more : ∀ row, ever row → known row) :
    Walked key still known before found where
  sorted := walked.sorted
  above := walked.above
  within row member := more row (walked.within row member)
  covers row there := walked.covers row (fewer row there)

theorem mem_page {limit : Nat} {rows : List Row} {row : Row}
    (member : row ∈ page key limit before rows) :
    row ∈ rows ∧ older key before row = true :=
  List.mem_filter.mp (mem_newestFirst.mp (List.mem_of_mem_take member))

/-- What of a table a page leaves out is older than what is in it. -/
theorem page_rest {limit : Nat} {rows : List Row} {row : Row}
    (distinct : (rows.map key).Nodup) (member : row ∈ rows)
    (fits : older key before row = true) :
    row ∈ page key limit before rows ∨
      limit ≤ (page key limit before rows).length ∧
        ∀ other ∈ page key limit before rows, key row < key other := by
  have few : ((rows.filter (older key before)).map key).Nodup :=
    distinct.sublist (List.filter_sublist.map key)
  have sorted := newestFirst_sorted few
  have inside : row ∈ newestFirst key (rows.filter (older key before)) :=
    mem_newestFirst.mpr (List.mem_filter.mpr ⟨member, fits⟩)
  rw [← List.take_append_drop limit (newestFirst key _)] at sorted inside
  rcases List.mem_append.mp inside with taken | left
  · exact .inl taken
  · right
    refine ⟨?_, fun other there =>
      (List.pairwise_append.mp sorted).2.2 other there row left⟩
    have long := List.length_pos_of_mem left
    rw [List.length_drop] at long
    rw [page, List.length_take]
    omega

theorem page_sorted (before : Option Nat) (limit : Nat) {rows : List Row}
    (distinct : (rows.map key).Nodup) :
    (page key limit before rows).Pairwise (Newer key) := by
  have few : ((rows.filter (older key before)).map key).Nodup :=
    distinct.sublist (List.filter_sublist.map key)
  exact (newestFirst_sorted few).sublist (List.take_sublist _ _)

/-- One more page. -/
theorem Walked.page {limit : Nat} {rows : List Row}
    (walked : Walked key always ever before found)
    (distinct : (rows.map key).Nodup)
    (present : ∀ row, always row → row ∈ rows)
    (known : ∀ row ∈ rows, ever row) :
    Walked key always ever (next key before (page key limit before rows))
      (found ++ page key limit before rows) := by
  have sorted := page_sorted before limit distinct
  have behind : ∀ first ∈ found, ∀ second ∈ Keyset.page key limit before rows,
      Newer key first second := by
    intro first earlier second taken
    have high := walked.above first earlier
    have low := (mem_page taken).2
    cases before with
    | none => cases high
    | some bound =>
        exact Nat.lt_of_lt_of_le (older_some.mp low) (not_older_some.mp high)
  cases ends : (Keyset.page key limit before rows).getLast? with
  | none =>
      have empty := List.getLast?_eq_none_iff.mp ends
      rw [empty, next, List.append_nil]
      exact walked
  | some last =>
      have bound : next key before (Keyset.page key limit before rows) =
          some (key last) := by
        rw [next, ends]
        rfl
      have taken := List.mem_of_getLast? ends
      rw [bound]
      constructor
      · exact List.pairwise_append.mpr ⟨walked.sorted, sorted, behind⟩
      · intro row member
        apply not_older_some.mpr
        rcases List.mem_append.mp member with earlier | now
        · exact Nat.le_of_lt (behind row earlier last taken)
        · exact newer_last sorted ends now
      · intro row member
        rcases List.mem_append.mp member with earlier | now
        · exact walked.within row earlier
        · exact known row (mem_page now).1
      · intro row there high
        apply List.mem_append.mpr
        by_cases fits : older key before row = true
        · rcases page_rest distinct (present row there) fits with
            inside | ⟨-, left⟩
          · exact .inr inside
          · have low := left last taken
            exact absurd (not_older_some.mp high) (Nat.not_le.mpr low)
        · exact .inl (walked.covers row there (Bool.not_eq_true _ ▸ fits))

/-- The page that falls short is the last one. -/
theorem Walked.finish {limit : Nat} {rows : List Row}
    (walked : Walked key always ever before found)
    (distinct : (rows.map key).Nodup)
    (present : ∀ row, always row → row ∈ rows)
    (short : (Keyset.page key limit before rows).length < limit) {row : Row}
    (there : always row) : row ∈ found ++ Keyset.page key limit before rows := by
  apply List.mem_append.mpr
  by_cases fits : older key before row = true
  · rcases page_rest distinct (present row there) fits with
      inside | ⟨full, -⟩
    · exact .inr inside
    · exact absurd short (Nat.not_lt.mpr full)
  · exact .inl (walked.covers row there (Bool.not_eq_true _ ▸ fits))

end

end Keyset
