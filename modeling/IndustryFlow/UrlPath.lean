import Mathlib.Data.List.Basic

/-!
# Paths of a URL

A URL parser puts the segments of a path one after another.  A double dot takes
the last one away and a single dot adds none, except that the last segment
always leaves one behind.  `resolve_begins_iff` tells from the segments alone
what the resolved path begins with.
-/

namespace UrlPath

inductive Kind where
  | plain
  | single
  | double
deriving DecidableEq

section

variable {Segment : Type} (kind : Segment → Kind) (empty : Segment)

/-- A segment that another one follows. -/
def enter (path : List Segment) (segment : Segment) : List Segment :=
  match kind segment with
  | .plain => path ++ [segment]
  | .single => path
  | .double => path.dropLast

/-- The last segment. -/
def finish (path : List Segment) (segment : Segment) : List Segment :=
  match kind segment with
  | .plain => path ++ [segment]
  | .single => path ++ [empty]
  | .double => path.dropLast ++ [empty]

/-- The path, with the segments after it. -/
def resolve : List Segment → List Segment → List Segment
  | path, [] => path
  | path, [last] => finish kind empty path last
  | path, segment :: next :: rest =>
      resolve (enter kind path segment) (next :: rest)

/-- How long a path of some length is after the segments. -/
def level : Nat → List Segment → Nat
  | length, [] => length
  | length, segment :: rest =>
      match kind segment with
      | .plain => level (length + 1) rest
      | .single => level length rest
      | .double => level (length - 1) rest

/-- No double dot takes away more than the segments of the path and those
before the double dot. -/
def staysBelow : Nat → List Segment → Bool
  | _, [] => true
  | length, segment :: rest =>
      match kind segment with
      | .plain => staysBelow (length + 1) rest
      | .single => staysBelow length rest
      | .double => decide (0 < length) && staysBelow (length - 1) rest

end

section

variable {Segment : Type} {kind : Segment → Kind} {empty : Segment}

theorem finish_ne_nil (path : List Segment) (segment : Segment) :
    finish kind empty path segment ≠ [] := by
  unfold finish
  split
  · simp
  · simp
  · simp

theorem resolve_cons {path segments : List Segment} {segment : Segment}
    (more : segments ≠ []) :
    resolve kind empty path (segment :: segments) =
      resolve kind empty (enter kind path segment) segments := by
  obtain ⟨next, rest, rfl⟩ := List.exists_cons_of_ne_nil more
  rfl

theorem resolve_ne_nil {path segments : List Segment}
    (more : segments ≠ []) : resolve kind empty path segments ≠ [] := by
  induction segments generalizing path with
  | nil => exact absurd rfl more
  | cons segment rest induction =>
      cases rest with
      | nil => exact finish_ne_nil path segment
      | cons next rest => exact induction (List.cons_ne_nil _ _)

theorem resolve_append {path before after : List Segment}
    (more : after ≠ []) :
    resolve kind empty path (before ++ after) =
      resolve kind empty (before.foldl (enter kind) path) after := by
  induction before generalizing path with
  | nil => rfl
  | cons segment before induction =>
      rw [List.cons_append, resolve_cons (by simp [more]), induction]
      rfl

theorem foldl_enter_length (path segments : List Segment) :
    (segments.foldl (enter kind) path).length =
      level kind path.length segments := by
  induction segments generalizing path with
  | nil => rfl
  | cons segment rest induction =>
      rw [List.foldl_cons, induction, level, enter]
      cases kind segment with
      | plain => simp
      | single => rfl
      | double => simp

theorem level_append (length : Nat) (before after : List Segment) :
    level kind length (before ++ after) =
      level kind (level kind length before) after := by
  induction before generalizing length with
  | nil => rfl
  | cons segment before induction =>
      rw [List.cons_append, level, level]
      cases kind segment with
      | plain => exact induction _
      | single => exact induction _
      | double => exact induction _

theorem mem_resolve {path segments : List Segment} {segment : Segment}
    (member : segment ∈ resolve kind empty path segments) :
    segment ∈ path ∨ segment ∈ segments ∨ segment = empty := by
  induction segments generalizing path with
  | nil => exact .inl member
  | cons next rest induction =>
      cases rest with
      | nil =>
          change segment ∈ finish kind empty path next at member
          unfold finish at member
          split at member
          · rcases List.mem_append.mp member with inside | own
            · exact .inl inside
            · exact .inr (.inl own)
          · rcases List.mem_append.mp member with inside | last
            · exact .inl inside
            · exact .inr (.inr (List.mem_singleton.mp last))
          · rcases List.mem_append.mp member with inside | last
            · exact .inl (List.dropLast_subset _ inside)
            · exact .inr (.inr (List.mem_singleton.mp last))
      | cons after rest =>
          rw [resolve_cons (List.cons_ne_nil _ _)] at member
          rcases induction member with entered | later | last
          · unfold enter at entered
            split at entered
            · rcases List.mem_append.mp entered with inside | own
              · exact .inl inside
              · rw [List.mem_singleton.mp own]
                exact .inr (.inl List.mem_cons_self)
            · exact .inl entered
            · exact .inl (List.dropLast_subset _ entered)
          · exact .inr (.inl (List.mem_cons_of_mem _ later))
          · exact .inr (.inr last)

/-- What lies above is left where it is. -/
theorem resolve_below {above path segments : List Segment}
    (below : staysBelow kind path.length segments = true) :
    resolve kind empty (above ++ path) segments =
      above ++ resolve kind empty path segments := by
  induction segments generalizing path with
  | nil => rfl
  | cons segment rest induction =>
      have entered : enter kind (above ++ path) segment =
          above ++ enter kind path segment ∧
            staysBelow kind (enter kind path segment).length rest = true := by
        rw [staysBelow] at below
        unfold enter
        cases what : kind segment with
        | plain =>
            rw [what] at below
            exact ⟨List.append_assoc _ _ _, by simpa using below⟩
        | single =>
            rw [what] at below
            exact ⟨rfl, below⟩
        | double =>
            rw [what] at below
            obtain ⟨some, later⟩ := Bool.and_eq_true_iff.mp below
            have nonempty : path ≠ [] :=
              List.length_pos_iff.mp (of_decide_eq_true some)
            exact ⟨List.dropLast_append_of_ne_nil nonempty, by simpa⟩
      cases rest with
      | nil =>
          change finish kind empty (above ++ path) segment =
            above ++ finish kind empty path segment
          unfold finish
          unfold enter at entered
          cases what : kind segment with
          | plain => exact List.append_assoc _ _ _
          | single => exact List.append_assoc _ _ _
          | double =>
              simp only [what] at entered ⊢
              rw [entered.1, List.append_assoc]
      | cons next rest =>
          rw [resolve_cons (List.cons_ne_nil _ _),
            resolve_cons (List.cons_ne_nil _ _), entered.1,
            induction entered.2]

theorem level_succ {length : Nat} {segments : List Segment}
    (below : staysBelow kind length segments = true) :
    level kind (length + 1) segments = level kind length segments + 1 := by
  induction segments generalizing length with
  | nil => rfl
  | cons segment rest induction =>
      rw [staysBelow] at below
      rw [level, level]
      cases what : kind segment with
      | plain =>
          rw [what] at below
          exact induction below
      | single =>
          rw [what] at below
          exact induction below
      | double =>
          rw [what] at below
          obtain ⟨positive, later⟩ := Bool.and_eq_true_iff.mp below
          have counted : length + 1 - 1 = length - 1 + 1 := by
            have := of_decide_eq_true positive
            omega
          simp only [counted]
          exact induction later

/-- The first double dot that takes away too much. -/
theorem climbs_out {length : Nat} {segments : List Segment}
    (climbs : staysBelow kind length segments = false) :
    ∃ before climb after, segments = before ++ climb :: after ∧
      kind climb = .double ∧ level kind length before = 0 ∧
        staysBelow kind length before = true := by
  induction segments generalizing length with
  | nil => cases climbs
  | cons segment rest induction =>
      have later {shorter : Nat}
          (climbs : staysBelow kind shorter rest = false)
          (walked : ∀ before, level kind length (segment :: before) =
              level kind shorter before ∧
            staysBelow kind length (segment :: before) =
              staysBelow kind shorter before) :
          ∃ before climb after, segment :: rest = before ++ climb :: after ∧
            kind climb = .double ∧ level kind length before = 0 ∧
              staysBelow kind length before = true := by
        obtain ⟨before, climb, after, rfl, double, out, below⟩ :=
          induction climbs
        exact ⟨segment :: before, climb, after, rfl, double,
          (walked before).1.trans out, (walked before).2.trans below⟩
      rw [staysBelow] at climbs
      cases what : kind segment with
      | plain =>
          rw [what] at climbs
          exact later climbs fun before => by
            rw [level, staysBelow, what]
            exact ⟨rfl, rfl⟩
      | single =>
          rw [what] at climbs
          exact later climbs fun before => by
            rw [level, staysBelow, what]
            exact ⟨rfl, rfl⟩
      | double =>
          rw [what] at climbs
          by_cases positive : 0 < length
          · exact later (by simpa [positive] using climbs) fun before => by
              rw [level, staysBelow, what]
              exact ⟨rfl, by simp [positive]⟩
          · exact ⟨[], segment, rest, rfl, what,
              Nat.eq_zero_of_not_pos positive, rfl⟩

/-- A resolved path begins with a segment, and goes on, exactly where the
segment comes after others that cancel out, and what follows it stays below
it. -/
theorem resolve_begins_iff {first : Segment} (plain : kind first = .plain)
    (segments : List Segment) :
    (∃ second rest, resolve kind empty [] segments = first :: second :: rest) ↔
      ∃ before after, segments = before ++ first :: after ∧
        level kind 0 before = 0 ∧ after ≠ [] ∧
          staysBelow kind 0 after = true := by
  constructor
  · rintro ⟨second, rest, resolved⟩
    generalize counted : segments.length = count
    induction count using Nat.strongRecOn generalizing segments with
    | ind count induction =>
        -- the path is empty again after `skipped`
        have again {skipped others : List Segment}
            (split : segments = skipped ++ others)
            (shorter : skipped ≠ [])
            (level_zero : level kind 0 skipped = 0)
            (others_resolved : resolve kind empty [] others =
              first :: second :: rest) :
            ∃ before after, segments = before ++ first :: after ∧
              level kind 0 before = 0 ∧ after ≠ [] ∧
                staysBelow kind 0 after = true := by
          have positive := List.length_pos_iff.mpr shorter
          obtain ⟨before, after, rfl, zero, more, below⟩ :=
            induction others.length (by
              rw [← counted, split, List.length_append]; omega)
              others others_resolved rfl
          refine ⟨skipped ++ before, after, ?_, ?_, more, below⟩
          · rw [split, List.append_assoc]
          · rw [level_append, level_zero, zero]
        cases segments with
        | nil => cases resolved
        | cons segment others =>
            by_cases ended : others = []
            · subst ended
              change finish kind empty [] segment = _ at resolved
              unfold finish at resolved
              cases what : kind segment with
              | plain => rw [what] at resolved; cases resolved
              | single => rw [what] at resolved; cases resolved
              | double => rw [what] at resolved; cases resolved
            · rw [resolve_cons ended] at resolved
              unfold enter at resolved
              cases what : kind segment with
              | single =>
                  rw [what] at resolved
                  exact again (List.singleton_append).symm
                    (List.cons_ne_nil _ _) (by simp [level, what]) resolved
              | double =>
                  rw [what] at resolved
                  exact again (List.singleton_append).symm
                    (List.cons_ne_nil _ _) (by simp [level, what]) resolved
              | plain =>
                  rw [what, List.nil_append] at resolved
                  cases below : staysBelow kind 0 others with
                  | true =>
                      have kept := @resolve_below _ kind empty [segment] []
                        others below
                      rw [List.append_nil, resolved] at kept
                      cases (List.cons.inj kept).1
                      exact ⟨[], others, rfl, rfl, ended, below⟩
                  | false =>
                      obtain ⟨before, climb, after, rfl, double, zero,
                        stays⟩ := climbs_out below
                      have one : (before.foldl (enter kind)
                          [segment]).length = 1 := by
                        rw [foldl_enter_length]
                        exact (level_succ stays).trans (by rw [zero])
                      have gone : (before.foldl (enter kind)
                          [segment]).dropLast = [] := by
                        apply List.eq_nil_of_length_eq_zero
                        rw [List.length_dropLast, one]
                      rw [resolve_append (List.cons_ne_nil _ _)] at resolved
                      by_cases last : after = []
                      · subst last
                        change finish kind empty _ climb = _ at resolved
                        simp only [finish, double, gone] at resolved
                        cases resolved
                      · simp only [resolve_cons last, enter, double, gone]
                          at resolved
                        have zeroed : level kind 0
                            (segment :: before ++ [climb]) = 0 := by
                          rw [List.cons_append, level, what, level_append,
                            level_succ stays, zero, level, double]
                          rfl
                        exact @again (segment :: before ++ [climb]) after
                          (by simp) (by simp) zeroed resolved
  · rintro ⟨before, after, rfl, zero, more, below⟩
    have walked : before.foldl (enter kind) [] = [] := by
      apply List.eq_nil_of_length_eq_zero
      rw [foldl_enter_length]
      exact zero
    have entered : enter kind [] first = [first] ++ [] := by
      rw [enter, plain]
      rfl
    have kept := @resolve_below _ kind empty [first] [] after below
    obtain ⟨second, rest, resolved⟩ := List.exists_cons_of_ne_nil
      (@resolve_ne_nil _ kind empty [] after more)
    refine ⟨second, rest, ?_⟩
    rw [resolve_append (List.cons_ne_nil _ _), walked, resolve_cons more,
      entered, kept, resolved]
    rfl

end

end UrlPath
