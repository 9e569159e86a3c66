import IndustryFlow.SignIn.Spacing

/-!
# One source beside another

All sources of an address share one record, and every counted attempt moves its
expiry.  A run is compared with the same run without the calls of one source:
the answers to the others agree as long as no count is read that only the left
out source has kept beyond its hour (`source_apart`).
-/

namespace IndustryFlow.SignIn

open Tenancy (Text)

variable {ipAddress : Text → Option Address}

/-- Until when the record is kept without the attempts of a source. -/
def keptWithout (ipAddress : Text → Option Address) (source : Text)
    (record : Option Record) (kept : Option Rat) (call : Call) : Option Rat :=
  match call.request with
  | .reserve given =>
      if sourceOf ipAddress given ≠ source ∧
          (reserve call.time (sourceOf ipAddress given) record).1 = 0 then
        some (call.time + forgetAfterSeconds)
      else kept
  | .succeeded _ => kept
  | .cleared => none

/-- When another source asks, the record is kept without the source's own
attempts, or it counts the source alone. -/
def Forgets (source : Text) (record : Option Record) (kept : Option Rat)
    (now : Rat) : Prop :=
  (∃ deadline ∈ kept, now ≤ deadline) ∨
    ∀ other, other ≠ source → attemptsOf now record other = none

/-- Every attempt of another source meets the condition. -/
def EachForgets (ipAddress : Text → Option Address) (source : Text) :
    Option Record → Option Rat → List Call → Prop
  | _, _, [] => True
  | record, kept, call :: calls =>
      ((∀ given, call.request = .reserve given →
        sourceOf ipAddress given ≠ source →
        Forgets source record kept call.time) ∧
      EachForgets ipAddress source (step ipAddress record call).2
        (keptWithout ipAddress source record kept call) calls)

/-- A run without the calls of a source. -/
def without (ipAddress : Text → Option Address) (source : Text)
    (calls : List Call) : List Call :=
  calls.filter fun call => call.source ipAddress ≠ some source

/-! ## Two records -/

/-- The record beside the one of the run without the source's calls. -/
structure Beside (source : Text) (now : Rat) (kept : Option Rat)
    (record alone : Option Record) : Prop where
  expires : ∀ held ∈ alone, kept = some held.expires
  bounded : ∀ deadline ∈ kept, deadline ≤ now + forgetAfterSeconds
  same : ∀ other, other ≠ source → ∀ time, now ≤ time →
    (∃ deadline ∈ kept, time ≤ deadline) →
      attemptsOf time record other = attemptsOf time alone other

theorem attemptsOf_live {now time : Rat} (later : now ≤ time)
    (record : Option Record) (source : Text) :
    attemptsOf time (live now record) source =
      attemptsOf time record source := by
  cases record with
  | none => rfl
  | some kept =>
      by_cases alive : now ≤ kept.expires
      · rw [live_self alive]
      · have gone : ¬time ≤ kept.expires := fun still =>
          alive (later.trans still)
        rw [live_some, if_neg alive, attemptsOf, attemptsOf, live_some,
          if_neg gone]
        rfl

theorem attemptsOf_updated {time expires : Rat} (alive : time ≤ expires)
    (attempts : Text → Option Attempts) (source : Text) :
    attemptsOf time (some ⟨attempts, expires⟩) source = attempts source := by
  rw [attemptsOf, live_self alive]
  rfl

theorem attemptsOf_succeeded {now time : Rat} (later : now ≤ time)
    (record : Option Record) (source other : Text) :
    attemptsOf time (succeeded now source record) other =
      if other = source then none else attemptsOf time record other := by
  rw [← attemptsOf_live later record other, succeeded]
  cases live now record with
  | none => simp [attemptsOf, live]
  | some kept =>
      by_cases alive : time ≤ kept.expires
      · rw [Option.map_some, attemptsOf_updated alive, attemptsOf,
          live_self alive, Option.bind_some, Function.update_apply]
      · rw [Option.map_some, attemptsOf, attemptsOf, live_some, live_some,
          if_neg alive, if_neg alive]
        simp

theorem reserve_congr {now : Rat} {source : Text}
    {left right : Option Record}
    (same : attemptsOf now left source = attemptsOf now right source) :
    (reserve now source left).1 = (reserve now source right).1 := by
  rw [reserve, reserve, same]
  split
  · rfl
  · rfl

namespace Beside

variable {source : Text} {now : Rat} {kept : Option Rat}
variable {record alone : Option Record}

theorem later (beside : Beside source now kept record alone) {time : Rat}
    (passed : now ≤ time) : Beside source time kept record alone where
  expires := beside.expires
  bounded deadline same := by
    have bound := beside.bounded deadline same
    linarith
  same other apart moment reached :=
    beside.same other apart moment (passed.trans reached)

/-- As long as the left record is kept, its counts do not change. -/
theorem alone_eq (beside : Beside source now kept record alone) {time : Rat}
    (passed : now ≤ time) {deadline : Rat} (same : deadline ∈ kept)
    (alive : time ≤ deadline) (other : Text) :
    attemptsOf now alone other = attemptsOf time alone other := by
  cases alone with
  | none => rfl
  | some held =>
      have expires := beside.expires held rfl
      cases same.symm.trans expires
      rw [attemptsOf, attemptsOf, live_self alive,
        live_self (passed.trans alive)]

/-- Another source finds the same counts. -/
theorem found (beside : Beside source now kept record alone)
    (forgets : Forgets source record kept now) {other : Text}
    (apart : other ≠ source) :
    attemptsOf now record other = attemptsOf now alone other := by
  rcases forgets with still | nothing
  · exact beside.same other apart now le_rfl still
  · cases held : attemptsOf now alone other with
    | none => exact nothing other apart
    | some found =>
        obtain ⟨own, rfl, alive, -⟩ := attemptsOf_eq_some.mp held
        rw [← held]
        exact beside.same other apart now le_rfl
          ⟨own.expires, beside.expires own rfl, alive⟩

/-! ## One call -/

/-- The source's own attempt. -/
theorem own_reserve (beside : Beside source now kept record alone) :
    Beside source now kept (reserve now source record).2 alone := by
  by_cases counted : (reserve now source record).1 = 0
  · rw [reserve_counted counted]
    refine ⟨beside.expires, beside.bounded, ?_⟩
    intro other apart time passed ⟨deadline, same, alive⟩
    have bound := beside.bounded deadline same
    rw [attemptsOf_updated (alive.trans bound), Function.update_of_ne apart,
      ← beside.alone_eq passed same alive other]
    exact beside.same other apart now le_rfl
      ⟨deadline, same, passed.trans alive⟩
  · rw [reserve_refused counted]
    exact beside

theorem own_succeeded (beside : Beside source now kept record alone) :
    Beside source now kept (succeeded now source record) alone where
  expires := beside.expires
  bounded := beside.bounded
  same other apart time passed still := by
    rw [attemptsOf_succeeded passed, if_neg apart]
    exact beside.same other apart time passed still

theorem other_counted (beside : Beside source now kept record alone)
    (forgets : Forgets source record kept now) {other : Text}
    (apart : other ≠ source) (counted : (reserve now other record).1 = 0) :
    Beside source now (some (now + forgetAfterSeconds))
      (reserve now other record).2 (reserve now other alone).2 := by
  have same := beside.found forgets apart
  have also_counted : (reserve now other alone).1 = 0 :=
    (reserve_congr same).symm.trans counted
  rw [reserve_counted counted, reserve_counted also_counted]
  constructor
  · intro held own
    cases own
    rfl
  · intro deadline own
    cases own
    exact le_rfl
  · intro third third_apart time passed ⟨deadline, own, alive⟩
    cases own
    rw [attemptsOf_updated alive, attemptsOf_updated alive,
      Function.update_apply, Function.update_apply, same,
      beside.found forgets third_apart]

theorem other_refused (beside : Beside source now kept record alone)
    (forgets : Forgets source record kept now) {other : Text}
    (apart : other ≠ source) (refused : (reserve now other record).1 ≠ 0) :
    Beside source now kept (reserve now other record).2
      (reserve now other alone).2 := by
  have same := reserve_congr (beside.found forgets apart)
  have also_refused : (reserve now other alone).1 ≠ 0 := by
    rw [← same]
    exact refused
  rw [reserve_refused refused, reserve_refused also_refused]
  exact beside

theorem other_succeeded (beside : Beside source now kept record alone)
    (other : Text) :
    Beside source now kept (succeeded now other record)
      (succeeded now other alone) where
  expires held same := by
    obtain ⟨before, alive, rfl⟩ := Option.map_eq_some_iff.mp same
    exact beside.expires before (live_eq_some alive)
  bounded := beside.bounded
  same third apart time passed still := by
    rw [attemptsOf_succeeded passed, attemptsOf_succeeded passed,
      beside.same third apart time passed still]

theorem cleared : Beside source now none none none :=
  ⟨nofun, nofun, fun _ _ _ _ _ => rfl⟩

end Beside

/-! ## Every sequence of calls -/

/-- The answers that are not given to a source. -/
def answersBeside (ipAddress : Text → Option Address) (source : Text)
    (answered : List (Call × Option Int)) : List (Call × Option Int) :=
  answered.filter fun answer => answer.1.source ipAddress ≠ some source

theorem Beside.run {source : Text} {now : Rat} {kept : Option Rat}
    {record alone : Option Record} {calls : List Call}
    (beside : Beside source now kept record alone)
    (ordered : Ordered calls) (future : ∀ call ∈ calls, now ≤ call.time)
    (forgets : EachForgets ipAddress source record kept calls) :
    answersBeside ipAddress source (answers ipAddress record calls) =
      answers ipAddress alone (without ipAddress source calls) := by
  induction calls generalizing now kept record alone with
  | nil => rfl
  | cons call calls induction =>
      have ready := beside.later (future call List.mem_cons_self)
      obtain ⟨first, rest⟩ := List.pairwise_cons.mp ordered
      have later : ∀ next ∈ calls, call.time ≤ next.time :=
        fun next member => first next.time (List.mem_map_of_mem member)
      obtain ⟨asked, remaining⟩ := forgets
      rw [answers, answersBeside, List.filter_cons, ← answersBeside, without,
        List.filter_cons, ← without]
      obtain ⟨time, request⟩ := call
      cases request with
      | reserve given =>
          by_cases own : sourceOf ipAddress given = source
          · rw [if_neg (by simp [Call.source, own]),
              if_neg (by simp [Call.source, own])]
            apply induction _ rest later remaining
            rw [keptWithout, step]
            dsimp only
            rw [if_neg (fun both => both.1 own), own]
            exact ready.own_reserve
          · rw [if_pos (by simpa [Call.source] using own),
              if_pos (by simpa [Call.source] using own), answers]
            have holds := asked given rfl own
            have same := ready.found holds own
            congr 1
            · rw [step, step]
              dsimp only
              rw [reserve_congr same]
            · apply induction _ rest later remaining
              rw [keptWithout, step, step]
              dsimp only
              by_cases counted : (reserve time (sourceOf ipAddress given)
                  record).1 = 0
              · rw [if_pos ⟨own, counted⟩]
                exact ready.other_counted holds own counted
              · rw [if_neg fun both => counted both.2]
                exact ready.other_refused holds own counted
      | succeeded given =>
          by_cases own : sourceOf ipAddress given = source
          · rw [if_neg (by simp [Call.source, own]),
              if_neg (by simp [Call.source, own])]
            apply induction _ rest later remaining
            rw [keptWithout, step]
            dsimp only
            rw [own]
            exact ready.own_succeeded
          · rw [if_pos (by simpa [Call.source] using own),
              if_pos (by simpa [Call.source] using own), answers]
            congr 1
            exact induction (ready.other_succeeded _) rest later remaining
      | cleared =>
          rw [if_pos (by simp [Call.source]), if_pos (by simp [Call.source]),
            answers]
          congr 1
          exact induction Beside.cleared rest later remaining

/-- Leaving out a source changes no answer to another one, in every sequence of
calls in which no count is read that only the first has kept. -/
theorem source_apart (calls : List Call) (ordered : Ordered calls)
    (mine other : Option Text)
    (apart : sourceOf ipAddress mine ≠ sourceOf ipAddress other)
    (forgets : EachForgets ipAddress (sourceOf ipAddress other) none none
      calls) :
    (answers ipAddress none calls).filter
        (fun answer => answer.1.source ipAddress =
          some (sourceOf ipAddress mine)) =
      (answers ipAddress none
        (without ipAddress (sourceOf ipAddress other) calls)).filter
        (fun answer => answer.1.source ipAddress =
          some (sourceOf ipAddress mine)) := by
  have start : ∃ now, ∀ call ∈ calls, now ≤ call.time := by
    cases calls with
    | nil => exact ⟨0, nofun⟩
    | cons call calls =>
        refine ⟨call.time, fun next member => ?_⟩
        rcases List.mem_cons.mp member with rfl | inside
        · exact le_rfl
        · exact (List.pairwise_cons.mp ordered).1 next.time
            (List.mem_map_of_mem inside)
  obtain ⟨now, future⟩ := start
  have nothing : Beside (sourceOf ipAddress other) now none none none :=
    Beside.cleared
  have run := nothing.run ordered future forgets
  rw [← run, answersBeside, List.filter_filter]
  apply List.filter_congr
  intro answer member
  by_cases own : answer.1.source ipAddress = some (sourceOf ipAddress mine)
  · have other_source : answer.1.source ipAddress ≠
        some (sourceOf ipAddress other) := by
      rw [own]
      exact fun same => apart (Option.some.inj same)
    simp [own, apart]
  · simp [own]

def leftSource : Option Text := some "192.0.2.1".toList

def rightSource : Option Text := some "192.0.2.2".toList

def attempt (time : Rat) (source : Option Text) : Call :=
  ⟨time, .reserve source⟩

theorem source_apart_within_hour :
    let calls := [attempt 0 leftSource, attempt 1 rightSource, attempt 2 leftSource]
    (answers (fun _ => none) none calls).filter
        (fun answer => answer.1.source (fun _ => none) =
          some (sourceOf (fun _ => none) leftSource)) =
      (answers (fun _ => none) none
        (without (fun _ => none) (sourceOf (fun _ => none) rightSource)
          calls)).filter
        (fun answer => answer.1.source (fun _ => none) =
          some (sourceOf (fun _ => none) leftSource)) := by
  have ordered :
      Ordered [attempt 0 leftSource, attempt 1 rightSource, attempt 2 leftSource] := by
    decide +kernel
  apply source_apart _ ordered leftSource rightSource (by decide)
  refine ⟨fun _ _ _ => .inr fun _ _ => rfl, ?_, ?_, trivial⟩
  · intro given request apart
    cases request
    exact absurd rfl apart
  · intro given request apart
    refine .inl ⟨0 + forgetAfterSeconds, ?_, ?_⟩
    · decide +kernel
    · decide +kernel

/-- Five failures of one source are an hour old, but for the attempt of
another one; the sixth is then counted on top of them, and the seventh
waits. -/
def keptAlive : List Call :=
  List.replicate 5 (attempt 0 leftSource) ++
    [attempt 3000 rightSource, attempt 4000 leftSource, attempt 4000 leftSource]

theorem count_kept_by_other :
    Ordered keptAlive ∧
      sourceOf (fun _ => none) leftSource ≠ sourceOf (fun _ => none) rightSource ∧
      (answers (fun _ => none) none keptAlive).filter
          (fun answer => answer.1.source (fun _ => none) =
            some (sourceOf (fun _ => none) leftSource)) ≠
        (answers (fun _ => none) none
          (without (fun _ => none) (sourceOf (fun _ => none) rightSource)
            keptAlive)).filter
          (fun answer => answer.1.source (fun _ => none) =
            some (sourceOf (fun _ => none) leftSource)) := by
  refine ⟨?_, by decide, ?_⟩
  · decide +kernel
  · decide +kernel

end IndustryFlow.SignIn
