import IndustryFlow.Audit.RateLimits
import Mathlib.Algebra.GroupWithZero.Nat

/-!
# What the rate limits conserve

An evaluation that appends nothing is counted, and the count goes into the next
event: no evaluation is lost unless its count expires.  Of a source, the events
of a life of its counter are the first ones counted, up to the limit, and the
first one past the limit is the only one answered `-1`.
-/

namespace IndustryFlow.CapabilityAudit

variable (limits : Limits)

/-! ## Repeats -/

theorem recordRepeat_counted {now : Nat} {repeats : Repeats}
    (marked : repeats.marked now = true) :
    (recordRepeat limits now repeats).2 = none ∧
      (recordRepeat limits now repeats).1.marker = repeats.marker ∧
      (recordRepeat limits now repeats).1.count =
        some ((repeats.pending now).getD 0 + 1,
          now + limits.repeatCountTtl) := by
  simp [recordRepeat, marked]

theorem recordRepeat_appended {now : Nat} {repeats : Repeats}
    (due : repeats.marked now = false) :
    (recordRepeat limits now repeats).2 = some (repeats.pending now) ∧
      (recordRepeat limits now repeats).1.marker =
        some (now + limits.repeatWindow) ∧
      (recordRepeat limits now repeats).1.count = none := by
  simp [recordRepeat, due]

/-- What was appended, what its counts were, and what is counted still. -/
def accounted (state : Repeats × List Appended) : Nat :=
  state.2.length + (state.2.map (·.suppressed.getD 0)).sum +
    (state.1.count.map Prod.fst).getD 0

/-- The events stand a window apart, and the last one's marker is kept. -/
structure Apart (state : Repeats × List Appended) : Prop where
  apart : state.2.Pairwise fun earlier later =>
    earlier.time + limits.repeatWindow ≤ later.time
  marker : ∀ event ∈ state.2, ∃ expires,
    state.1.marker = some expires ∧
      event.time + limits.repeatWindow ≤ expires

theorem repeatRun_append (times : List Nat) (now : Nat) :
    repeatRun limits (times ++ [now]) =
      repeatStep limits (repeatRun limits times) now := by
  simp [repeatRun]

theorem repeatStep_counted {state : Repeats × List Appended} {now : Nat}
    (marked : state.1.marked now = true) :
    ∃ after, repeatStep limits state now = (after, state.2) ∧
      after.marker = state.1.marker ∧
      after.count = some ((state.1.pending now).getD 0 + 1,
        now + limits.repeatCountTtl) := by
  refine ⟨(recordRepeat limits now state.1).1, ?_,
    (recordRepeat_counted limits marked).2⟩
  simp [repeatStep, recordRepeat, marked]

theorem repeatStep_appended {state : Repeats × List Appended} {now : Nat}
    (due : state.1.marked now = false) :
    ∃ after, repeatStep limits state now =
        (after, state.2 ++ [⟨now, state.1.pending now⟩]) ∧
      after.marker = some (now + limits.repeatWindow) ∧
      after.count = none := by
  refine ⟨(recordRepeat limits now state.1).1, ?_,
    (recordRepeat_appended limits due).2⟩
  simp [repeatStep, recordRepeat, due]

theorem Repeats.pending_of_kept {repeats : Repeats} {now : Nat}
    (kept : ∀ count ∈ repeats.count, now ≤ count.2) :
    repeats.pending now = repeats.count.map Prod.fst := by
  cases held : repeats.count with
  | none => simp [Repeats.pending, held]
  | some count =>
      have unexpired := kept count (Option.mem_def.mpr held)
      simp [Repeats.pending, held, Option.filter, unexpired]

theorem accounted_step {state : Repeats × List Appended} {now : Nat}
    (kept : ∀ count ∈ state.1.count, now ≤ count.2) :
    accounted (repeatStep limits state now) = accounted state + 1 := by
  have pending := Repeats.pending_of_kept kept
  cases marked : state.1.marked now with
  | true =>
      obtain ⟨after, stepped, -, count⟩ := repeatStep_counted limits marked
      rw [stepped]
      simp only [accounted, count, pending, Option.map_some, Option.getD_some]
      omega
  | false =>
      obtain ⟨after, stepped, -, count⟩ := repeatStep_appended limits marked
      rw [stepped]
      simp only [accounted, count, pending, List.length_append, List.map_append,
        List.sum_append, Option.map_none, Option.getD_none, List.map_cons,
        List.map_nil, List.sum_cons, List.sum_nil, List.length_cons,
        List.length_nil]
      omega

theorem apart_step {state : Repeats × List Appended} {now : Nat}
    (held : Apart limits state) :
    Apart limits (repeatStep limits state now) := by
  cases marked : state.1.marked now with
  | true =>
      obtain ⟨after, stepped, marker, -⟩ := repeatStep_counted limits marked
      rw [stepped]
      constructor
      · exact held.apart
      · intro event member
        rw [marker]
        exact held.marker event member
  | false =>
      obtain ⟨after, stepped, marker, -⟩ := repeatStep_appended limits marked
      have past : ∀ event ∈ state.2,
          event.time + limits.repeatWindow ≤ now := by
        intro event member
        obtain ⟨expires, standing, before⟩ := held.marker event member
        simp only [Repeats.marked, standing, Option.any_some,
          decide_eq_false_iff_not] at marked
        omega
      rw [stepped]
      constructor
      · apply List.pairwise_append.mpr
        refine ⟨held.apart, List.pairwise_singleton _ _, ?_⟩
        intro earlier member later last
        cases List.mem_singleton.mp last
        exact past earlier member
      · intro event member
        refine ⟨now + limits.repeatWindow, marker, ?_⟩
        rcases List.mem_append.mp member with earlier | last
        · have before := past event earlier
          omega
        · cases List.mem_singleton.mp last
          exact Nat.le_refl _

theorem CountKept.init {times : List Nat} {now : Nat}
    (kept : CountKept limits (times ++ [now])) : CountKept limits times := by
  intro earlier middle later split
  exact kept earlier middle (later ++ [now]) (by simp [split])

theorem CountKept.append {times : List Nat} {now : Nat}
    (kept : CountKept limits times)
    (unexpired : ∀ count ∈ (repeatRun limits times).1.count,
      now ≤ count.2) :
    CountKept limits (times ++ [now]) := by
  intro earlier middle later split
  rcases List.eq_nil_or_concat later with rfl | ⟨rest, last, rfl⟩
  · obtain ⟨rfl, same⟩ := List.append_inj' split rfl
    cases same
    exact unexpired
  · apply kept earlier middle rest
    have longer : times ++ [now] = (earlier ++ middle :: rest) ++ [last] := by
      simpa using split
    exact (List.append_inj' longer rfl).1

theorem repeatRun_accounted {times : List Nat} (kept : CountKept limits times) :
    accounted (repeatRun limits times) = times.length := by
  induction times using List.reverseRecOn with
  | nil => rfl
  | append_singleton times now before =>
      rw [repeatRun_append, accounted_step limits (kept times now [] rfl),
        before (kept.init limits)]
      simp

theorem repeatRun_apart (times : List Nat) :
    Apart limits (repeatRun limits times) := by
  induction times using List.reverseRecOn with
  | nil => exact ⟨List.Pairwise.nil, nofun⟩
  | append_singleton times now before =>
      rw [repeatRun_append]
      exact apart_step limits before

/-! ## Refusals of unknown values -/

/-- The lives of a source's counter, against the answers given so far. -/
structure Tallied (source : String)
    (state : Refusals × List Answered) : Prop where
  unborn : ∀ life, state.1.lives source < life →
    counted source life state.2 = 0
  living : counted source (state.1.lives source) state.2 =
    ((state.1.counters source).map Counter.number).getD 0
  recorded : ∀ life, answeredWith 1 source life state.2 =
    min (counted source life state.2) limits.sourceLimit
  exceeded : ∀ life, answeredWith (-1) source life state.2 =
    if limits.sourceLimit < counted source life state.2 then 1 else 0

theorem counted_append (source : String) (life : Nat)
    (answers : List Answered) (answered : Answered) :
    counted source life (answers ++ [answered]) =
      counted source life answers +
        if answered.presented.source = source ∧ answered.life = life ∧
          answered.answer ≠ 0 then 1 else 0 := by
  simp [counted, List.countP_append, List.countP_singleton]

theorem answeredWith_append (answer : Int) (source : String) (life : Nat)
    (answers : List Answered) (answered : Answered) :
    answeredWith answer source life (answers ++ [answered]) =
      answeredWith answer source life answers +
        if answered.presented.source = source ∧ answered.life = life ∧
          answered.answer = answer then 1 else 0 := by
  simp [answeredWith, List.countP_append, List.countP_singleton]

theorem Refusals.increment_markers (store : Refusals) (now : Nat)
    (source : String) :
    (store.increment limits now source).2.markers = store.markers := by
  unfold Refusals.increment
  split <;> rfl

theorem Refusals.increment_apart (store : Refusals) (now : Nat)
    {source other : String} (apart : other ≠ source) :
    (store.increment limits now source).2.counters other =
        store.counters other ∧
      (store.increment limits now source).2.lives other =
        store.lives other := by
  unfold Refusals.increment
  split <;> simp [Function.update_of_ne apart]

/-- The number is one more than what was counted in the life it belongs to. -/
theorem Refusals.increment_number {store : Refusals}
    {answers : List Answered} {source : String}
    (tallied : Tallied limits source (store, answers)) (now : Nat) :
    (store.increment limits now source).1 =
        counted source ((store.increment limits now source).2.lives source)
          answers + 1 ∧
      ((store.increment limits now source).2.counters source).map
          Counter.number = some (store.increment limits now source).1 ∧
      store.lives source ≤
        (store.increment limits now source).2.lives source := by
  unfold Refusals.increment
  split
  · next counter standing =>
    have present : store.counters source = some counter :=
      (Option.filter_eq_some_iff.mp standing).1
    have living := tallied.living
    simp only [present, Option.map_some, Option.getD_some] at living
    simp [living]
  · have unborn := tallied.unborn (store.lives source + 1)
      (Nat.lt_succ_self _)
    simp only at unborn
    simp [unborn]

theorem recordRefusal_repeated {store : Refusals} {now : Nat}
    {digest : String} (source : String)
    (marked : (store.markers digest).any (now ≤ ·) = true) :
    recordRefusal limits now digest source store = (0, store) := by
  simp [recordRefusal, marked]

/-- A digest that is not marked is counted, and the number decides. -/
theorem recordRefusal_counted {store : Refusals} {now : Nat}
    {digest : String} (source : String)
    (due : (store.markers digest).any (now ≤ ·) = false) :
    ∃ answer after,
      recordRefusal limits now digest source store = (answer, after) ∧
        after.counters =
          (store.increment limits now source).2.counters ∧
        after.lives = (store.increment limits now source).2.lives ∧
        after.markers = (if answer = 1 then
          Function.update store.markers digest
            (some (now + limits.refusalWindow)) else store.markers) ∧
        answer ≠ 0 ∧
        (answer = 1 ↔
          (store.increment limits now source).1 ≤ limits.sourceLimit) ∧
        (answer = -1 ↔
          (store.increment limits now source).1 = limits.sourceLimit + 1) := by
  have markers := Refusals.increment_markers limits store now source
  by_cases beyond :
      limits.sourceLimit < (store.increment limits now source).1
  · by_cases first :
        (store.increment limits now source).1 = limits.sourceLimit + 1
    · refine ⟨-1, (store.increment limits now source).2, ?_, rfl, rfl, ?_, ?_⟩
      · simp [recordRefusal, due, first]
      · simpa using markers
      · simp [first]
    · refine ⟨-2, (store.increment limits now source).2, ?_, rfl, rfl, ?_, ?_⟩
      · simp [recordRefusal, due, beyond, first]
      · simpa using markers
      · simp [first, beyond]
  · refine ⟨1, { (store.increment limits now source).2 with
      markers := Function.update store.markers digest
        (some (now + limits.refusalWindow)) }, ?_, rfl, rfl, ?_, ?_⟩
    · simp [recordRefusal, due, beyond, markers]
    · simp
    · refine ⟨by decide, ?_, ?_⟩
      · simpa using beyond
      · constructor
        · intro impossible
          exact absurd impossible (by decide)
        · intro number
          omega

theorem tallied_step {source : String} {state : Refusals × List Answered}
    (tallied : Tallied limits source state) (presented : Presented) :
    Tallied limits source (refusalStep limits state presented) := by
  cases marked : (state.1.markers presented.digest).any
      (presented.time ≤ ·) with
  | true =>
      simp only [refusalStep, recordRefusal_repeated limits _ marked]
      constructor
      · intro life later
        simp [counted_append, tallied.unborn life later]
      · simp [counted_append, tallied.living]
      · intro life
        simp [counted_append, answeredWith_append, tallied.recorded life]
      · intro life
        simp [counted_append, answeredWith_append, tallied.exceeded life]
  | false =>
      obtain ⟨answer, after, recorded, counters, lives, -, real, fits, first⟩ :=
        recordRefusal_counted limits presented.source marked
      simp only [refusalStep, recorded]
      by_cases same : presented.source = source
      · subst same
        obtain ⟨number, counter, grown⟩ :=
          Refusals.increment_number limits tallied presented.time
        rw [← lives] at number grown
        rw [← counters] at counter
        constructor
        · intro life later
          have unborn := tallied.unborn life (Nat.lt_of_le_of_lt grown later)
          simp only at later
          simp [counted_append, unborn, Nat.ne_of_lt later]
        · simp [counted_append, counter, number, real]
        · intro life
          have before := tallied.recorded life
          by_cases current : after.lives presented.source = life
          · subst current
            simp only [counted_append, answeredWith_append, before, true_and,
              ne_eq, real, not_false_eq_true, if_true]
            split
            · next recordedNow =>
              have within := fits.mp recordedNow
              omega
            · next refused =>
              have beyond := mt fits.mpr refused
              omega
          · simp [counted_append, answeredWith_append, before, current]
        · intro life
          have before := tallied.exceeded life
          by_cases current : after.lives presented.source = life
          · subst current
            simp only [counted_append, answeredWith_append, before, true_and,
              ne_eq, real, not_false_eq_true, if_true]
            split <;> split <;> split <;> omega
          · simp [counted_append, answeredWith_append, before, current]
      · have other := Refusals.increment_apart limits state.1 presented.time
          (Ne.symm same)
        constructor
        · intro life later
          simp only [lives, other.2] at later
          simp [counted_append, tallied.unborn life later, same]
        · simp [counted_append, counters, lives, other.1, other.2, same,
            tallied.living]
        · intro life
          simp [counted_append, answeredWith_append, same,
            tallied.recorded life]
        · intro life
          simp [counted_append, answeredWith_append, same,
            tallied.exceeded life]

/-- The last record of a digest has its marker. -/
def Marked (state : Refusals × List Answered) : Prop :=
  ∀ answered ∈ state.2, answered.answer = 1 → ∃ expires,
    state.1.markers answered.presented.digest = some expires ∧
      answered.presented.time + limits.refusalWindow ≤ expires

/-- Two records of one digest stand a window apart. -/
def RecordsApart (answers : List Answered) : Prop :=
  answers.Pairwise fun earlier later =>
    earlier.presented.digest = later.presented.digest →
      earlier.answer = 1 → later.answer = 1 →
        earlier.presented.time + limits.refusalWindow ≤ later.presented.time

theorem records_step {state : Refusals × List Answered}
    (kept : Marked limits state) (apart : RecordsApart limits state.2)
    (presented : Presented) :
    Marked limits (refusalStep limits state presented) ∧
      RecordsApart limits (refusalStep limits state presented).2 := by
  cases marked : (state.1.markers presented.digest).any
      (presented.time ≤ ·) with
  | true =>
      simp only [refusalStep, recordRefusal_repeated limits _ marked]
      constructor
      · intro answered member recorded
        rcases List.mem_append.mp member with earlier | last
        · exact kept answered earlier recorded
        · cases List.mem_singleton.mp last
          exact absurd recorded (by simp)
      · apply List.pairwise_append.mpr
        refine ⟨apart, List.pairwise_singleton _ _, ?_⟩
        intro earlier _ later last _ _ recorded
        cases List.mem_singleton.mp last
        exact absurd recorded (by simp)
  | false =>
      obtain ⟨answer, after, recorded, -, -, markers, -⟩ :=
        recordRefusal_counted limits presented.source marked
      have past : ∀ earlier ∈ state.2,
          earlier.presented.digest = presented.digest → earlier.answer = 1 →
            earlier.presented.time + limits.refusalWindow ≤
              presented.time := by
        intro earlier member same told
        obtain ⟨expires, standing, before⟩ := kept earlier member told
        rw [same] at standing
        simp only [standing, Option.any_some, decide_eq_false_iff_not]
          at marked
        omega
      simp only [refusalStep, recorded]
      constructor
      · intro answered member told
        simp only [markers]
        rcases List.mem_append.mp member with earlier | last
        · obtain ⟨expires, standing, before⟩ := kept answered earlier told
          split
          · by_cases same : answered.presented.digest = presented.digest
            · have reached := past answered earlier same told
              refine ⟨presented.time + limits.refusalWindow, ?_, by omega⟩
              rw [same, Function.update_self]
            · refine ⟨expires, ?_, before⟩
              rw [Function.update_of_ne same, standing]
          · exact ⟨expires, standing, before⟩
        · cases List.mem_singleton.mp last
          have recordedNow : answer = 1 := told
          refine ⟨presented.time + limits.refusalWindow, ?_, Nat.le_refl _⟩
          rw [if_pos recordedNow, Function.update_self]
      · apply List.pairwise_append.mpr
        refine ⟨apart, List.pairwise_singleton _ _, ?_⟩
        intro earlier member later last same told _
        cases List.mem_singleton.mp last
        exact past earlier member same told

theorem refusalRun_append (evaluations : List Presented)
    (presented : Presented) :
    refusalRun limits (evaluations ++ [presented]) =
      refusalStep limits (refusalRun limits evaluations) presented := by
  simp [refusalRun]

theorem refusalRun_tallied (evaluations : List Presented) (source : String) :
    Tallied limits source (refusalRun limits evaluations) := by
  induction evaluations using List.reverseRecOn with
  | nil =>
      constructor <;>
        simp [refusalRun, Refusals.none_, counted, answeredWith]
  | append_singleton evaluations presented before =>
      rw [refusalRun_append]
      exact tallied_step limits before presented

theorem refusalRun_records (evaluations : List Presented) :
    Marked limits (refusalRun limits evaluations) ∧
      RecordsApart limits (refusalRun limits evaluations).2 := by
  induction evaluations using List.reverseRecOn with
  | nil => exact ⟨nofun, List.Pairwise.nil⟩
  | append_singleton evaluations presented before =>
      rw [refusalRun_append]
      exact records_step limits before.1 before.2 presented

/-! ## Conservation -/

/-- While no evaluation finds the count expired, every evaluation is an event,
in the count of an event or in the count, and the events stand a window apart.
A digest is recorded once in its window, a source at most so often in a life of
its counter, and `-1` is the answer once in each life that goes past. -/
theorem limits_conserve {times : List Nat} (kept : CountKept limits times)
    (evaluations : List Presented) :
    (times.length = (repeatRun limits times).2.length +
        ((repeatRun limits times).2.map (·.suppressed.getD 0)).sum +
        ((repeatRun limits times).1.count.map Prod.fst).getD 0 ∧
      (repeatRun limits times).2.Pairwise fun earlier later =>
        earlier.time + limits.repeatWindow ≤ later.time) ∧
    ((refusalRun limits evaluations).2.Pairwise fun earlier later =>
        earlier.presented.digest = later.presented.digest →
          earlier.answer = 1 → later.answer = 1 →
            earlier.presented.time + limits.refusalWindow ≤
              later.presented.time) ∧
    ∀ source life,
      answeredWith 1 source life (refusalRun limits evaluations).2 =
          min (counted source life (refusalRun limits evaluations).2)
            limits.sourceLimit ∧
        answeredWith (-1) source life (refusalRun limits evaluations).2 =
          if limits.sourceLimit <
              counted source life (refusalRun limits evaluations).2
            then 1 else 0 := by
  have accountedFor := repeatRun_accounted limits kept
  have tallied := refusalRun_tallied limits evaluations
  refine ⟨⟨accountedFor.symm, (repeatRun_apart limits times).apart⟩,
    (refusalRun_records limits evaluations).2, ?_⟩
  intro source life
  exact ⟨(tallied source).recorded life, (tallied source).exceeded life⟩

/-- Two repeats are counted, and the next event says so. -/
theorem limits_conserve_suppressed :
    (repeatRun contractLimits [0, 1000, 2000, 400000]).2 =
        [⟨0, none⟩, ⟨400000, some 2⟩] ∧
      4 = 2 + (0 + 2) + 0 := by
  have kept : CountKept contractLimits [0, 1000, 2000, 400000] := by
    have first : CountKept contractLimits [] := by
      intro earlier now later split
      exact absurd split (by simp)
    have second : CountKept contractLimits [0] :=
      first.append contractLimits (by nofun)
    have third : CountKept contractLimits [0, 1000] :=
      second.append contractLimits (by nofun)
    have fourth : CountKept contractLimits [0, 1000, 2000] :=
      third.append contractLimits (by decide)
    exact fourth.append contractLimits (by decide)
  have events : (repeatRun contractLimits [0, 1000, 2000, 400000]).2 =
      [⟨0, none⟩, ⟨400000, some 2⟩] := by decide
  have conserved := (limits_conserve contractLimits kept []).1.1
  have pending :
      (repeatRun contractLimits [0, 1000, 2000, 400000]).1.count = none := by
    decide
  rw [events, pending] at conserved
  exact ⟨events, conserved⟩

end IndustryFlow.CapabilityAudit
