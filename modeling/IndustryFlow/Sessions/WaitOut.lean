import Mathlib.Algebra.Order.Ring.Rat
import Mathlib.Tactic.Linarith
import Mathlib.Tactic.NormNum

/-!
# Waiting out an end of all sessions

A replica records when all sessions of a user ended, and another one signs a
token by its own clock.  The token is issued in whole seconds and counts as
issued before the end for the allowance between the clocks, so a sign-in first
waits until the second after it (`token_usable_iff`).  Times are in seconds.
-/

namespace IndustryFlow.SessionEnd

/-- `CLOCK_SKEW_SECONDS`. -/
def clockSkew : Int := 2

/-- What the store has under a key: nothing, or a value, which may not be a
number. -/
inductive Stored where
  | absent
  | unreadable
  | number (value : Rat)
deriving DecidableEq

/-- `_ended`; a token without a readable issue time has none. -/
def ended (sessionEnded : Bool) (userEnded : Stored) (issuedAt : Option Rat) :
    Bool :=
  if sessionEnded then true
  else
    match userEnded with
    | .absent => false
    | .unreadable => true
    | .number endedAt =>
        match issuedAt with
        | none => true
        | some issued => issued ≤ endedAt + clockSkew

/-- `math.floor(ended + sessions.CLOCK_SKEW_SECONDS) + 1`. -/
def readyAfter (endedAt : Rat) : Int :=
  (endedAt + clockSkew).floor + 1

/-- `while time.time() < ready`; what the clock reads after each sleep. -/
def sleepUntil (ready : Int) (now : Rat) : List Rat → Option Rat
  | [] => if (ready : Rat) ≤ now then some now else none
  | woke :: wakes =>
      if (ready : Rat) ≤ now then some now else sleepUntil ready woke wakes

/-- `wait_out_an_end`: the clock when it returns; the seconds waited are those
since it `started`. -/
def waitOutAnEnd (userEnded : Stored) (started : Rat) (wakes : List Rat) :
    Option Rat :=
  match userEnded with
  | .number endedAt =>
      let left := readyAfter endedAt - started
      if 0 < left ∧ left ≤ clockSkew + 1 then
        sleepUntil (readyAfter endedAt) started wakes
      else some started
  | _ => some started

/-- The `iat` of `write_token`. -/
def issuedAt (now : Rat) : Rat :=
  now.floor

/-- A sleep ends up to the timers' resolution early, and not late. -/
def Timed (resolution : Rat) (ready : Int) (now : Rat) : List Rat → Prop
  | [] => True
  | woke :: wakes =>
      (now ≤ woke ∧ woke ≤ ready + 1 / 200 ∧
        ready + 1 / 200 - resolution ≤ woke) ∧
        Timed resolution ready woke wakes

instance (resolution : Rat) (ready : Int) (now : Rat) (wakes : List Rat) :
    Decidable (Timed resolution ready now wakes) := by
  induction wakes generalizing now with
  | nil => exact .isTrue trivial
  | cons woke wakes induction =>
      have rest := induction woke
      exact inferInstanceAs (Decidable (_ ∧ _))

/-! ## The loop -/

theorem sleepUntil_ready {ready : Int} {now finished : Rat} {wakes : List Rat}
    (returned : sleepUntil ready now wakes = some finished) :
    (ready : Rat) ≤ finished := by
  induction wakes generalizing now with
  | nil =>
      rw [sleepUntil] at returned
      split at returned
      · next enough =>
          cases returned
          exact enough
      · cases returned
  | cons woke wakes induction =>
      rw [sleepUntil] at returned
      split at returned
      · next enough =>
          cases returned
          exact enough
      · exact induction returned

theorem sleepUntil_soon {resolution : Rat} {ready : Int} {now finished : Rat}
    {wakes : List Rat} (timed : Timed resolution ready now wakes)
    (before : now ≤ ready + 1 / 200)
    (returned : sleepUntil ready now wakes = some finished) :
    finished ≤ ready + 1 / 200 := by
  induction wakes generalizing now with
  | nil =>
      rw [sleepUntil] at returned
      split at returned
      · cases returned
        exact before
      · cases returned
  | cons woke wakes induction =>
      rw [sleepUntil] at returned
      split at returned
      · cases returned
        exact before
      · exact induction timed.2 timed.1.2.1 returned

/-- Timers that are early by no more than the margin end the loop. -/
theorem sleepUntil_returns {resolution : Rat} (fine : resolution ≤ 1 / 200)
    {ready : Int} {now woke : Rat} {wakes : List Rat}
    (timed : Timed resolution ready now (woke :: wakes)) :
    ∃ finished, sleepUntil ready now (woke :: wakes) = some finished := by
  rw [sleepUntil]
  split
  · exact ⟨now, rfl⟩
  · have enough : (ready : Rat) ≤ woke := by
      have late := timed.1.2.2
      linarith
    cases wakes with
    | nil => exact ⟨woke, by rw [sleepUntil, if_pos enough]⟩
    | cons next wakes => exact ⟨woke, by rw [sleepUntil, if_pos enough]⟩

/-! ## Tokens after an end -/

theorem readyAfter_eq (endedAt : Rat) :
    readyAfter endedAt = endedAt.floor + 3 := by
  rw [readyAfter, Rat.floor_add_intCast, clockSkew]
  omega

/-- A token of the second that the wait is for counts as issued later. -/
theorem not_ended_of_ready {endedAt now : Rat}
    (ready : (readyAfter endedAt : Rat) ≤ now) :
    ended false (.number endedAt) (some (issuedAt now)) = false := by
  have second : readyAfter endedAt ≤ now.floor := Rat.le_floor_iff.mpr ready
  have after := Rat.lt_floor_add_one (endedAt + clockSkew)
  rw [← readyAfter] at after
  have issued : ((readyAfter endedAt : Int) : Rat) ≤ now.floor :=
    Int.cast_le.mpr second
  apply decide_eq_false
  exact not_le.mpr (after.trans_le issued)

/-- A token signed after the wait is usable, and the wait short. -/
def Usable (resolution endedAt started : Rat) : Prop :=
  ∀ wakes, Timed resolution (readyAfter endedAt) started wakes →
    (∀ finished, waitOutAnEnd (.number endedAt) started wakes =
        some finished →
      (∀ now, finished ≤ now →
        ended false (.number endedAt) (some (issuedAt now)) = false) ∧
      finished - started ≤ 2 * clockSkew + 1) ∧
    (resolution ≤ 1 / 200 → wakes ≠ [] →
      ∃ finished, waitOutAnEnd (.number endedAt) started wakes =
        some finished)

theorem usable_of_begun {resolution endedAt started : Rat}
    (begun : (endedAt.floor : Rat) ≤ started) :
    Usable resolution endedAt started := by
  intro wakes timed
  have ready : (readyAfter endedAt : Rat) = endedAt.floor + 3 := by
    rw [readyAfter_eq]
    push_cast
    rfl
  have skew : (clockSkew : Rat) = 2 := by
    rw [clockSkew]
    norm_num
  simp only [waitOutAnEnd]
  split
  · next waits =>
      constructor
      · intro finished returned
        have reached := sleepUntil_ready returned
        have soon := sleepUntil_soon timed (by linarith) returned
        constructor
        · intro now later
          exact not_ended_of_ready (reached.trans later)
        · linarith
      · intro fine some_wake
        match wakes, some_wake with
        | woke :: wakes, _ => exact sleepUntil_returns fine timed
  · next immediate =>
      constructor
      · intro finished returned
        cases returned
        constructor
        · intro now later
          apply not_ended_of_ready
          by_contra early
          exact immediate ⟨by linarith, by linarith⟩
        · linarith
      · exact fun _ _ => ⟨started, rfl⟩

/-- A token is usable after an end exactly when the second of the end has
begun on the clock of the replica that signs it. -/
theorem token_usable_iff (resolution endedAt started : Rat) :
    Usable resolution endedAt started ↔ (endedAt.floor : Rat) ≤ started := by
  constructor
  · intro usable
    by_contra ahead
    have later : started < endedAt.floor := not_le.mp ahead
    have ready : (readyAfter endedAt : Rat) = endedAt.floor + 3 := by
      rw [readyAfter_eq]
      push_cast
      rfl
    have skew : (clockSkew : Rat) = 2 := by
      rw [clockSkew]
      norm_num
    have returned : waitOutAnEnd (.number endedAt) started [] =
        some started := by
      simp only [waitOutAnEnd]
      rw [if_neg]
      rintro ⟨-, short⟩
      linarith
    have usable_now := ((usable [] trivial).1 started returned).1 started
      le_rfl
    have floor_started := Rat.floor_le started
    have floor_ended := Rat.floor_le endedAt
    apply of_decide_eq_false usable_now
    rw [issuedAt]
    linarith
  · exact usable_of_begun

/-- A replica that is two seconds behind the one that recorded the end does not
wait, and its token counts as ended. -/
theorem token_unusable :
    (102 : Rat) ≤ 100 + clockSkew ∧ ¬Usable 0 102 100 ∧
      waitOutAnEnd (.number 102) 100 [] = some 100 ∧
      ended false (.number 102) (some (issuedAt 100)) = true := by
  have returned : waitOutAnEnd (.number 102) 100 [] = some 100 := by
    decide +kernel
  have refused :
      ended false (.number 102) (some (issuedAt 100)) = true := by
    decide +kernel
  refine ⟨by decide +kernel, ?_, returned, refused⟩
  intro usable
  have usable_now := ((usable [] trivial).1 100 returned).1 100 le_rfl
  rw [refused] at usable_now
  cases usable_now

end IndustryFlow.SessionEnd
