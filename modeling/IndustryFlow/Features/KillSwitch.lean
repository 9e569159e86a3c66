import IndustryFlow.Concurrent.Run
import IndustryFlow.Tracking.Sources
import Mathlib.Algebra.Field.Rat
import Mathlib.Algebra.Order.Ring.Rat
import Mathlib.Data.NNRat.Defs
import Mathlib.Logic.Function.Basic

/-!
# The kill switch

The calls of one process share the last value that was read and when it runs
out.  A call writes both when its read is done, whichever reads have finished
since it began, and the expiry counts from its own start: so a value that is
still in use was stored no longer ago than the cache lasts.
-/

namespace IndustryFlow.KillSwitch

open Concurrent
open Tracking (strip)

/-! ## The stored switch -/

/-- What the query of `_SQL` gives. -/
inductive Stored where
  /-- No row, or NULL. -/
  | absent
  | bool (value : Bool)
  | text (value : List Char)
  | other
deriving DecidableEq

/-- `str.strip('"')`. -/
def stripQuotes (text : List Char) : List Char :=
  (text.dropWhile (· = '"')).rdropWhile (· = '"')

/-- `str.lower`, of the letters that matter here. -/
def lower (text : List Char) : List Char :=
  text.map Char.toLower

/-- What `_read` makes of an answer of the database. -/
def Stored.enabled : Stored → Bool
  | .absent => true
  | .bool value => value
  | .text value =>
      let text := lower (stripQuotes (strip value))
      if text = ['t', 'r', 'u', 'e'] ∨ text = ['f', 'a', 'l', 's', 'e'] then
        text = ['t', 'r', 'u', 'e']
      else true
  | .other => true

/-! ## The calls -/

/-- The fields of `StatefulFeatureSwitch` that change. -/
structure Switch where
  value : Bool
  expiresAt : ℚ
  everRead : Bool
deriving DecidableEq

/-- A call of `enabled` that waits for its read. -/
structure Call where
  /-- `now`. -/
  start : ℚ
  /-- How many moments had passed. -/
  begun : Nat
  /-- What the query has seen. -/
  sampled : Option Stored

/-- An answer of `enabled`, and what had happened by then. -/
structure Answer where
  value : Bool
  start : ℚ
  begun : Nat
  ended : Nat
  /-- What the reads that succeeded have seen. -/
  seen : List Stored
  /-- A read has failed. -/
  failed : Bool

/-- The process and the database.  The code does not read `moments`, `seen`,
`failed` and `answers`. -/
structure World where
  clock : ℚ
  stored : Stored
  switch : Switch
  calls : Nat → Option Call
  /-- The moments so far, and what was stored then. -/
  moments : List (ℚ × Stored)
  seen : List Stored
  failed : Bool
  answers : List Answer

def World.start (clock : ℚ≥0) (stored : Stored) : World where
  clock := clock
  stored := stored
  switch := ⟨true, 0, false⟩
  calls _ := none
  moments := []
  seen := []
  failed := false
  answers := []

inductive Event where
  | wait (time : ℚ≥0)
  /-- The switch is flipped, or its row changes in another way. -/
  | flip (stored : Stored)
  /-- `enabled` is called. -/
  | call (id : Nat)
  /-- The database reads the row for a call. -/
  | sample (id : Nat)
  /-- The answer comes. -/
  | finish (id : Nat)
  /-- The read fails, or takes longer than its timeout. -/
  | fail (id : Nat)

namespace World

variable (world : World)

/-- A moment passes. -/
def pass : World :=
  { world with moments := world.moments ++ [(world.clock, world.stored)] }

def answer (call : Call) (value : Bool) : World :=
  { world with
    answers := world.answers ++
      [⟨value, call.start, call.begun, world.moments.length, world.seen,
        world.failed⟩] }

def setCall (id : Nat) (call : Option Call) : World :=
  { world with calls := Function.update world.calls id call }

/-- `enabled`, up to the first `await`. -/
def begin (id : Nat) : World :=
  let call : Call := ⟨world.clock, world.moments.length, none⟩
  if world.clock < world.switch.expiresAt then
    world.answer call world.switch.value
  else world.setCall id (some call)

/-- `enabled` after a read that has failed. -/
def hold (cacheTtlSeconds : ℚ) (call : Call) : World :=
  { world with
    switch := { world.switch with expiresAt := call.start + cacheTtlSeconds }
    failed := true }

/-- `enabled` after a read. -/
def write (cacheTtlSeconds : ℚ) (call : Call) (sampled : Stored) : World :=
  { world with
    switch :=
      { value := sampled.enabled
        everRead := true
        expiresAt := call.start + cacheTtlSeconds }
    seen := world.seen ++ [sampled] }

end World

def step (cacheTtlSeconds : ℚ) (world : World) : Event → Option World
  | .wait time => some ({ world with clock := world.clock + time }).pass
  | .flip stored => some ({ world with stored }).pass
  | .call id =>
      match world.calls id with
      | none => some (world.begin id).pass
      | some _ => none
  | .sample id =>
      match world.calls id with
      | some ⟨start, begun, none⟩ =>
          some (world.setCall id (some ⟨start, begun, some world.stored⟩)).pass
      | _ => none
  | .finish id =>
      match world.calls id with
      | some ⟨start, begun, some sampled⟩ =>
          let call : Call := ⟨start, begun, some sampled⟩
          let written := (world.setCall id none).write cacheTtlSeconds call
            sampled
          some (written.answer call sampled.enabled).pass
      | _ => none
  | .fail id =>
      match world.calls id with
      | some call =>
          let held := (world.setCall id none).hold cacheTtlSeconds call
          some (held.answer call held.switch.value).pass
      | none => none

/-! ## The law -/

/-- The value was stored at a moment before the answer, and later than the
cache lasts before the call began. -/
def Recent (cacheTtlSeconds : ℚ) (moments : List (ℚ × Stored))
    (answer : Answer) : Prop :=
  ∃ index < answer.ended, ∃ (time : ℚ) (stored : Stored),
    moments[index]? = some (time, stored) ∧ stored.enabled = answer.value ∧
      (answer.start - cacheTtlSeconds < time ∨
        -- where nothing is cached, the call has read it itself
        cacheTtlSeconds ≤ 0 ∧ answer.begun ≤ index)

/-- What is said of an answer. -/
structure Answer.Right (cacheTtlSeconds : ℚ) (moments : List (ℚ × Stored))
    (answer : Answer) : Prop where
  killed : answer.value = false →
    ∃ stored ∈ answer.seen, stored.enabled = false
  unread : answer.seen = [] → answer.value = true
  recent : answer.failed = false → Recent cacheTtlSeconds moments answer

/-! ## What one step preserves -/

/-- The row that the call has read was stored at a moment since it began. -/
def Call.Sampled (moments : List (ℚ × Stored)) (call : Call) : Prop :=
  ∀ stored ∈ call.sampled, ∃ index time,
    moments[index]? = some (time, stored) ∧ call.begun ≤ index ∧
      call.start ≤ time

structure Sound (cacheTtlSeconds : ℚ) (world : World) : Prop where
  clock : 0 ≤ world.clock
  begun : ∀ id, ∀ call ∈ world.calls id, call.begun ≤ world.moments.length ∧
    call.start ≤ world.clock
  sampled : ∀ id, ∀ call ∈ world.calls id, call.Sampled world.moments
  unread : world.switch.everRead = false →
    world.switch.value = true ∧ (world.failed = false →
      world.switch.expiresAt = 0)
  held : world.switch.everRead = true →
    ∃ stored ∈ world.seen, stored.enabled = world.switch.value
  current : world.switch.everRead = true → world.failed = false →
    ∃ (index : Nat) (time : ℚ) (stored : Stored),
      world.moments[index]? = some (time, stored) ∧
        stored.enabled = world.switch.value ∧
          world.switch.expiresAt - cacheTtlSeconds ≤ time
  answers : ∀ answer ∈ world.answers,
    answer.Right cacheTtlSeconds world.moments

section

variable {cacheTtlSeconds : ℚ} {world next : World}

theorem start_sound (clock : ℚ≥0) (stored : Stored) :
    Sound cacheTtlSeconds (.start clock stored) where
  clock := clock.2
  begun := nofun
  sampled := nofun
  unread _ := ⟨rfl, fun _ => rfl⟩
  held := nofun
  current := nofun
  answers := nofun

theorem moment_append {moments : List (ℚ × Stored)} {index : Nat}
    {moment : ℚ × Stored} (known : moments[index]? = some moment)
    (later : ℚ × Stored) : (moments ++ [later])[index]? = some moment := by
  rw [List.getElem?_append_left (List.getElem?_eq_some_iff.mp known).1]
  exact known

theorem Answer.Right.append {moments : List (ℚ × Stored)} {answer : Answer}
    (right : answer.Right cacheTtlSeconds moments) (later : ℚ × Stored) :
    answer.Right cacheTtlSeconds (moments ++ [later]) := by
  refine ⟨right.killed, right.unread, fun whole => ?_⟩
  obtain ⟨index, before, time, stored, known, rest⟩ := right.recent whole
  exact ⟨index, before, time, stored, moment_append known later, rest⟩

theorem Call.Sampled.append {moments : List (ℚ × Stored)} {call : Call}
    (sampled : call.Sampled moments) (later : ℚ × Stored) :
    call.Sampled (moments ++ [later]) := by
  intro stored own
  obtain ⟨index, time, known, rest⟩ := sampled stored own
  exact ⟨index, time, moment_append known later, rest⟩

theorem Sound.pass (sound : Sound cacheTtlSeconds world) :
    Sound cacheTtlSeconds world.pass where
  clock := sound.clock
  begun id call waiting := by
    obtain ⟨begun, start⟩ := sound.begun id call waiting
    refine ⟨?_, start⟩
    rw [World.pass, List.length_append]
    exact Nat.le_add_right_of_le begun
  sampled id call waiting := (sound.sampled id call waiting).append _
  unread := sound.unread
  held := sound.held
  current read whole := by
    obtain ⟨index, time, stored, known, rest⟩ := sound.current read whole
    exact ⟨index, time, stored, moment_append known _, rest⟩
  answers answer given := (sound.answers answer given).append _

theorem Sound.answer (sound : Sound cacheTtlSeconds world) {call : Call}
    {value : Bool}
    (right : (Answer.mk value call.start call.begun world.moments.length
      world.seen world.failed).Right cacheTtlSeconds world.moments) :
    Sound cacheTtlSeconds (world.answer call value) where
  clock := sound.clock
  begun := sound.begun
  sampled := sound.sampled
  unread := sound.unread
  held := sound.held
  current := sound.current
  answers answer given := by
    rcases List.mem_append.mp given with before | last
    · exact sound.answers answer before
    · rw [List.mem_singleton.mp last]
      exact right

theorem Sound.setCall (sound : Sound cacheTtlSeconds world) (id : Nat)
    {call : Option Call}
    (begun : ∀ own ∈ call, own.begun ≤ world.moments.length ∧
      own.start ≤ world.clock)
    (sampled : ∀ own ∈ call, own.Sampled world.moments) :
    Sound cacheTtlSeconds (world.setCall id call) where
  clock := sound.clock
  begun other own waiting := by
    simp only [World.setCall, Function.update_apply] at waiting
    split at waiting
    · exact begun own waiting
    · exact sound.begun other own waiting
  sampled other own waiting := by
    simp only [World.setCall, Function.update_apply] at waiting
    split at waiting
    · exact sampled own waiting
    · exact sound.sampled other own waiting
  unread := sound.unread
  held := sound.held
  current := sound.current
  answers := sound.answers

/-- A value that is held is one that was read. -/
theorem Sound.killed (sound : Sound cacheTtlSeconds world)
    (off : world.switch.value = false) :
    ∃ stored ∈ world.seen, stored.enabled = false := by
  cases read : world.switch.everRead with
  | false =>
      rw [(sound.unread read).1] at off
      cases off
  | true =>
      rw [← off]
      exact sound.held read

theorem Sound.default (sound : Sound cacheTtlSeconds world)
    (none_seen : world.seen = []) : world.switch.value = true := by
  cases read : world.switch.everRead with
  | false => exact (sound.unread read).1
  | true =>
      obtain ⟨stored, member, -⟩ := sound.held read
      rw [none_seen] at member
      cases member

theorem Sound.begin (sound : Sound cacheTtlSeconds world) (id : Nat) :
    Sound cacheTtlSeconds (world.begin id) := by
  unfold World.begin
  split
  · rename_i cached
    refine sound.answer ⟨sound.killed, sound.default, fun whole => ?_⟩
    cases read : world.switch.everRead with
    | false =>
        rw [(sound.unread read).2 whole] at cached
        exact absurd sound.clock (not_le.mpr cached)
    | true =>
        obtain ⟨index, time, stored, known, same, since⟩ :=
          sound.current read whole
        refine ⟨index, (List.getElem?_eq_some_iff.mp known).1, time, stored,
          known, same, .inl (lt_of_lt_of_le ?_ since)⟩
        exact sub_lt_sub_right cached cacheTtlSeconds
  · refine sound.setCall id ?_ ?_
    · rintro call ⟨⟩
      exact ⟨le_rfl, le_rfl⟩
    · rintro call ⟨⟩ stored ⟨⟩

theorem Sound.hold (sound : Sound cacheTtlSeconds world) (call : Call) :
    Sound cacheTtlSeconds (world.hold cacheTtlSeconds call) where
  clock := sound.clock
  begun := sound.begun
  sampled := sound.sampled
  unread read := ⟨(sound.unread read).1, nofun⟩
  held := sound.held
  current _ := nofun
  answers := sound.answers

theorem Sound.write (sound : Sound cacheTtlSeconds world) {call : Call}
    {sampled : Stored} (own : call.Sampled world.moments)
    (read : call.sampled = some sampled) :
    Sound cacheTtlSeconds (world.write cacheTtlSeconds call sampled) where
  clock := sound.clock
  begun := sound.begun
  sampled := sound.sampled
  unread := nofun
  held _ := ⟨sampled, List.mem_append_right _ List.mem_cons_self, rfl⟩
  current _ _ := by
    obtain ⟨index, time, known, -, since⟩ := own sampled read
    refine ⟨index, time, sampled, known, rfl, ?_⟩
    rwa [World.write, add_sub_cancel_right]
  answers := sound.answers

theorem step_sound {event : Event} (sound : Sound cacheTtlSeconds world)
    (taken : step cacheTtlSeconds world event = some next) :
    Sound cacheTtlSeconds next := by
  cases event with
  | wait time =>
      cases taken
      refine Sound.pass ⟨?_, ?_, sound.sampled, sound.unread, sound.held,
        sound.current, sound.answers⟩
      · exact add_nonneg sound.clock time.2
      · intro id call waiting
        obtain ⟨begun, start⟩ := sound.begun id call waiting
        exact ⟨begun, start.trans (le_add_of_nonneg_right time.2)⟩
  | flip stored =>
      cases taken
      exact Sound.pass ⟨sound.clock, sound.begun, sound.sampled, sound.unread,
        sound.held, sound.current, sound.answers⟩
  | call id =>
      simp only [step] at taken
      split at taken
      · cases taken
        exact (sound.begin id).pass
      · cases taken
  | sample id =>
      simp only [step] at taken
      split at taken
      · rename_i start begun waiting
        cases taken
        -- the row as it is now is the last moment
        have passed := sound.pass
        refine passed.setCall id ?_ ?_
        · rintro call ⟨⟩
          exact passed.begun id ⟨start, begun, none⟩ waiting
        · rintro call ⟨⟩ stored ⟨⟩
          obtain ⟨earlier, before⟩ := sound.begun id _ waiting
          refine ⟨world.moments.length, world.clock, ?_, earlier, before⟩
          rw [World.pass, List.getElem?_concat_length]
      · cases taken
  | finish id =>
      simp only [step] at taken
      split at taken
      · rename_i start begun sampled waiting
        cases taken
        have own := sound.sampled id _ waiting
        have cleared := @Sound.setCall _ _ sound id none nofun nofun
        have written := cleared.write own rfl
        refine (written.answer ⟨?_, ?_, ?_⟩).pass
        · exact fun off => ⟨sampled,
            List.mem_append_right _ List.mem_cons_self, off⟩
        · exact fun none_seen =>
            absurd none_seen (List.append_ne_nil_of_right_ne_nil _
              (List.cons_ne_nil _ _))
        · intro whole
          obtain ⟨index, time, known, since, after⟩ := own sampled rfl
          refine ⟨index, (List.getElem?_eq_some_iff.mp known).1, time,
            sampled, known, rfl, ?_⟩
          by_cases lasting : 0 < cacheTtlSeconds
          · exact .inl (lt_of_lt_of_le (sub_lt_self _ lasting) after)
          · exact .inr ⟨not_lt.mp lasting, since⟩
      · cases taken
  | fail id =>
      simp only [step] at taken
      split at taken
      · rename_i call waiting
        cases taken
        have held := (@Sound.setCall _ _ sound id none nofun nofun).hold call
        exact (held.answer ⟨held.killed, held.default, nofun⟩).pass
      · cases taken

end

/-- Along every run of calls, reads, flips and failures, an answer is off only
if a read has seen the switch off, is on before any read has succeeded, and, if
no read has failed, is what was stored later than the cache lasts before the
call. -/
theorem enabled_right (cacheTtlSeconds : ℚ) (clock : ℚ≥0) (stored : Stored)
    (events : List Event) (world : World)
    (ran : run (step cacheTtlSeconds) (.start clock stored) events =
      some world) :
    ∀ answer ∈ world.answers, answer.Right cacheTtlSeconds world.moments :=
  (run_preserves (Sound cacheTtlSeconds)
    (fun _ _ _ sound taken => step_sound sound taken)
    (start_sound clock stored) ran).answers

theorem atLeastTwo_three : (2 + 1).AtLeastTwo :=
  inferInstance

attribute [local instance] atLeastTwo_three in
/-- The older of two reads finishes after the newer one, and a third call uses
what it has written. -/
def overtaken : List Event :=
  [.call 0, .sample 0, .flip (.bool false), .wait 1, .call 1, .sample 1,
    .finish 1, .finish 0, .wait 3, .call 2]

theorem enabled_right_overtaken :
    ∃ world, run (step 5) (.start 7 (.bool true)) overtaken = some world ∧
      world.answers.map Answer.value = [false, true, true] ∧
      ∀ answer ∈ world.answers, answer.Right 5 world.moments := by
  have values : (run (step 5) (.start 7 (.bool true)) overtaken).map
      (fun world => world.answers.map Answer.value) =
        some [false, true, true] := by
    decide +kernel
  obtain ⟨world, ran, same⟩ := Option.map_eq_some_iff.mp values
  exact ⟨world, ran, same,
    enabled_right 5 7 (.bool true) overtaken world ran⟩

end IndustryFlow.KillSwitch
