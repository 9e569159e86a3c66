import IndustryFlow.Audit.Event
import Mathlib.Data.List.Induction

/-!
# The rate limits of the record

`REPEAT_SCRIPT` records a repeatable event once per window and counts the
others; `UNKNOWN_REFUSAL_SCRIPT` records a refused unknown value once per
window, and so many of a source in the life of its counter.  Both are atomic.
Times are in milliseconds, and a key is gone once its expiry has passed.  `life`
numbers the lives of a counter and is not read by the script.
-/

namespace IndustryFlow.CapabilityAudit

/-- The numbers that the scripts are given. -/
structure Limits where
  /-- `REPEAT_WINDOW_SECONDS`. -/
  repeatWindow : Nat
  /-- `REPEAT_COUNT_TTL_SECONDS`. -/
  repeatCountTtl : Nat
  /-- `UNKNOWN_REFUSAL_WINDOW_SECONDS`. -/
  refusalWindow : Nat
  /-- `SOURCE_LIMIT`. -/
  sourceLimit : Nat
  /-- `SOURCE_WINDOW_SECONDS`. -/
  sourceWindow : Nat

def contractLimits : Limits where
  repeatWindow := 300 * 1000
  repeatCountTtl := 7 * 24 * 3600 * 1000
  refusalWindow := 3600 * 1000
  sourceLimit := 60
  sourceWindow := 60 * 1000

variable (limits : Limits)

/-! ## Repeats -/

/-- When the marker of an entry, plane, kind and reason expires, and its count
with when that expires. -/
structure Repeats where
  marker : Option Nat
  count : Option (Nat × Nat)
  positive : ∀ pending ∈ count, 0 < pending.1

namespace Repeats

def none_ : Repeats := ⟨none, none, nofun⟩

def marked (repeats : Repeats) (now : Nat) : Bool :=
  repeats.marker.any (now ≤ ·)

/-- The count, unless it has expired. -/
def pending (repeats : Repeats) (now : Nat) : Option Nat :=
  (repeats.count.filter (now ≤ ·.2)).map Prod.fst

/-- The keys as the script finds them. -/
def window (repeats : Repeats) (now : Nat) : Window where
  marked := repeats.marked now
  count := repeats.pending now
  positive := by
    intro number held
    obtain ⟨count, kept, rfl⟩ := Option.map_eq_some_iff.mp held
    exact repeats.positive count (Option.filter_eq_some_iff.mp kept).1

end Repeats

/-- `REPEAT_SCRIPT` at a time: the keys after it, and the `suppressed` count of
the event if it was appended. -/
def recordRepeat (now : Nat) (repeats : Repeats) :
    Repeats × Option (Option Nat) :=
  if repeats.marked now then
    (⟨repeats.marker,
      some ((repeats.pending now).getD 0 + 1, now + limits.repeatCountTtl),
      by
        intro pending same
        cases same
        exact Nat.succ_pos _⟩, none)
  else
    (⟨some (now + limits.repeatWindow), none, nofun⟩,
      some (repeats.pending now))

structure Appended where
  time : Nat
  suppressed : Option Nat
deriving DecidableEq

/-- One evaluation, with the events appended so far. -/
def repeatStep (state : Repeats × List Appended) (now : Nat) :
    Repeats × List Appended :=
  match recordRepeat limits now state.1 with
  | (repeats, none) => (repeats, state.2)
  | (repeats, some suppressed) => (repeats, state.2 ++ [⟨now, suppressed⟩])

/-- Evaluations at these times, from no keys. -/
def repeatRun (times : List Nat) : Repeats × List Appended :=
  times.foldl (repeatStep limits) (.none_, [])

/-- No evaluation finds the count expired. -/
def CountKept (times : List Nat) : Prop :=
  ∀ earlier now later, times = earlier ++ now :: later →
    ∀ count ∈ (repeatRun limits earlier).1.count, now ≤ count.2

/-! ## Refusals of unknown values -/

structure Counter where
  number : Nat
  expires : Nat
deriving DecidableEq

/-- The markers of the digests and the counters of the sources, by key. -/
structure Refusals where
  markers : String → Option Nat
  counters : String → Option Counter
  lives : String → Nat

def Refusals.none_ : Refusals :=
  ⟨fun _ => none, fun _ => none, fun _ => 0⟩

/-- The counter of a source, unless it has expired. -/
def Refusals.counter (store : Refusals) (now : Nat) (source : String) :
    Option Counter :=
  (store.counters source).filter (now ≤ ·.expires)

/-- `INCR`, and `EXPIRE` of a new counter. -/
def Refusals.increment (store : Refusals) (now : Nat) (source : String) :
    Nat × Refusals :=
  match store.counter now source with
  | some counter => (counter.number + 1, { store with
      counters := Function.update store.counters source
        (some { counter with number := counter.number + 1 }) })
  | none => (1, { store with
      counters := Function.update store.counters source
        (some ⟨1, now + limits.sourceWindow⟩)
      lives := Function.update store.lives source (store.lives source + 1) })

/-- `UNKNOWN_REFUSAL_SCRIPT`, which answers 1 when it appended the event. -/
def recordRefusal (now : Nat) (digest source : String) (store : Refusals) :
    Int × Refusals :=
  if (store.markers digest).any (now ≤ ·) then (0, store)
  else
    let counted := store.increment limits now source
    if limits.sourceLimit < counted.1 then
      (if counted.1 = limits.sourceLimit + 1 then -1 else -2, counted.2)
    else
      (1, { counted.2 with
        markers := Function.update counted.2.markers digest
          (some (now + limits.refusalWindow)) })

/-- An evaluation for the keys of a digest and a source. -/
structure Presented where
  time : Nat
  digest : String
  source : String
deriving DecidableEq

/-- An evaluation with its answer, and the life of the counter after it. -/
structure Answered where
  presented : Presented
  life : Nat
  answer : Int
deriving DecidableEq

def refusalStep (state : Refusals × List Answered) (presented : Presented) :
    Refusals × List Answered :=
  let recorded := recordRefusal limits presented.time presented.digest
    presented.source state.1
  (recorded.2, state.2 ++
    [⟨presented, recorded.2.lives presented.source, recorded.1⟩])

/-- Evaluations one after another, from no keys. -/
def refusalRun (evaluations : List Presented) : Refusals × List Answered :=
  evaluations.foldl (refusalStep limits) (.none_, [])

/-- How many evaluations counted in a life of a source's counter. -/
def counted (source : String) (life : Nat) (answers : List Answered) : Nat :=
  answers.countP fun answered => answered.presented.source = source ∧
    answered.life = life ∧ answered.answer ≠ 0

/-- How many of them were answered so. -/
def answeredWith (answer : Int) (source : String) (life : Nat)
    (answers : List Answered) : Nat :=
  answers.countP fun answered => answered.presented.source = source ∧
    answered.life = life ∧ answered.answer = answer

end IndustryFlow.CapabilityAudit
