import IndustryFlow.Tenancy.Keys
import Mathlib.Algebra.Order.Ring.Rat
import Mathlib.Tactic.Linarith

/-!
# The sign-in throttle

One record for an e-mail address counts the attempts of every source.
`RESERVE_SCRIPT` counts an attempt, or tells how long it has to wait; the whole
record expires when no attempt was counted for an hour.  Times are in seconds,
and the gateway's clock is the store's: a reading of the clock and a whole
number of seconds more are both exact in a double.

The two fields of a source are written and deleted together.
-/

namespace IndustryFlow.SignIn

open Tenancy (Text)

/-- `THRESHOLD`. -/
def threshold : Nat := 5

/-- `MAX_DELAY_SECONDS`. -/
def maxDelaySeconds : Nat := 300

/-- `FORGET_AFTER_SECONDS`. -/
def forgetAfterSeconds : Nat := 3600

/-- `delay_after`. -/
def delayAfter (failures : Nat) : Nat :=
  if failures < threshold then 0
  else min (2 ^ (failures - threshold)) maxDelaySeconds

/-! ## Sources -/

/-- The texts of an address that `ipaddress` reads. -/
inductive Address where
  | v4 (text : Text)
  /-- `str(address.ipv4_mapped)`, and its network of 64 bits. -/
  | v6 (mapped : Option Text) (network : Text)

variable (ipAddress : Text → Option Address)

/-- `_source`. -/
def sourceOf (source : Option Text) : Text :=
  let given := match source with
    | none | some [] => "unknown".toList
    | some text => text
  let text := given.take 64
  match ipAddress text with
  | none => text
  | some (.v4 address) => address
  | some (.v6 (some mapped) _) => mapped
  | some (.v6 none network) => network

/-! ## The record -/

/-- The fields `n:` and `at:` of a source. -/
structure Attempts where
  count : Nat
  last : Rat
deriving DecidableEq

structure Record where
  attempts : Text → Option Attempts
  expires : Rat

/-- A record is gone once its expiry has passed. -/
def live (time : Rat) (record : Option Record) : Option Record :=
  record.filter fun kept => time ≤ kept.expires

def attemptsOf (time : Rat) (record : Option Record) (source : Text) :
    Option Attempts :=
  (live time record).bind fun kept => kept.attempts source

/-- `2 ^ exponent` of doubles; `none` is infinity. -/
def luaPower (exponent : Nat) : Option Nat :=
  if exponent < 1024 then some (2 ^ exponent) else none

/-- `math.min` of such a number and a finite one. -/
def luaMin (number : Option Nat) (cap : Nat) : Nat :=
  match number with
  | some finite => min finite cap
  | none => cap

/-- `at + math.min(2 ^ (n - threshold), cap) - now`. -/
def remaining (count : Nat) (last now : Rat) : Rat :=
  last + luaMin (luaPower (count - threshold)) maxDelaySeconds - now

/-- `RESERVE_SCRIPT`. -/
def reserve (now : Rat) (source : Text) (record : Option Record) :
    Int × Option Record :=
  let found := attemptsOf now record source
  let count := (found.map Attempts.count).getD 0
  let last := (found.map Attempts.last).getD 0
  if threshold ≤ count ∧ 0 < remaining count last now then
    ((remaining count last now).ceil, live now record)
  else
    (0, some {
      attempts := Function.update (attemptsOf now record) source
        (some ⟨count + 1, now⟩)
      expires := now + forgetAfterSeconds })

/-- `HDEL` of both fields. -/
def succeeded (now : Rat) (source : Text) (record : Option Record) :
    Option Record :=
  (live now record).map fun kept =>
    { kept with attempts := Function.update kept.attempts source none }

/-! ## Runs -/

inductive Request where
  | reserve (source : Option Text)
  | succeeded (source : Option Text)
  /-- `cleared`: a new password. -/
  | cleared
deriving DecidableEq

/-- A call on the address. -/
structure Call where
  time : Rat
  request : Request
deriving DecidableEq

/-- The counted source of a call. -/
def Call.source (call : Call) : Option Text :=
  match call.request with
  | .reserve source | .succeeded source => some (sourceOf ipAddress source)
  | .cleared => none

/-- What a call of `reserve` answers, and the record after the call. -/
def step (record : Option Record) (call : Call) :
    Option Int × Option Record :=
  match call.request with
  | .reserve source =>
      let reserved := reserve call.time (sourceOf ipAddress source) record
      (some reserved.1, reserved.2)
  | .succeeded source =>
      (none, succeeded call.time (sourceOf ipAddress source) record)
  | .cleared => (none, none)

def after (record : Option Record) (calls : List Call) : Option Record :=
  calls.foldl (fun record call => (step ipAddress record call).2) record

/-- The calls with their answers. -/
def answers (record : Option Record) : List Call → List (Call × Option Int)
  | [] => []
  | call :: calls =>
      (call, (step ipAddress record call).1) ::
        answers (step ipAddress record call).2 calls

/-- The attempts that may check a password. -/
def admitted (record : Option Record) (calls : List Call) : List Call :=
  ((answers ipAddress record calls).filter (·.2 = some 0)).map Prod.fst

/-- The store's times do not go back. -/
def Ordered (calls : List Call) : Prop :=
  (calls.map Call.time).Pairwise (· ≤ ·)

instance (calls : List Call) : Decidable (Ordered calls) :=
  inferInstanceAs (Decidable (List.Pairwise _ _))

/-! ## One step -/

/-- The script's delay is the one the gateway documents, beyond the cap
too. -/
theorem luaMin_delayAfter {count : Nat} (slowed : threshold ≤ count) :
    luaMin (luaPower (count - threshold)) maxDelaySeconds =
      delayAfter count := by
  have large : ¬count < threshold := Nat.not_lt.mpr slowed
  rw [delayAfter, if_neg large, luaPower]
  split
  · rfl
  · next beyond =>
      have power : 2 ^ 9 ≤ 2 ^ (count - threshold) :=
        Nat.pow_le_pow_right (by decide) (by omega)
      have capped : maxDelaySeconds ≤ 2 ^ (count - threshold) :=
        Nat.le_trans (by decide) power
      exact (Nat.min_eq_right capped).symm

theorem delayAfter_mono {less more : Nat} (fewer : less ≤ more) :
    delayAfter less ≤ delayAfter more := by
  rw [delayAfter, delayAfter]
  split
  · exact Nat.zero_le _
  · next slowed =>
      have large : ¬more < threshold := by omega
      rw [if_neg large]
      have power : 2 ^ (less - threshold) ≤ 2 ^ (more - threshold) :=
        Nat.pow_le_pow_right (by decide) (by omega)
      omega

theorem delayAfter_le (failures : Nat) :
    delayAfter failures ≤ maxDelaySeconds := by
  rw [delayAfter]
  split
  · exact Nat.zero_le _
  · exact Nat.min_le_right _ _

/-- An attempt is refused exactly while its source has to wait. -/
theorem reserve_cases (now : Rat) (source : Text) (record : Option Record) :
    (∃ found, attemptsOf now record source = some found ∧
      threshold ≤ found.count ∧
      now < found.last + delayAfter found.count ∧
      reserve now source record =
        ((found.last + delayAfter found.count - now).ceil,
          live now record)) ∨
    ((∀ found, attemptsOf now record source = some found →
        found.last + delayAfter found.count ≤ now ∨
          found.count < threshold) ∧
      reserve now source record =
        (0, some {
          attempts := Function.update (attemptsOf now record) source (some
            ⟨((attemptsOf now record source).map Attempts.count).getD 0 + 1,
              now⟩)
          expires := now + forgetAfterSeconds })) := by
  rw [reserve]
  cases held : attemptsOf now record source with
  | none =>
      right
      constructor
      · nofun
      · rw [if_neg]
        rintro ⟨slowed, -⟩
        exact absurd slowed (by decide)
  | some found =>
      dsimp only [Option.map_some, Option.getD_some]
      by_cases slowed : threshold ≤ found.count
      · have left : remaining found.count found.last now =
            found.last + delayAfter found.count - now := by
          rw [remaining, luaMin_delayAfter slowed]
        simp only [left]
        by_cases waiting : now < found.last + delayAfter found.count
        · left
          refine ⟨found, rfl, slowed, waiting, ?_⟩
          rw [if_pos ⟨slowed, by linarith⟩]
        · right
          constructor
          · intro other same
            cases same
            exact .inl (not_lt.mp waiting)
          · rw [if_neg]
            rintro ⟨-, left⟩
            exact waiting (by linarith)
      · right
        constructor
        · intro other same
          cases same
          exact .inr (Nat.not_le.mp slowed)
        · rw [if_neg]
          exact fun both => slowed both.1

end IndustryFlow.SignIn
