import IndustryFlow.Alerts.Reading
import IndustryFlow.Alerts.RuleRuns
import IndustryFlow.Fallible

/-!
# What a threshold rule means

The detector evaluates a rule for a reading of the sensor or the equipment that
it names.  It looks at the bounds only where no condition is set with a
threshold, and then fires outside of them.  So four conditions mean what they
say once they have their threshold, `outside_range` does without one, and
`between` does not.
-/

namespace IndustryFlow.AlertRules

open AlertWorker (Reading Own isFinite)
open Concurrent
open Isoformat (Datetime fromIsoformat isoformat)
open JsonText (Text)

/-! ## The detector -/

/-- What the detector takes from its surroundings. -/
structure Detector where
  /-- `datetime.fromisoformat` of a text that no time is written as. -/
  otherTime : String → Option Datetime
  /-- `datetime.now(timezone.utc)`. -/
  now : Datetime
  /-- `format(value, ".2f")`. -/
  twoPlaces : UInt64 → String
  /-- `_evaluate_ml`. -/
  evaluateMl : Row → Reading → Except Own Bool

structure Alert where
  ruleId : Nat
  sensorId : Text
  equipmentId : Option Text
  siteId : JsonText.Value
  triggeredAt : Datetime
  actualValue : UInt64
  thresholdValue : UInt64
  condition : String
  severity : Severity
  message : String

/-- The rule names the sensor of the reading, or its equipment. -/
def matchesTarget (row : Row) (reading : Reading) : Bool :=
  row .sensorId = some reading.sensorId ||
    ((row .equipmentId).isSome && row .equipmentId = reading.equipmentId)

/-- The loop body of `_get_applicable_rules`. -/
def applicable (row : Row) (reading : Reading) : Bool :=
  row .enabled = some true && row .detectionType ≠ some .ml &&
    matchesTarget row reading

/-- The branches of `_evaluate_threshold`: what the alert calls the condition,
and the threshold. -/
def triggered (row : Row) (value : UInt64) : Option (String × UInt64) :=
  match row .condition, row .threshold with
  | some .greaterThan, some threshold =>
      if Doubles.lt threshold value then some ("greater_than", threshold)
      else none
  | some .lessThan, some threshold =>
      if Doubles.lt value threshold then some ("less_than", threshold)
      else none
  | some .equals, some threshold =>
      if Doubles.eq value threshold then some ("equals", threshold) else none
  | some .notEquals, some threshold =>
      if Doubles.eq value threshold then none
      else some ("not_equals", threshold)
  | some .between, some _ | some .outsideRange, some _ => none
  | _, _ =>
      match (row .thresholdMin).filter (Doubles.lt value) with
      | some thresholdMin => some ("below_min", thresholdMin)
      | none => ((row .thresholdMax).filter (Doubles.lt · value)).map
          fun thresholdMax => ("above_max", thresholdMax)

/-- `text.replace("Z", "+00:00")`. -/
def withOffset (text : String) : String :=
  String.ofList (text.toList.flatMap fun char =>
    if char = 'Z' then "+00:00".toList else [char])

/-- The time of the alert. -/
def triggeredAt (detector : Detector) (reading : Reading) :
    Except Own Datetime :=
  match reading.time.or reading.timestamp with
  | none => .ok detector.now
  | some text =>
      match fromIsoformat detector.otherTime (withOffset text) with
      | some time => .ok time
      | none => .error (.other "Invalid isoformat string")

/-- `_evaluate_threshold`. -/
def evaluateThreshold (detector : Detector) (ruleId : Nat) (row : Row)
    (reading : Reading) : Except Own (Option Alert) :=
  match triggered row reading.value with
  | none => .ok none
  | some (condition, thresholdValue) => do
      let triggeredAt ← triggeredAt detector reading
      .ok (some
        { ruleId, triggeredAt, thresholdValue, condition
          sensorId := reading.sensorId
          equipmentId := reading.equipmentId
          siteId := reading.siteId
          actualValue := reading.value
          severity := (row .severity).getD .medium
          message := "Threshold alert: " ++ (row .name).getD "" ++
            " - Value " ++ detector.twoPlaces reading.value ++ " is " ++
            condition.replace "_" " " })

/-- Whether `_evaluate_rule` builds an alert for a rule that applies. -/
def alerts (detector : Detector) (ruleId : Nat) (row : Row)
    (reading : Reading) : Except Own Bool :=
  if applicable row reading then
    match row .detectionType with
    | some .threshold =>
        (evaluateThreshold detector ruleId row reading).map Option.isSome
    | some .ml => detector.evaluateMl row reading
    | some .statistical | none => .ok false
  else .ok false

/-! ## What the rule says -/

/-- The condition holds of the value. -/
def Holds (row : Row) (value : UInt64) : Prop :=
  match row .condition with
  | none => False
  | some .greaterThan => ∃ threshold ∈ row .threshold,
      Doubles.lt threshold value = true
  | some .lessThan => ∃ threshold ∈ row .threshold,
      Doubles.lt value threshold = true
  | some .equals => ∃ threshold ∈ row .threshold,
      Doubles.eq value threshold = true
  | some .notEquals => ∃ threshold ∈ row .threshold,
      Doubles.eq value threshold = false
  | some .between => ∃ low ∈ row .thresholdMin, ∃ high ∈ row .thresholdMax,
      Doubles.le low value = true ∧ Doubles.le value high = true
  | some .outsideRange =>
      ∃ low ∈ row .thresholdMin, ∃ high ∈ row .thresholdMax,
        Doubles.lt value low = true ∨ Doubles.lt high value = true

/-- The operands of the condition are there. -/
def HasOperands (row : Row) : Prop :=
  match row .condition with
  | none => False
  | some .between | some .outsideRange =>
      (row .thresholdMin).isSome = true ∧ (row .thresholdMax).isSome = true
  | _ => (row .threshold).isSome = true

/-- The rule names a sensor or an equipment. -/
def HasTarget (row : Row) : Prop :=
  (row .sensorId).isSome = true ∨ (row .equipmentId).isSome = true

/-- A time of the reading is written as `isoformat` writes it. -/
def Timed (reading : Reading) : Prop :=
  ∀ text, reading.time = some text ∨ reading.timestamp = some text →
    ∃ time : Datetime, text = isoformat time.toFields

/-- The rule has what its evaluation needs, and the detector builds an alert
for a reading it targets if and only if its condition holds. -/
def MeansWhatItSays (detector : Detector) (ruleId : Nat) (row : Row) :
    Prop :=
  HasTarget row ∧ HasOperands row ∧
    ∀ reading, isFinite reading.value = true → Timed reading →
      matchesTarget row reading = true →
        ∃ built, alerts detector ruleId row reading = .ok built ∧
          (built = true ↔ Holds row reading.value)

/-- No finite value lies in the range. -/
def NothingBetween (low high : UInt64) : Prop :=
  ∀ value, isFinite value = true →
    ¬(Doubles.le low value = true ∧ Doubles.le value high = true)

/-- No finite value lies outside of the range. -/
def NothingOutside (low high : UInt64) : Prop :=
  ∀ value, isFinite value = true →
    ¬(Doubles.lt value low = true ∨ Doubles.lt high value = true)

/-- The rule is one that the detector evaluates as it reads. -/
def Evaluable (row : Row) : Prop :=
  HasTarget row ∧
    match row .condition with
    | none => False
    | some .between => ∃ low ∈ row .thresholdMin,
        ∃ high ∈ row .thresholdMax, NothingBetween low high ∧
          ((row .threshold).isSome = true ∨ NothingOutside low high)
    | some .outsideRange => ∃ low ∈ row .thresholdMin,
        ∃ high ∈ row .thresholdMax,
          row .threshold = none ∨ NothingOutside low high
    | _ => (row .threshold).isSome = true

/-! ## Building the alert -/

theorem fixed_no_zone (width number : Nat) :
    'Z' ∉ Isoformat.fixed width number := by
  intro member
  have digit := List.all_eq_true.mp (Isoformat.fixed_isDigit width number)
    'Z' member
  exact absurd digit (by decide)

/-- No time is written with a `Z`. -/
theorem isoformat_no_zone (fields : Isoformat.Fields) :
    'Z' ∉ (isoformat fields).toList := by
  have fraction (microsecond : Nat) :
      'Z' ∉ Isoformat.fractionText microsecond := by
    unfold Isoformat.fractionText
    split <;> simp [fixed_no_zone]
  have seconds (microseconds : Nat) :
      'Z' ∉ Isoformat.secondsText microseconds := by
    unfold Isoformat.secondsText
    split <;> simp [fixed_no_zone, fraction]
  have offset : 'Z' ∉ Isoformat.offsetText fields.offset := by
    cases fields.offset with
    | none => exact List.not_mem_nil
    | some shift =>
        simp only [Isoformat.offsetText]
        split <;> simp [fixed_no_zone, seconds]
  simp [isoformat, String.toList_ofList, fixed_no_zone, fraction, offset]

theorem withOffset_isoformat (fields : Isoformat.Fields) :
    withOffset (isoformat fields) = isoformat fields := by
  have kept : ∀ char ∈ (isoformat fields).toList,
      (if char = 'Z' then "+00:00".toList else [char]) = [char] := by
    intro char member
    refine if_neg fun zone => isoformat_no_zone fields ?_
    rw [← zone]
    exact member
  rw [withOffset, List.flatMap_congr kept, List.flatMap_singleton',
    String.ofList_toList]

theorem triggeredAt_ok (detector : Detector) {reading : Reading}
    (timed : Timed reading) :
    ∃ time, triggeredAt detector reading = .ok time := by
  unfold triggeredAt
  cases there : reading.time.or reading.timestamp with
  | none => exact ⟨_, rfl⟩
  | some text =>
      have named : reading.time = some text ∨
          reading.timestamp = some text := by
        cases first : reading.time with
        | none =>
            rw [first] at there
            exact .inr there
        | some other =>
            rw [first] at there
            exact .inl there
      obtain ⟨time, rfl⟩ := timed text named
      refine ⟨time, ?_⟩
      dsimp only
      rw [withOffset_isoformat, Isoformat.fromIsoformat_isoformat]

/-- A branch of `_evaluate_threshold` is taken. -/
def Fires (row : Row) (value : UInt64) : Prop :=
  (triggered row value).isSome = true

theorem alerts_eq {detector : Detector} {ruleId : Nat} {row : Row}
    {reading : Reading} (threshold : row .detectionType = some .threshold)
    (enabled : row .enabled = some true) (timed : Timed reading)
    (target : matchesTarget row reading = true) :
    alerts detector ruleId row reading =
      .ok (triggered row reading.value).isSome := by
  have applies : applicable row reading = true := by
    simp [applicable, threshold, enabled, target]
  rw [alerts, if_pos applies, threshold]
  simp only [evaluateThreshold]
  cases branch : triggered row reading.value with
  | none => rfl
  | some taken =>
      obtain ⟨time, read⟩ := triggeredAt_ok detector timed
      simp only [read]
      rfl

/-- A reading of the target, with this value. -/
def targeted (row : Row) (value : UInt64) : Reading where
  sensorId := (row .sensorId).getD []
  equipmentId := row .equipmentId
  value := value
  time := none
  timestamp := none
  siteId := .null

theorem targeted_matches {row : Row} (target : HasTarget row)
    (value : UInt64) : matchesTarget row (targeted row value) = true := by
  rcases target with sensor | equipment
  · obtain ⟨sensorId, found⟩ := Option.isSome_iff_exists.mp sensor
    simp [matchesTarget, targeted, found]
  · simp [matchesTarget, targeted, equipment]

theorem meansWhatItSays_iff {detector : Detector} {ruleId : Nat} {row : Row}
    (threshold : row .detectionType = some .threshold)
    (enabled : row .enabled = some true) :
    MeansWhatItSays detector ruleId row ↔ HasTarget row ∧ HasOperands row ∧
      ∀ value, isFinite value = true → (Fires row value ↔ Holds row value) := by
  constructor
  · rintro ⟨target, operands, agrees⟩
    refine ⟨target, operands, fun value finite => ?_⟩
    have timed : Timed (targeted row value) := by
      rintro text (never | never)
      · cases never
      · cases never
    have matched := targeted_matches target value
    obtain ⟨built, same, means⟩ :=
      agrees (targeted row value) finite timed matched
    rw [alerts_eq threshold enabled timed matched] at same
    rw [← Except.ok.inj same] at means
    exact means
  · rintro ⟨target, operands, agrees⟩
    refine ⟨target, operands, fun reading finite timed matched => ?_⟩
    exact ⟨_, alerts_eq threshold enabled timed matched,
      agrees reading.value finite⟩

/-! ## The branches -/

theorem bounds_fire_iff {row : Row} {low high : UInt64}
    (condition : row .condition = some .between ∨
      row .condition = some .outsideRange)
    (unset : row .threshold = none) (lower : row .thresholdMin = some low)
    (upper : row .thresholdMax = some high) (value : UInt64) :
    Fires row value ↔
      Doubles.lt value low = true ∨ Doubles.lt high value = true := by
  have bounds : Fires row value ↔
      (match (some low).filter (Doubles.lt value) with
      | some thresholdMin => some ("below_min", thresholdMin)
      | none => ((some high).filter (Doubles.lt · value)).map
          fun thresholdMax => ("above_max", thresholdMax)).isSome = true := by
    unfold Fires triggered
    rcases condition with same | same
    · rw [same, unset, lower, upper]
    · rw [same, unset, lower, upper]
  rw [bounds]
  cases below : Doubles.lt value low with
  | true => simp [Option.filter_some, below]
  | false => simp [Option.filter_some, below]

/-- With a threshold the two conditions over bounds never fire. -/
theorem bounds_quiet {row : Row} {threshold value : UInt64}
    (condition : row .condition = some .between ∨
      row .condition = some .outsideRange)
    (set : row .threshold = some threshold) : ¬Fires row value := by
  unfold Fires triggered
  rcases condition with same | same
  · rw [same, set]
    exact Bool.false_ne_true
  · rw [same, set]
    exact Bool.false_ne_true

/-- A value is not in a range and outside of it. -/
theorem not_both {low high value : UInt64}
    (inside : Doubles.le low value = true ∧ Doubles.le value high = true) :
    ¬(Doubles.lt value low = true ∨ Doubles.lt high value = true) := by
  rw [Doubles.not_lt_of_le inside.1, Doubles.not_lt_of_le inside.2]
  simp

/-- The four conditions with a threshold mean what they say. -/
theorem compared_agrees {row : Row} {threshold : UInt64}
    {condition : Condition} (named : row .condition = some condition)
    (set : row .threshold = some threshold)
    (compares : condition ≠ .between ∧ condition ≠ .outsideRange)
    (value : UInt64) : Fires row value ↔ Holds row value := by
  unfold Fires triggered Holds
  rw [named, set]
  cases condition with
  | between => exact absurd rfl compares.1
  | outsideRange => exact absurd rfl compares.2
  | greaterThan =>
      cases compared : Doubles.lt threshold value <;> simp [compared]
  | lessThan =>
      cases compared : Doubles.lt value threshold <;> simp [compared]
  | equals =>
      cases compared : Doubles.eq value threshold <;> simp [compared]
  | notEquals =>
      cases compared : Doubles.eq value threshold <;> simp [compared]

theorem between_agrees_iff {row : Row} {low high : UInt64}
    (named : row .condition = some .between)
    (lower : row .thresholdMin = some low)
    (upper : row .thresholdMax = some high) :
    (∀ value, isFinite value = true → (Fires row value ↔ Holds row value)) ↔
      NothingBetween low high ∧
        ((row .threshold).isSome = true ∨ NothingOutside low high) := by
  have holds (value : UInt64) : Holds row value ↔
      Doubles.le low value = true ∧ Doubles.le value high = true := by
    unfold Holds
    simp [named, lower, upper]
  cases set : row .threshold with
  | some threshold =>
      have quiet (value : UInt64) : ¬Fires row value :=
        bounds_quiet (.inl named) set
      constructor
      · intro agrees
        refine ⟨fun value finite inside => ?_, .inl rfl⟩
        exact quiet value
          ((agrees value finite).mpr ((holds value).mpr inside))
      · rintro ⟨nothing, -⟩ value finite
        refine ⟨fun fires => absurd fires (quiet value), fun held => ?_⟩
        exact absurd ((holds value).mp held) (nothing value finite)
  | none =>
      have fires (value : UInt64) := bounds_fire_iff (.inl named) set lower
        upper value
      constructor
      · intro agrees
        constructor
        · intro value finite inside
          have fired := (agrees value finite).mpr ((holds value).mpr inside)
          exact not_both inside ((fires value).mp fired)
        · refine .inr fun value finite outside => ?_
          have held := (agrees value finite).mp ((fires value).mpr outside)
          exact not_both ((holds value).mp held) outside
      · rintro ⟨nothing, set | outside⟩ value finite
        · cases set
        · rw [fires value, holds value]
          exact ⟨fun out => absurd out (outside value finite),
            fun inside => absurd inside (nothing value finite)⟩

theorem outside_agrees_iff {row : Row} {low high : UInt64}
    (named : row .condition = some .outsideRange)
    (lower : row .thresholdMin = some low)
    (upper : row .thresholdMax = some high) :
    (∀ value, isFinite value = true → (Fires row value ↔ Holds row value)) ↔
      row .threshold = none ∨ NothingOutside low high := by
  have holds (value : UInt64) : Holds row value ↔
      Doubles.lt value low = true ∨ Doubles.lt high value = true := by
    unfold Holds
    simp [named, lower, upper]
  cases set : row .threshold with
  | some threshold =>
      have quiet (value : UInt64) : ¬Fires row value :=
        bounds_quiet (.inr named) set
      constructor
      · intro agrees
        refine .inr fun value finite outside => ?_
        exact quiet value
          ((agrees value finite).mpr ((holds value).mpr outside))
      · rintro (unset | nothing) value finite
        · cases unset
        · refine ⟨fun fires => absurd fires (quiet value), fun held => ?_⟩
          exact absurd ((holds value).mp held) (nothing value finite)
  | none =>
      refine ⟨fun _ => .inl rfl, fun _ value _ => ?_⟩
      rw [bounds_fire_iff (.inr named) set lower upper, holds]

/-- The operands are there and the branches agree with the condition. -/
theorem agrees_iff (row : Row) :
    (HasOperands row ∧ ∀ value, isFinite value = true →
      (Fires row value ↔ Holds row value)) ↔
    match row .condition with
    | none => False
    | some .between => ∃ low ∈ row .thresholdMin,
        ∃ high ∈ row .thresholdMax, NothingBetween low high ∧
          ((row .threshold).isSome = true ∨ NothingOutside low high)
    | some .outsideRange => ∃ low ∈ row .thresholdMin,
        ∃ high ∈ row .thresholdMax,
          row .threshold = none ∨ NothingOutside low high
    | _ => (row .threshold).isSome = true := by
  unfold HasOperands
  cases named : row .condition with
  | none => simp
  | some condition =>
      cases condition with
      | between =>
          constructor
          · rintro ⟨⟨lower, upper⟩, agrees⟩
            obtain ⟨low, lower⟩ := Option.isSome_iff_exists.mp lower
            obtain ⟨high, upper⟩ := Option.isSome_iff_exists.mp upper
            exact ⟨low, lower, high, upper,
              (between_agrees_iff named lower upper).mp agrees⟩
          · rintro ⟨low, lower, high, upper, evaluable⟩
            refine ⟨⟨?_, ?_⟩, ?_⟩
            · exact Option.isSome_of_mem lower
            · exact Option.isSome_of_mem upper
            · exact (between_agrees_iff named lower upper).mpr evaluable
      | outsideRange =>
          constructor
          · rintro ⟨⟨lower, upper⟩, agrees⟩
            obtain ⟨low, lower⟩ := Option.isSome_iff_exists.mp lower
            obtain ⟨high, upper⟩ := Option.isSome_iff_exists.mp upper
            exact ⟨low, lower, high, upper,
              (outside_agrees_iff named lower upper).mp agrees⟩
          · rintro ⟨low, lower, high, upper, evaluable⟩
            refine ⟨⟨?_, ?_⟩, ?_⟩
            · exact Option.isSome_of_mem lower
            · exact Option.isSome_of_mem upper
            · exact (outside_agrees_iff named lower upper).mpr evaluable
      | _ =>
          refine ⟨And.left, fun set => ⟨set, fun value _ => ?_⟩⟩
          obtain ⟨threshold, there⟩ := Option.isSome_iff_exists.mp set
          exact compared_agrees named there (by decide) value

theorem means_iff_evaluable (detector : Detector) (ruleId : Nat) {row : Row}
    (threshold : row .detectionType = some .threshold)
    (enabled : row .enabled = some true) :
    MeansWhatItSays detector ruleId row ↔ Evaluable row := by
  rw [meansWhatItSays_iff threshold enabled, agrees_iff]
  exact Iff.rfl

/-! ## Readings -/

/-! ## Runs -/

/-- A threshold rule that is enabled. -/
def Watched (row : Row) : Prop :=
  row .detectionType = some .threshold ∧ row .enabled = some true

/-- A rule that the call stores is one that the detector evaluates as it
reads. -/
def StoresEvaluable : Op → Prop
  | .commit _ (.insert row) | .commit _ (.update _ _ row) =>
      Watched row → Evaluable row
  | _ => True

def Stores (accepts : Op → Prop) (service : Service) : Event → Prop
  | .step index _ | .lose index _ =>
      ∀ op ∈ (service.threads[index]?).bind (·.program.next?), accepts op
  | _ => True

/-- Every watched rule is one that the detector evaluates as it reads. -/
def AllEvaluable (database : Database) : Prop :=
  ∀ rule row, database.rows rule = some row → Watched row → Evaluable row

theorem AllEvaluable.set {database : Database} {rule : Nat} {row : Option Row}
    (before : AllEvaluable database)
    (stored : ∀ latest, row = some latest → Watched latest →
      Evaluable latest) : AllEvaluable (database.set rule row) := by
  intro other found there
  simp only [Database.set, Function.update_apply] at there
  split at there
  · exact stored found there
  · exact before other found there

theorem apply_evaluable {database after : Database} {owner : Nat}
    {write : Write} (before : AllEvaluable database)
    (stores : StoresEvaluable (.commit owner write))
    (applied : database.apply owner write = some after) :
    AllEvaluable after := by
  cases write with
  | nothing =>
      cases applied
      exact before
  | insert row =>
      simp only [Database.apply] at applied
      split at applied
      · cases applied
      · cases applied
        refine before.set fun latest same => ?_
        cases same
        exact stores
  | update rule changes row =>
      simp only [Database.apply] at applied
      split at applied
      · cases applied
      · cases applied
        have stored : AllEvaluable (database.set rule (some row)) := by
          refine before.set fun latest same => ?_
          cases same
          exact stores
        exact stored
  | delete rule =>
      cases applied
      refine before.set fun latest same => ?_
      cases same

theorem exec_evaluable {database after : Database} {op : Op}
    {choice : Choice} {reply : Reply op} (before : AllEvaluable database)
    (stores : StoresEvaluable op)
    (executed : exec database op choice = some (reply, after)) :
    AllEvaluable after := by
  by_cases commits : op.isCommit
  · cases op with
    | commit owner write =>
        cases choice with
        | raises =>
            cases executed
            exact before
        | succeeds =>
            simp only [exec] at executed
            split at executed
            · split at executed
              · cases executed
                exact before
              · rename_i applied
                cases executed
                have stored := apply_evaluable before stores applied
                exact stored
            · cases executed
              exact before
    | _ => exact commits.elim
  · intro rule row there
    rw [exec_rows commits executed] at there
    exact before rule row there

variable {libraries : Libraries}

theorem step_evaluable {service next : Service} {event : Event}
    (before : AllEvaluable service.shared)
    (stores : Stores StoresEvaluable service event)
    (taken : Pool.step (routes libraries) service event = some next) :
    AllEvaluable next.shared := by
  cases Pool.stepped taken with
  | spawn request => exact before
  | abort running => exact before
  | step running executed =>
      refine exec_evaluable before (stores _ ?_) executed
      rw [running]
      rfl
  | lose running executed =>
      refine exec_evaluable before (stores _ ?_) executed
      rw [running]
      rfl
  | environment changed =>
      cases changed
      exact before

/-- In every run the rules that mean what they say are those that the detector
evaluates as they read, and where only such rules are stored every one of them
does. -/
theorem stored_rules_mean (libraries : Libraries) (detector : Detector)
    (events : List Event) (final : Service)
    (ran : run (Pool.step (routes libraries)) (.start (.start fun _ => none))
      events = some final) :
    (∀ rule row, final.shared.rows rule = some row → Watched row →
      (MeansWhatItSays detector rule row ↔ Evaluable row)) ∧
    (Along (Pool.step (routes libraries)) (Stores StoresEvaluable)
        (.start (.start fun _ => none)) events →
      ∀ rule row, final.shared.rows rule = some row → Watched row →
        MeansWhatItSays detector rule row) := by
  have exact (rule : Nat) (row : Row) (watched : Watched row) :
      MeansWhatItSays detector rule row ↔ Evaluable row :=
    means_iff_evaluable detector rule watched.1 watched.2
  refine ⟨fun rule row _ watched => exact rule row watched, ?_⟩
  intro stores rule row there watched
  have all : AllEvaluable final.shared := by
    refine run_preserves_along (fun service => AllEvaluable service.shared)
      ?_ ?_ stores ran
    · exact fun _ _ _ before stores taken =>
        step_evaluable before stores taken
    · intro rule row there
      cases there
  exact (exact rule row watched).mpr (all rule row there watched)

/-! ## Two rules -/

def sampleDetector : Detector where
  otherTime := fun _ => none
  now := ⟨⟨2026, 1, 1, 0, 0, 0, 0, some 0⟩, by decide⟩
  twoPlaces := fun _ => ""
  evaluateMl := fun _ _ => .ok false

def ten : UInt64 := 4621819117588971520

def fifteen : UInt64 := 4624633867356078080

def twenty : UInt64 := 4626322717216342016

def sampleSensor : Text := [97]

/-- A rule for values between ten and twenty. -/
def betweenBody : Given
  | .name => some (some "pressure")
  | .sensorId => some (some sampleSensor)
  | .condition => some (some .between)
  | .thresholdMin => some (some ten)
  | .thresholdMax => some (some twenty)
  | _ => none

/-- A rule for values above ten. -/
def aboveBody : Given
  | .name => some (some "pressure")
  | .sensorId => some (some sampleSensor)
  | .condition => some (some .greaterThan)
  | .threshold => some (some ten)
  | _ => none

def stores (body : Given) : List Event :=
  .spawn (.create body) :: steps 0 2

def sampleReading : Reading where
  sensorId := sampleSensor
  equipmentId := none
  value := fifteen
  time := none
  timestamp := none
  siteId := .null

/-- A stored rule is quiet about a value of the range that it is for. -/
theorem stored_rule_misread :
    ¬∀ (libraries : Libraries) (detector : Detector) (events : List Event)
      (final : Service),
      run (Pool.step (routes libraries)) (.start (.start fun _ => none))
        events = some final →
      ∀ rule row, final.shared.rows rule = some row → Watched row →
        MeansWhatItSays detector rule row := by
  intro always
  have quiet : (storedAfter (stores betweenBody)).map (fun row =>
      ((row .detectionType, row .enabled),
        matchesTarget row sampleReading,
        (alerts sampleDetector 0 row sampleReading).toOption)) =
      some ((some .threshold, some true), true, some false) := by
    decide +kernel
  have operands : (storedAfter (stores betweenBody)).map (fun row =>
      (row .condition, row .thresholdMin, row .thresholdMax)) =
      some (some .between, some ten, some twenty) := by
    decide +kernel
  obtain ⟨row, found, same⟩ := Option.map_eq_some_iff.mp quiet
  obtain ⟨watched, same⟩ := Prod.mk.inj same
  obtain ⟨target, silent⟩ := Prod.mk.inj same
  rw [found] at operands
  obtain ⟨between, operands⟩ := Prod.mk.inj (Option.some.inj operands)
  obtain ⟨lower, upper⟩ := Prod.mk.inj operands
  obtain ⟨final, ran, there⟩ := Option.bind_eq_some_iff.mp found
  obtain ⟨-, -, means⟩ := always sampleLibraries sampleDetector
    (stores betweenBody) final ran 0 row there (Prod.mk.inj watched)
  have untimed : Timed sampleReading := by
    rintro text (never | never)
    · cases never
    · cases never
  obtain ⟨built, evaluated, agrees⟩ :=
    means sampleReading (by decide) untimed target
  have holds : Holds row sampleReading.value := by
    unfold Holds
    rw [between, lower, upper]
    exact ⟨ten, rfl, twenty, rfl, by decide, by decide⟩
  rw [evaluated, agrees.mpr holds] at silent
  cases silent

/-- The call stores a rule about a sensor that compares with a threshold. -/
def StoresCompared : Op → Prop
  | .commit _ (.insert row) | .commit _ (.update _ _ row) =>
      (row .sensorId).isSome = true ∧ row .condition = some .greaterThan ∧
        (row .threshold).isSome = true
  | _ => True

instance (op : Op) : Decidable (StoresCompared op) :=
  match op with
  | .commit _ (.insert _) | .commit _ (.update _ _ _) =>
      inferInstanceAs (Decidable (_ ∧ _ ∧ _))
  | .commit _ .nothing | .commit _ (.delete _) => .isTrue trivial
  | .begin | .select _ | .scan _ | .lock _ _ _ _ | .rollback _ =>
      .isTrue trivial

instance (service : Service) (event : Event) :
    Decidable (Stores StoresCompared service event) :=
  match event with
  | .step _ _ | .lose _ _ => inferInstanceAs (Decidable (∀ _ ∈ _, _))
  | .spawn _ | .abort _ | .environment _ => .isTrue trivial

theorem StoresCompared.evaluable {op : Op} (compared : StoresCompared op) :
    StoresEvaluable op := by
  have rule {row : Row} (compared : (row .sensorId).isSome = true ∧
      row .condition = some .greaterThan ∧
        (row .threshold).isSome = true) : Evaluable row := by
    obtain ⟨sensor, condition, threshold⟩ := compared
    refine ⟨.inl sensor, ?_⟩
    rw [condition]
    exact threshold
  cases op with
  | commit owner write =>
      cases write with
      | insert row => exact fun _ => rule compared
      | update edited changes row => exact fun _ => rule compared
      | _ => trivial
  | _ => trivial

/-- A rule with a threshold means what it says. -/
theorem stored_rules_mean_above : ∃ final : Service, ∃ row,
    final.shared.rows 0 = some row ∧
      MeansWhatItSays sampleDetector 0 row := by
  let step := Pool.step (routes sampleLibraries)
  let start : Service := .start (.start fun _ => none)
  have compared : Along step (Stores StoresCompared) start
      (stores aboveBody) := by
    decide +kernel
  have evaluable : Along step (Stores StoresEvaluable) start
      (stores aboveBody) := by
    refine compared.mono fun service event stored => ?_
    cases event with
    | step index choice => exact fun op next => (stored op next).evaluable
    | lose index choice => exact fun op next => (stored op next).evaluable
    | _ => trivial
  have ended : (storedAfter (stores aboveBody)).map (fun row =>
      (row .detectionType, row .enabled)) =
      some (some .threshold, some true) := by
    decide +kernel
  obtain ⟨row, found, same⟩ := Option.map_eq_some_iff.mp ended
  obtain ⟨final, ran, there⟩ := Option.bind_eq_some_iff.mp found
  exact ⟨final, row, there, (stored_rules_mean sampleLibraries sampleDetector
    (stores aboveBody) final ran).2 evaluable 0 row there
      (Prod.mk.inj same)⟩

end IndustryFlow.AlertRules
