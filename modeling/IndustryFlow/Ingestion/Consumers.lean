import IndustryFlow.Ingestion.Message
import IndustryFlow.Tenancy.Names
import Mathlib.Algebra.Group.Nat.Defs

/-!
# Two consumers of one reading

An accepted reading passes the guard of the Spark jobs and the checks of the
alert worker, and both read the same from it, unless its value is not finite,
its instant lies before the calendar, or its zone is farther from UTC than
Java's zones are (`agreed_iff_shared`).
-/

namespace IndustryFlow.Ingestion

open AlertWorker (codePoints get isFinite)
open Calendar (instant lastInstant)
open Isoformat (Datetime Fields isoformat fixed fractionText secondsText
  offsetText)
open JsonText (Text Value Limits)
open Measurements (Runtime Source Measurement canonicalUuid uuidText
  maxFutureSkew rlikeUuid hexGroup hexGroups uuidGroups isHex)

/-! ## Texts -/

theorem ofCodePoints_codePoints (text : String) :
    ofCodePoints (codePoints text) = some text := by
  have chars : ∀ chars : List Char,
      (chars.map Char.toNat).mapM (fun point =>
        if valid : point.isValidChar then
          some (Char.ofNatAux point valid) else none) = some chars := by
    intro chars
    induction chars with
    | nil => rfl
    | cons char chars induction =>
        have valid : char.toNat.isValidChar := char.valid
        rw [List.map_cons, List.mapM_cons, dif_pos valid, induction]
        rfl
  rw [ofCodePoints, codePoints, chars]
  exact congrArg some (String.ofList_toList)

theorem fixed_no_zone (width number : Nat) : 'Z' ∉ fixed width number := by
  intro member
  have digits := List.all_eq_true.mp (Isoformat.fixed_isDigit width number)
  exact absurd (digits 'Z' member) (by decide)

theorem fraction_no_zone (microsecond : Nat) :
    'Z' ∉ fractionText microsecond := by
  rw [fractionText]
  split
  · exact List.not_mem_nil
  · simp [fixed_no_zone]

theorem offset_no_zone (offset : Option Int) : 'Z' ∉ offsetText offset := by
  cases offset with
  | none => exact List.not_mem_nil
  | some shift =>
      have seconds : 'Z' ∉ secondsText (shift.natAbs % 60000000) := by
        rw [secondsText]
        split
        · exact List.not_mem_nil
        · simp [fixed_no_zone, fraction_no_zone]
      rw [offsetText]
      split
      · simp [fixed_no_zone, seconds]
      · simp [fixed_no_zone, seconds]

/-- A time is written without a `Z`. -/
theorem withOffset_isoformat (fields : Fields) :
    AlertWorker.Python.withOffset (codePoints (isoformat fields)) =
      codePoints (isoformat fields) := by
  have absent : 'Z' ∉ (isoformat fields).toList := by
    simp [isoformat, fixed_no_zone, fraction_no_zone, offset_no_zone]
  have kept : ∀ chars : List Char, 'Z' ∉ chars →
      AlertWorker.Python.withOffset (chars.map Char.toNat) =
        chars.map Char.toNat := by
    intro chars
    induction chars with
    | nil => exact fun _ => rfl
    | cons char chars induction =>
        intro absent
        have other : char.toNat ≠ 'Z'.toNat := by
          intro same
          exact absent (Char.toNat_inj.mp same ▸ List.mem_cons_self)
        have rest := induction fun member =>
          absent (List.mem_cons_of_mem _ member)
        rw [List.map_cons, AlertWorker.Python.withOffset, List.flatMap_cons,
          if_neg other]
        exact congrArg _ rest
  exact kept _ absent

/-! ## Identifiers -/

theorem hexGroup_append {group rest : List Char} {count : Nat}
    (length : group.length = count) (digits : group.all isHex = true) :
    hexGroup count (group ++ rest) = some rest := by
  have taken : (group ++ rest).take count = group := List.take_left' length
  have dropped : (group ++ rest).drop count = rest := List.drop_left' length
  rw [hexGroup, taken, dropped, if_pos ⟨length, digits⟩]

theorem hexGroups_cons {group rest : List Char} {count next : Nat}
    {counts : List Nat} (length : group.length = count)
    (digits : group.all isHex = true) :
    hexGroups (count :: next :: counts) (group ++ '-' :: rest) =
      hexGroups (next :: counts) rest := by
  rw [hexGroups, hexGroup_append length digits]
  · rfl
  · intro none
    cases none

/-- The guard takes a canonical UUID. -/
theorem rlikeUuid_uuidText {value : Nat} (small : value < 2 ^ 128) :
    rlikeUuid (uuidText value) = true := by
  have length : (Tenancy.Names.digitsOf value).length = 32 :=
    (Tenancy.Names.companyOf value small).length
  have lower := (Tenancy.Names.companyOf value small).hex
  have digits : ∀ char ∈ Tenancy.Names.digitsOf value, isHex char = true :=
    fun char member => Tenancy.Names.isHex_of_isLowerHex
      (List.all_eq_true.mp lower char member)
  have part : ∀ group : List Char, group <:+: Tenancy.Names.digitsOf value →
      group.all isHex = true := by
    intro group inside
    exact List.all_eq_true.mpr fun char member =>
      digits char (inside.subset member)
  rw [rlikeUuid, Tenancy.Names.uuidText_toList, Tenancy.grouped]
  generalize Tenancy.Names.digitsOf value = hex at length part
  have middle : ∀ skip count, ((hex.drop skip).take count).all isHex = true :=
    fun skip count => part _ ((List.take_prefix count _).isInfix.trans
      (List.drop_suffix skip _).isInfix)
  have last : (hex.drop 20).all isHex = true :=
    part _ (List.drop_suffix 20 _).isInfix
  have first : (hex.take 8).all isHex = true :=
    part _ (List.take_prefix 8 _).isInfix
  have matched : hexGroups uuidGroups (hex.take 8 ++ '-' ::
      ((hex.drop 8).take 4 ++ '-' :: ((hex.drop 12).take 4 ++ '-' ::
        ((hex.drop 16).take 4 ++ '-' :: (hex.drop 20 ++ []))))) = some [] := by
    rw [uuidGroups, hexGroups_cons (by simp [length]) first,
      hexGroups_cons (by simp [length]) (middle 8 4),
      hexGroups_cons (by simp [length]) (middle 12 4),
      hexGroups_cons (by simp [length]) (middle 16 4), hexGroups,
      hexGroup_append (by simp [length]) last]
  simp only [List.append_assoc, List.cons_append]
  rw [List.append_nil] at matched
  rw [matched]
  rfl

theorem uuid_uuidText (interpreter : Interpreter) {value : Nat}
    (small : value < 2 ^ 128) :
    interpreter.python.uuid (codePoints (uuidText value)) =
      some (codePoints (uuidText value)) := by
  have parsed := Tenancy.Names.uuidInt_uuidText interpreter.otherInt small
  have canonical : canonicalUuid interpreter.otherInt (uuidText value) =
      .ok (uuidText value) := by
    rw [canonicalUuid, parsed]
    rfl
  simp only [Interpreter.python, ofCodePoints_codePoints, canonical,
    Option.bind_eq_bind, Option.bind_some, Except.toOption]

/-! ## What the alert worker reads -/

section Worker

variable (interpreter : Interpreter)

theorem uuidField_uuidText {value : Nat} (small : value < 2 ^ 128)
    (field : String) (needed : Bool) :
    interpreter.python.uuidField (.text (codePoints (uuidText value))) field
      needed = .ok (some (codePoints (uuidText value))) := by
  have canonical := uuid_uuidText interpreter small
  cases spelled : codePoints (uuidText value) with
  | nil =>
      have matched := rlikeUuid_uuidText small
      rw [codePoints, List.map_eq_nil_iff] at spelled
      rw [rlikeUuid, spelled] at matched
      cases matched
  | cons point points =>
      rw [spelled] at canonical
      rw [AlertWorker.Python.uuidField]
      · simp only [AlertWorker.Python.str, canonical, bind, Except.bind]
      · nofun
      · nofun

theorem numeric_double (double : UInt64) :
    interpreter.python.numeric (.real (interpreter.dumpsFloat double)) =
      if isFinite double then .ok double
      else .error (.validation ("value is not finite: " ++
        AlertWorker.nonFinite
          (interpreter.floatOfReal (interpreter.dumpsFloat double)))) := by
  cases finite : isFinite double with
  | true =>
      have read := interpreter.finite double finite
      simp [AlertWorker.Python.numeric, Interpreter.python, bind, Except.bind,
        read, finite]
  | false =>
      have read := interpreter.notFinite double finite
      simp [AlertWorker.Python.numeric, Interpreter.python, bind, Except.bind,
        read]

/-- `as_utc`. -/
def asUtc (time : Datetime) : Option Fields :=
  if time.aware then (Calendar.astimezone time).map Datetime.toFields
  else some { time.toFields with offset := some 0 }

theorem eventTime_isoformat (field : String) (time : Datetime) :
    interpreter.python.eventTime field
        (.text (codePoints (isoformat time.toFields))) =
      match asUtc time with
      | some moved => .ok (some (isoformat moved))
      | none => .error .overflow := by
  have read : interpreter.python.fromIsoformat
      (codePoints (isoformat time.toFields)) = some time := by
    simp only [Interpreter.python, ofCodePoints_codePoints,
      Option.bind_eq_bind, Option.bind_some]
    exact Isoformat.fromIsoformat_isoformat interpreter.otherTime time
  simp only [AlertWorker.Python.eventTime, withOffset_isoformat, read, asUtc]
  split
  · simp only [Interpreter.python]
    cases Calendar.astimezone time with
    | none => rfl
    | some moved => rfl
  · rfl

theorem asUtc_spec {time : Datetime} {moved : Fields}
    (found : asUtc time = some moved) :
    moved.Valid ∧ instant moved = instant time.toFields := by
  rw [asUtc] at found
  split at found
  · obtain ⟨shifted, moves, rfl⟩ := Option.map_eq_some_iff.mp found
    exact ⟨shifted.valid, (Calendar.astimezone_instant moves).1⟩
  · rename_i naive
    cases found
    have absent : time.offset = none := by
      simpa [Datetime.aware] using naive
    constructor
    · obtain ⟨year, month, day, hour, minute, second, microsecond, -⟩ :=
        time.valid
      constructor
      · exact year
      · exact month
      · exact day
      · exact hour
      · exact minute
      · exact second
      · exact microsecond
      · intro offset zero
        cases zero
        decide
    · simp only [instant, Calendar.shown, absent]
      rfl

/-- A time within the calendar can be moved to UTC. -/
theorem asUtc_isSome_iff {time : Datetime}
    (early : instant time.toFields ≤ lastInstant) :
    (∃ moved, asUtc time = some moved) ↔ 0 ≤ instant time.toFields := by
  rw [asUtc]
  split
  · have refused : Calendar.astimezone time = none ↔ _ :=
      Calendar.astimezone_eq_none_iff
    cases moves : Calendar.astimezone time with
    | none =>
        have outside := refused.mp moves
        simp only [Option.map_none, reduceCtorEq, exists_false, false_iff]
        omega
    | some moved =>
        have inside : ¬(instant time.toFields < 0 ∨
            lastInstant < instant time.toFields) := by
          rw [← refused, moves]
          nofun
        simp only [Option.map_some, Option.some.injEq, exists_eq',
          true_iff]
        omega
  · rename_i naive
    have absent : time.offset = none := by
      simpa [Datetime.aware] using naive
    simp only [Option.some.injEq, exists_eq', true_iff, instant, absent]
    exact Int.natCast_nonneg _

end Worker

/-! ## Both of them -/

/-- The row of the Spark jobs and the reading of the alert worker say the
same. -/
structure Same (row : Measurement) (reading : AlertWorker.Reading)
    (companyId : Value) : Prop where
  company : companyId = .text (codePoints row.companyId)
  sensor : reading.sensorId = codePoints row.sensorId
  equipment : reading.equipmentId = some (codePoints row.equipmentId)
  untimed : reading.time = none
  instant : ∃ moved : Fields, moved.Valid ∧
    reading.timestamp = some (isoformat moved) ∧ instant moved = row.time
  value : reading.value = row.value
  finite : isFinite row.value = true

variable {interpreter : Interpreter} {spark : Spark interpreter.dumpsFloat}
  {runtime : Runtime}

/-- A message passes the guard and the checks of the worker, and is read as
the same by both. -/
def Agreed (interpreter : Interpreter) (spark : Spark interpreter.dumpsFloat)
    (runtime : Runtime) (source : Source) (message : List (Text × Value)) :
    Prop :=
  ∃ row reading,
    Measurements.rejectionReason runtime (parseReadings spark source message) =
      none ∧
    (parseReadings spark source message).measurement? = some row ∧
    AlertWorker.parseReading interpreter.python (.object message)
      (get message "company_id") = .ok reading ∧
    Same row reading (get message "company_id")

/-- What both consumers can read. -/
structure Shared (data : SensorDataInput) : Prop where
  finite : isFinite data.value = true
  calendar : 0 ≤ instant data.timestamp.toFields
  zone : ∀ offset ∈ data.timestamp.offset, offset.natAbs ≤ javaZone

variable (interpreter) in
theorem kafkaMessage_get (companyId : String) (data : SensorDataInput) :
    let message := kafkaMessage interpreter companyId data
    get message "timestamp" =
        .text (codePoints (isoformat data.timestamp.toFields)) ∧
      get message "sensor_id" = .text (codePoints (uuidText data.sensorId)) ∧
      get message "equipment_id" =
        .text (codePoints (uuidText data.equipmentId)) ∧
      get message "site_id" = .text (codePoints data.siteId) ∧
      get message "company_id" = .text (codePoints companyId) ∧
      get message "value" = .real (interpreter.dumpsFloat data.value) ∧
      get message "time" = .null :=
  ⟨rfl, rfl, rfl, rfl, rfl, rfl, rfl⟩

/-- What validation leaves of a time. -/
structure Timely (now : Int) (time : Datetime) : Prop where
  bounded : instant time.toFields ≤ now + maxFutureSkew
  current : now + maxFutureSkew ≤ lastInstant
  minutes : ∀ offset ∈ time.offset, offset % 60000000 = 0

theorem timely {pydantic : Pydantic} {now : Int} {body : Value}
    {data : SensorDataInput}
    (accepted : sensorDataInput pydantic now body = some data) :
    Timely now data.timestamp := by
  cases body with
  | object fields =>
      simp only [sensorDataInput, Option.bind_eq_bind,
        Option.bind_eq_some_iff] at accepted
      obtain ⟨time, found, _, -, _, -, _, -, _, -, _, -, _, -, accepted⟩ :=
        accepted
      split at accepted
      · rename_i valid
        cases accepted
        have early := valid.1
        simp only [notInTheFuture, Bool.and_eq_true, decide_eq_true_eq] at early
        obtain ⟨value, -, converted⟩ := Option.bind_eq_some_iff.mp found
        constructor
        · exact early.2
        · exact early.1
        · exact pydantic.minutes value time converted
      · cases accepted
  | _ => cases accepted

theorem tryToTimestamp_eq {now : Int} {time : Datetime}
    (timely : Timely now time) :
    spark.tryToTimestamp (isoformat time.toFields) =
      if ∀ offset ∈ time.offset, offset.natAbs ≤ javaZone then
        some (instant time.toFields)
      else none := by
  cases zone : time.offset with
  | none =>
      rw [spark.readsLocal time zone, if_pos (by simp)]
  | some offset =>
      have whole := timely.minutes offset zone
      by_cases near_ : offset.natAbs ≤ javaZone
      · rw [spark.readsZone time offset zone whole near_, if_pos (by simpa)]
      · rw [spark.refusesZone time offset zone (Nat.lt_of_not_le near_),
          if_neg (by simpa using near_)]

/-- What the worker makes of a message. -/
theorem parseReading_message (company : Uuid) (data : SensorDataInput) :
    AlertWorker.parseReading interpreter.python
        (.object (kafkaMessage interpreter (uuidText company) data))
        (.text (codePoints (uuidText company))) = (do
      let value ←
        interpreter.python.numeric (.real (interpreter.dumpsFloat data.value))
      let timestamp ← interpreter.python.eventTime "timestamp"
        (.text (codePoints (isoformat data.timestamp.toFields)))
      .ok
        { sensorId := codePoints (uuidText data.sensorId)
          equipmentId := some (codePoints (uuidText data.equipmentId))
          value
          time := none
          timestamp
          siteId := .text (codePoints data.siteId) }) := by
  obtain ⟨timestamp, sensorId, equipmentId, siteId, -, value, time⟩ :=
    kafkaMessage_get interpreter (uuidText company) data
  simp only [AlertWorker.parseReading, timestamp, sensorId, equipmentId,
    siteId, value, time, uuidField_uuidText interpreter company.isLt,
    uuidField_uuidText interpreter data.sensorId.isLt,
    uuidField_uuidText interpreter data.equipmentId.isLt]
  simp only [bind, Except.bind, Option.getD_some, AlertWorker.Python.eventTime]

/-- What the Spark jobs make of it. -/
theorem measurement_message (companyId : String) (data : SensorDataInput)
    (source : Source) :
    (parseReadings spark source
        (kafkaMessage interpreter companyId data)).measurement? = (do
      let time ← spark.tryToTimestamp (isoformat data.timestamp.toFields)
      let value ← spark.double (.real (interpreter.dumpsFloat data.value))
      some
        { source, time, companyId, value
          sensorId := uuidText data.sensorId
          equipmentId := uuidText data.equipmentId
          siteId := data.siteId
          unit := spark.string
            (get (kafkaMessage interpreter companyId data) "unit")
          qualityCode := spark.integer
            (get (kafkaMessage interpreter companyId data)
              "quality_code") }) := by
  obtain ⟨timestamp, sensorId, equipmentId, siteId, company, value, -⟩ :=
    kafkaMessage_get interpreter companyId data
  simp only [parseReadings, Measurements.Reading.measurement?, timestamp,
    sensorId, equipmentId, siteId, company, value, spark.readsText,
    Option.bind_eq_bind, Option.bind_some]
  rfl

/-- The two consumers agree on a message exactly where both can read it. -/
theorem message_agreed_iff {data : SensorDataInput} {source : Source}
    (company : Uuid) (timely : Timely runtime.now data.timestamp) :
    Agreed interpreter spark runtime source
        (kafkaMessage interpreter (uuidText company) data) ↔ Shared data := by
  have early := timely.bounded
  have current := timely.current
  have named : get (kafkaMessage interpreter (uuidText company) data)
      "company_id" = .text (codePoints (uuidText company)) := rfl
  have within : (∃ moved, asUtc data.timestamp = some moved) ↔
      0 ≤ instant data.timestamp.toFields :=
    asUtc_isSome_iff (by omega)
  rw [Agreed, named, parseReading_message, measurement_message,
    tryToTimestamp_eq timely, numeric_double, eventTime_isoformat]
  constructor
  · rintro ⟨row, reading, -, found, parsed, same⟩
    have zone : ∀ offset ∈ data.timestamp.offset,
        offset.natAbs ≤ javaZone := by
      by_contra beyond
      rw [if_neg beyond] at found
      cases found
    obtain ⟨value, finite, parsed⟩ := bind_ok_iff.mp parsed
    obtain ⟨timestamp, moves, -⟩ := bind_ok_iff.mp parsed
    constructor
    · by_contra infinite
      rw [if_neg infinite] at finite
      cases finite
    · apply within.mp
      cases answer : asUtc data.timestamp with
      | none =>
          rw [answer] at moves
          cases moves
      | some moved => exact ⟨moved, rfl⟩
    · exact zone
  · intro shared
    obtain ⟨moved, moves⟩ := within.mpr shared.calendar
    obtain ⟨valid, sameInstant⟩ := asUtc_spec moves
    have double := spark.readsFinite data.value shared.finite
    rw [if_pos shared.zone, if_pos shared.finite, moves, double]
    simp only [Option.bind_some, bind, Except.bind]
    refine ⟨_, _, ?_, rfl, rfl, ?_⟩
    · rw [Measurements.rejectionReason, measurement_message,
        tryToTimestamp_eq timely, if_pos shared.zone, double]
      simp only [Option.bind_eq_bind, Option.bind_some,
        rlikeUuid_uuidText company.isLt,
        rlikeUuid_uuidText data.sensorId.isLt,
        rlikeUuid_uuidText data.equipmentId.isLt]
      exact if_neg (not_lt.mpr early)
    · constructor
      · dsimp only
      · dsimp only
      · dsimp only
      · dsimp only
      · exact ⟨moved, valid, by dsimp only, sameInstant⟩
      · dsimp only
      · exact shared.finite

/-- Of an accepted body the consumers read the same reading exactly where its
value is finite, its instant within the calendar and its zone one of
Java's. -/
theorem agreed_iff_shared {pydantic : Pydantic} {body : Value}
    {data : SensorDataInput} (company : Uuid) (source : Source)
    (accepted : sensorDataInput pydantic runtime.now body = some data) :
    Agreed interpreter spark runtime source
        (kafkaMessage interpreter (uuidText company) data) ↔ Shared data :=
  message_agreed_iff company (timely accepted)

/-! ## A reading of zero and one of NaN -/

/-- Doubles are written with their bits here; zero and NaN are written as they
are by `json.dumps`. -/
def bitsOf (literal : List Char) : UInt64 :=
  if literal = "NaN".toList then 0x7ff8000000000000
  else UInt64.ofNat (Nat.ofDigitChars 10 literal.dropLast.dropLast 0)

def literalOf (double : UInt64) : List Char :=
  if isFinite double then Nat.toDigits 10 double.toNat ++ ['.', '0']
  else "NaN".toList

theorem bitsOf_literalOf {double : UInt64} (finite : isFinite double = true) :
    bitsOf (literalOf double) = double := by
  have ends : (Nat.toDigits 10 double.toNat ++ ['.', '0']).getLast? =
      some '0' := by simp
  have other : Nat.toDigits 10 double.toNat ++ ['.', '0'] ≠ "NaN".toList := by
    intro same
    rw [same] at ends
    exact absurd ends (by decide)
  have digits : (Nat.toDigits 10 double.toNat ++ ['.', '0']
      ).dropLast.dropLast = Nat.toDigits 10 double.toNat := by simp
  rw [literalOf, if_pos finite, bitsOf, if_neg other, digits,
    Nat.ofDigitChars_ten_toDigits, UInt64.ofNat_toNat]

def sampleInterpreter : Interpreter where
  limits := ⟨4300, fun containers => 1000 < containers.length⟩
  repr _ := none
  floatOfText _ := none
  floatOfInt _ _ := none
  floatOfReal := bitsOf
  otherInt _ := none
  otherTime _ := none
  dumpsFloat := literalOf
  finite _ := bitsOf_literalOf
  notFinite double infinite := by
    have token : literalOf double = "NaN".toList := by
      rw [literalOf, if_neg (by simp [infinite])]
    rw [token]
    decide

def sampleTimestamp (text : String) : Option Int := do
  let fields ← Isoformat.readFields text.toList
  if ∀ offset ∈ fields.offset, offset.natAbs ≤ javaZone then
    some (instant fields)
  else none

theorem sampleTimestamp_isoformat (time : Datetime) :
    sampleTimestamp (isoformat time.toFields) =
      if ∀ offset ∈ time.offset, offset.natAbs ≤ javaZone then
        some (instant time.toFields)
      else none := by
  rw [sampleTimestamp, Isoformat.readFields_isoformat time.valid]
  rfl

def sampleSpark : Spark literalOf where
  string
    | .text text => ofCodePoints text
    | _ => none
  double
    | .real literal => some (bitsOf literal)
    | _ => none
  integer
    | .int _ digits => some (BitVec.ofNat 32 (Nat.ofDigitChars 10 digits 0))
    | _ => none
  tryToTimestamp := sampleTimestamp
  readsText := ofCodePoints_codePoints
  readsFinite _ finite := congrArg some (bitsOf_literalOf finite)
  readsToken _ := rfl
  readsLocal time zone := by
    rw [sampleTimestamp_isoformat, if_pos (by simp [zone])]
  readsZone time offset zone _ near_ := by
    rw [sampleTimestamp_isoformat, if_pos (by simpa [zone] using near_)]
  refusesZone time offset zone beyond := by
    rw [sampleTimestamp_isoformat, if_neg (by simpa [zone] using beyond)]

def samplePydantic : Pydantic where
  datetime
    | .text text => do
        let chars ← ofCodePoints text
        let time ← Isoformat.fromIsoformat (fun _ => none) chars
        if ∀ offset ∈ time.offset, offset % 60000000 = 0 then some time
        else none
    | _ => none
  uuid
    | .text text => do
        let chars ← ofCodePoints text
        let value ← (Measurements.uuidInt (fun _ => none) chars).toOption
        if small : value < 2 ^ 128 then some ⟨value, small⟩ else none
    | _ => none
  str
    | .text text => ofCodePoints text
    | _ => none
  float
    | .real literal => some (bitsOf literal)
    | _ => none
  int
    | .int _ digits => some (Nat.ofDigitChars 10 digits 0)
    | _ => none
  minutes value time converted := by
    cases value with
    | text text =>
        obtain ⟨chars, -, converted⟩ := Option.bind_eq_some_iff.mp converted
        obtain ⟨read, -, converted⟩ := Option.bind_eq_some_iff.mp converted
        split at converted
        · rename_i whole
          cases converted
          exact whole
        · cases converted
    | _ => cases converted

/-- The clock stands at 1970. -/
def sampleRuntime : Runtime where
  otherInt _ := none
  now := 62135596800000000
  earliest := 0
  latest := lastInstant
  current := by decide

def sampleBody (literal : String) : Value :=
  .object
    [textMember "timestamp" "1970-01-01T00:00:00+00:00",
      textMember "sensor_id" "2e9bf157-d0f0-4618-9286-c792ee54c127",
      textMember "equipment_id" "ef9791ba-4fba-4d78-ab76-eb7094933f99",
      textMember "site_id" "factory_north",
      (codePoints "value", .real literal.toList)]

/-- An accepted reading of zero. -/
def zeroData : SensorDataInput :=
  (sensorDataInput samplePydantic sampleRuntime.now
    (sampleBody "0.0")).get (by decide)

def nanData : SensorDataInput :=
  (sensorDataInput samplePydantic sampleRuntime.now
    (sampleBody "NaN")).get (by decide)

/-- Zero is read as the same by both. -/
theorem agreed_iff_shared_zero :
    Agreed sampleInterpreter sampleSpark sampleRuntime ⟨"", "", 0, 0⟩
      (kafkaMessage sampleInterpreter (uuidText (0 : Uuid)) zeroData) := by
  have accepted : sensorDataInput samplePydantic sampleRuntime.now
      (sampleBody "0.0") = some zeroData := (Option.some_get _).symm
  have shared : Shared zeroData := by
    constructor
    · decide
    · decide
    · decide
  exact (agreed_iff_shared 0 ⟨"", "", 0, 0⟩ accepted).mpr shared

/-- A NaN is accepted, and the consumers do not agree on it. -/
theorem nan_not_agreed :
    ¬∀ body data (company : Uuid) source,
      sensorDataInput samplePydantic sampleRuntime.now body = some data →
        Agreed sampleInterpreter sampleSpark sampleRuntime source
          (kafkaMessage sampleInterpreter (uuidText company) data) := by
  intro claimed
  have accepted : sensorDataInput samplePydantic sampleRuntime.now
      (sampleBody "NaN") = some nanData := (Option.some_get _).symm
  have agreed := claimed _ _ 0 ⟨"", "", 0, 0⟩ accepted
  have finite := ((message_agreed_iff 0 (timely accepted)).mp agreed).finite
  exact absurd finite (by decide)

end IndustryFlow.Ingestion
