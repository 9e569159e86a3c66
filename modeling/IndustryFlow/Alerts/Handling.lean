import IndustryFlow.Alerts.Reading

/-!
# Handling one record

`_handle_message`: a record is decoded and evaluated, or dead-lettered.  Two
exceptions of `json.loads` pass the handlers: the integer with too many digits
and the nesting that is too deep.  For every other record the worker goes on
(`handled_iff`).
-/

namespace IndustryFlow.AlertWorker

open JsonText (Text Value ReadError Oversized loads loads_limit_iff)

inductive Outcome where
  | handled
  | retryBatch
deriving DecidableEq

/-- The settings, and the texts of the exceptions that are quoted. -/
structure Config where
  maxRetries : Nat
  python : Python
  undecodableText : ByteArray → String
  malformedText : String → String
  raisedText : Raised → String

/-- How decoding a record fails. -/
inductive DecodeError where
  /-- `MessageValidationError`. -/
  | validation (reason : String)
  /-- An exception of `json.loads` that is not caught. -/
  | uncaught (error : ReadError)
deriving DecidableEq

/-- `decode_message`: the members of the object. -/
def decodeMessage (config : Config) (raw : Option ByteArray) :
    Except DecodeError (List (Text × Value)) :=
  match raw with
  | none => .error (.validation "record has no value")
  | some octets =>
      match String.fromUTF8? octets with
      | none => .error (.validation
          ("record is not UTF-8 JSON: " ++ config.undecodableText octets))
      | some text =>
          match loads config.python.limits text with
          | .error .malformed => .error (.validation
              ("record is not UTF-8 JSON: " ++ config.malformedText text))
          | .error error => .error (.uncaught error)
          | .ok (.object fields) => .ok fields
          | .ok other => .error (.validation
              ("record is not a JSON object: " ++ typeName other))

/-- What came of a record: the outcome, and the reason of the dead letter that
was to be sent for it, if one was. -/
structure Handled where
  outcome : Outcome
  deadLetter : Option String

/-- `_dead_letter`; `send` tells whether the dead letter was taken. -/
def deadLetter (send : String → Bool) (reason : String) : Handled :=
  ⟨if send reason then .handled else .retryBatch, some reason⟩

section

variable {Rule Alert : Type}

/-- The attempts from `index` on, of which `left` are left, after the last one
raised `error`. -/
def attempts (config : Config) (world : Nat → Attempt Rule Alert)
    (send : String → Bool) (fields : List (Text × Value)) :
    Nat → Nat → String → Handled
  | 0, _, error => deadLetter send ("retries exhausted: " ++ error)
  | left + 1, index, _ =>
      match processMessage config.python (world index) fields with
      | .ok () => ⟨.handled, none⟩
      | .error (.own (.validation reason)) => deadLetter send reason
      | .error raised =>
          if isInfrastructureError raised then ⟨.retryBatch, none⟩
          else
            attempts config world send fields left (index + 1)
              (config.raisedText raised)

/-- `_handle_message`; an error is an exception that it raises. -/
def handleMessage (config : Config) (world : Nat → Attempt Rule Alert)
    (send : String → Bool) (raw : Option ByteArray) :
    Except ReadError Handled :=
  match decodeMessage config raw with
  | .error (.validation reason) => .ok (deadLetter send reason)
  | .error (.uncaught error) => .error error
  | .ok fields =>
      .ok (attempts config world send fields (max 1 config.maxRetries) 0
        "None")

/-! ## What comes of a record -/

/-- The evaluation of the record has completed in an attempt. -/
def Evaluated (config : Config) (world : Nat → Attempt Rule Alert)
    (fields : List (Text × Value)) : Prop :=
  ∃ index < max 1 config.maxRetries,
    processMessage config.python (world index) fields = .ok ()

/-- A dependency failed in an attempt, in a way that a retry can outlive. -/
def Outage (config : Config) (world : Nat → Attempt Rule Alert)
    (fields : List (Text × Value)) : Prop :=
  ∃ index < max 1 config.maxRetries, ∃ fault,
    processMessage config.python (world index) fields =
      .error (.dependency fault) ∧
    (world index).Raises fault ∧
    isInfrastructureError (.dependency fault) = true

/-- The batch is retried only because of an outage or because the dead letter
was not taken, and a record is handled only when it was evaluated or its dead
letter was taken. -/
def Handled.Justified (handled : Handled) (send : String → Bool)
    (evaluated outage : Prop) : Prop :=
  match handled.outcome with
  | .retryBatch => outage ∨
      ∃ reason, handled.deadLetter = some reason ∧ send reason = false
  | .handled => evaluated ∨
      ∃ reason, handled.deadLetter = some reason ∧ send reason = true

theorem deadLetter_justified (send : String → Bool) (reason : String)
    (evaluated outage : Prop) :
    (deadLetter send reason).Justified send evaluated outage := by
  cases sent : send reason with
  | true =>
      rw [deadLetter, sent]
      exact .inr ⟨reason, rfl, sent⟩
  | false =>
      rw [deadLetter, sent]
      exact .inr ⟨reason, rfl, sent⟩

theorem infrastructure_dependency {raised : Raised}
    (infrastructure : isInfrastructureError raised = true) :
    ∃ fault, raised = .dependency fault := by
  cases raised with
  | own error => cases infrastructure
  | dependency fault => exact ⟨fault, rfl⟩

theorem attempts_justified (config : Config)
    (world : Nat → Attempt Rule Alert) (send : String → Bool)
    (fields : List (Text × Value)) (left index : Nat) (error : String)
    (counted : index + left = max 1 config.maxRetries) :
    (attempts config world send fields left index error).Justified send
      (Evaluated config world fields) (Outage config world fields) := by
  induction left generalizing index error with
  | zero => exact deadLetter_justified send _ _ _
  | succ left induction =>
      have early : index < max 1 config.maxRetries := by omega
      rw [attempts]
      split
      · rename_i completed
        exact .inl ⟨index, early, completed⟩
      · exact deadLetter_justified send _ _ _
      · rename_i raised other failed
        split
        · rename_i infrastructure
          obtain ⟨fault, rfl⟩ := infrastructure_dependency infrastructure
          exact .inl ⟨index, early, fault, failed,
            processMessage_raises failed, infrastructure⟩
        · exact induction (index + 1) _ (by omega)

/-- The value is a text that reads, before any error of syntax, as an integer
with too many digits or as too deep a nesting. -/
def Unreadable (config : Config) (raw : Option ByteArray) : Prop :=
  ∃ octets ∈ raw, ∃ text, String.fromUTF8? octets = some text ∧
    Oversized config.python.limits text

theorem decodeMessage_uncaught_iff {config : Config}
    {raw : Option ByteArray} :
    (∃ error, decodeMessage config raw = .error (.uncaught error)) ↔
      Unreadable config raw := by
  cases raw with
  | none => simp [decodeMessage, Unreadable]
  | some octets =>
      cases decoded : String.fromUTF8? octets with
      | none => simp [decodeMessage, Unreadable, decoded]
      | some text =>
          have limit : (∃ error, error ≠ .malformed ∧
              loads config.python.limits text = .error error) ↔
                Unreadable config (some octets) := by
            simp [Unreadable, decoded, loads_limit_iff]
          rw [← limit]
          simp only [decodeMessage, decoded]
          cases loaded : loads config.python.limits text with
          | error error =>
              cases error with
              | malformed => simp
              | digits => simp
              | depth => simp
          | ok value =>
              cases value with
              | object fields => simp
              | _ => simp

/-- What the worker makes of a record without an exception: it is handled, or
the batch is retried, for one of the reasons there are. -/
def Survives (config : Config) (world : Nat → Attempt Rule Alert)
    (send : String → Bool) (raw : Option ByteArray) : Prop :=
  ∃ handled, handleMessage config world send raw = .ok handled ∧
    handled.Justified send
      (∃ fields, decodeMessage config raw = .ok fields ∧
        Evaluated config world fields)
      (∃ fields, decodeMessage config raw = .ok fields ∧
        Outage config world fields)

/-- A record stops the worker exactly when it is unreadable. -/
theorem survives_iff (config : Config) (world : Nat → Attempt Rule Alert)
    (send : String → Bool) (raw : Option ByteArray) :
    Survives config world send raw ↔ ¬Unreadable config raw := by
  rw [← decodeMessage_uncaught_iff]
  constructor
  · rintro ⟨handled, returned, -⟩ ⟨error, uncaught⟩
    rw [handleMessage, uncaught] at returned
    cases returned
  · intro caught
    cases decoded : decodeMessage config raw with
    | error failed =>
        cases failed with
        | validation reason =>
            refine ⟨deadLetter send reason, ?_,
              deadLetter_justified send _ _ _⟩
            rw [handleMessage, decoded]
        | uncaught error => exact absurd ⟨error, decoded⟩ caught
    | ok fields =>
        have justified := attempts_justified config world send fields
          (max 1 config.maxRetries) 0 "None" (Nat.zero_add _)
        refine ⟨_, by rw [handleMessage, decoded], ?_⟩
        rw [decoded]
        simpa using justified

/-- A record of ones, more than an integer may have digits. -/
theorem ones_unreadable (config : Config) {count : Nat}
    (long : config.python.limits.maxDigits < count + 1) :
    Unreadable config
      (some (String.ofList (List.replicate (count + 1) '1')).toUTF8) := by
  let ones := String.ofList (List.replicate (count + 1) '1')
  have decoded : String.fromUTF8? ones.toUTF8 = some ones := by
    have valid : ones.toUTF8.IsValidUTF8 := ones.isValidUTF8
    rw [String.fromUTF8?, dif_pos valid]
    rfl
  have read : JsonText.lex ones.toList =
      [] ++ [.int false (List.replicate (count + 1) '1')] := by
    rw [String.toList_ofList]
    exact JsonText.lex_ones count
  have beyond : config.python.limits.exceeded []
      (.int false (List.replicate (count + 1) '1')) = true := by
    simpa [JsonText.Limits.exceeded] using long
  exact ⟨ones.toUTF8, rfl, ones, decoded, [], _, [], .value [], [], read, rfl,
    rfl, beyond⟩

/-- A Python with the default limit of digits. -/
def samplePython : Python where
  limits := ⟨4300, fun containers => 1000 < containers.length⟩
  repr _ := none
  uuid _ := none
  floatOfText _ := none
  floatOfInt _ _ := none
  floatOfReal _ := 0
  fromIsoformat _ := none
  astimezone _ := none

def sampleConfig : Config where
  maxRetries := 3
  python := samplePython
  undecodableText _ := ""
  malformedText _ := ""
  raisedText _ := ""

def quietAttempt : Attempt Unit Unit where
  featureStore := false
  sensorName _ := .ok ()
  rules _ := .ok []
  applicable _ _ := false
  evaluateRule _ _ := .ok none
  prepare _ := .ok none
  save _ := .ok ()

/-- A record of 4301 ones stops the worker. -/
theorem long_integer_stops :
    ¬∀ raw, Survives sampleConfig (fun _ => quietAttempt) (fun _ => true)
      raw := by
  intro claimed
  have survived := claimed
    (some (String.ofList (List.replicate (4300 + 1) '1')).toUTF8)
  apply (survives_iff _ _ _ _).mp survived
  exact ones_unreadable sampleConfig (Nat.lt_succ_self 4300)

end

end IndustryFlow.AlertWorker
