import IndustryFlow.Fallible
import IndustryFlow.Json
import IndustryFlow.Measurements.Uuid

/-!
# The verifiers of a capability handle

The data API, the SQL proxy, the tracking gateway and the cold broker each
have their own copy of one contract: the entry under a presented handle is
read, its audience and its tenant are checked, and a suspended tenant is
refused.  `Contract.verdict` states the contract once, over the contents of
the store.  Every copy is that contract, whichever of the two kinds of client
it reads the store with.
-/

namespace IndustryFlow.Verifiers

open Measurements (canonicalUuid uuidInt uuidText)

/-- The keys of the store: `nbcap:` and `nbcap-suspended:`. -/
inductive StoreKey where
  | entry (handle : String)
  | suspended (company : String)

/-- What the store holds: the bytes of each entry, and the companies with a
suspension marker. -/
structure Contents where
  entry : String → Option ByteArray
  suspended : String → Bool

/-- What a getter returns. -/
inductive Stored where
  | bytes (raw : ByteArray)
  | text (raw : String)

inductive Raised where
  | valueError
  | typeError
  | recursionError
  | unicodeDecodeError
deriving DecidableEq

/-- `bytes.decode()`. -/
def decode (raw : ByteArray) : Except Raised String :=
  match String.fromUTF8? raw with
  | some text => .ok text
  | none => .error .unicodeDecodeError

/-- Whether a client was made with `decode_responses`. -/
inductive Client where
  | binary
  | decoding

/-- The value of a suspension marker, as the platform API writes it. -/
def marker : ByteArray := "1".toUTF8

def Contents.value (contents : Contents) : StoreKey → Option ByteArray
  | .entry handle => contents.entry handle
  | .suspended company =>
      if contents.suspended company then some marker else none

/-- `redis.get`. -/
def Client.get (contents : Contents) (client : Client) (key : StoreKey) :
    Except Raised (Option Stored) :=
  match contents.value key with
  | none => .ok none
  | some raw =>
      match client with
      | .binary => .ok (some (.bytes raw))
      | .decoding => do
          let text ← decode raw
          pure (some (.text text))

/-- `if isinstance(raw, bytes): raw = raw.decode()`. -/
def Stored.decoded : Stored → Except Raised String
  | .bytes raw => decode raw
  | .text raw => .ok raw

inductive Refusal where
  | noHandle
  | noEntry
  | malformedEntry
  | wrongAudience
  | tenantSuspended
deriving DecidableEq

/-- What an entry says that a record may carry. -/
structure Facts where
  companyId : Option String
  handleId : Option String
  user : Option String
  audience : Option String
deriving DecidableEq

def Facts.none : Facts := ⟨.none, .none, .none, .none⟩

/-- `(binding, None, facts)` or `(None, reason, facts)`. -/
inductive Outcome (Binding : Type) where
  | granted (binding : Binding) (facts : Facts)
  | denied (reason : Refusal) (facts : Facts)

structure CapabilityBinding where
  user : String
  companyId : String
  audience : Json
  readOnly : Bool
  handleId : Option String

structure SqlBinding where
  user : String
  companyId : String
  readOnly : Bool
  handleId : Option String

structure TrackingBinding where
  user : Json
  companyId : String
  audience : String
  handleId : Option String

structure ColdBinding where
  user : String
  companyId : String
  handleId : Option String

/-- `capability_audit.AUDIENCES`. -/
def audiences : List String := ["api", "sql", "tracking", "cold", "upload"]

def audienceApi : String := "api"

def audienceSql : String := "sql"

def audienceTracking : String := "tracking"

def audienceUpload : String := "upload"

def audienceCold : String := "cold"

section

variable (loads : String → Except Raised Json) (repr : Json → String)
  (other : List Char → Option Int)

/-- `tenancy.canonical_company_id`. -/
def canonicalCompanyId (companyId : Json) :
    Except Measurements.Raised String :=
  canonicalUuid other (companyId.pyStr repr)

/-- `record.get(key, default)`. -/
def getDefault (record : List (String × Json)) (key : String)
    (default : Json) : Json :=
  (record.lookup key).getD default

/-! ## The data API -/

namespace Api

def entryFacts (record : List (String × Json)) : Facts where
  companyId :=
    (canonicalUuid other
      (((Json.get record "company_id").orElse (.str "")).pyStr repr)).toOption
  handleId :=
    (canonicalUuid other
      (((Json.get record "handle_id").orElse (.str "")).pyStr repr)).toOption
  user :=
    match Json.get record "user" with
    | .str user => some user
    | _ => none
  audience :=
    match Json.get record "audience" with
    | .str audience => if audience ∈ audiences then some audience else none
    | _ => none

def resolveCapabilityOutcome
    (aget : StoreKey → Except Raised (Option Stored)) (handle : String)
    (expectedAudience : String) :
    Except Raised (Outcome CapabilityBinding) := do
  if handle = "" then
    return .denied .noHandle .none
  match ← aget (.entry handle) with
  | none => return .denied .noEntry .none
  | some raw =>
      let text ← raw.decoded
      match loads text with
      | .error .valueError => return .denied .malformedEntry .none
      | .error .typeError => return .denied .malformedEntry .none
      | .error raised => throw raised
      | .ok (.obj record) =>
          let facts := entryFacts repr other record
          if !(Json.get record "audience").isStr expectedAudience then
            return .denied .wrongAudience facts
          match canonicalUuid other
              (((Json.get record "company_id").orElse (.str "")).pyStr
                repr) with
          | .error _ => return .denied .malformedEntry facts
          | .ok companyId =>
              if (← aget (.suspended companyId)).isSome then
                return .denied .tenantSuspended facts
              return .granted
                { user := (getDefault record "user" (.str "")).pyStr repr
                  companyId
                  audience := Json.get record "audience"
                  readOnly :=
                    (getDefault record "read_only" (.bool true)).truthy
                  handleId := facts.handleId } facts
      | .ok _ => return .denied .malformedEntry .none

end Api

/-! ## The SQL proxy -/

namespace SqlProxy

def entryFacts (record : List (String × Json)) : Facts where
  companyId :=
    (canonicalCompanyId repr other
      ((Json.get record "company_id").orElse (.str ""))).toOption
  handleId :=
    (canonicalUuid other
      (((Json.get record "handle_id").orElse (.str "")).pyStr repr)).toOption
  user :=
    match Json.get record "user" with
    | .str user => some user
    | _ => none
  audience :=
    match Json.get record "audience" with
    | .str audience => if audience ∈ audiences then some audience else none
    | _ => none

/-- The audience that the source compares with is the constant
`audienceSql`. -/
def resolveOutcomeFor (asked : String)
    (aget : StoreKey → Except Raised (Option Stored)) (handle : String) :
    Except Raised (Outcome SqlBinding) := do
  if handle = "" then
    return .denied .noHandle .none
  match ← aget (.entry handle) with
  | none => return .denied .noEntry .none
  | some raw =>
      let text ← raw.decoded
      match loads text with
      | .error .valueError => return .denied .malformedEntry .none
      | .error .typeError => return .denied .malformedEntry .none
      | .error raised => throw raised
      | .ok (.obj record) =>
          let facts := entryFacts repr other record
          if !(Json.get record "audience").isStr asked then
            return .denied .wrongAudience facts
          match canonicalCompanyId repr other
              ((Json.get record "company_id").orElse (.str "")) with
          | .error _ => return .denied .malformedEntry facts
          | .ok companyId =>
              if (← aget (.suspended companyId)).isSome then
                return .denied .tenantSuspended facts
              return .granted
                { user := (getDefault record "user" (.str "")).pyStr repr
                  companyId
                  readOnly :=
                    (getDefault record "read_only" (.bool true)).truthy
                  handleId := facts.handleId } facts
      | .ok _ => return .denied .malformedEntry .none

def resolveSqlOutcome
    (aget : StoreKey → Except Raised (Option Stored)) (handle : String) :
    Except Raised (Outcome SqlBinding) :=
  resolveOutcomeFor loads repr other audienceSql aget handle

end SqlProxy

/-! ## The tracking gateway -/

namespace Tracking

def entryFacts (record : List (String × Json)) : Facts where
  companyId :=
    (canonicalCompanyId repr other
      ((Json.get record "company_id").orElse (.str ""))).toOption
  handleId :=
    (canonicalUuid other
      (((Json.get record "handle_id").orElse (.str "")).pyStr repr)).toOption
  user :=
    match Json.get record "user" with
    | .str user => some user
    | _ => none
  audience :=
    match Json.get record "audience" with
    | .str audience => if audience ∈ audiences then some audience else none
    | _ => none

def resolveOutcome
    (aget : StoreKey → Except Raised (Option Stored)) (handle : String)
    (expectedAudience : String) :
    Except Raised (Outcome TrackingBinding) := do
  if handle = "" then
    return .denied .noHandle .none
  match ← aget (.entry handle) with
  | none => return .denied .noEntry .none
  | some raw =>
      let text ← raw.decoded
      match loads text with
      | .error .valueError => return .denied .malformedEntry .none
      | .error .typeError => return .denied .malformedEntry .none
      | .error raised => throw raised
      | .ok (.obj record) =>
          let facts := entryFacts repr other record
          if !(Json.get record "audience").isStr expectedAudience then
            return .denied .wrongAudience facts
          match canonicalCompanyId repr other
              ((Json.get record "company_id").orElse (.str "")) with
          | .error _ => return .denied .malformedEntry facts
          | .ok companyId =>
              if (← aget (.suspended companyId)).isSome then
                return .denied .tenantSuspended facts
              return .granted
                { user := getDefault record "user" (.str "")
                  companyId
                  audience := expectedAudience
                  handleId := facts.handleId } facts
      | .ok _ => return .denied .malformedEntry .none

def resolveTrackingOutcome
    (aget : StoreKey → Except Raised (Option Stored)) (handle : String) :
    Except Raised (Outcome TrackingBinding) :=
  resolveOutcome loads repr other aget handle audienceTracking

def resolveUploadOutcome
    (aget : StoreKey → Except Raised (Option Stored)) (handle : String) :
    Except Raised (Outcome TrackingBinding) :=
  resolveOutcome loads repr other aget handle audienceUpload

end Tracking

/-! ## The cold broker -/

namespace ColdBroker

def entryFacts (record : List (String × Json)) : Facts where
  companyId :=
    (canonicalCompanyId repr other
      ((Json.get record "company_id").orElse (.str ""))).toOption
  handleId :=
    (canonicalUuid other
      (((Json.get record "handle_id").orElse (.str "")).pyStr repr)).toOption
  user :=
    match Json.get record "user" with
    | .str user => some user
    | _ => none
  audience :=
    match Json.get record "audience" with
    | .str audience => if audience ∈ audiences then some audience else none
    | _ => none

/-- The audience that the source compares with is the constant
`audienceCold`. -/
def resolveOutcomeFor (asked : String)
    (aget : StoreKey → Except Raised (Option Stored)) (handle : String) :
    Except Raised (Outcome ColdBinding) := do
  if handle = "" then
    return .denied .noHandle .none
  match ← aget (.entry handle) with
  | none => return .denied .noEntry .none
  | some raw =>
      let text ← raw.decoded
      match loads text with
      | .error .valueError => return .denied .malformedEntry .none
      | .error .typeError => return .denied .malformedEntry .none
      | .error raised => throw raised
      | .ok (.obj record) =>
          let facts := entryFacts repr other record
          if !(Json.get record "audience").isStr asked then
            return .denied .wrongAudience facts
          match canonicalCompanyId repr other
              ((Json.get record "company_id").orElse (.str "")) with
          | .error _ => return .denied .malformedEntry facts
          | .ok companyId =>
              if (← aget (.suspended companyId)).isSome then
                return .denied .tenantSuspended facts
              return .granted
                { user := (getDefault record "user" (.str "")).pyStr repr
                  companyId
                  handleId := facts.handleId } facts
      | .ok _ => return .denied .malformedEntry .none

def resolveColdOutcome
    (aget : StoreKey → Except Raised (Option Stored)) (handle : String) :
    Except Raised (Outcome ColdBinding) :=
  resolveOutcomeFor loads repr other audienceCold aget handle

end ColdBroker

/-! ## The contract -/

/-- What an outcome decides. -/
inductive Verdict where
  | granted (tenant : String) (facts : Facts)
  | denied (reason : Refusal) (facts : Facts)
deriving DecidableEq

def Outcome.verdict {Binding : Type} (tenant : Binding → String) :
    Outcome Binding → Verdict
  | .granted binding facts => .granted (tenant binding) facts
  | .denied reason facts => .denied reason facts

inductive Verifier where
  | api
  | sql
  | tracking
  | cold

/-- The verdict of a verifier that is asked for an audience. -/
def Verifier.verdict (verifier : Verifier) (contents : Contents)
    (client : Client) (handle asked : String) : Except Raised Verdict :=
  match verifier with
  | .api =>
      (Api.resolveCapabilityOutcome loads repr other (client.get contents)
        handle asked).map (·.verdict (·.companyId))
  | .sql =>
      (SqlProxy.resolveOutcomeFor loads repr other asked
        (client.get contents) handle).map (·.verdict (·.companyId))
  | .tracking =>
      (Tracking.resolveOutcome loads repr other (client.get contents)
        handle asked).map (·.verdict (·.companyId))
  | .cold =>
      (ColdBroker.resolveOutcomeFor loads repr other asked
        (client.get contents) handle).map (·.verdict (·.companyId))

/-- The entry under a handle, read as an object. -/
inductive Reading where
  | absent
  | malformed
  | entry (record : List (String × Json))

namespace Contract

def parse (text : String) : Except Raised Reading :=
  match loads text with
  | .error .valueError => pure .malformed
  | .error .typeError => pure .malformed
  | .error raised => throw raised
  | .ok (.obj record) => pure (.entry record)
  | .ok _ => pure .malformed

def read (contents : Contents) (handle : String) : Except Raised Reading :=
  match contents.entry handle with
  | none => pure .absent
  | some raw => decode raw >>= parse loads

/-- The tenant that an entry names. -/
def tenant (record : List (String × Json)) : Option String :=
  (canonicalCompanyId repr other
    ((Json.get record "company_id").orElse (.str ""))).toOption

def judge (contents : Contents) (asked : String) : Reading → Verdict
  | .absent => .denied .noEntry .none
  | .malformed => .denied .malformedEntry .none
  | .entry record =>
      let facts := Api.entryFacts repr other record
      if (Json.get record "audience").isStr asked then
        match tenant repr other record with
        | none => .denied .malformedEntry facts
        | some company =>
            if contents.suspended company then
              .denied .tenantSuspended facts
            else .granted company facts
      else .denied .wrongAudience facts

def verdict (contents : Contents) (handle asked : String) :
    Except Raised Verdict :=
  if handle = "" then .ok (.denied .noHandle .none)
  else (read loads contents handle).map (judge repr other contents asked)

/-- What the copies do with the text of an entry; `bind` makes the binding of
a granted handle. -/
def examine {Binding : Type}
    (bind : List (String × Json) → String → Facts → Binding)
    (aget : StoreKey → Except Raised (Option Stored)) (asked text : String) :
    Except Raised (Outcome Binding) :=
  match loads text with
  | .error .valueError => pure (.denied .malformedEntry .none)
  | .error .typeError => pure (.denied .malformedEntry .none)
  | .error raised => throw raised
  | .ok (.obj record) =>
      let facts := Api.entryFacts repr other record
      if !(Json.get record "audience").isStr asked then
        pure (.denied .wrongAudience facts)
      else
        match canonicalCompanyId repr other
            ((Json.get record "company_id").orElse (.str "")) with
        | .error _ => pure (.denied .malformedEntry facts)
        | .ok company => do
            if (← aget (.suspended company)).isSome then
              return .denied .tenantSuspended facts
            return .granted (bind record company facts) facts
  | .ok _ => pure (.denied .malformedEntry .none)

/-- The steps that the copies share. -/
def resolve {Binding : Type}
    (bind : List (String × Json) → String → Facts → Binding)
    (aget : StoreKey → Except Raised (Option Stored))
    (handle asked : String) : Except Raised (Outcome Binding) :=
  if handle = "" then pure (.denied .noHandle .none)
  else
    aget (.entry handle) >>= fun found =>
      match found with
      | none => pure (.denied .noEntry .none)
      | some stored =>
          stored.decoded >>= examine loads repr other bind aget asked

end Contract

/-! ## Agreement -/

theorem decode_marker : decode marker = .ok "1" := by
  decide +kernel

theorem Client.get_suspended (contents : Contents) (client : Client)
    (company : String) :
    ∃ found, client.get contents (.suspended company) = .ok found ∧
      found.isSome = contents.suspended company := by
  cases held : contents.suspended company with
  | false => exact ⟨none, by simp [Client.get, Contents.value, held], rfl⟩
  | true =>
      cases client with
      | binary =>
          exact ⟨some (.bytes marker),
            by simp [Client.get, Contents.value, held], rfl⟩
      | decoding =>
          refine ⟨some (.text "1"), ?_, rfl⟩
          simp only [Client.get, Contents.value, held, if_true, decode_marker]
          rfl

/-- An entry is decoded by the client or after it. -/
theorem Client.get_entry {contents : Contents} {handle : String}
    {raw : ByteArray} (client : Client)
    (held : contents.entry handle = some raw)
    {Answer : Type} (absent : Except Raised Answer)
    (present : String → Except Raised Answer) :
    (client.get contents (.entry handle) >>= fun found =>
      match found with
      | none => absent
      | some stored => stored.decoded >>= present) = decode raw >>= present := by
  cases client with
  | binary => simp only [Client.get, Contents.value, held]; rfl
  | decoding =>
      simp only [Client.get, Contents.value, held]
      cases decode raw with
      | error raised => rfl
      | ok text => rfl

theorem Contract.examine_verdict {Binding : Type}
    {bind : List (String × Json) → String → Facts → Binding}
    {named : Binding → String}
    (bound : ∀ record company facts,
      named (bind record company facts) = company)
    (contents : Contents) (client : Client) (asked text : String) :
    (examine loads repr other bind (client.get contents) asked text).map
        (·.verdict named) =
      (parse loads text).map (judge repr other contents asked) := by
  unfold examine parse
  cases loads text with
  | error raised =>
      cases raised with
      | valueError => rfl
      | typeError => rfl
      | recursionError => rfl
      | unicodeDecodeError => rfl
  | ok value =>
      cases value with
      | null => rfl
      | bool value => rfl
      | num text zero => rfl
      | str text => rfl
      | arr items => rfl
      | obj record =>
          show Except.map _ _ = Except.ok (judge repr other contents asked
            (.entry record))
          simp only [judge, tenant]
          cases (Json.get record "audience").isStr asked with
          | false => rfl
          | true =>
              cases canonicalCompanyId repr other
                ((Json.get record "company_id").orElse (.str "")) with
              | error raised => rfl
              | ok company =>
                  obtain ⟨found, got, same⟩ :=
                    client.get_suspended contents company
                  simp only [got, Except.toOption, ← same]
                  cases found with
                  | none =>
                    show Except.ok _ = Except.ok _
                    simp [Outcome.verdict, bound]
                  | some stored => rfl

theorem Contract.resolve_verdict {Binding : Type}
    {bind : List (String × Json) → String → Facts → Binding}
    {named : Binding → String}
    (bound : ∀ record company facts,
      named (bind record company facts) = company)
    (contents : Contents) (client : Client) (handle asked : String) :
    (resolve loads repr other bind (client.get contents) handle asked).map
        (·.verdict named) =
      Contract.verdict loads repr other contents handle asked := by
  unfold resolve Contract.verdict
  by_cases empty : handle = ""
  · rw [if_pos empty, if_pos empty]
    rfl
  · rw [if_neg empty, if_neg empty]
    cases held : contents.entry handle with
    | none =>
        simp only [Client.get, Contents.value, held, read]
        rfl
    | some raw =>
        rw [client.get_entry held]
        simp only [read, held]
        cases decode raw with
        | error raised => rfl
        | ok text =>
            exact examine_verdict loads repr other bound contents client
              asked text

theorem Api.resolve_eq (aget : StoreKey → Except Raised (Option Stored))
    (handle asked : String) :
    resolveCapabilityOutcome loads repr other aget handle asked =
      Contract.resolve loads repr other (fun record companyId facts =>
        CapabilityBinding.mk ((getDefault record "user" (.str "")).pyStr repr)
          companyId (Json.get record "audience")
          (getDefault record "read_only" (.bool true)).truthy facts.handleId)
        aget handle asked := by
  unfold resolveCapabilityOutcome Contract.resolve
  rfl

theorem SqlProxy.resolve_eq
    (aget : StoreKey → Except Raised (Option Stored))
    (handle asked : String) :
    resolveOutcomeFor loads repr other asked aget handle =
      Contract.resolve loads repr other (fun record companyId facts =>
        SqlBinding.mk ((getDefault record "user" (.str "")).pyStr repr)
          companyId (getDefault record "read_only" (.bool true)).truthy
          facts.handleId) aget handle asked := by
  unfold resolveOutcomeFor Contract.resolve
  rfl

theorem Tracking.resolve_eq
    (aget : StoreKey → Except Raised (Option Stored))
    (handle asked : String) :
    resolveOutcome loads repr other aget handle asked =
      Contract.resolve loads repr other (fun record companyId facts =>
        TrackingBinding.mk (getDefault record "user" (.str "")) companyId
          asked facts.handleId) aget handle asked := by
  unfold resolveOutcome Contract.resolve
  rfl

theorem ColdBroker.resolve_eq
    (aget : StoreKey → Except Raised (Option Stored))
    (handle asked : String) :
    resolveOutcomeFor loads repr other asked aget handle =
      Contract.resolve loads repr other (fun record companyId facts =>
        ColdBinding.mk ((getDefault record "user" (.str "")).pyStr repr)
          companyId facts.handleId) aget handle asked := by
  unfold resolveOutcomeFor Contract.resolve
  rfl

/-- Every verifier decides as the contract does. -/
theorem Verifier.verdict_eq (verifier : Verifier) (contents : Contents)
    (client : Client) (handle asked : String) :
    verifier.verdict loads repr other contents client handle asked =
      Contract.verdict loads repr other contents handle asked := by
  cases verifier with
  | api =>
      simp only [verdict, Api.resolve_eq]
      apply Contract.resolve_verdict
      exact fun _ _ _ => rfl
  | sql =>
      simp only [verdict, SqlProxy.resolve_eq]
      apply Contract.resolve_verdict
      exact fun _ _ _ => rfl
  | tracking =>
      simp only [verdict, Tracking.resolve_eq]
      apply Contract.resolve_verdict
      exact fun _ _ _ => rfl
  | cold =>
      simp only [verdict, ColdBroker.resolve_eq]
      apply Contract.resolve_verdict
      exact fun _ _ _ => rfl

/-! ## What a grant says -/

/-- The entry under the handle is for the audience, and names the tenant by a
UUID; the tenant has no suspension marker. -/
structure Entitled (contents : Contents) (handle asked tenant : String) :
    Prop where
  entry : ∃ raw text record, contents.entry handle = some raw ∧
    decode raw = .ok text ∧ loads text = .ok (.obj record) ∧
    Json.get record "audience" = .str asked ∧
    ∃ value, uuidInt other
      (((Json.get record "company_id").orElse (.str "")).pyStr repr) =
        .ok value ∧ tenant = uuidText value
  unsuspended : contents.suspended tenant = false

theorem Contract.parse_entry {text : String} {record : List (String × Json)}
    (parsed : parse loads text = .ok (.entry record)) :
    loads text = .ok (.obj record) := by
  unfold parse at parsed
  split at parsed
  · cases parsed
  · cases parsed
  · cases parsed
  · rename_i fields loaded
    cases parsed
    exact loaded
  · cases parsed

theorem Contract.read_entry {contents : Contents} {handle : String}
    {record : List (String × Json)}
    (found : read loads contents handle = .ok (.entry record)) :
    ∃ raw text, contents.entry handle = some raw ∧
      decode raw = .ok text ∧ loads text = .ok (.obj record) := by
  unfold read at found
  cases held : contents.entry handle with
  | none =>
      rw [held] at found
      cases found
  | some raw =>
      rw [held] at found
      obtain ⟨text, decoded, parsed⟩ := bind_ok_iff.mp found
      exact ⟨raw, text, rfl, decoded, parse_entry loads parsed⟩

theorem Contract.tenant_uuid {record : List (String × Json)}
    {company : String} (named : tenant repr other record = some company) :
    ∃ value, uuidInt other
      (((Json.get record "company_id").orElse (.str "")).pyStr repr) =
        .ok value ∧ company = uuidText value := by
  unfold tenant canonicalCompanyId canonicalUuid at named
  cases parsed : uuidInt other
    (((Json.get record "company_id").orElse (.str "")).pyStr repr) with
  | error raised =>
      rw [parsed] at named
      cases named
  | ok value =>
      rw [parsed] at named
      exact ⟨value, rfl, (Option.some.inj named).symm⟩

theorem Contract.judge_granted {contents : Contents} {asked : String}
    {reading : Reading} {company : String} {facts : Facts}
    (granted : judge repr other contents asked reading =
      .granted company facts) :
    ∃ record, reading = .entry record ∧
      Json.get record "audience" = .str asked ∧
      tenant repr other record = some company ∧
      contents.suspended company = false := by
  cases reading with
  | absent => cases granted
  | malformed => cases granted
  | entry record =>
      simp only [judge] at granted
      split at granted
      · rename_i audience
        split at granted
        · cases granted
        · rename_i found named
          split at granted
          · cases granted
          · rename_i unsuspended
            cases granted
            exact ⟨record, rfl, Json.isStr_iff.mp audience, named,
              by simpa using unsuspended⟩
      · cases granted

theorem Contract.granted {contents : Contents} {handle asked tenant : String}
    {facts : Facts}
    (granted : verdict loads repr other contents handle asked =
      .ok (.granted tenant facts)) :
    Entitled loads repr other contents handle asked tenant := by
  unfold verdict at granted
  split at granted
  · cases granted
  · cases found : read loads contents handle with
    | error raised =>
        rw [found] at granted
        cases granted
    | ok reading =>
        rw [found] at granted
        obtain ⟨record, rfl, audience, named, unsuspended⟩ :=
          judge_granted repr other (Except.ok.inj granted)
        obtain ⟨raw, text, held, decoded, loaded⟩ := read_entry loads found
        exact ⟨⟨raw, text, record, held, decoded, loaded, audience,
          tenant_uuid repr other named⟩, unsuspended⟩

/-- The verifiers give one verdict, and grant only what the entry entitles
to. -/
theorem verifiers_agree (contents : Contents) (handle asked : String) :
    (∀ (first second : Verifier) (ofFirst ofSecond : Client),
      first.verdict loads repr other contents ofFirst handle asked =
        second.verdict loads repr other contents ofSecond handle asked) ∧
      ∀ (verifier : Verifier) (client : Client) (tenant : String)
        (facts : Facts),
        verifier.verdict loads repr other contents client handle asked =
          .ok (.granted tenant facts) →
        Entitled loads repr other contents handle asked tenant := by
  constructor
  · intro first second ofFirst ofSecond
    rw [first.verdict_eq, second.verdict_eq]
  · intro verifier client tenant facts granted
    rw [verifier.verdict_eq] at granted
    exact Contract.granted loads repr other granted

end

/-- An entry for the SQL audience. -/
def sampleText : String :=
  "\x7b\"audience\": \"sql\", \"company_id\": " ++
    "\"0B2F503A6E594C1D8F7A9B3C5D7E9F01\"\x7d"

def sampleLoads (text : String) : Except Raised Json :=
  if text = sampleText then
    .ok (.obj [("audience", .str "sql"),
      ("company_id", .str "0B2F503A6E594C1D8F7A9B3C5D7E9F01")])
  else .error .valueError

def sampleContents : Contents where
  entry handle := if handle = "h" then some sampleText.toUTF8 else none
  suspended _ := false

theorem verifiers_agree_granted :
    Verifier.verdict sampleLoads (fun _ => "") (fun _ => none) .sql
        sampleContents .binary "h" "sql" =
      .ok (.granted "0b2f503a-6e59-4c1d-8f7a-9b3c5d7e9f01"
        ⟨some "0b2f503a-6e59-4c1d-8f7a-9b3c5d7e9f01", none, none,
          some "sql"⟩) ∧
      Entitled sampleLoads (fun _ => "") (fun _ => none) sampleContents "h"
        "sql" "0b2f503a-6e59-4c1d-8f7a-9b3c5d7e9f01" := by
  have granted : Verifier.verdict sampleLoads (fun _ => "") (fun _ => none)
      .sql sampleContents .binary "h" "sql" =
        .ok (.granted "0b2f503a-6e59-4c1d-8f7a-9b3c5d7e9f01"
          ⟨some "0b2f503a-6e59-4c1d-8f7a-9b3c5d7e9f01", none, none,
            some "sql"⟩) := by
    decide +kernel
  exact ⟨granted, (verifiers_agree sampleLoads (fun _ => "") (fun _ => none)
    sampleContents "h" "sql").2 .sql .binary _ _ granted⟩

end IndustryFlow.Verifiers
