import IndustryFlow.Words
import IndustryFlow.Fallible
import IndustryFlow.Isoformat
import IndustryFlow.Tenancy.Names
import Mathlib.Algebra.Group.Nat.Defs

/-!
# The events of the capability-use record

What a plane appends to the stream (`event`), what the writer reads from an
entry (`decode`), and the script that records a repeatable event once per
window, with the count of those that it did not record.
-/

namespace IndustryFlow.CapabilityAudit

open Isoformat (Fields Datetime isoformat fromIsoformat)
open Measurements (Raised)
open Tenancy (isLowerHex)
open Tenancy.Names (canonicalCompanyId)

/-! ## The contract -/

/-- `KINDS`. -/
def kinds : List String :=
  ["minted", "first_use", "refused", "revoked", "consumed",
    "environment_started", "environment_stopped", "sql_session_opened",
    "sql_session_closed"]

/-- `PLANES`. -/
def planes : List String :=
  ["hub", "ml_service", "api_gateway", "sql_proxy", "tracking_gateway",
    "cold_broker", "tenant_delete"]

/-- `AUDIENCES`. -/
def audiences : List String := ["api", "sql", "tracking", "cold", "upload"]

attribute [local instance] Words.lawful_list in
/-- `_DIGEST.match`. -/
def digestMatches (digest : String) : Bool :=
  (digest.toList.take 16).length = 16 &&
    (digest.toList.take 16).all isLowerHex &&
    digest.toList.drop 16 ∈ [[], ['\n']]

/-- `_MAX_DETAIL`. -/
def maxDetail : Nat := 512

/-- `_text`. -/
def text (value : String) : String :=
  String.ofList ((value.toList.map fun char =>
    if char = '\x00' then '\ufffd' else char).take maxDetail)

/-- The exceptions of the contract. -/
inductive Refused where
  | unknownKind (kind : String)
  | unknownPlane (plane : String)
  | unknownAudience (audience : String)
  | uuid (raised : Raised)
  /-- `a digest is presented_digest()'s 16 hex characters`. -/
  | malformedDigest
  /-- `only a real entry's refusal or SQL session event is recorded per
  window`. -/
  | notRepeatable
  /-- `UnicodeDecodeError`. -/
  | undecodable
  | notAnEvent (kind plane : Option String)
  /-- `KeyError`. -/
  | missing (key : String)
  /-- `Invalid isoformat string`. -/
  | invalidTime
  /-- `event time has no zone`. -/
  | noZone
  /-- `not a presented-handle digest`. -/
  | notADigest
  /-- `a suppressed count is a positive integer`. -/
  | notACount
deriving DecidableEq

/-- Fields of an entry, in the order of the dictionary. -/
abbrev Entry := List (String × String)

/-- The fields that have a value. -/
def present (columns : List (String × Option String)) : Entry :=
  columns.filterMap fun column => column.2.map (column.1, ·)

/-- `fields.get(name)`, of a dictionary built from the items. -/
def find (fields : Entry) (name : String) : Option String :=
  fields.reverse.lookup name

section

variable (other : List Char → Option Int)

/-- `str(uuid.UUID(value))` of a value that may be absent. -/
def canonical : Option String → Except Refused (Option String)
  | none => .ok none
  | some value => do
      let id ← (canonicalCompanyId other value).mapError Refused.uuid
      pure (some id)

/-! ## Writing -/

/-- The arguments of `event`; `time` is its `at`. -/
structure Arguments where
  kind : String
  plane : String
  user : Option String
  companyId : Option String
  audience : Option String
  handleId : Option String
  digest : Option String
  reason : Option String
  detail : Option String
  time : Option Datetime

/-- `event`.  `now` is `datetime.now(timezone.utc)`. -/
def event (now : Isoformat.Utc) (arguments : Arguments) :
    Except Refused Entry := do
  if arguments.kind ∉ kinds then
    throw (.unknownKind arguments.kind)
  if arguments.plane ∉ planes then
    throw (.unknownPlane arguments.plane)
  if ∃ audience ∈ arguments.audience, audience ∉ audiences then
    throw (.unknownAudience (arguments.audience.getD ""))
  let time := arguments.time.getD now.toDatetime
  let companyId ← canonical other arguments.companyId
  let handleId ← canonical other arguments.handleId
  if ∃ digest ∈ arguments.digest, digestMatches digest = false then
    throw .malformedDigest
  pure (present
    [("kind", some arguments.kind),
      ("plane", some arguments.plane),
      ("at", some (isoformat time.toFields)),
      ("company_id", companyId),
      ("handle_id", handleId),
      ("user", arguments.user.map text),
      ("audience", arguments.audience.map text),
      ("digest", arguments.digest.map text),
      ("reason", arguments.reason.map text),
      ("detail", arguments.detail.map text)])

/-- `flat`. -/
def flat (fields : Entry) : List String :=
  fields.flatMap fun field => [field.1, field.2]

/-! ## Reading -/

/-- A key or a value of an entry, as a client returns it. -/
inductive Item where
  | str (text : String)
  | bytes (octets : ByteArray)

/-- `s`, in `decode`. -/
def Item.decode : Item → Except Refused String
  | .str text => .ok text
  | .bytes octets =>
      match String.fromUTF8? octets with
      | some text => .ok text
      | none => .error .undecodable

/-- A text as a string or as its octets. -/
def Item.of (encoded : Bool) (text : String) : Item :=
  if encoded then .bytes text.toUTF8 else .str text

/-- An entry as a client returns it. -/
def raw (encoded : Bool) (fields : Entry) : List (Item × Item) :=
  fields.map fun field => (.of encoded field.1, .of encoded field.2)

structure Decoded where
  kind : String
  plane : String
  time : String
  user : Option String
  companyId : Option String
  audience : Option String
  handleId : Option String
  digest : Option String
  reason : Option String
  detail : Option String
  suppressed : Option String
deriving DecidableEq

/-- `re.fullmatch(r"[1-9][0-9]{0,9}", value) and int(value) < 2**31`. -/
def isCount (value : String) : Bool :=
  match value.toList with
  | [] => false
  | first :: rest =>
      first.isDigit && first ≠ '0' && decide (rest.length ≤ 9) &&
        rest.all Char.isDigit &&
        decide (Nat.ofDigitChars 10 (first :: rest) 0 < 2 ^ 31)

/-- What raises where there is no value. -/
def required {Value : Type} (value : Option Value) (raised : Refused) :
    Except Refused Value :=
  match value with
  | some value => .ok value
  | none => .error raised

/-- `decode`, of the dictionary. -/
def decodeFields (otherTime : String → Option Datetime)
    (field : String → Option String) : Except Refused Decoded := do
  let kind := field "kind"
  let plane := field "plane"
  if kind.getD "" ∉ kinds ∨ plane.getD "" ∉ planes then
    throw (.notAnEvent kind plane)
  let written ← required (field "at") (.missing "at")
  let time ← required (fromIsoformat otherTime written) .invalidTime
  if time.aware = false then
    throw .noZone
  let companyId ← canonical other (field "company_id")
  let handleId ← canonical other (field "handle_id")
  if ∃ audience ∈ field "audience", audience ∉ audiences then
    throw (.unknownAudience ((field "audience").getD ""))
  if ∃ digest ∈ field "digest", digestMatches digest = false then
    throw .notADigest
  if ∃ suppressed ∈ field "suppressed", isCount suppressed = false then
    throw .notACount
  pure
    { kind := kind.getD ""
      plane := plane.getD ""
      time := isoformat time.toFields
      user := (field "user").map text
      companyId
      audience := field "audience"
      handleId
      digest := field "digest"
      reason := (field "reason").map text
      detail := (field "detail").map text
      suppressed := field "suppressed" }

def decodeItem (item : Item × Item) : Except Refused (String × String) := do
  let key ← item.1.decode
  let value ← item.2.decode
  pure (key, value)

/-- `decode`. -/
def decode (otherTime : String → Option Datetime)
    (entry : List (Item × Item)) : Except Refused Decoded := do
  let fields ← entry.mapM decodeItem
  decodeFields other otherTime (find fields)

end

/-! ## Repeats -/

/-- The marker of a window and the count of those not recorded in it. -/
structure Window where
  marked : Bool
  count : Option Nat
  positive : ∀ pending ∈ count, 0 < pending

/-- The pairs that `XADD` takes. -/
def pairs : List String → Option Entry
  | [] => some []
  | key :: value :: rest => (pairs rest).map ((key, value) :: ·)
  | [_] => none

/-- `INCR`. -/
def increment (window : Window) : Window where
  marked := window.marked
  count := some (window.count.getD 0 + 1)
  positive := by
    intro pending same
    cases same
    exact Nat.succ_pos _

end IndustryFlow.CapabilityAudit
