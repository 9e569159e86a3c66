import IndustryFlow.Concurrent.History
import IndustryFlow.SqlProxy.Handshake
import Mathlib.Logic.Function.Basic

/-!
# Cancel requests

The proxy shows every client a pair of its own in place of the key of the
upstream session, and a later connection that quotes the pair interrupts that
session.  Relays begin and end and cancel requests come in any order; the
upstream connection for one opens after its pair was looked up.
-/

namespace IndustryFlow.SqlWire

open Concurrent

/-! ## The packets -/

/-- `build_message`. -/
def buildMessage (type : UInt8) (payload : Bytes) : Bytes :=
  type :: packInt (payload.length + 4) ++ payload

/-- `MSG_BACKEND_KEY_DATA`, which is `b"K"`. -/
def msgBackendKeyData : UInt8 := 75

/-- A process id and a secret key. -/
abbrev KeyData := Nat × Nat

/-- `build_backend_key_data`. -/
def buildBackendKeyData (data : KeyData) : Bytes :=
  buildMessage msgBackendKeyData (packInt data.1 ++ packInt data.2)

/-- `parse_backend_key_data`, which raises a `ProtocolError` otherwise. -/
def parseBackendKeyData (payload : Bytes) : Option KeyData :=
  if payload.length ≠ 8 then none
  else some (unpackInt (payload.take 4), unpackInt (payload.drop 4))

/-- The body of a cancel request, after its length. -/
def cancelBody (data : KeyData) : Bytes :=
  packInt cancelRequestCode ++ packInt data.1 ++ packInt data.2

/-- `build_cancel_request`. -/
def buildCancelRequest (data : KeyData) : Bytes :=
  packInt 16 ++ cancelBody data

/-- Both numbers fit into four bytes. -/
def Packable (data : KeyData) : Prop :=
  data.1 < 4294967296 ∧ data.2 < 4294967296

theorem packInt_length (number : Nat) : (packInt number).length = 4 := rfl

theorem cancelBody_length (data : KeyData) : (cancelBody data).length = 12 :=
  rfl

theorem unpackInt_packInt {number : Nat} (small : number < 4294967296) :
    unpackInt (packInt number) = number := by
  simp only [unpackInt, packInt, List.foldl_cons, List.foldl_nil,
    UInt8.toNat_ofNat']
  omega

theorem unpackInt_small (bytes : Bytes) (length : bytes.length = 4) :
    unpackInt bytes < 4294967296 ∧ packInt (unpackInt bytes) = bytes := by
  obtain ⟨first, second, third, fourth, rfl⟩ :
      ∃ first second third fourth, bytes = [first, second, third, fourth] :=
    List.length_eq_four.mp length
  have one := first.toNat_lt
  have two := second.toNat_lt
  have three := third.toNat_lt
  have four := fourth.toNat_lt
  have total : unpackInt [first, second, third, fourth] =
      ((first.toNat * 256 + second.toNat) * 256 + third.toNat) * 256 +
        fourth.toNat := by
    simp [unpackInt]
  refine ⟨by omega, ?_⟩
  rw [total, packInt]
  congr 1
  · apply UInt8.toNat_inj.mp
    rw [UInt8.toNat_ofNat']
    omega
  · congr 1
    · apply UInt8.toNat_inj.mp
      rw [UInt8.toNat_ofNat']
      omega
    · congr 1
      · apply UInt8.toNat_inj.mp
        rw [UInt8.toNat_ofNat']
        omega
      · congr 1
        apply UInt8.toNat_inj.mp
        rw [UInt8.toNat_ofNat']
        omega

theorem packInt_injective {left right : Nat} (first : left < 4294967296)
    (second : right < 4294967296) (same : packInt left = packInt right) :
    left = right := by
  rw [← unpackInt_packInt first, same, unpackInt_packInt second]

/-- What upstream reads in a packet of the proxy. -/
theorem parse_cancelBody {data : KeyData} (packable : Packable data) :
    parseCancelRequest (cancelBody data) = .ok data := by
  have code : (cancelBody data).take 4 = packInt cancelRequestCode := rfl
  have pid : ((cancelBody data).drop 4).take 4 = packInt data.1 := rfl
  have key : (cancelBody data).drop 8 = packInt data.2 := rfl
  have length := not_not_intro (cancelBody_length data)
  have small : cancelRequestCode < 4294967296 := by decide
  rw [parseCancelRequest, if_neg length, code, pid, key,
    unpackInt_packInt small, unpackInt_packInt packable.1,
    unpackInt_packInt packable.2]
  exact if_neg (not_not_intro rfl)

/-- A request is accepted for no other bytes than its own. -/
theorem parseCancelRequest_ok {body : Bytes} {data : KeyData}
    (parsed : parseCancelRequest body = .ok data) :
    body = cancelBody data ∧ Packable data := by
  rw [parseCancelRequest] at parsed
  split at parsed
  · cases parsed
  · rename_i long
    have length : body.length = 12 := not_not.mp long
    split at parsed
    · cases parsed
    · rename_i other
      have code : unpackInt (body.take 4) = cancelRequestCode :=
        not_not.mp other
      cases parsed
      have first := unpackInt_small (body.take 4)
        (by simp [length])
      have second := unpackInt_small ((body.drop 4).take 4)
        (by simp [length])
      have third := unpackInt_small (body.drop 8) (by simp [length])
      refine ⟨?_, second.1, third.1⟩
      rw [cancelBody, second.2, third.2, ← code, first.2, List.append_assoc]
      have rest : (body.drop 4).take 4 ++ body.drop 8 = body.drop 4 := by
        have again := List.take_append_drop 4 (body.drop 4)
        rwa [List.drop_drop] at again
      rw [rest, List.take_append_drop]

theorem parseBackendKeyData_packable {payload : Bytes} {data : KeyData}
    (parsed : parseBackendKeyData payload = some data) : Packable data := by
  rw [parseBackendKeyData] at parsed
  split at parsed
  · cases parsed
  · rename_i long
    have length : payload.length = 8 := not_not.mp long
    cases parsed
    exact ⟨(unpackInt_small _ (by simp [length])).1,
      (unpackInt_small _ (by simp [length])).1⟩

/-! ## The registry -/

/-- How far `relay` has come with its pair. -/
inductive RelayPhase where
  /-- The pair is registered and the client is being shown it. -/
  | greeting
  /-- Inside the `try` that unregisters it. -/
  | piping
  /-- The client was gone before the `try`: the pair stays registered. -/
  | stranded
deriving DecidableEq

/-- A relay, the key of its upstream session and the pair its client was
shown. -/
structure Relay where
  upstream : KeyData
  shown : KeyData
  phase : RelayPhase
deriving DecidableEq

/-- `CancelRegistry`, with the relays that have not unregistered their pairs
and the cancel requests that are on their way. -/
structure Cancels where
  /-- `_sessions`: the secret key and the upstream pair under a process id. -/
  sessions : Nat → Option (Nat × KeyData)
  relays : Nat → Option Relay
  /-- What the requests that were looked up are to be forwarded to. -/
  opening : List KeyData
  /-- The packets written upstream. -/
  sent : List Bytes

def Cancels.empty : Cancels :=
  ⟨fun _ => none, fun _ => none, [], []⟩

/-- `secrets.randbits(31) or 1`. -/
def pidOf (bits : BitVec 31) : Nat :=
  if bits.toNat = 0 then 1 else bits.toNat

/-- The loop of `register`: draws until a process id is not taken, and all of
the draws are used. -/
def drawPid (taken : Nat → Bool) : List (BitVec 31) → Option Nat
  | [] => none
  | bits :: rest =>
      if taken (pidOf bits) then drawPid taken rest
      else if rest = [] then some (pidOf bits) else none

namespace Cancels

/-- `resolve`. -/
def resolve (cancels : Cancels) (data : KeyData) : Option KeyData :=
  match cancels.sessions data.1 with
  | none => none
  | some (expected, upstream) =>
      if packInt expected = packInt data.2 then some upstream else none

/-- What `handle_client` looks up for a client that sends these bytes. -/
def lookUp (cancels : Cancels) (stream : Bytes) : Option KeyData :=
  match readStartup stream with
  | .error _ => none
  | .ok (startup, _) =>
      if startup.code = cancelRequestCode then
        match parseCancelRequest startup.body with
        | .error _ => none
        | .ok data => cancels.resolve data
      else none

end Cancels

inductive CancelEvent where
  /-- A relay to an upstream session that sent this BackendKeyData, and what
  `register` draws for it. -/
  | relay (id : Nat) (payload : Bytes) (draws : List (BitVec 31))
      (key : BitVec 32)
  /-- The greeting has reached the client, or could not be written. -/
  | greeted (id : Nat)
  | stranded (id : Nat)
  | finish (id : Nat)
  /-- A client connects and sends these bytes. -/
  | connect (stream : Bytes)
  /-- The upstream connection of a request is open, or could not be opened. -/
  | deliver (index : Nat)
  | fail (index : Nat)
  /-- The process starts anew. -/
  | restart
deriving DecidableEq

namespace Cancels

/-- `register`. -/
def register (cancels : Cancels) (id : Nat) (upstream : KeyData)
    (draws : List (BitVec 31)) (key : BitVec 32) : Option Cancels :=
  if (cancels.relays id).isSome then none
  else
    (drawPid (fun pid => (cancels.sessions pid).isSome) draws).map fun pid =>
      { cancels with
        sessions := Function.update cancels.sessions pid
          (some (key.toNat, upstream))
        relays := Function.update cancels.relays id
          (some ⟨upstream, (pid, key.toNat), .greeting⟩) }

/-- The greeting is over, one way or the other. -/
def advance (cancels : Cancels) (id : Nat) (after : RelayPhase) :
    Option Cancels :=
  (cancels.relays id).bind fun relay =>
    if relay.phase = .greeting then
      some { cancels with
        relays := Function.update cancels.relays id
          (some { relay with phase := after }) }
    else none

/-- The `finally` of `relay`, with `unregister`. -/
def finish (cancels : Cancels) (id : Nat) : Option Cancels :=
  (cancels.relays id).bind fun relay =>
    if relay.phase = .piping then
      some { cancels with
        sessions := Function.update cancels.sessions relay.shown.1 none
        relays := Function.update cancels.relays id none }
    else none

def step (cancels : Cancels) : CancelEvent → Option Cancels
  | .relay id payload draws key =>
      (parseBackendKeyData payload).bind fun upstream =>
        cancels.register id upstream draws key
  | .greeted id => cancels.advance id .piping
  | .stranded id => cancels.advance id .stranded
  | .finish id => cancels.finish id
  | .connect stream =>
      match cancels.lookUp stream with
      | some upstream =>
          some { cancels with opening := cancels.opening ++ [upstream] }
      | none => some cancels
  | .deliver index => (cancels.opening[index]?).map fun upstream =>
      { cancels with
        opening := cancels.opening.eraseIdx index
        sent := cancels.sent ++ [buildCancelRequest upstream] }
  | .fail index => (cancels.opening[index]?).map fun _ =>
      { cancels with opening := cancels.opening.eraseIdx index }
  | .restart => some ⟨fun _ => none, fun _ => none, [], cancels.sent⟩

end Cancels

/-! ## The request of a client -/

/-- What these bytes ask for, requests for encryption aside, is to cancel the
session of this pair. -/
def Quotes (stream : Bytes) (data : KeyData) : Prop :=
  ∃ left, negotiated stream = some (cancelBody data, left)

theorem parse_cancelPacket (data : KeyData) :
    parseStartupPacket (cancelBody data) = .ok (cancelRequestCode, []) := by
  have code : unpackInt ((cancelBody data).take 4) = cancelRequestCode :=
    unpackInt_packInt (by decide : cancelRequestCode < 4294967296)
  have long : ¬(cancelBody data).length < 4 := by
    rw [cancelBody_length]
    decide
  have listed : cancelRequestCode ∈ requestCodes := by decide
  rw [parseStartupPacket, if_neg long]
  dsimp only
  rw [code, if_pos listed]

theorem Quotes.startup {stream : Bytes} {data : KeyData}
    (quotes : Quotes stream data) :
    ∃ left, readStartup stream =
      .ok (⟨cancelRequestCode, [], cancelBody data⟩, left) := by
  obtain ⟨left, asked⟩ := quotes
  rcases readStartup_negotiated stream with
    ⟨nothing, _⟩ | ⟨body, rest, found, -, read⟩
  · rw [asked] at nothing
    cases nothing
  · rw [asked] at found
    cases found
    refine ⟨left, ?_⟩
    rw [read, parse_cancelPacket]
    rfl

theorem readExactly_append (taken left : Bytes) :
    readExactly taken.length (taken ++ left) = .ok (taken, left) := by
  have enough : ¬(taken ++ left).length < taken.length := by
    rw [List.length_append]
    exact Nat.not_lt.mpr (Nat.le_add_right _ _)
  rw [readExactly, if_neg enough, List.take_left, List.drop_left]

/-- A packet is read back, and what follows it is left. -/
theorem readStartupPacket_append {body : Bytes} (left : Bytes)
    (short : body.length + 4 ≤ 1048576) :
    readStartupPacket (packInt (body.length + 4) ++ (body ++ left)) =
      .ok (body, left) := by
  have size : unpackInt (packInt (body.length + 4)) = body.length + 4 :=
    unpackInt_packInt (Nat.lt_of_le_of_lt short (by decide))
  have header := readExactly_append (packInt (body.length + 4)) (body ++ left)
  rw [packInt_length] at header
  have sensible : ¬(body.length + 4 < 4 ∨ 2 ^ 20 < body.length + 4) := by
    omega
  rw [readStartupPacket, header]
  simp only [bind, Except.bind]
  rw [size, if_neg sensible, Nat.add_sub_cancel]
  exact readExactly_append body left

/-- A message is read back, and what follows it is left. -/
theorem readRegularMessage_append (type : UInt8) {payload : Bytes}
    (left : Bytes) (short : payload.length + 4 ≤ 16777216) :
    readRegularMessage (buildMessage type payload ++ left) =
      .ok ([type], payload, left) := by
  have size : unpackInt (packInt (payload.length + 4)) = payload.length + 4 :=
    unpackInt_packInt (Nat.lt_of_le_of_lt short (by decide))
  have first := readExactly_append [type]
    (packInt (payload.length + 4) ++ (payload ++ left))
  have header := readExactly_append (packInt (payload.length + 4))
    (payload ++ left)
  have rest := readExactly_append payload left
  rw [packInt_length] at header
  have sensible :
      ¬(payload.length + 4 < 4 ∨ 2 ^ 24 < payload.length + 4) := by
    omega
  have whole : buildMessage type payload ++ left =
      [type] ++ (packInt (payload.length + 4) ++ (payload ++ left)) := by
    rw [buildMessage, List.append_assoc]
    rfl
  rw [readRegularMessage, whole]
  change (readExactly 1 _ >>= _) = _
  rw [show (1 : Nat) = [type].length from rfl, first]
  simp only [bind, Except.bind]
  rw [header]
  dsimp only
  rw [size, if_neg sensible, Nat.add_sub_cancel, rest]
  rfl

/-- What a client reads in the pair it is shown. -/
theorem parse_backendKeyData {data : KeyData} (packable : Packable data) :
    parseBackendKeyData (packInt data.1 ++ packInt data.2) = some data := by
  have length : ¬(packInt data.1 ++ packInt data.2).length ≠ 8 :=
    not_not_intro rfl
  have pid : (packInt data.1 ++ packInt data.2).take 4 = packInt data.1 := rfl
  have key : (packInt data.1 ++ packInt data.2).drop 4 = packInt data.2 := rfl
  rw [parseBackendKeyData, if_neg length, pid, key,
    unpackInt_packInt packable.1, unpackInt_packInt packable.2]

/-- The bytes a client sends to cancel with a pair do quote it, whatever it
sends behind them. -/
theorem quotes_buildCancelRequest (data : KeyData) (more : Bytes) :
    Quotes (buildCancelRequest data ++ more) data := by
  refine ⟨more, ?_⟩
  have read : readStartupPacket (buildCancelRequest data ++ more) =
      .ok (cancelBody data, more) := by
    rw [buildCancelRequest, List.append_assoc]
    have short : (cancelBody data).length + 4 ≤ 1048576 := by
      rw [cancelBody_length]
      decide
    exact readStartupPacket_append more short
  rw [negotiated_ok read, if_neg]
  intro encryption
  have code : unpackInt ((cancelBody data).take 4) = cancelRequestCode :=
    unpackInt_packInt (by decide : cancelRequestCode < 4294967296)
  have other : cancelRequestCode ∉ [sslRequestCode, gssencRequestCode] := by
    decide
  exact other (code ▸ encryption.2)

theorem Quotes.same {stream : Bytes} {first second : KeyData}
    (one : Quotes stream first) (two : Quotes stream second)
    (packable : Packable first) (other : Packable second) :
    first = second := by
  obtain ⟨left, asked⟩ := one
  obtain ⟨rest, again⟩ := two
  rw [asked] at again
  have bodies : cancelBody first = cancelBody second :=
    congrArg Prod.fst (Option.some.inj again)
  have parsed := parse_cancelBody packable
  rw [bodies, parse_cancelBody other] at parsed
  exact (Except.ok.inj parsed).symm

namespace Cancels

theorem lookUp_iff {cancels : Cancels} {stream : Bytes} {upstream : KeyData} :
    cancels.lookUp stream = some upstream ↔
      ∃ data, Packable data ∧ Quotes stream data ∧
        cancels.resolve data = some upstream := by
  constructor
  · intro found
    rcases readStartup_negotiated stream with
      ⟨-, raised, failed, -⟩ | ⟨body, left, asked, -, read⟩
    · rw [lookUp, failed] at found
      cases found
    · rw [lookUp, read] at found
      cases parsed : parseStartupPacket body with
      | error raised =>
          rw [parsed] at found
          cases found
      | ok startup =>
          rw [parsed] at found
          dsimp only [Except.map] at found
          split at found
          · cases request : parseCancelRequest body with
            | error raised =>
                rw [request] at found
                cases found
            | ok data =>
                rw [request] at found
                obtain ⟨rfl, packable⟩ := parseCancelRequest_ok request
                exact ⟨data, packable, ⟨left, asked⟩, found⟩
          · cases found
  · intro named
    obtain ⟨data, packable, quotes, resolved⟩ := named
    obtain ⟨left, read⟩ := quotes.startup
    rw [lookUp, read]
    dsimp only
    rw [if_pos rfl, parse_cancelBody packable]
    exact resolved

/-! ## What the registry keeps -/

/-- The pairs registered are those of the relays, and no two relays share a
process id. -/
structure Consistent (cancels : Cancels) : Prop where
  packable : ∀ id relay, cancels.relays id = some relay →
    Packable relay.shown ∧ Packable relay.upstream
  held : ∀ id relay, cancels.relays id = some relay →
    cancels.sessions relay.shown.1 = some (relay.shown.2, relay.upstream)
  known : ∀ pid entry, cancels.sessions pid = some entry →
    ∃ id relay, cancels.relays id = some relay ∧
      relay.shown = (pid, entry.1) ∧ relay.upstream = entry.2
  apart : ∀ (left right : Nat) (first second : Relay),
    cancels.relays left = some first → cancels.relays right = some second →
    first.shown.1 = second.shown.1 → left = right

/-- No relay, as at the beginning and after a restart. -/
theorem consistent_none (opening : List KeyData) (sent : List Bytes) :
    Consistent ⟨fun _ => none, fun _ => none, opening, sent⟩ where
  packable := by
    intro id relay never
    cases never
  held := by
    intro id relay never
    cases never
  known := by
    intro pid entry never
    cases never
  apart := by
    intro left right first second never
    cases never

/-- A pair that resolves is that of a relay. -/
theorem Consistent.resolve_iff {cancels : Cancels}
    (consistent : cancels.Consistent) {data : KeyData}
    (packable : Packable data) {upstream : KeyData} :
    cancels.resolve data = some upstream ↔
      ∃ id relay, cancels.relays id = some relay ∧ relay.shown = data ∧
        relay.upstream = upstream := by
  constructor
  · intro resolved
    rw [resolve] at resolved
    cases entry : cancels.sessions data.1 with
    | none =>
        rw [entry] at resolved
        cases resolved
    | some found =>
        obtain ⟨expected, kept⟩ := found
        rw [entry] at resolved
        dsimp only at resolved
        split at resolved
        · rename_i same
          cases resolved
          obtain ⟨id, relay, present, shown, named⟩ :=
            consistent.known data.1 _ entry
          have fits := (consistent.packable id relay present).1.2
          rw [shown] at fits
          have key : expected = data.2 :=
            packInt_injective fits packable.2 same
          exact ⟨id, relay, present, by rw [shown, key], named⟩
        · cases resolved
  · intro named
    obtain ⟨id, relay, present, rfl, rfl⟩ := named
    rw [resolve, consistent.held id relay present]
    exact if_pos rfl

/-- A pair that was looked up is quoted by the client. -/
theorem Consistent.lookUp_iff {cancels : Cancels}
    (consistent : cancels.Consistent) {stream : Bytes} {upstream : KeyData} :
    cancels.lookUp stream = some upstream ↔
      ∃ id relay, cancels.relays id = some relay ∧
        Quotes stream relay.shown ∧ relay.upstream = upstream := by
  rw [Cancels.lookUp_iff]
  constructor
  · intro named
    obtain ⟨data, packable, quotes, resolved⟩ := named
    obtain ⟨id, relay, present, rfl, same⟩ :=
      (consistent.resolve_iff packable).mp resolved
    exact ⟨id, relay, present, quotes, same⟩
  · intro named
    obtain ⟨id, relay, present, quotes, same⟩ := named
    have packable := (consistent.packable id relay present).1
    exact ⟨relay.shown, packable, quotes, (consistent.resolve_iff packable).mpr
      ⟨id, relay, present, rfl, same⟩⟩

theorem pidOf_lt (bits : BitVec 31) : pidOf bits < 4294967296 := by
  have small := bits.isLt
  rw [pidOf]
  split
  · decide
  · omega

theorem drawPid_free {taken : Nat → Bool} {draws : List (BitVec 31)}
    {pid : Nat} (drawn : drawPid taken draws = some pid) :
    taken pid = false ∧ pid < 4294967296 := by
  induction draws with
  | nil => cases drawn
  | cons bits rest induction =>
      rw [drawPid] at drawn
      split at drawn
      · exact induction drawn
      · rename_i free
        split at drawn
        · cases drawn
          exact ⟨Bool.eq_false_iff.mpr free, pidOf_lt bits⟩
        · cases drawn

/-- `register`: a pair no other relay has. -/
theorem Consistent.register {cancels next : Cancels}
    (consistent : cancels.Consistent) {id : Nat} {upstream : KeyData}
    (packable : Packable upstream) {draws : List (BitVec 31)}
    {key : BitVec 32}
    (registered : cancels.register id upstream draws key = some next) :
    next.Consistent ∧ next.opening = cancels.opening ∧
      next.sent = cancels.sent := by
  unfold Cancels.register at registered
  split at registered
  · cases registered
  · rename_i new
    obtain ⟨pid, drawn, rfl⟩ := Option.map_eq_some_iff.mp registered
    obtain ⟨taken, small⟩ := drawPid_free drawn
    have free : cancels.sessions pid = none :=
      Option.isNone_iff_eq_none.mp
        (Option.isSome_eq_false_iff.mp taken)
    have other : ∀ place relay, cancels.relays place = some relay →
        relay.shown.1 ≠ pid := by
      intro place relay present same
      have entry := consistent.held place relay present
      rw [same, free] at entry
      cases entry
    refine ⟨⟨?_, ?_, ?_, ?_⟩, rfl, rfl⟩
    · intro place relay present
      rcases update_eq_some present with ⟨-, same⟩ | ⟨-, before⟩
      · cases same
        exact ⟨⟨small, key.isLt⟩, packable⟩
      · exact consistent.packable place relay before
    · intro place relay present
      dsimp only
      rcases update_eq_some present with ⟨-, same⟩ | ⟨-, before⟩
      · cases same
        rw [Function.update_self]
      · rw [Function.update_of_ne (other place relay before)]
        exact consistent.held place relay before
    · intro asked entry found
      dsimp only
      rcases update_eq_some found with ⟨rfl, same⟩ | ⟨-, before⟩
      · cases same
        exact ⟨id, _, Function.update_self _ _ _, rfl, rfl⟩
      · obtain ⟨place, relay, present, rest⟩ :=
          consistent.known asked entry before
        refine ⟨place, relay, ?_, rest⟩
        rw [Function.update_of_ne]
        · exact present
        · rintro rfl
          rw [present] at new
          exact new rfl
    · intro left right first second one two same
      rcases update_eq_some one with ⟨rfl, own⟩ | ⟨-, before⟩
      · rcases update_eq_some two with ⟨rfl, -⟩ | ⟨-, there⟩
        · rfl
        · cases own
          exact absurd same.symm (other right second there)
      · rcases update_eq_some two with ⟨rfl, own⟩ | ⟨-, there⟩
        · cases own
          exact absurd same (other left first before)
        · exact consistent.apart left right first second before there same

/-- Nothing is registered or unregistered. -/
theorem Consistent.advance {cancels next : Cancels}
    (consistent : cancels.Consistent) {id : Nat} {after : RelayPhase}
    (advanced : cancels.advance id after = some next) :
    next.Consistent ∧ next.opening = cancels.opening ∧
      next.sent = cancels.sent := by
  obtain ⟨moved, found, moves⟩ := Option.bind_eq_some_iff.mp advanced
  split at moves
  · cases moves
    have back : ∀ {place : Nat} {relay : Relay},
        Function.update cancels.relays id (some { moved with phase := after })
          place = some relay → ∃ old, cancels.relays place = some old ∧
            relay.shown = old.shown ∧ relay.upstream = old.upstream := by
      intro place relay present
      rcases update_eq_some present with ⟨rfl, same⟩ | ⟨-, before⟩
      · cases same
        exact ⟨moved, found, rfl, rfl⟩
      · exact ⟨relay, before, rfl, rfl⟩
    refine ⟨⟨?_, ?_, ?_, ?_⟩, rfl, rfl⟩
    · intro place relay present
      obtain ⟨old, before, shown, upstream⟩ := back present
      rw [shown, upstream]
      exact consistent.packable place old before
    · intro place relay present
      obtain ⟨old, before, shown, upstream⟩ := back present
      rw [shown, upstream]
      exact consistent.held place old before
    · intro pid entry named
      obtain ⟨place, relay, present, shown, upstream⟩ :=
        consistent.known pid entry named
      by_cases same : place = id
      · cases same
        cases found.symm.trans present
        exact ⟨id, _, Function.update_self _ _ _, shown, upstream⟩
      · exact ⟨place, relay, (Function.update_of_ne same _ _).trans present,
          shown, upstream⟩
    · intro left right first second one two same
      obtain ⟨old, before, shown, -⟩ := back one
      obtain ⟨other, there, given, -⟩ := back two
      rw [shown, given] at same
      exact consistent.apart left right old other before there same
  · cases moves

/-- The pair of the relay that ends is registered no longer. -/
theorem Consistent.finish {cancels next : Cancels}
    (consistent : cancels.Consistent) {id : Nat}
    (finished : cancels.finish id = some next) :
    next.Consistent ∧ next.opening = cancels.opening ∧
      next.sent = cancels.sent := by
  obtain ⟨relay, found, ends⟩ := Option.bind_eq_some_iff.mp finished
  split at ends
  · cases ends
    -- who is still registered is another relay
    have stays : ∀ {place : Nat} {other : Relay},
        Function.update cancels.relays id none place = some other →
          place ≠ id ∧ cancels.relays place = some other := by
      intro place other present
      rcases update_eq_some present with ⟨-, never⟩ | left
      · cases never
      · exact left
    refine ⟨⟨?_, ?_, ?_, ?_⟩, rfl, rfl⟩
    · intro place other present
      exact consistent.packable place other (stays present).2
    · intro place other present
      obtain ⟨still, before⟩ := stays present
      dsimp only
      rw [Function.update_of_ne]
      · exact consistent.held place other before
      · intro same
        exact still (consistent.apart place id other relay before found same)
    · intro pid entry named
      rcases update_eq_some named with ⟨-, never⟩ | ⟨different, before⟩
      · cases never
      · obtain ⟨place, other, present, shown, upstream⟩ :=
          consistent.known pid entry before
        refine ⟨place, other, ?_, shown, upstream⟩
        dsimp only
        rw [Function.update_of_ne]
        · exact present
        · rintro rfl
          cases found.symm.trans present
          exact different (congrArg Prod.fst shown).symm
    · intro left right first second one two same
      exact consistent.apart left right first second (stays one).2
        (stays two).2 same
  · cases ends

/-! ## Whole runs -/

/-- A client is heard to quote the pair of a relay to this session. -/
def Asks (upstream : KeyData) (cancels : Cancels) (event : CancelEvent) :
    Prop :=
  ∃ stream id relay, event = .connect stream ∧
    cancels.relays id = some relay ∧ relay.upstream = upstream ∧
    Quotes stream relay.shown

/-- At some time of these events it was asked for, by one who quoted the
pair that was shown for it. -/
def Asked (past : List CancelEvent) (upstream : KeyData) : Prop :=
  Packable upstream ∧ Sometime step (Asks upstream) empty past

theorem Asked.append {past : List CancelEvent} {upstream : KeyData}
    (asked : Asked past upstream) (event : CancelEvent) :
    Asked (past ++ [event]) upstream :=
  ⟨asked.1, asked.2.append [event]⟩

/-- Where the requests on their way, and those sent, have come from. -/
structure Traced (past : List CancelEvent) (cancels : Cancels) : Prop where
  consistent : cancels.Consistent
  opening : ∀ upstream ∈ cancels.opening, Asked past upstream
  sent : ∀ packet ∈ cancels.sent, ∃ upstream, Asked past upstream ∧
    packet = buildCancelRequest upstream

/-- Every request of the next state was asked for by now. -/
theorem Traced.next {past : List CancelEvent} {cancels next : Cancels}
    {event : CancelEvent} (traced : Traced past cancels)
    (consistent : next.Consistent)
    (opening : ∀ upstream ∈ next.opening, upstream ∈ cancels.opening ∨
      Asked (past ++ [event]) upstream)
    (sent : ∀ packet ∈ next.sent, packet ∈ cancels.sent ∨
      ∃ upstream ∈ cancels.opening, packet = buildCancelRequest upstream) :
    Traced (past ++ [event]) next where
  consistent := consistent
  opening upstream member := by
    rcases opening upstream member with old | new
    · exact (traced.opening upstream old).append event
    · exact new
  sent packet member := by
    rcases sent packet member with old | ⟨upstream, waits, same⟩
    · obtain ⟨upstream, asked, same⟩ := traced.sent packet old
      exact ⟨upstream, asked.append event, same⟩
    · exact ⟨upstream, (traced.opening upstream waits).append event, same⟩

theorem Traced.step {past : List CancelEvent} {cancels next : Cancels}
    {event : CancelEvent} (ran : run Cancels.step empty past = some cancels)
    (traced : Traced past cancels)
    (stepped : cancels.step event = some next) :
    Traced (past ++ [event]) next := by
  have consistent := traced.consistent
  have still {next : Cancels} (kept : next.Consistent ∧
      next.opening = cancels.opening ∧ next.sent = cancels.sent) :
      Traced (past ++ [event]) next :=
    traced.next kept.1 (fun _ member => .inl (kept.2.1 ▸ member))
      fun _ member => .inl (kept.2.2 ▸ member)
  cases event with
  | relay id payload draws key =>
      obtain ⟨upstream, parsed, registered⟩ :=
        Option.bind_eq_some_iff.mp stepped
      exact still (consistent.register (parseBackendKeyData_packable parsed)
        registered)
  | greeted id => exact still (consistent.advance stepped)
  | stranded id => exact still (consistent.advance stepped)
  | finish id => exact still (consistent.finish stepped)
  | connect stream =>
      rw [Cancels.step] at stepped
      cases found : cancels.lookUp stream with
      | none =>
          rw [found] at stepped
          cases stepped
          exact still ⟨consistent, rfl, rfl⟩
      | some upstream =>
          rw [found] at stepped
          cases stepped
          obtain ⟨id, relay, present, quotes, rfl⟩ :=
            consistent.lookUp_iff.mp found
          have asked : Asked (past ++ [.connect stream]) relay.upstream :=
            ⟨(consistent.packable id relay present).2, .last ran
              ⟨stream, id, relay, rfl, present, rfl, quotes⟩⟩
          refine traced.next ⟨consistent.packable, consistent.held,
            consistent.known, consistent.apart⟩ ?_ fun _ member => .inl member
          intro other inside
          rcases List.mem_append.mp inside with old | new
          · exact .inl old
          · cases List.mem_singleton.mp new
            exact .inr asked
  | deliver index =>
      obtain ⟨upstream, found, rfl⟩ := Option.map_eq_some_iff.mp stepped
      refine traced.next ⟨consistent.packable, consistent.held,
        consistent.known, consistent.apart⟩
        (fun _ inside => .inl (List.mem_of_mem_eraseIdx inside)) ?_
      intro packet inside
      rcases List.mem_append.mp inside with old | new
      · exact .inl old
      · cases List.mem_singleton.mp new
        exact .inr ⟨upstream, List.mem_of_getElem? found, rfl⟩
  | fail index =>
      obtain ⟨upstream, found, rfl⟩ := Option.map_eq_some_iff.mp stepped
      exact traced.next ⟨consistent.packable, consistent.held,
        consistent.known, consistent.apart⟩
        (fun _ inside => .inl (List.mem_of_mem_eraseIdx inside))
        fun _ member => .inl member
  | restart =>
      cases stepped
      refine traced.next (consistent_none _ _) ?_ fun _ member => .inl member
      intro upstream never
      cases never

theorem run_traced {events : List CancelEvent} {cancels : Cancels}
    (ran : run step empty events = some cancels) : Traced events cancels := by
  have begins : Traced [] empty := by
    refine ⟨consistent_none _ _, ?_, ?_⟩
    · intro upstream never
      cases never
    · intro packet never
      cases never
  exact run_history Traced begins
    (fun _ _ _ _ before traced stepped => traced.step before stepped) ran

/-- Whatever relays and requests there have been, a client's bytes are
forwarded for exactly the session whose pair they quote, and to no second one;
every client can cancel its own session with the pair it reads; and each packet
sent upstream cancels a session that a client asked for with the pair it was
shown. -/
theorem cancels_reach_own_session {events : List CancelEvent}
    {cancels : Cancels} (ran : run step empty events = some cancels) :
    (∀ stream upstream, cancels.lookUp stream = some upstream ↔
      ∃ id relay, cancels.relays id = some relay ∧
        Quotes stream relay.shown ∧ relay.upstream = upstream) ∧
    (∀ stream left right first second, cancels.relays left = some first →
      cancels.relays right = some second → Quotes stream first.shown →
      Quotes stream second.shown → left = right) ∧
    (∀ id relay, cancels.relays id = some relay → ∀ left : Bytes,
      ∃ payload, readRegularMessage
          (buildBackendKeyData relay.shown ++ left) =
        .ok ([msgBackendKeyData], payload, left) ∧
      parseBackendKeyData payload = some relay.shown ∧
      cancels.lookUp (buildCancelRequest relay.shown) =
        some relay.upstream) ∧
    ∀ packet ∈ cancels.sent, ∃ upstream,
      packet = buildCancelRequest upstream ∧
      parseCancelRequest (packet.drop 4) = .ok upstream ∧
      Sometime step (Asks upstream) empty events := by
  obtain ⟨consistent, -, sent⟩ := run_traced ran
  refine ⟨fun stream upstream => consistent.lookUp_iff, ?_, ?_, ?_⟩
  · intro stream left right first second one two quotes again
    have packable := consistent.packable left first one
    have other := consistent.packable right second two
    have shown := quotes.same again packable.1 other.1
    exact consistent.apart left right first second one two
      (congrArg Prod.fst shown)
  · intro id relay present left
    have quotes := quotes_buildCancelRequest relay.shown []
    rw [List.append_nil] at quotes
    have short : (packInt relay.shown.1 ++ packInt relay.shown.2).length + 4 ≤
        16777216 := by
      rw [List.length_append, packInt_length, packInt_length]
      decide
    refine ⟨_, readRegularMessage_append _ left short, ?_, ?_⟩
    · exact parse_backendKeyData (consistent.packable id relay present).1
    · exact consistent.lookUp_iff.mpr ⟨id, relay, present, quotes, rfl⟩
  · intro packet member
    obtain ⟨upstream, asked, rfl⟩ := sent packet member
    exact ⟨upstream, rfl, parse_cancelBody asked.1, asked.2⟩

/-- A session is relayed, its client asks to cancel it, and is heard. -/
def interrupt : List CancelEvent :=
  [.relay 0 (packInt 7 ++ packInt 9) [0] 5, .greeted 0,
    .connect (buildCancelRequest (1, 5)), .deliver 0]

theorem run_interrupt : ∃ cancels, run step empty interrupt = some cancels ∧
    cancels.sent = [buildCancelRequest (7, 9)] := by
  have quotes := quotes_buildCancelRequest (1, 5) []
  rw [List.append_nil] at quotes
  obtain ⟨cancels, begun, present⟩ : ∃ cancels, run step empty
      [.relay 0 (packInt 7 ++ packInt 9) [0] 5, .greeted 0] = some cancels ∧
        cancels.relays 0 = some ⟨(7, 9), (1, 5), .piping⟩ ∧
        cancels.opening = [] ∧ cancels.sent = [] :=
    ⟨_, rfl, rfl, rfl, rfl⟩
  have found : cancels.lookUp (buildCancelRequest (1, 5)) = some (7, 9) :=
    (run_traced begun).consistent.lookUp_iff.mpr
      ⟨0, _, present.1, quotes, rfl⟩
  have connected : step cancels (.connect (buildCancelRequest (1, 5))) =
      some { cancels with opening := cancels.opening ++ [(7, 9)] } := by
    rw [step, found]
  rw [present.2.1] at connected
  refine ⟨{ cancels with
    opening := []
    sent := cancels.sent ++ [buildCancelRequest (7, 9)] },
    run_append.mpr ⟨_, begun, run_cons.mpr ⟨_, connected, rfl⟩⟩, ?_⟩
  rw [present.2.2]
  rfl

theorem cancels_reach_own_session_interrupt :
    ∃ cancels, run step empty interrupt = some cancels ∧
      ∃ upstream, buildCancelRequest (7, 9) = buildCancelRequest upstream ∧
        parseCancelRequest ((buildCancelRequest (7, 9)).drop 4) =
          .ok upstream ∧
        Sometime step (Asks upstream) empty interrupt := by
  obtain ⟨cancels, ran, sent⟩ := run_interrupt
  obtain ⟨-, -, -, forwarded⟩ := cancels_reach_own_session ran
  refine ⟨cancels, ran, forwarded (buildCancelRequest (7, 9)) ?_⟩
  rw [sent]
  exact List.mem_singleton.mpr rfl

end Cancels

end IndustryFlow.SqlWire
