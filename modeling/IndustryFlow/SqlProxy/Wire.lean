import Mathlib.Algebra.Group.Nat.Defs
import Mathlib.Data.List.Basic

/-!
# The frontend handshake of the SQL proxy

The codec of the startup and password messages, and what `handle_client` does
with the bytes that a client sends before it closes its end.  What `struct`
packs is big endian.  The resolution of the handle and the relay behind it are
one answer: whether the session was served.
-/

namespace IndustryFlow.SqlWire

abbrev Bytes := List UInt8

abbrev Params := List (String × String)

def protocolVersion3 : Nat := 196608

def sslRequestCode : Nat := 80877103

def gssencRequestCode : Nat := 80877104

def cancelRequestCode : Nat := 80877102

/-- The codes of packets that carry no parameters. -/
def requestCodes : List Nat :=
  [sslRequestCode, gssencRequestCode, cancelRequestCode]

/-- `ProtocolError`, by its text. -/
inductive ProtocolError where
  /-- `startup packet too short for a version/code field`. -/
  | tooShort
  /-- `unsupported protocol/startup code: {code}`. -/
  | unsupported (code : Nat)
  /-- `startup parameters not NUL-terminated`. -/
  | notTerminated
  /-- `startup parameter key without a value`. -/
  | keyWithoutValue
  /-- `startup parameters missing terminator`. -/
  | missingTerminator
  /-- `CancelRequest must carry exactly a process id and a 4-byte key`. -/
  | cancelLength
  /-- `not a CancelRequest`. -/
  | notCancel
  /-- `password message not NUL-terminated`. -/
  | passwordNotTerminated
  /-- `implausible startup length: {length}`. -/
  | startupLength (length : Nat)
  /-- `implausible message length: {length}`. -/
  | messageLength (length : Nat)
  /-- `expected PasswordMessage, got {type_byte!r}`. -/
  | expectedPassword (type : Bytes)
deriving DecidableEq

inductive Raised where
  | protocol (error : ProtocolError)
  /-- `UnicodeDecodeError`. -/
  | unicodeDecode
  /-- `IncompleteReadError`: the stream has ended. -/
  | incompleteRead
deriving DecidableEq

/-! ## Bytes -/

/-- `struct.unpack("!I", …)`. -/
def unpackInt (bytes : Bytes) : Nat :=
  bytes.foldl (fun total byte => total * 256 + byte.toNat) 0

/-- `struct.pack("!I", …)` of a number below `2 ^ 32`. -/
def packInt (number : Nat) : Bytes :=
  [.ofNat (number / 16777216), .ofNat (number / 65536),
    .ofNat (number / 256), .ofNat number]

/-- `text.encode("utf-8")`. -/
def encode (text : String) : Bytes :=
  text.toUTF8.data.toList

/-- `bytes.decode("utf-8")`. -/
def utf8 (bytes : Bytes) : Option String :=
  String.fromUTF8? ⟨bytes.toArray⟩

def decode (bytes : Bytes) : Except Raised String :=
  match utf8 bytes with
  | some text => .ok text
  | none => .error .unicodeDecode

/-! ## The startup packet -/

/-- `params[key] = value`. -/
def setParam (params : Params) (key value : String) : Params :=
  if key ∈ params.map Prod.fst then
    params.map fun param => if param.1 = key then (key, value) else param
  else params ++ [(key, value)]

/-- The loop over the tokens, two at a time. -/
def readParams : List Bytes → Params → Except Raised Params
  | [], _ => .error (.protocol .missingTerminator)
  | key :: rest, params =>
      if key = [] then .ok params
      else
        match rest with
        | [] => .error (.protocol .keyWithoutValue)
        | value :: rest => do
            let value ← decode value
            let key ← decode key
            readParams rest (setParam params key value)

/-- `parse_startup_packet`. -/
def parseStartupPacket (data : Bytes) : Except Raised (Nat × Params) :=
  if data.length < 4 then .error (.protocol .tooShort)
  else
    let code := unpackInt (data.take 4)
    if code ∈ requestCodes then .ok (code, [])
    else if code ≠ protocolVersion3 then
      .error (.protocol (.unsupported code))
    else
      let body := data.drop 4
      if body.getLast? ≠ some 0 then .error (.protocol .notTerminated)
      else (readParams (body.splitOn 0) []).map fun params => (code, params)

/-- A parameter of a StartupMessage. -/
def packParam (param : String × String) : Bytes :=
  encode param.1 ++ [0] ++ encode param.2 ++ [0]

/-- What `build_startup_message` frames. -/
def startupBody (params : Params) : Bytes :=
  packInt protocolVersion3 ++ params.flatMap packParam ++ [0]

/-- `build_startup_message`; a longer message has no length to pack. -/
def buildStartupMessage (params : Params) : Option Bytes :=
  if (startupBody params).length + 4 < 2 ^ 32 then
    some (packInt ((startupBody params).length + 4) ++ startupBody params)
  else none

/-- `parse_cancel_request`. -/
def parseCancelRequest (data : Bytes) : Except Raised (Nat × Nat) :=
  if data.length ≠ 12 then .error (.protocol .cancelLength)
  else if unpackInt (data.take 4) ≠ cancelRequestCode then
    .error (.protocol .notCancel)
  else
    .ok (unpackInt ((data.drop 4).take 4), unpackInt (data.drop 8))

/-- `parse_password_message`. -/
def parsePasswordMessage (payload : Bytes) : Except Raised String :=
  if payload.getLast? ≠ some 0 then
    .error (.protocol .passwordNotTerminated)
  else decode payload.dropLast

/-! ## The connection -/

/-- `reader.readexactly`, and what is left. -/
def readExactly (count : Nat) (stream : Bytes) :
    Except Raised (Bytes × Bytes) :=
  if stream.length < count then .error .incompleteRead
  else .ok (stream.take count, stream.drop count)

/-- `_read_startup_packet`. -/
def readStartupPacket (stream : Bytes) : Except Raised (Bytes × Bytes) := do
  let (header, stream) ← readExactly 4 stream
  let length := unpackInt header
  if length < 4 ∨ 2 ^ 20 < length then
    .error (.protocol (.startupLength length))
  else readExactly (length - 4) stream

/-- `_read_regular_message`: the type, and the payload. -/
def readRegularMessage (stream : Bytes) :
    Except Raised (Bytes × Bytes × Bytes) := do
  let (type, stream) ← readExactly 1 stream
  let (header, stream) ← readExactly 4 stream
  let length := unpackInt header
  if length < 4 ∨ 2 ^ 24 < length then
    .error (.protocol (.messageLength length))
  else do
    let (payload, stream) ← readExactly (length - 4) stream
    pure (type, payload, stream)

structure ClientStartup where
  code : Nat
  params : Params
  body : Bytes
deriving DecidableEq

theorem readExactly_ok {count : Nat} {stream taken left : Bytes}
    (read : readExactly count stream = .ok (taken, left)) :
    taken = stream.take count ∧ left = stream.drop count ∧
      count ≤ stream.length := by
  rw [readExactly] at read
  split at read
  · cases read
  · next enough =>
      cases read
      exact ⟨rfl, rfl, Nat.not_lt.mp enough⟩

theorem readStartupPacket_shorter {stream body left : Bytes}
    (read : readStartupPacket stream = .ok (body, left)) :
    left.length < stream.length := by
  simp only [readStartupPacket] at read
  cases first : readExactly 4 stream with
  | error raised =>
      rw [first] at read
      cases read
  | ok found =>
      obtain ⟨header, rest⟩ := found
      obtain ⟨-, rfl, enough⟩ := readExactly_ok first
      rw [first] at read
      change (if unpackInt header < 4 ∨ 2 ^ 20 < unpackInt header then
          Except.error (.protocol (.startupLength (unpackInt header)))
        else readExactly (unpackInt header - 4) (stream.drop 4)) =
          .ok (body, left) at read
      split at read
      · cases read
      · obtain ⟨-, rfl, -⟩ := readExactly_ok read
        rw [List.length_drop, List.length_drop]
        omega

/-- `read_startup`: a request for encryption is declined. -/
def readStartup (stream : Bytes) : Except Raised (ClientStartup × Bytes) :=
  match _packet : readStartupPacket stream with
  | .error raised => .error raised
  | .ok (body, left) =>
      match parseStartupPacket body with
      | .error raised => .error raised
      | .ok (code, params) =>
          if code = sslRequestCode ∨ code = gssencRequestCode then
            readStartup left
          else .ok (⟨code, params, body⟩, left)
termination_by stream.length
decreasing_by exact readStartupPacket_shorter _packet

/-- `MSG_PASSWORD`, which is `b"p"`. -/
def msgPassword : Bytes := [112]

/-- `request_handle`. -/
def requestHandle (stream : Bytes) : Except Raised String := do
  let (type, payload, _) ← readRegularMessage stream
  if type ≠ msgPassword then .error (.protocol (.expectedPassword type))
  else parsePasswordMessage payload

inductive Ending where
  | closed
  | refused
  | served
deriving DecidableEq

/-- What the `try` of `handle_client` makes of the stream: a cancel request, or
a handle. -/
def handshake (stream : Bytes) : Except Raised (Option String) := do
  let (startup, left) ← readStartup stream
  if startup.code = cancelRequestCode then do
    let _ ← parseCancelRequest startup.body
    pure none
  else do
    let handle ← requestHandle left
    pure (some handle)

/-- `handle_client`. -/
def handleClient (serveConnection : String → Bool) (stream : Bytes) :
    Except Raised Ending :=
  match handshake stream with
  | .error .unicodeDecode => .error .unicodeDecode
  | .error _ => .ok .closed
  | .ok none => .ok .closed
  | .ok (some handle) =>
      .ok (if serveConnection handle then .served else .refused)

end IndustryFlow.SqlWire
