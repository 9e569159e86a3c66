import IndustryFlow.Base64
import IndustryFlow.Fallible
import IndustryFlow.SqlProxy.Handshake

/-!
# The SCRAM client

The messages by which the proxy authenticates to its database, and the verifier
that it enrols.  The hash, the keyed hash and the derivation of the salted
password are parameters.  Over the client stands a server as the protocol has
it, which holds a verifier and knows no password.
-/

namespace IndustryFlow.Scram

open SqlWire (Bytes)

abbrev Text := List Char

def digestSize : Nat := 32

/-- The functions of the digest, and `int` of a text that is not written in
plain digits. -/
structure Crypto where
  hash : Bytes → Bytes
  hmac : Bytes → Bytes → Bytes
  pbkdf2 : Bytes → Bytes → Nat → Bytes
  otherInt : Text → Option Int
  hash_length : ∀ data, (hash data).length = digestSize
  hmac_length : ∀ key data, (hmac key data).length = digestSize
  pbkdf2_length : ∀ password salt iterations,
    (pbkdf2 password salt iterations).length = digestSize

inductive Raised where
  /-- `ValueError`, with `binascii.Error` and `UnicodeDecodeError`. -/
  | value
  | overflow
  | key
  | attribute
deriving DecidableEq

/-! ## Texts -/

/-- `text.encode("utf-8")`. -/
def encode (text : Text) : Bytes :=
  SqlWire.encode (String.ofList text)

/-- `data.decode("utf-8")`. -/
def decode (data : Bytes) : Except Raised Text :=
  match SqlWire.utf8 data with
  | some text => .ok text.toList
  | none => .error .value

/-- `str` of an integer. -/
def str (number : Int) : Text :=
  if number < 0 then '-' :: Nat.toDigits 10 number.natAbs
  else Nat.toDigits 10 number.natAbs

/-- `int` of a text, of up to 4300 digits. -/
def int (crypto : Crypto) (text : Text) : Except Raised Int :=
  if text ≠ [] ∧ text.all Char.isDigit then
    if text.length ≤ 4300 then .ok (Nat.ofDigitChars 10 text 0)
    else .error .value
  else
    match crypto.otherInt text with
    | some number => .ok number
    | none => .error .value

/-- `base64.b64decode`. -/
def b64decode (text : Text) : Except Raised Bytes :=
  match Base64.decode text with
  | some data => .ok data
  | none => .error .value

/-- `value.replace(char, replacement)`. -/
def replace (char : Char) (replacement : Text) (value : Text) : Text :=
  value.flatMap fun other => if other = char then replacement else [other]

/-- `_saslprep`. -/
def saslprep (value : Text) : Text :=
  replace ',' "=2C".toList (replace '=' "=3D".toList value)

/-- `_xor`. -/
def xor (first second : Bytes) : Bytes :=
  List.zipWith (· ^^^ ·) first second

/-- The loop body of `_parse_server_message`. -/
def partition (item : Text) : Option (Text × Text) :=
  if '=' ∈ item then
    some (item.takeWhile (· ≠ '='), (item.dropWhile (· ≠ '=')).drop 1)
  else none

/-- `_parse_server_message`. -/
def parseServerMessage (message : Text) : List (Text × Text) :=
  (message.splitOn ',').filterMap partition

/-- `attrs[name]`: of a name that comes twice the last. -/
def attr (attrs : List (Text × Text)) (name : Char) : Option Text :=
  attrs.reverse.lookup [name]

/-! ## The verifier -/

section

variable (crypto : Crypto)

/-- `salted_password`; the bounds are those of `hashlib.pbkdf2_hmac`. -/
def saltedPassword (password : Text) (salt : Bytes) (iterations : Int) :
    Except Raised Bytes :=
  if iterations < 1 then .error .value
  else if 2147483647 < iterations then .error .overflow
  else .ok (crypto.pbkdf2 (encode password) salt iterations.toNat)

def clientKey (salted : Bytes) : Bytes :=
  crypto.hmac salted (encode "Client Key".toList)

def serverKey (salted : Bytes) : Bytes :=
  crypto.hmac salted (encode "Server Key".toList)

/-- `scram_verifier`. -/
def scramVerifier (password : Text) (salt : Bytes) (iterations : Int) :
    Except Raised Text := do
  let salted ← saltedPassword crypto password salt iterations
  let storedKey := crypto.hash (clientKey crypto salted)
  .ok ("SCRAM-SHA-256$".toList ++ str iterations ++ ':' ::
    Base64.encode salt ++ '$' :: Base64.encode storedKey ++ ':' ::
      Base64.encode (serverKey crypto salted))

end

/-! ## The client -/

/-- An attribute that is not set yet is `none`. -/
structure ScramClient where
  username : Text
  password : Text
  clientNonce : Text
  authMessage : Text
  clientFirstBare : Option Text
  serverKey : Option Bytes

def ScramClient.new (username password clientNonce : Text) : ScramClient where
  username := username
  password := password
  clientNonce := clientNonce
  authMessage := []
  clientFirstBare := none
  serverKey := none

def gs2Header : Text := "n,,".toList

namespace ScramClient

variable (crypto : Crypto) (client : ScramClient)

/-- `client_first`. -/
def clientFirst : Bytes × ScramClient :=
  let bare := 'n' :: '=' :: saslprep client.username ++
    ",r=".toList ++ client.clientNonce
  (encode gs2Header ++ encode bare,
    { client with clientFirstBare := some bare })

/-- `client_final`. -/
def clientFinal (serverFirst : Bytes) : Except Raised (Bytes × ScramClient) := do
  let serverFirstStr ← decode serverFirst
  let attrs := parseServerMessage serverFirstStr
  let serverNonce ← (attr attrs 'r').elim (.error .key) .ok
  if !client.clientNonce.isPrefixOf serverNonce then
    throw .value
  let saltText ← (attr attrs 's').elim (.error .key) .ok
  let salt ← b64decode saltText
  let iterationsText ← (attr attrs 'i').elim (.error .key) .ok
  let iterations ← int crypto iterationsText
  let salted ← saltedPassword crypto client.password salt iterations
  let storedKey := crypto.hash (clientKey crypto salted)
  let withoutProof := "c=".toList ++ Base64.encode (encode gs2Header) ++
    ",r=".toList ++ serverNonce
  let bare ← client.clientFirstBare.elim (.error .attribute) .ok
  let authMessage := bare ++ ',' :: serverFirstStr ++ ',' :: withoutProof
  let signature := crypto.hmac storedKey (encode authMessage)
  let proof := xor (clientKey crypto salted) signature
  pure (encode (withoutProof ++ ",p=".toList ++ Base64.encode proof),
    { client with
      authMessage := authMessage
      serverKey := some (Scram.serverKey crypto salted) })

/-- `verify_server_final`. -/
def verifyServerFinal (serverFinal : Bytes) : Except Raised Bool := do
  let message ← decode serverFinal
  match attr (parseServerMessage message) 'v' with
  | none => pure false
  | some text => do
      let key ← client.serverKey.elim (.error .attribute) .ok
      let answer ← b64decode text
      pure (answer = crypto.hmac key (encode client.authMessage))

end ScramClient

/-! ## The server -/

/-- What the server has of a verifier. -/
structure Stored where
  iterations : Text
  salt : Text
  storedKey : Bytes
  serverKey : Bytes

/-- The verifier in its parts. -/
def parseVerifier (verifier : Text) : Option Stored :=
  match verifier.splitOn '$' with
  | [scheme, parameters, keys] =>
      match parameters.splitOn ':', keys.splitOn ':' with
      | [iterations, salt], [stored, server] =>
          if scheme = "SCRAM-SHA-256".toList then do
            let storedKey ← Base64.decode stored
            let serverKey ← Base64.decode server
            some ⟨iterations, salt, storedKey, serverKey⟩
          else none
      | _, _ => none
  | _ => none

/-- What the server keeps between its messages. -/
structure Session where
  bare : Text
  nonce : Text
  serverFirst : Text

/-- The server-first message: the client's nonce with the server's, the salt
and the iteration count of the verifier. -/
def serverFirst (stored : Stored) (serverNonce : Text) (clientFirst : Bytes) :
    Option (Session × Bytes) := do
  let message ← (decode clientFirst).toOption
  match message.splitOn ',' with
  | ['n'] :: [] :: bare =>
      match bare with
      | ['n' :: '=' :: _, 'r' :: '=' :: clientNonce] =>
          let nonce := clientNonce ++ serverNonce
          let first := "r=".toList ++ nonce ++ ",s=".toList ++ stored.salt ++
            ",i=".toList ++ stored.iterations
          some (⟨[','].intercalate bare, nonce, first⟩, encode first)
      | _ => none
  | _ => none

/-- The server-final message, if the client has proved that it knows the key
behind the stored one. -/
def serverFinal (crypto : Crypto) (stored : Stored) (session : Session)
    (clientFinal : Bytes) : Option Bytes := do
  let message ← (decode clientFinal).toOption
  match message.splitOn ',' with
  | ['c' :: '=' :: binding, 'r' :: '=' :: nonce, 'p' :: '=' :: text] => do
      let header ← Base64.decode binding
      let proof ← Base64.decode text
      let withoutProof := "c=".toList ++ binding ++ ",r=".toList ++ nonce
      let authMessage := session.bare ++ ',' :: session.serverFirst ++
        ',' :: withoutProof
      let signature := crypto.hmac stored.storedKey (encode authMessage)
      if header = encode gs2Header ∧ nonce = session.nonce ∧
          proof.length = digestSize ∧
          crypto.hash (xor proof signature) = stored.storedKey then
        some (encode ("v=".toList ++ Base64.encode
          (crypto.hmac stored.serverKey (encode authMessage))))
      else none
  | _ => none

/-! ## Texts on the wire -/

theorem decode_encode (text : Text) : decode (encode text) = .ok text := by
  simp only [decode, encode, SqlWire.utf8_encode, String.toList_ofList]

theorem encode_append (first second : Text) :
    encode (first ++ second) = encode first ++ encode second := by
  have bytes : (String.ofList (first ++ second)).toUTF8 =
      (String.ofList first).toUTF8 ++ (String.ofList second).toUTF8 := by
    rw [String.ofList_append]
    rfl
  simp only [encode, SqlWire.encode, bytes, ByteArray.data_append,
    Array.toList_append]

theorem b64decode_encode (data : Bytes) :
    b64decode (Base64.encode data) = .ok data := by
  rw [b64decode, Base64.decode_encode]

theorem xor_cancel {first second : Bytes}
    (same : first.length = second.length) :
    xor (xor first second) second = first := by
  induction first generalizing second with
  | nil => simp [xor]
  | cons byte first induction =>
      cases second with
      | nil => cases same
      | cons other second =>
          have rest := induction (Nat.succ.inj same)
          simp only [xor, List.zipWith_cons_cons] at rest ⊢
          rw [rest, UInt8.xor_assoc, UInt8.xor_self, UInt8.xor_zero]

theorem xor_length {first second : Bytes}
    (same : first.length = second.length) :
    (xor first second).length = first.length := by
  rw [xor, List.length_zipWith, same, Nat.min_self]

theorem replace_free {char other : Char} {replacement value : Text}
    (fresh : other ∉ replacement) (free : other ∉ value ∨ other = char) :
    other ∉ replace char replacement value := by
  intro member
  obtain ⟨found, inside, there⟩ := List.mem_flatMap.mp member
  split at there
  · exact fresh there
  · rename_i different
    cases List.mem_singleton.mp there
    rcases free with absent | same
    · exact absent inside
    · exact different same

/-- The name has no comma when it is sent. -/
theorem saslprep_no_comma (value : Text) : ',' ∉ saslprep value :=
  replace_free (by decide) (.inr rfl)

theorem str_isDigit {number : Int} (positive : 1 ≤ number) {char : Char}
    (member : char ∈ str number) : char.isDigit = true := by
  rw [str, if_neg (by omega)] at member
  exact Nat.isDigit_of_mem_toDigits (by decide) (by decide) member

theorem int_str (crypto : Crypto) {number : Int} (positive : 1 ≤ number)
    (small : number ≤ 2147483647) : int crypto (str number) = .ok number := by
  have digits : (str number).all Char.isDigit = true :=
    List.all_eq_true.mpr fun _ member => str_isDigit positive member
  have plain : str number = Nat.toDigits 10 number.natAbs := by
    rw [str, if_neg (by omega)]
  have length : (str number).length ≤ 10 := by
    rw [plain]
    exact (Nat.length_toDigits_le_iff (by decide) (by decide)).mpr (by omega)
  have nonempty : str number ≠ [] := by
    rw [plain]
    exact List.ne_nil_of_length_pos Nat.length_toDigits_pos
  rw [int, if_pos ⟨nonempty, digits⟩, if_pos (by omega), plain,
    Nat.ofDigitChars_ten_toDigits]
  congr 1
  omega

theorem saltedPassword_ok {crypto : Crypto} {password : Text}
    {salt salted : Bytes} {iterations : Int}
    (derived : saltedPassword crypto password salt iterations = .ok salted) :
    1 ≤ iterations ∧ iterations ≤ 2147483647 := by
  unfold saltedPassword at derived
  split at derived
  · cases derived
  · split at derived
    · cases derived
    · omega

/-! ## The messages in their parts -/

/-- A character of neither the digits nor Base64. -/
def Separator (char : Char) : Prop :=
  char.isDigit = false ∧ char ∉ '=' :: Base64.alphabet

instance (char : Char) : Decidable (Separator char) :=
  inferInstanceAs (Decidable (_ ∧ _))

theorem Separator.not_mem_str {char : Char} (separator : Separator char)
    {number : Int} (positive : 1 ≤ number) : char ∉ str number := by
  intro member
  have digit := str_isDigit positive member
  rw [separator.1] at digit
  cases digit

theorem Separator.not_mem_encode {char : Char} (separator : Separator char)
    (data : Bytes) : char ∉ Base64.encode data :=
  Base64.not_mem_encode separator.2

theorem splitOn_pair {first second : Text} {separator : Char}
    (left : separator ∉ first) (right : separator ∉ second) :
    (first ++ separator :: second).splitOn separator = [first, second] := by
  rw [List.splitOn_append_cons_self_of_not_mem left,
    List.splitOn_eq_singleton right]

theorem splitOn_triple {first second third : Text} {separator : Char}
    (one : separator ∉ first) (two : separator ∉ second)
    (three : separator ∉ third) :
    (first ++ separator :: (second ++ separator :: third)).splitOn separator =
      [first, second, third] := by
  rw [List.splitOn_append_cons_self_of_not_mem one, splitOn_pair two three]

/-- The server reads the verifier that is enrolled. -/
theorem parseVerifier_scramVerifier {crypto : Crypto} {password : Text}
    {salt salted : Bytes} {iterations : Int} {verifier : Text}
    (derived : saltedPassword crypto password salt iterations = .ok salted)
    (held : scramVerifier crypto password salt iterations = .ok verifier) :
    parseVerifier verifier = some
      ⟨str iterations, Base64.encode salt,
        crypto.hash (clientKey crypto salted), serverKey crypto salted⟩ := by
  obtain ⟨positive, -⟩ := saltedPassword_ok derived
  have dollar : Separator '$' := by decide +kernel
  have colon : Separator ':' := by decide +kernel
  rw [scramVerifier, derived] at held
  obtain rfl := Except.ok.inj held
  have scheme : '$' ∉ "SCRAM-SHA-256".toList := by decide
  have parameters : '$' ∉ str iterations ++ ':' :: Base64.encode salt := by
    simp [dollar.not_mem_str positive, dollar.not_mem_encode]
  have keys : '$' ∉ Base64.encode (crypto.hash (clientKey crypto salted)) ++
      ':' :: Base64.encode (serverKey crypto salted) := by
    simp [dollar.not_mem_encode]
  have parts : "SCRAM-SHA-256$".toList ++ str iterations ++ ':' ::
      Base64.encode salt ++ '$' ::
        Base64.encode (crypto.hash (clientKey crypto salted)) ++ ':' ::
          Base64.encode (serverKey crypto salted) =
      "SCRAM-SHA-256".toList ++ '$' ::
        ((str iterations ++ ':' :: Base64.encode salt) ++ '$' ::
          (Base64.encode (crypto.hash (clientKey crypto salted)) ++ ':' ::
            Base64.encode (serverKey crypto salted))) := by
    simp
  rw [parseVerifier, parts, splitOn_triple scheme parameters keys]
  simp only
  rw [splitOn_pair (colon.not_mem_str positive) (colon.not_mem_encode _),
    splitOn_pair (colon.not_mem_encode _) (colon.not_mem_encode _)]
  simp [Base64.decode_encode]

/-! ## The exchange -/

/-- What the client has sent before its name and its nonce are read. -/
def bareOf (username clientNonce : Text) : Text :=
  'n' :: '=' :: saslprep username ++ ",r=".toList ++ clientNonce

/-- The server-first message of a verifier. -/
def firstOf (nonce : Text) (salt : Bytes) (iterations : Int) : Text :=
  "r=".toList ++ nonce ++ ",s=".toList ++ Base64.encode salt ++
    ",i=".toList ++ str iterations

/-- The client-final message without its proof. -/
def withoutProof (nonce : Text) : Text :=
  "c=".toList ++ Base64.encode (encode gs2Header) ++ ",r=".toList ++ nonce

def authMessage (username clientNonce serverNonce : Text) (salt : Bytes)
    (iterations : Int) : Text :=
  bareOf username clientNonce ++ ',' ::
    firstOf (clientNonce ++ serverNonce) salt iterations ++ ',' ::
      withoutProof (clientNonce ++ serverNonce)

theorem comma_separator : Separator ',' := by decide +kernel

section

variable {username clientNonce serverNonce : Text}

theorem serverFirst_clientFirst {password : Text} {storedKey key salt : Bytes}
    {iterations : Int} (plain : ',' ∉ clientNonce) :
    serverFirst ⟨str iterations, Base64.encode salt, storedKey, key⟩
        serverNonce
        (ScramClient.new username password clientNonce).clientFirst.1 =
      some (⟨bareOf username clientNonce, clientNonce ++ serverNonce,
          firstOf (clientNonce ++ serverNonce) salt iterations⟩,
        encode (firstOf (clientNonce ++ serverNonce) salt iterations)) := by
  have sent : (ScramClient.new username password clientNonce).clientFirst.1 =
      encode (gs2Header ++ bareOf username clientNonce) := by
    rw [encode_append]
    rfl
  have name : ',' ∉ 'n' :: '=' :: saslprep username := by
    simp [saslprep_no_comma]
  have nonce : ',' ∉ 'r' :: '=' :: clientNonce := by
    simp [plain]
  have bare : bareOf username clientNonce =
      ('n' :: '=' :: saslprep username) ++ ',' ::
        ('r' :: '=' :: clientNonce) := by
    simp [bareOf]
  have header : gs2Header ++ bareOf username clientNonce =
      ['n'] ++ ',' :: ([] ++ ',' :: (('n' :: '=' :: saslprep username) ++
        ',' :: ('r' :: '=' :: clientNonce))) := by
    rw [bare]
    rfl
  have parts : (gs2Header ++ bareOf username clientNonce).splitOn ',' =
      [['n'], [], 'n' :: '=' :: saslprep username,
        'r' :: '=' :: clientNonce] := by
    rw [header, List.splitOn_append_cons_self_of_not_mem (by decide),
      List.splitOn_append_cons_self_of_not_mem List.not_mem_nil,
      splitOn_pair name nonce]
  rw [serverFirst, sent, decode_encode]
  simp only [Except.toOption, Option.bind_eq_bind, Option.bind_some, parts]
  simp [bare, firstOf, List.intercalate]

theorem partition_cons {key : Char} (rest : Text) (other : key ≠ '=') :
    partition (key :: '=' :: rest) = some ([key], rest) := by
  simp [partition, other]

theorem parse_firstOf {nonce : Text} {salt : Bytes} {iterations : Int}
    (plain : ',' ∉ nonce) (positive : 1 ≤ iterations) :
    parseServerMessage (firstOf nonce salt iterations) =
      [(['r'], nonce), (['s'], Base64.encode salt),
        (['i'], str iterations)] := by
  have one : ',' ∉ 'r' :: '=' :: nonce := by
    simp [plain]
  have two : ',' ∉ 's' :: '=' :: Base64.encode salt := by
    simp [comma_separator.not_mem_encode]
  have three : ',' ∉ 'i' :: '=' :: str iterations := by
    simp [comma_separator.not_mem_str positive]
  have parts : firstOf nonce salt iterations =
      ('r' :: '=' :: nonce) ++ ',' :: (('s' :: '=' :: Base64.encode salt) ++
        ',' :: ('i' :: '=' :: str iterations)) := by
    simp [firstOf]
  rw [parseServerMessage, parts, splitOn_triple one two three]
  simp [partition_cons]

variable {crypto : Crypto} {password : Text} {salt salted : Bytes}
variable {iterations : Int}

/-- The proof of the client. -/
def proofOf (crypto : Crypto) (salted : Bytes) (message : Text) : Bytes :=
  xor (clientKey crypto salted)
    (crypto.hmac (crypto.hash (clientKey crypto salted)) (encode message))

theorem clientFinal_firstOf (plain : ',' ∉ clientNonce)
    (plain' : ',' ∉ serverNonce)
    (derived : saltedPassword crypto password salt iterations = .ok salted) :
    ((ScramClient.new username password clientNonce).clientFirst.2).clientFinal
        crypto (encode (firstOf (clientNonce ++ serverNonce) salt
          iterations)) =
      .ok (encode (withoutProof (clientNonce ++ serverNonce) ++
            ",p=".toList ++ Base64.encode (proofOf crypto salted
              (authMessage username clientNonce serverNonce salt
                iterations))),
        { username, password, clientNonce
          authMessage := authMessage username clientNonce serverNonce salt
            iterations
          clientFirstBare := some (bareOf username clientNonce)
          serverKey := some (serverKey crypto salted) }) := by
  obtain ⟨positive, small⟩ := saltedPassword_ok derived
  have whole : ',' ∉ clientNonce ++ serverNonce := by
    simp [plain, plain']
  have extended : (clientNonce.isPrefixOf (clientNonce ++ serverNonce)) =
      true :=
    List.isPrefixOf_iff_prefix.mpr (List.prefix_append _ _)
  unfold ScramClient.clientFinal
  rw [decode_encode]
  simp only [bind, Except.bind, parse_firstOf whole positive, attr,
    List.reverse_cons, List.reverse_nil, List.nil_append, List.cons_append]
  simp [List.lookup_cons, ScramClient.clientFirst, ScramClient.new, extended,
    b64decode_encode, int_str crypto positive small, derived, proofOf,
    authMessage, bareOf, withoutProof, pure, Except.pure]

/-- The server accepts the proof, whose exclusive or with the signature is the
key of the client again. -/
theorem serverFinal_clientFinal {bare first nonce : Text}
    (plain : ',' ∉ nonce) {message : Text}
    (sent : message = bare ++ ',' :: first ++ ',' :: withoutProof nonce) :
    serverFinal crypto
        ⟨str iterations, Base64.encode salt,
          crypto.hash (clientKey crypto salted), serverKey crypto salted⟩
        ⟨bare, nonce, first⟩
        (encode (withoutProof nonce ++ ",p=".toList ++
          Base64.encode (proofOf crypto salted message))) =
      some (encode ("v=".toList ++ Base64.encode
        (crypto.hmac (serverKey crypto salted) (encode message)))) := by
  have lengths : (clientKey crypto salted).length =
      (crypto.hmac (crypto.hash (clientKey crypto salted))
        (encode message)).length := by
    rw [clientKey, crypto.hmac_length, crypto.hmac_length]
  have header : ',' ∉ 'c' :: '=' :: Base64.encode (encode gs2Header) := by
    simp [comma_separator.not_mem_encode]
  have middle : ',' ∉ 'r' :: '=' :: nonce := by
    simp [plain]
  have last : ',' ∉ 'p' :: '=' ::
      Base64.encode (proofOf crypto salted message) := by
    simp [comma_separator.not_mem_encode]
  have parts : withoutProof nonce ++ ",p=".toList ++
      Base64.encode (proofOf crypto salted message) =
      ('c' :: '=' :: Base64.encode (encode gs2Header)) ++ ',' ::
        (('r' :: '=' :: nonce) ++ ',' :: ('p' :: '=' ::
          Base64.encode (proofOf crypto salted message))) := by
    simp [withoutProof]
  have length : (proofOf crypto salted message).length = digestSize := by
    rw [proofOf, xor_length lengths, clientKey, crypto.hmac_length]
  have proved : xor (proofOf crypto salted message)
      (crypto.hmac (crypto.hash (clientKey crypto salted))
        (encode message)) = clientKey crypto salted :=
    xor_cancel lengths
  have same : bare ++ ',' :: first ++ ',' ::
      ("c=".toList ++ Base64.encode (encode gs2Header) ++ ",r=".toList ++
        nonce) = message :=
    sent.symm
  rw [serverFinal, decode_encode, parts]
  simp only [Except.toOption, Option.bind_eq_bind, Option.bind_some,
    splitOn_triple header middle last, Base64.decode_encode, same]
  rw [proved, if_pos ⟨trivial, trivial, length, rfl⟩]

theorem verify_own {client : ScramClient} {key : Bytes}
    (keyed : client.serverKey = some key) :
    client.verifyServerFinal crypto (encode ("v=".toList ++ Base64.encode
      (crypto.hmac key (encode client.authMessage)))) = .ok true := by
  have plain : ',' ∉ "v=".toList ++ Base64.encode
      (crypto.hmac key (encode client.authMessage)) := by
    simp [comma_separator.not_mem_encode]
  have parsed : parseServerMessage ("v=".toList ++ Base64.encode
      (crypto.hmac key (encode client.authMessage))) =
      [(['v'], Base64.encode
        (crypto.hmac key (encode client.authMessage)))] := by
    have item : partition ("v=".toList ++ Base64.encode
        (crypto.hmac key (encode client.authMessage))) = some _ :=
      partition_cons _ (by decide : 'v' ≠ '=')
    rw [parseServerMessage, List.splitOn_eq_singleton plain,
      List.filterMap_cons, item]
    rfl
  unfold ScramClient.verifyServerFinal
  rw [decode_encode]
  simp only [bind, Except.bind, parsed, attr, List.reverse_singleton]
  simp [keyed, b64decode_encode, pure, Except.pure]

/-! ## What is accepted -/

theorem elim_ok_iff {Answer : Type} {found : Option Answer} {raised : Raised}
    {answer : Answer} :
    (found.elim (.error raised) .ok : Except Raised Answer) = .ok answer ↔
      found = some answer := by
  cases found with
  | none => simp
  | some other => simp

/-- What the client has settled on when it has sent its last message: the key
of the server and the message that the server signs. -/
theorem clientFinal_settled {client after : ScramClient}
    {received final : Bytes}
    (sent : client.clientFinal crypto received = .ok (final, after)) :
    ∃ bare first nonce saltText salt iterationsText iterations salted proof,
      client.clientFirstBare = some bare ∧ decode received = .ok first ∧
      attr (parseServerMessage first) 'r' = some nonce ∧
      client.clientNonce <+: nonce ∧
      attr (parseServerMessage first) 's' = some saltText ∧
      b64decode saltText = .ok salt ∧
      attr (parseServerMessage first) 'i' = some iterationsText ∧
      int crypto iterationsText = .ok iterations ∧
      saltedPassword crypto client.password salt iterations = .ok salted ∧
      final = encode (withoutProof nonce ++ ",p=".toList ++ proof) ∧
      after.serverKey = some (serverKey crypto salted) ∧
      after.authMessage =
        bare ++ ',' :: first ++ ',' :: withoutProof nonce := by
  unfold ScramClient.clientFinal at sent
  simp only [bind_ok_iff, check_ok_iff, elim_ok_iff] at sent
  obtain ⟨first, read, nonce, named, extended, saltText, salted', salt,
    decoded, iterationsText, counted, iterations, number, salted, derived,
    bare, began, ended⟩ := sent
  cases ended
  refine ⟨bare, first, nonce, saltText, salt, iterationsText, iterations,
    salted, _, began, read, named, ?_, salted', decoded, counted, number,
    derived, rfl, rfl, rfl⟩
  simpa using extended

theorem verify_signed {client : ScramClient} {received : Bytes} {key : Bytes}
    (keyed : client.serverKey = some key)
    (accepted : client.verifyServerFinal crypto received = .ok true) :
    ∃ message text, decode received = .ok message ∧
      attr (parseServerMessage message) 'v' = some text ∧
      b64decode text = .ok (crypto.hmac key (encode client.authMessage)) := by
  unfold ScramClient.verifyServerFinal at accepted
  obtain ⟨message, read, rest⟩ := bind_ok_iff.mp accepted
  split at rest
  · cases rest
  · rename_i text found
    simp only [bind_ok_iff, elim_ok_iff] at rest
    obtain ⟨own, held, answer, decoded, same⟩ := rest
    rw [keyed] at held
    cases held
    have equal : decide (answer = crypto.hmac key
        (encode client.authMessage)) = true :=
      Except.ok.inj same
    rw [of_decide_eq_true equal] at decoded
    exact ⟨message, text, read, found, decoded⟩

theorem clientFinal_refuses {client : ScramClient} {received : Bytes}
    {first nonce : Text} (read : decode received = .ok first)
    (named : attr (parseServerMessage first) 'r' = some nonce)
    (other : ¬client.clientNonce <+: nonce) :
    client.clientFinal crypto received = .error .value := by
  have apart : client.clientNonce.isPrefixOf nonce = false := by
    rw [← Bool.not_eq_true, List.isPrefixOf_iff_prefix]
    exact other
  unfold ScramClient.clientFinal
  rw [read]
  simp only [bind, Except.bind, named, Option.elim_some, apart]
  rfl

end

/-- A server that holds the verifier of a password accepts what the client
sends, and the client what it answers.  The client takes no other signature
than the one of its own exchange, and no nonce that does not extend its
own. -/
theorem scram_correct (crypto : Crypto) :
    (∀ username password clientNonce serverNonce salt iterations verifier,
      ',' ∉ clientNonce → ',' ∉ serverNonce →
      scramVerifier crypto password salt iterations = .ok verifier →
      ∃ stored session first final after last,
        parseVerifier verifier = some stored ∧
        serverFirst stored serverNonce
          (ScramClient.new username password clientNonce).clientFirst.1 =
            some (session, first) ∧
        (ScramClient.new username password clientNonce).clientFirst.2.clientFinal
          crypto first = .ok (final, after) ∧
        serverFinal crypto stored session final = some last ∧
        after.verifyServerFinal crypto last = .ok true) ∧
    (∀ (client after : ScramClient) (received final : Bytes),
      client.clientFinal crypto received = .ok (final, after) →
      ∃ bare first nonce saltText salt iterationsText iterations salted proof,
        client.clientFirstBare = some bare ∧ decode received = .ok first ∧
        attr (parseServerMessage first) 'r' = some nonce ∧
        attr (parseServerMessage first) 's' = some saltText ∧
        b64decode saltText = .ok salt ∧
        attr (parseServerMessage first) 'i' = some iterationsText ∧
        int crypto iterationsText = .ok iterations ∧
        saltedPassword crypto client.password salt iterations = .ok salted ∧
        final = encode (withoutProof nonce ++ ",p=".toList ++ proof) ∧
        ∀ last, after.verifyServerFinal crypto last = .ok true →
          ∃ message text, decode last = .ok message ∧
            attr (parseServerMessage message) 'v' = some text ∧
            b64decode text = .ok (crypto.hmac (serverKey crypto salted)
              (encode (bare ++ ',' :: first ++ ',' ::
                withoutProof nonce)))) ∧
    (∀ (client : ScramClient) (received : Bytes) (first nonce : Text),
      decode received = .ok first →
      attr (parseServerMessage first) 'r' = some nonce →
      ¬client.clientNonce <+: nonce →
      client.clientFinal crypto received = .error .value) := by
  refine ⟨?_, ?_, ?_⟩
  · intro username password clientNonce serverNonce salt iterations verifier
      plain plain' held
    obtain ⟨salted, derived, -⟩ := bind_ok_iff.mp held
    have whole : ',' ∉ clientNonce ++ serverNonce := by
      simp [plain, plain']
    exact ⟨_, _, _, _, _, _, parseVerifier_scramVerifier derived held,
      serverFirst_clientFirst plain,
      clientFinal_firstOf plain plain' derived,
      serverFinal_clientFinal whole rfl, verify_own rfl⟩
  · intro client after received final sent
    obtain ⟨bare, first, nonce, saltText, salt, iterationsText, iterations,
      salted, proof, began, read, named, -, salty, decoded, counted, number,
      derived, message, keyed, signed⟩ := clientFinal_settled sent
    refine ⟨bare, first, nonce, saltText, salt, iterationsText, iterations,
      salted, proof, began, read, named, salty, decoded, counted, number,
      derived, message, fun last accepted => ?_⟩
    rw [← signed]
    exact verify_signed keyed accepted
  · exact fun _ _ _ _ read named other => clientFinal_refuses read named other

/-- A digest of zeros. -/
def zeroCrypto : Crypto where
  hash _ := .replicate digestSize 0
  hmac _ _ := .replicate digestSize 0
  pbkdf2 _ _ _ := .replicate digestSize 0
  otherInt _ := none
  hash_length _ := List.length_replicate
  hmac_length _ _ := List.length_replicate
  pbkdf2_length _ _ _ := List.length_replicate

def zeroVerifier : Text :=
  "SCRAM-SHA-256$1:$".toList ++
    "AAAAAAAAAAAAAAAAAAAAAAAAAAAAAAAAAAAAAAAAAAA=:".toList ++
    "AAAAAAAAAAAAAAAAAAAAAAAAAAAAAAAAAAAAAAAAAAA=".toList

/-- A server accepts, and a nonce that does not extend the client's is
refused. -/
theorem scram_correct_both :
    (∃ stored session first final after last,
      parseVerifier zeroVerifier = some stored ∧
      serverFirst stored ['s'] (ScramClient.new ['u'] ['p'] ['n']).clientFirst.1
        = some (session, first) ∧
      (ScramClient.new ['u'] ['p'] ['n']).clientFirst.2.clientFinal zeroCrypto
        first = .ok (final, after) ∧
      serverFinal zeroCrypto stored session final = some last ∧
      after.verifyServerFinal zeroCrypto last = .ok true) ∧
    ((ScramClient.new ['u'] ['p'] ['n']).clientFirst.2).clientFinal zeroCrypto
      (encode "r=other,s=,i=1".toList) = .error .value :=
  ⟨(scram_correct zeroCrypto).1 ['u'] ['p'] ['n'] ['s'] [] 1 _ (by decide)
      (by decide) (by decide +kernel),
    (scram_correct zeroCrypto).2.2 _ _ "r=other,s=,i=1".toList "other".toList
      (decode_encode _) (by decide) (by decide)⟩

end IndustryFlow.Scram
