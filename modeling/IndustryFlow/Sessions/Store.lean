import IndustryFlow.Concurrent.Pool

/-!
# The session store

Redis as the gateway uses it for refresh tokens, rotation records and ended
sessions, the account table, and the clock, with one operation per command.
Times are in microseconds.  A random string is a fresh nonce; a session id and
a token keep the user and the session they were made for, which the code reads
back from the values it stores.  `sessions`, `issued`, `minted`, `ends` and
`sealed` record what has happened and are not read by the code.
-/

namespace IndustryFlow.Sessions

open Concurrent

abbrev Uid := Nat

abbrev Company := Nat

structure Sid where
  user : Uid
  nonce : Nat
deriving DecidableEq

/-- A refresh token.  One from before sessions had ids has no session. -/
structure Token where
  user : Uid
  session : Option Nat
  nonce : Nat
deriving DecidableEq

def Token.sid (token : Token) : Option Sid :=
  token.session.map (Sid.mk token.user)

/-- What is stored under a refresh token: its user and session, with the
fingerprint of the password, or the bare user id of the first format. -/
inductive Value where
  | bare
  | current (credential : String)
deriving DecidableEq

structure Entry where
  token : Token
  value : Value
  expires : Nat
deriving DecidableEq

/-- What a claimed token was rotated into. -/
structure Rotation where
  credential : String
  rotatedAt : Nat
  successor : Option Token
  ended : Bool
deriving DecidableEq

/-- A row of the account table; `version` counts its updates. -/
structure Row where
  version : Nat
  hashedPassword : String
  company : Option Company
  role : Option String
  isActive : Bool
deriving DecidableEq

/-- The fields of an account update that concern its sessions. -/
structure UserUpdate where
  hashedPassword : Option String
  company : Option (Option Company)
  isActive : Option Bool
deriving DecidableEq

namespace UserUpdate

def apply (update : UserUpdate) (row : Row) : Row :=
  { row with
    version := row.version + 1
    hashedPassword := update.hashedPassword.getD row.hashedPassword
    company := update.company.getD row.company
    isActive := update.isActive.getD row.isActive }

/-- The updates after which `on_after_update` ends all sessions. -/
def EndsSessions (update : UserUpdate) : Prop :=
  update.hashedPassword.isSome ∨ update.company.isSome ∨
    update.isActive = some false

instance (update : UserUpdate) : Decidable update.EndsSessions :=
  inferInstanceAs (Decidable (_ ∨ _ ∨ _))

end UserUpdate

/-- An access token, with its times in seconds, and the version of the row it
was minted from. -/
structure AccessToken where
  user : Uid
  sid : Sid
  issuedAt : Nat
  expires : Nat
  company : Option Company
  role : Option String
  version : Nat
deriving DecidableEq

/-- A refresh token that was issued, and when it expires. -/
structure Issue where
  token : Token
  expires : Nat
deriving DecidableEq

/-- A recorded end of all of a user's sessions, and the version of the row it
came after. -/
structure End where
  user : Uid
  time : Nat
  version : Nat
deriving DecidableEq

structure Config where
  accessMinutes : Nat
  refreshDays : Nat
  fingerprint : String → String

def second : Nat := 1000000

/-- `CLOCK_SKEW_SECONDS`. -/
def clockSkew : Nat := 2 * second

/-- `ROTATION_GRACE_SECONDS`. -/
def rotationGrace : Nat := 10 * second

namespace Config

/-- The lifetime of an access token in seconds. -/
def lifetimeSeconds (config : Config) : Nat :=
  config.accessMinutes * 60

/-- `_ttl`. -/
def ttl (config : Config) : Nat :=
  config.refreshDays * 24 * 3600 * second

/-- `_ended_ttl`. -/
def endedTtl (config : Config) : Nat :=
  (config.lifetimeSeconds + 60) * second

end Config

structure Stores where
  now : Nat
  refresh : List Entry
  index : Uid → List Token
  indexExpires : Uid → Nat
  rotated : Token → Option (Rotation × Nat)
  /-- When the record of an ended session expires. -/
  ended : Sid → Option Nat
  /-- When all sessions of a user ended, and when that record expires. -/
  userEnded : Uid → Option (Nat × Nat)
  users : Uid → Option Row
  companies : Company → Bool
  sessions : List Sid
  issued : List Issue
  minted : List AccessToken
  ends : List End
  /-- Sessions recorded as ended for the lifetime of a refresh token. -/
  sealed : List Sid

/-- A refresh token of an earlier version of the gateway. -/
structure Legacy where
  user : Uid
  nonce : Nat
  value : Value
  expires : Nat

def Legacy.token (legacy : Legacy) : Token :=
  ⟨legacy.user, none, legacy.nonce⟩

namespace Stores

/-- The accounts and what an earlier version left in the store. -/
def initial (users : Uid → Option Row) (companies : Company → Bool)
    (legacy : List Legacy) : Stores where
  now := 0
  refresh := legacy.map fun old => ⟨old.token, old.value, old.expires⟩
  index user := (legacy.filter (·.user = user)).map Legacy.token
  indexExpires _ := (legacy.map Legacy.expires).foldl max 0
  rotated _ := none
  ended _ := none
  userEnded _ := none
  users := users
  companies := companies
  sessions := []
  issued := legacy.map fun old => ⟨old.token, old.expires⟩
  minted := []
  ends := []
  sealed := []

/-- The value under a refresh token that has not expired. -/
def value? (stores : Stores) (token : Token) : Option Value :=
  (stores.refresh.find? fun entry =>
    entry.token = token ∧ stores.now < entry.expires).map Entry.value

def delete (stores : Stores) (token : Token) : Stores :=
  { stores with
    refresh := stores.refresh.filter fun entry => entry.token ≠ token }

def members (stores : Stores) (user : Uid) : List Token :=
  if stores.now < stores.indexExpires user then stores.index user else []

def rotation? (stores : Stores) (token : Token) : Option Rotation :=
  match stores.rotated token with
  | some (rotation, expires) =>
      if stores.now < expires then some rotation else none
  | none => none

/-- The ended-session record is there. -/
def sessionWasEnded (stores : Stores) (sid : Sid) : Bool :=
  match stores.ended sid with
  | some expires => stores.now < expires
  | none => false

def userEnded? (stores : Stores) (user : Uid) : Option Nat :=
  match stores.userEnded user with
  | some (time, expires) => if stores.now < expires then some time else none
  | none => none

/-- `sessions.session_ended`. -/
def sessionEnded (stores : Stores) (user : Uid) (sid : Sid)
    (issuedAt : Nat) : Bool :=
  stores.sessionWasEnded sid ||
    match stores.userEnded? user with
    | some ended => issuedAt * second ≤ ended + clockSkew
    | none => false

end Stores

/-! ## Commands -/

inductive Op where
  | getdel (token : Token)
  | getRefresh (token : Token)
  /-- The pipeline of `create_refresh_token`. -/
  | createRefresh (sid : Sid) (credential : String)
  | srem (user : Uid) (tokens : List Token)
  | smembers (user : Uid)
  | getRotated (token : Token)
  | setRotated (token : Token) (rotation : Rotation)
  | getEnded (sid : Sid)
  | setEnded (sid : Sid) (ttl : Nat)
  | getUserEnded (user : Uid)
  /-- Records the time of the call as the end of all sessions. -/
  | setUserEnded (user : Uid) (version : Nat)
  | newSession (user : Uid)
  | loadUser (user : Uid)
  | commitUser (user : Uid) (update : UserUpdate)
  | companyActive (company : Company)
  | clock
  | waitUntil (time : Nat)
  /-- Reads the clock and signs an access token. -/
  | sign (user : Uid) (row : Row) (sid : Sid)
  | revokeCapabilities (user : Uid)
deriving DecidableEq

/-- Reads that the code expects to fail reply `none` then. -/
abbrev Reply : Op → Type
  | .getdel _ => Option Value
  | .getRefresh _ => Option Value
  | .createRefresh _ _ => Token
  | .srem _ _ => Unit
  | .smembers _ => List Token
  | .getRotated _ => Option Rotation
  | .setRotated _ _ => Unit
  | .getEnded _ => Option Bool
  | .setEnded _ _ => Unit
  | .getUserEnded _ => Option (Option Nat)
  | .setUserEnded _ _ => Unit
  | .newSession _ => Sid
  | .loadUser _ => Option Row
  | .commitUser _ _ => Option Nat
  | .companyActive _ => Bool
  | .clock => Nat
  | .waitUntil _ => Unit
  | .sign _ _ _ => AccessToken
  | .revokeCapabilities _ => Unit

inductive Choice where
  | plain
  | fresh (nonce : Nat)
  | unreadable
  /-- The command lands this long after the clock was read for it. -/
  | late (delay : Nat)
deriving DecidableEq

def Stores.create (stores : Stores) (config : Config) (token : Token)
    (credential : String) : Stores :=
  { stores with
    refresh := ⟨token, .current credential, stores.now + config.ttl⟩ ::
      stores.refresh
    index := Function.update stores.index token.user
      (token :: stores.members token.user)
    indexExpires := Function.update stores.indexExpires token.user
      (stores.now + config.ttl)
    issued := ⟨token, stores.now + config.ttl⟩ :: stores.issued }

def Stores.rotate (stores : Stores) (config : Config) (token : Token)
    (rotation : Rotation) : Stores :=
  { stores with
    rotated := Function.update stores.rotated token
      (some (rotation, stores.now + config.ttl)) }

/-- `_record_session_ended`. -/
def Stores.recordEnded (stores : Stores) (config : Config) (sid : Sid)
    (ttl : Nat) : Stores :=
  { stores with
    ended := Function.update stores.ended sid (some (stores.now + ttl))
    sealed := if ttl = config.ttl then sid :: stores.sealed
      else stores.sealed }

/-- `iat` is the whole second of the clock, and `exp` a lifetime later. -/
def Stores.accessToken (stores : Stores) (config : Config) (user : Uid)
    (row : Row) (sid : Sid) : AccessToken where
  user := user
  sid := sid
  issuedAt := stores.now / second
  expires := stores.now / second + config.lifetimeSeconds
  company := row.company
  role := row.role
  version := row.version

def exec (config : Config) (stores : Stores) :
    (op : Op) → Choice → Option (Reply op × Stores)
  | .getdel token, .plain =>
      match stores.value? token with
      | some value => some (some value, stores.delete token)
      | none => some (none, stores)
  | .getRefresh token, .plain => some (stores.value? token, stores)
  | .createRefresh sid credential, .fresh nonce =>
      let token : Token := ⟨sid.user, some sid.nonce, nonce⟩
      if ∃ issue ∈ stores.issued, issue.token = token then none
      else some (token, stores.create config token credential)
  | .srem user tokens, .plain => some ((), { stores with
      index := Function.update stores.index user
        ((stores.index user).filter (· ∉ tokens)) })
  | .smembers user, .plain => some (stores.members user, stores)
  | .getRotated token, .plain => some (stores.rotation? token, stores)
  | .setRotated token rotation, .plain =>
      some ((), stores.rotate config token rotation)
  | .getEnded sid, .plain =>
      some (some (stores.sessionWasEnded sid), stores)
  | .getEnded _, .unreadable => some (none, stores)
  | .setEnded sid ttl, .plain =>
      some ((), stores.recordEnded config sid ttl)
  | .getUserEnded user, .plain =>
      some (some (stores.userEnded? user), stores)
  | .getUserEnded _, .unreadable => some (none, stores)
  | .setUserEnded user version, .late delay =>
      if delay ≤ stores.now then some ((), { stores with
        userEnded := Function.update stores.userEnded user
          (some (stores.now - delay, stores.now + config.endedTtl))
        ends := ⟨user, stores.now - delay, version⟩ :: stores.ends })
      else none
  | .newSession user, .fresh nonce =>
      if ⟨user, nonce⟩ ∈ stores.sessions then none
      else some (⟨user, nonce⟩, { stores with
        sessions := ⟨user, nonce⟩ :: stores.sessions })
  | .loadUser user, .plain => some (stores.users user, stores)
  | .commitUser user update, .plain =>
      match stores.users user with
      | none => some (none, stores)
      | some row => some (some (row.version + 1), { stores with
          users := Function.update stores.users user
            (some (update.apply row)) })
  | .companyActive company, .plain =>
      some (stores.companies company, stores)
  | .clock, .plain => some (stores.now, stores)
  | .waitUntil time, .plain =>
      if time ≤ stores.now then some ((), stores) else none
  | .sign user row sid, .plain =>
      let access := stores.accessToken config user row sid
      some (access, { stores with minted := access :: stores.minted })
  | .revokeCapabilities _, .plain => some ((), stores)
  | _, _ => none

/-- What happens beside the requests. -/
inductive Change where
  | pass (time : Nat)
  | company (company : Company) (active : Bool)
deriving DecidableEq

def change (stores : Stores) : Change → Option Stores
  | .pass time => some { stores with now := stores.now + time }
  | .company company active => some { stores with
      companies := Function.update stores.companies company active }

end IndustryFlow.Sessions
