import IndustryFlow.Sessions.Store

/-!
# Sign-in, refresh, logout and account updates

The request handlers of the gateway and the functions of its refresh-token
store, command by command.  A waiting loop polls as often as its deadline
allows; how often that is comes with the request.
-/

namespace IndustryFlow.Sessions

open Concurrent

/-- The answers that refuse a request. -/
inductive HttpError where
  | badCredentials
  | invalidToken
  /-- `first` when this request marked the token itself. -/
  | reused (first : Bool)
  | sessionEnded
  | userInactive
  | credentialChange
  | unavailable
  | notFound
  /-- The request ended before it could answer. -/
  | died
deriving DecidableEq

inductive Answer where
  | tokens (access : AccessToken) (refresh : Token)
  | access (access : AccessToken)
  | loggedOut
  | updated (version : Nat)
  | ended
deriving DecidableEq

abbrev Handler := Program Op Reply HttpError

abbrev getdel (token : Token) : Handler (Option Value) :=
  Program.perform (Op.getdel token)

abbrev getRefresh (token : Token) : Handler (Option Value) :=
  Program.perform (Op.getRefresh token)

abbrev createRefresh (sid : Sid) (credential : String) : Handler Token :=
  Program.perform (Op.createRefresh sid credential)

abbrev srem (user : Uid) (tokens : List Token) : Handler Unit :=
  Program.perform (Op.srem user tokens)

abbrev smembers (user : Uid) : Handler (List Token) :=
  Program.perform (Op.smembers user)

abbrev getRotated (token : Token) : Handler (Option Rotation) :=
  Program.perform (Op.getRotated token)

abbrev setRotated (token : Token) (rotation : Rotation) : Handler Unit :=
  Program.perform (Op.setRotated token rotation)

abbrev getEnded (sid : Sid) : Handler (Option Bool) :=
  Program.perform (Op.getEnded sid)

abbrev setEnded (sid : Sid) (ttl : Nat) : Handler Unit :=
  Program.perform (Op.setEnded sid ttl)

abbrev getUserEnded (user : Uid) : Handler (Option (Option Nat)) :=
  Program.perform (Op.getUserEnded user)

abbrev setUserEnded (user : Uid) (version : Nat) : Handler Unit :=
  Program.perform (Op.setUserEnded user version)

abbrev newSession (user : Uid) : Handler Sid :=
  Program.perform (Op.newSession user)

abbrev loadUser (user : Uid) : Handler (Option Row) :=
  Program.perform (Op.loadUser user)

abbrev commitUser (user : Uid) (update : UserUpdate) :
    Handler (Option Nat) :=
  Program.perform (Op.commitUser user update)

abbrev companyActive (company : Company) : Handler Bool :=
  Program.perform (Op.companyActive company)

abbrev clock : Handler Nat :=
  Program.perform Op.clock

abbrev waitUntil (time : Nat) : Handler Unit :=
  Program.perform (Op.waitUntil time)

abbrev sign (user : Uid) (row : Row) (sid : Sid) : Handler AccessToken :=
  Program.perform (Op.sign user row sid)

abbrev revokeCapabilities (user : Uid) : Handler Unit :=
  Program.perform (Op.revokeCapabilities user)

/-! ## The refresh-token store -/

variable (config : Config)

/-- `claim_refresh_token`: the credential of the claim. -/
def claimRefreshToken (token : Token) : Handler (Option String) := do
  let raw ← getdel token
  match raw with
  | none => pure none
  | some .bare => pure none
  | some (.current credential) => do
      srem token.user [token]
      let time ← clock
      setRotated token ⟨credential, time, none, false⟩
      pure (some credential)

/-- `record_successor`. -/
def recordSuccessor (token successor : Token) : Handler Unit := do
  let raw ← getRotated token
  match raw with
  | none => pure ()
  | some rotation =>
      setRotated token { rotation with successor := some successor }

/-- The loop of `_end_reused_session`. -/
def sweep (user : Uid) (sid : Sid) : List Token → Handler Unit
  | [] => pure ()
  | token :: tokens => do
      let raw ← getRefresh token
      match raw with
      | some (.current _) =>
          if token.sid = some sid then do
            let _ ← getdel token
            srem user [token]
            sweep user sid tokens
          else sweep user sid tokens
      | _ => sweep user sid tokens

/-- `_end_reused_session`. -/
def endReusedSession (token : Token) : Handler Unit :=
  match token.sid with
  | none => pure ()
  | some sid => do
      setEnded sid config.ttl
      let tokens ← smembers token.user
      sweep token.user sid tokens

/-- The rotation record, read again up to `polls` times while missing. -/
def awaitRotation (token : Token) : Nat → Handler (Option Rotation)
  | 0 => getRotated token
  | polls + 1 => do
      let raw ← getRotated token
      match raw with
      | some rotation => pure (some rotation)
      | none => awaitRotation token polls

/-- The record read again up to `polls` times while it has no successor. -/
def awaitSuccessor (token : Token) (rotation : Rotation) :
    Nat → Handler Rotation
  | 0 => pure rotation
  | polls + 1 =>
      match rotation.successor with
      | some _ => pure rotation
      | none => do
          let raw ← getRotated token
          awaitSuccessor token (raw.getD rotation) polls

inductive Replay where
  | successor (credential : String) (successor : Token)
  | reused (first : Bool)
  | unknown

/-- `replay`. -/
def replay (token : Token) (recordPolls successorPolls : Nat) :
    Handler Replay := do
  let raw ← awaitRotation token recordPolls
  match raw with
  | none => pure .unknown
  | some rotation => do
      let time ← clock
      if rotation.rotatedAt + rotationGrace < time then
        if rotation.ended then pure (.reused false)
        else do
          setRotated token { rotation with ended := true }
          endReusedSession config token
          pure (.reused true)
      else do
        let latest ← awaitSuccessor token rotation successorPolls
        match latest.successor with
        | none => pure .unknown
        | some successor => do
            let live ← getRefresh successor
            match live with
            | some _ => pure (.successor rotation.credential successor)
            | none => pure .unknown

/-- `revoke_refresh_token`: the user of the token. -/
def revokeRefreshToken (token : Token) : Handler (Option Uid) := do
  let raw ← getdel token
  match raw with
  | none => pure none
  | some .bare => do
      srem token.user [token]
      pure (some token.user)
  | some (.current _) =>
      match token.sid with
      | some sid => do
          setEnded sid config.endedTtl
          srem token.user [token]
          pure (some token.user)
      | none => do
          srem token.user [token]
          pure (some token.user)

/-- The loop of `revoke_all_refresh_tokens`. -/
def revokeEach : List Token → Handler Unit
  | [] => pure ()
  | token :: tokens => do
      let raw ← getdel token
      match raw, token.sid with
      | some (.current _), some sid => do
          setEnded sid config.endedTtl
          revokeEach tokens
      | _, _ => revokeEach tokens

/-- `revoke_all_refresh_tokens`. -/
def revokeAllRefreshTokens (user : Uid) : Handler Unit := do
  let tokens ← smembers user
  if tokens.isEmpty then pure ()
  else do
    revokeEach config tokens
    srem user tokens

/-- `end_all_sessions`, after the update that gave the row its `version`. -/
def endAllSessions (user : Uid) (version : Nat) : Handler Unit := do
  setUserEnded user version
  revokeAllRefreshTokens config user
  revokeCapabilities user

/-- The first whole second that counts as after the end. -/
def readyAfter (ended : Nat) : Nat :=
  ((ended + clockSkew) / second + 1) * second

/-- `wait_out_an_end`. -/
def waitOutAnEnd (user : Uid) : Handler Unit := do
  let raw ← getUserEnded user
  match raw with
  | some (some ended) => do
      let started ← clock
      if started < readyAfter ended ∧
          readyAfter ended ≤ started + clockSkew + second then
        waitUntil (readyAfter ended)
      else pure ()
  | _ => pure ()

/-- `write_token` in a session. -/
def writeToken (user : Uid) (row : Row) (sid : Sid) :
    Handler AccessToken := do
  waitOutAnEnd user
  sign user row sid

/-! ## The handlers -/

/-- The company, if there is one, is not suspended. -/
def companyAdmits : Option Company → Handler Bool
  | none => pure true
  | some company => companyActive company

/-- `authenticate`: the account, if the password is its own and its company
is not suspended. -/
def authenticate (user : Uid) (hashedPassword : String) :
    Handler (Option Row) := do
  let found ← loadUser user
  match found with
  | none => pure none
  | some row =>
      if row.hashedPassword ≠ hashedPassword then pure none
      else if !row.isActive then pure (some row)
      else do
        let active ← companyAdmits row.company
        if active then pure (some row) else pure none

/-- The account that may sign in. -/
def signIn (user : Uid) (hashedPassword : String) : Handler Row := do
  let admitted ← authenticate user hashedPassword
  match admitted with
  | none => .fail .badCredentials
  | some row => if row.isActive then pure row else .fail .badCredentials

/-- `POST /auth/login`. -/
def login (user : Uid) (hashedPassword : String) : Handler Answer := do
  let row ← signIn user hashedPassword
  let sid ← newSession user
  let access ← writeToken user row sid
  let refresh ← createRefresh sid (config.fingerprint row.hashedPassword)
  pure (.tokens access refresh)

/-- `POST /auth/jwt/login`: an access token that is its own session. -/
def jwtLogin (user : Uid) (hashedPassword : String) : Handler Answer := do
  let row ← signIn user hashedPassword
  let sid ← newSession user
  let access ← writeToken user row sid
  pure (.access access)

/-- What a claim's session continues as. -/
def continuedSession (token : Token) : Handler Sid :=
  match token.sid with
  | some sid => pure sid
  | none => newSession token.user

/-- The refresh token to hand out: the successor, or a new one. -/
def rotateInto (token : Token) (sid : Sid) (row : Row) :
    Option Token → Handler Token
  | some successor => pure successor
  | none => do
      let refresh ← createRefresh sid
        (config.fingerprint row.hashedPassword)
      recordSuccessor token refresh
      pure refresh

/-- The rest of a refresh, once its token is claimed or replayed. -/
def continueRefresh (token : Token) (credential : String)
    (successor : Option Token) : Handler Answer := do
  let found ← loadUser token.user
  match found with
  | none => .fail .userInactive
  | some row =>
      if !row.isActive then .fail .userInactive
      else if credential ≠ config.fingerprint row.hashedPassword then do
        endAllSessions config token.user 0
        .fail .credentialChange
      else do
        let active ← companyAdmits row.company
        if !active then do
          endAllSessions config token.user 0
          .fail .userInactive
        else do
          let sid ← continuedSession token
          let refresh ← rotateInto config token sid row successor
          let access ← writeToken token.user row sid
          pure (.tokens access refresh)

/-- A claimed token goes on unless its session was ended. -/
def checkSession (token : Token) : Handler Unit :=
  match token.sid with
  | none => pure ()
  | some sid => do
      let raw ← getEnded sid
      match raw with
      | none => .fail .unavailable
      | some true => .fail .sessionEnded
      | some false => pure ()

/-- `POST /auth/refresh`. -/
def refresh (token : Token) (recordPolls successorPolls : Nat) :
    Handler Answer := do
  let claim ← claimRefreshToken token
  match claim with
  | some credential => do
      checkSession token
      continueRefresh config token credential none
  | none => do
      let replayed ← replay config token recordPolls successorPolls
      match replayed with
      | .reused first => do
          if first then revokeCapabilities token.user
          .fail (.reused first)
      | .unknown => .fail .invalidToken
      | .successor credential successor =>
          continueRefresh config token credential (some successor)

/-- The claims of an access token; one from before sessions has no `sid`. -/
structure Claims where
  user : Uid
  sid : Option Sid
deriving DecidableEq

/-- The access token's own session ends. -/
def endSession : Option Sid → Handler Unit
  | some sid => setEnded sid config.endedTtl
  | none => pure ()

/-- The refresh token is revoked, if one is presented. -/
def revokePresented : Option Token → Handler (Option Uid)
  | some token => revokeRefreshToken config token
  | none => pure none

/-- The users whose capabilities a logout revokes. -/
def owners (owner : Option Uid) (claims : Option Claims) : List Uid :=
  (owner.toList ++ (claims.map Claims.user).toList).dedup

def revokeCapabilitiesOf : List Uid → Handler Unit
  | [] => pure ()
  | user :: users => do
      revokeCapabilities user
      revokeCapabilitiesOf users

/-- `POST /auth/logout`. -/
def logout (token : Option Token) (claims : Option Claims) :
    Handler Answer := do
  let owner ← revokePresented config token
  endSession config (claims.bind Claims.sid)
  revokeCapabilitiesOf (owners owner claims)
  pure .loggedOut

/-- `destroy_token`, of the fastapi-users logout. -/
def destroyToken (claims : Claims) : Handler Answer := do
  endSession config claims.sid
  revokeCapabilities claims.user
  pure .loggedOut

/-- An account update with its `on_after_update`. -/
def updateUser (user : Uid) (update : UserUpdate) : Handler Answer := do
  let committed ← commitUser user update
  match committed with
  | none => .fail .notFound
  | some version => do
      if update.EndsSessions then endAllSessions config user version
      pure (.updated version)

inductive Request where
  | login (user : Uid) (hashedPassword : String)
  | jwtLogin (user : Uid) (hashedPassword : String)
  | refresh (token : Token) (recordPolls successorPolls : Nat)
  | logout (token : Option Token) (claims : Option Claims)
  | destroyToken (claims : Claims)
  | update (user : Uid) (update : UserUpdate)
  /-- A password reset, a deletion or the suspension of the company. -/
  | endAll (user : Uid)
deriving DecidableEq

def handle : Request → Handler Answer
  | .login user hashedPassword => login config user hashedPassword
  | .jwtLogin user hashedPassword => jwtLogin user hashedPassword
  | .refresh token recordPolls successorPolls =>
      refresh config token recordPolls successorPolls
  | .logout token claims => logout config token claims
  | .destroyToken claims => destroyToken config claims
  | .update user update => updateUser config user update
  | .endAll user => do
      endAllSessions config user 0
      pure .ended

/-- The gateway with any number of requests. -/
def gateway :
    Pool.System Stores Request Op Reply HttpError Answer Choice Change where
  code := handle config
  dead := .died
  exec := exec config
  change := change

end IndustryFlow.Sessions
