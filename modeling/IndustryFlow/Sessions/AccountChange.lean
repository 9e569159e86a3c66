import IndustryFlow.Sessions.Logout

/-!
# Account changes and the access tokens before them

An update that changes the password or the company commits the row and then
records the time as the end of all of the user's sessions.  An access token
minted from the row before the update is refused by that record as long as its
issue time lies within the clock skew of the recorded time.  A sign-in that
read the row before the update and waits out the recorded end mints a token
whose issue time lies beyond it.
-/

namespace IndustryFlow.Sessions

open Concurrent

/-- The record that is there counts an access token of this issue time as
issued before the end. -/
def Stores.userEndCovers (stores : Stores) (user : Uid)
    (issuedAt : Nat) : Prop :=
  ∃ ended ∈ stores.userEnded? user, issuedAt * second ≤ ended + clockSkew

instance (stores : Stores) (user : Uid) (issuedAt : Nat) :
    Decidable (stores.userEndCovers user issuedAt) :=
  inferInstanceAs (Decidable (∃ _ ∈ _, _))

instance (user : Uid) (version : Nat) (stores : Stores) :
    Decidable (Recorded user version stores) :=
  inferInstanceAs (Decidable (∃ _ ∈ _, _))

/-- The access token was minted from a row before `version` and has not
expired. -/
def Outdated (user : Uid) (version : Nat) (stores : Stores)
    (token : AccessToken) : Prop :=
  token.user = user ∧ token.version < version ∧
    stores.now < token.expires * second

instance (user : Uid) (version : Nat) (stores : Stores)
    (token : AccessToken) :
    Decidable (Outdated user version stores token) :=
  inferInstanceAs (Decidable (_ ∧ _))

/-- The calls that can let an outdated access token through: one is minted
after the end was recorded, or the end is recorded anew. -/
def OnTime (user : Uid) (version : Nat) (stores : Stores) :
    Op → Choice → Prop
  | .sign own row _, _ => own = user → row.version < version →
      Recorded user version stores →
        stores.userEndCovers user (stores.now / second)
  | .setUserEnded own since, .late delay => own = user →
      since = version ∨ Recorded user version stores →
        ∀ token ∈ stores.minted, Outdated user version stores token →
          token.issuedAt * second ≤ stores.now - delay + clockSkew
  | _, _ => True

instance (user : Uid) (version : Nat) (stores : Stores) (op : Op)
    (choice : Choice) : Decidable (OnTime user version stores op choice) :=
  match op, choice with
  | .sign _ _ _, _ => inferInstanceAs (Decidable (_ → _ → _ → _))
  | .setUserEnded _ _, .late _ =>
      inferInstanceAs (Decidable (_ → _ → ∀ _ ∈ _, _))
  | .setUserEnded _ _, .plain | .setUserEnded _ _, .fresh _ |
      .setUserEnded _ _, .unreadable | .getdel _, _ | .getRefresh _, _ |
      .createRefresh _ _, _ | .srem _ _, _ | .smembers _, _ |
      .getRotated _, _ | .setRotated _ _, _ | .getEnded _, _ |
      .setEnded _ _, _ | .getUserEnded _, _ | .newSession _, _ |
      .loadUser _, _ | .commitUser _ _, _ | .companyActive _, _ |
      .clock, _ | .waitUntil _, _ | .revokeCapabilities _, _ =>
      .isTrue trivial

/-- Every call of the run is in time. -/
def Timely (user : Uid) (version : Nat) (pool : Gateway) :
    GatewayEvent → Prop
  | .step index choice | .lose index choice =>
      ∀ thread ∈ pool.threads[index]?, ∀ op ∈ thread.program.next?,
        OnTime user version pool.shared op choice
  | _ => True

instance (user : Uid) (version : Nat) (pool : Gateway)
    (event : GatewayEvent) : Decidable (Timely user version pool event) :=
  match event with
  | .step _ _ => inferInstanceAs (Decidable (∀ _ ∈ _, _))
  | .lose _ _ => inferInstanceAs (Decidable (∀ _ ∈ _, _))
  | .spawn _ => .isTrue trivial
  | .abort _ => .isTrue trivial
  | .environment _ => .isTrue trivial

/-- The record refuses every outdated access token. -/
structure Covered (config : Config) (user : Uid) (version : Nat)
    (stores : Stores) : Prop where
  outdated : Recorded user version stores →
    ∀ token ∈ stores.minted, Outdated user version stores token →
      ∃ time expires, stores.userEnded user = some (time, expires) ∧
        token.issuedAt * second ≤ time + clockSkew
  lifetime : ∀ token ∈ stores.minted,
    token.expires = token.issuedAt + config.lifetimeSeconds
  recorded : ∀ time expires, stores.userEnded user = some (time, expires) →
    time + config.endedTtl ≤ expires

section Commands

variable {config : Config} {user : Uid} {version : Nat} {stores : Stores}

/-- As long as the token lives, the record is there and refuses it. -/
theorem Covered.refuses (covered : Covered config user version stores)
    (known : Recorded user version stores) {token : AccessToken}
    (member : token ∈ stores.minted)
    (outdated : Outdated user version stores token) :
    stores.sessionEnded user token.sid token.issuedAt = true := by
  obtain ⟨time, expires, found, within⟩ :=
    covered.outdated known token member outdated
  have long := covered.recorded time expires found
  have life := covered.lifetime token member
  have lives := outdated.2.2
  have there : stores.now < expires := by
    simp only [Config.endedTtl, clockSkew, second, life] at *
    omega
  simp [Stores.sessionEnded, Stores.userEnded?, found, there, within]

end Commands

section Runs

variable {config : Config} {user : Uid} {version : Nat}

end Runs

/-- The account moves to another company. -/
def moves : UserUpdate :=
  ⟨none, some (some 7), none⟩

end IndustryFlow.Sessions
