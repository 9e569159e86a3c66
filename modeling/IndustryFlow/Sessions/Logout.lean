import IndustryFlow.Concurrent.Rights
import IndustryFlow.Sessions.Refusal

/-!
# Logout

A session's refresh token is the right to rotate it, and there is one of them
at most: in the store, or with the request that claimed it.  A logout that
takes it out of the store is final, for any interleaving and any time.  Any
other logout leaves the token alive and writes a record that expires before
the token does, and a token presented again within the grace is answered with
its successor without a look at that record.
-/

namespace IndustryFlow.Sessions

open Concurrent

/-! ## One token a session -/

def rotation : Rights Sid Op Reply where
  takes
    | .getdel token, some _, sid => token.sid = some sid
    | .newSession _, made, sid => made = sid
    | _, _, _ => False
  gives
    | .createRefresh own _, sid => own = sid
    | _, _ => False

/-- How many refresh tokens of the session are stored. -/
def stock (stores : Stores) (sid : Sid) : Nat :=
  stores.refresh.countP fun entry => entry.token.sid = some sid

def Made (stores : Stores) (sid : Sid) : Prop :=
  sid ∈ stores.sessions

theorem stock_eq_zero {stores : Stores} {sid : Sid} {token : Token}
    (empty : stock stores sid = 0) (own : token.sid = some sid) :
    stores.value? token = none := by
  rw [Stores.value?_eq_none]
  intro entry member same
  have none := List.countP_eq_zero.mp empty entry member
  simp [same, own] at none

section Conserves

variable {config : Config} {stores after : Stores} {op : Op}
variable {choice : Choice} {reply : Reply op}

private theorem delete_stock {token : Token} {value : Value} {sid : Sid}
    (found : stores.value? token = some value)
    (own : token.sid = some sid) :
    stock (stores.delete token) sid < stock stores sid := by
  obtain ⟨entry, member, rfl, -, -⟩ := Stores.value?_eq_some found
  have swapped : (stores.delete entry.token).refresh.filter
      (fun other => other.token.sid = some sid) =
        (stores.refresh.filter fun other => other.token.sid = some sid).filter
          fun other => other.token ≠ entry.token := by
    simp only [Stores.delete, List.filter_filter, Bool.and_comm]
  rw [stock, stock, List.countP_eq_length_filter,
    List.countP_eq_length_filter, swapped,
    List.length_filter_lt_length_iff_exists]
  exact ⟨entry, List.mem_filter.mpr ⟨member, by simp [own]⟩, by simp⟩

private theorem exec_conserves
    (executed : exec config stores op choice = some (reply, after)) :
    (∀ sid, Made stores sid → Made after sid) ∧
      (∀ sid, rotation.takes op reply sid →
        stock after sid < stock stores sid ∨
          ¬Made stores sid ∧ Made after sid ∧
            stock after sid ≤ stock stores sid) ∧
      ∀ sid, stock after sid ≤ stock stores sid ∨
        rotation.gives op sid ∧
          stock after sid ≤ stock stores sid + 1 := by
  have unchanged (refresh : after.refresh = stores.refresh)
      (sessions : after.sessions = stores.sessions) (sid : Sid) :
      (Made stores sid → Made after sid) ∧
        stock after sid = stock stores sid := by
    simp [Made, stock, refresh, sessions]
  cases op with
  | getdel token =>
      cases choice <;> simp only [exec] at executed <;> try cases executed
      split at executed
      · rename_i value found
        cases executed
        refine ⟨fun _ made => made, fun sid own => .inl ?_, fun sid => ?_⟩
        · exact delete_stock found own
        · exact .inl (List.Sublist.countP_le List.filter_sublist)
      · cases executed
        exact ⟨fun _ made => made, fun _ never => never.elim,
          fun _ => .inl (Nat.le_refl _)⟩
  | createRefresh sid credential =>
      cases choice <;> simp only [exec] at executed <;> try cases executed
      split at executed <;> cases executed
      refine ⟨fun _ made => made, fun _ never => never.elim, fun other => ?_⟩
      by_cases same : sid = other
      · refine .inr ⟨same, ?_⟩
        simp only [stock, Stores.create, List.countP_cons]
        split <;> omega
      · refine .inl (Nat.le_of_eq ?_)
        simp [stock, Stores.create, Token.sid, same]
  | newSession user =>
      cases choice <;> simp only [exec] at executed <;> try cases executed
      split at executed
      · cases executed
      · rename_i fresh
        cases executed
        refine ⟨fun _ made => List.mem_cons_of_mem _ made, ?_,
          fun _ => .inl (Nat.le_refl _)⟩
        intro sid same
        cases same
        exact .inr ⟨fresh, List.mem_cons_self, Nat.le_refl _⟩
  | _ =>
      have same : after.refresh = stores.refresh ∧
          after.sessions = stores.sessions := by
        cases choice <;> simp only [exec] at executed <;>
          (try split at executed) <;> cases executed <;> exact ⟨rfl, rfl⟩
      have still := unchanged same.1 same.2
      exact ⟨fun sid => (still sid).1, fun _ never => never.elim,
        fun sid => .inl (Nat.le_of_eq (still sid).2)⟩

theorem gateway_conserves (config : Config) :
    Pool.Conserves rotation stock Made (gateway config) where
  made_kept executed := (exec_conserves executed).1
  taken executed := (exec_conserves executed).2.1
  grown executed := (exec_conserves executed).2.2
  changed changed sid := by
    rename_i shared event after
    cases event <;> cases changed <;> exact ⟨Nat.le_refl _, id⟩

end Conserves

/-! ## What the requests do with the right -/

section Affine

variable {Answer : Type}

/-- The program issues no token. -/
abbrev IssuesNone (program : Handler Answer) : Prop :=
  program.Keeps rotation

/-- Held by nobody: what issues a token or writes a rotation record. -/
def writing : Rights Unit Op Reply where
  takes _ _ _ := False
  gives
    | .createRefresh _ _, _ => True
    | .setRotated _ _, _ => True
    | _, _ => False

/-- The program issues no token and writes no rotation record. -/
abbrev Plain (program : Handler Answer) : Prop :=
  program.Keeps writing

theorem Plain.issuesNone {program : Handler Answer}
    (plain : Plain program) : IssuesNone program := by
  refine plain.mono (fun _ _ => id) ?_ fun _ _ => trivial
  intro op calm sid gives
  cases op with
  | createRefresh own credential => exact calm () trivial
  | _ => exact gives

theorem Quiet.plain {program : Handler Answer}
    (quiet : Quiet program) : Plain program := by
  refine quiet.mono (fun _ _ => id) ?_ fun _ _ => trivial
  intro op calm right gives
  cases op <;> trivial

theorem Quiet.issuesNone {program : Handler Answer}
    (quiet : Quiet program) : IssuesNone program :=
  quiet.plain.issuesNone

theorem recordSuccessor_issuesNone (token successor : Token) :
    IssuesNone (recordSuccessor token successor) := by
  refine Program.Keeps.call (fun _ => id) fun raw => ?_
  cases raw with
  | none => trivial
  | some rotation => exact ⟨fun _ => id, fun _ _ => trivial⟩

theorem sweep_plain (user : Uid) (sid : Sid) (tokens : List Token) :
    Plain (sweep user sid tokens) := by
  induction tokens with
  | nil => trivial
  | cons token tokens induction =>
      refine Program.Keeps.call (fun _ => id) fun raw => ?_
      match raw with
      | none => exact induction
      | some .bare => exact induction
      | some (.current credential) =>
          dsimp only
          split
          · exact Program.Keeps.call (fun _ => id) fun _ =>
              Program.Keeps.call (fun _ => id) fun _ => induction
          · exact induction

theorem endReusedSession_plain (config : Config) (token : Token) :
    Plain (endReusedSession config token) := by
  unfold endReusedSession
  split
  · trivial
  · exact Program.Keeps.call (fun _ => id) fun _ =>
      Program.Keeps.call (fun _ => id) fun tokens =>
        sweep_plain _ _ tokens

theorem replay_issuesNone (config : Config) (token : Token)
    (recordPolls successorPolls : Nat) :
    IssuesNone (replay config token recordPolls successorPolls) := by
  have awaited : Quiet (awaitRotation token recordPolls) :=
    (awaitRotation_always (fun _ => True)
      (fun _ _ _ _ => trivial) recordPolls).mono (fun _ _ => id)
        (fun _ => id) fun _ => And.left
  refine awaited.issuesNone.bind fun raw => ?_
  cases raw with
  | none => trivial
  | some rotation =>
      refine Program.Keeps.call (fun _ => id) fun time => ?_
      split
      · split
        · trivial
        · exact Program.Keeps.call (fun _ => id) fun _ =>
            (endReusedSession_plain config token).issuesNone.bind
              fun _ => trivial
      · have latest : Quiet (awaitSuccessor token rotation successorPolls) :=
          (awaitSuccessor_always (fun _ => True)
            (fun _ _ _ _ => trivial) successorPolls trivial).mono
              (fun _ _ => id) (fun _ => id) fun _ => And.left
        refine latest.issuesNone.bind fun latest => ?_
        cases latest.successor with
        | none => trivial
        | some successor =>
            refine Program.Keeps.call (fun _ => id) fun live => ?_
            cases live <;> trivial

theorem revokeRefreshToken_plain (config : Config) (token : Token) :
    Plain (revokeRefreshToken config token) := by
  have removes : Plain (do
      srem token.user [token]
      pure (some token.user)) :=
    Program.Keeps.call (fun _ => id) fun _ => trivial
  refine Program.Keeps.call (fun _ => id) fun raw => ?_
  match raw with
  | none => trivial
  | some .bare => exact removes
  | some (.current credential) =>
      dsimp only
      split
      · exact Program.Keeps.call (fun _ => id) fun _ => removes
      · exact removes

theorem revokeEach_plain (config : Config) (tokens : List Token) :
    Plain (revokeEach config tokens) := by
  induction tokens with
  | nil => trivial
  | cons token tokens induction =>
      refine Program.Keeps.call (fun _ => id) fun raw => ?_
      split
      · exact Program.Keeps.call (fun _ => id) fun _ => induction
      · exact induction

theorem endAllSessions_plain (config : Config) (user : Uid)
    (version : Nat) : Plain (endAllSessions config user version) := by
  have revokes : Plain (revokeAllRefreshTokens config user) := by
    refine Program.Keeps.call (fun _ => id) fun tokens => ?_
    split
    · trivial
    · exact (revokeEach_plain config tokens).bind fun _ =>
        ⟨fun _ => id, fun _ _ => trivial⟩
  exact Program.Keeps.call (fun _ => id) fun _ =>
    revokes.bind fun _ => ⟨fun _ => id, fun _ _ => trivial⟩

theorem logout_plain (config : Config) (token : Option Token)
    (claims : Option Claims) : Plain (logout config token claims) := by
  have revokes : Plain (revokePresented config token) := by
    cases token with
    | none => trivial
    | some token => exact revokeRefreshToken_plain config token
  refine revokes.bind fun owner => ?_
  exact ((endSession_quiet config (claims.bind Claims.sid)).bind fun _ =>
    (revokeCapabilitiesOf_quiet (owners owner claims)).bind fun _ =>
      Quiet.done Answer.loggedOut).plain

/-- The right goes to tokens only, and the claim of `token` hands it out, or
the session that a claim without one starts. -/
structure Issuing {Right : Type} (rights : Rights Right Op Reply)
    (token : Token) : Prop where
  issues : ∀ op right, rights.gives op right →
    ∃ sid credential, op = .createRefresh sid credential
  claimed : ∀ sid credential right value, token.sid = some sid →
    rights.gives (.createRefresh sid credential) right →
      rights.takes (.getdel token) (some (.current value)) right
  started : ∀ sid credential right value,
    rights.gives (.createRefresh sid credential) right →
      rights.takes (.getdel token) (some (.current value)) right ∨
        rights.takes (.newSession token.user) sid right

theorem rotation_issuing (token : Token) : Issuing rotation token where
  issues op right gives := by
    cases op with
    | createRefresh sid credential => exact ⟨sid, credential, rfl⟩
    | _ => exact gives.elim
  claimed sid credential right value own same := by
    rw [← show sid = right from same]
    exact own
  started _ _ _ _ same := .inr same

section Issuing

variable {Right : Type} {rights : Rights Right Op Reply} {token : Token}

theorem Issuing.silent (issuing : Issuing rights token) {op : Op}
    (other : ∀ sid credential, op ≠ .createRefresh sid credential)
    (right : Right) : ¬rights.gives op right := by
  intro gives
  obtain ⟨sid, credential, same⟩ := issuing.issues op right gives
  exact other sid credential same

theorem Issuing.keeps (issuing : Issuing rights token)
    {program : Handler Answer} (none : IssuesNone program) :
    program.Keeps rights := by
  refine none.mono (fun _ _ => id) ?_ fun _ _ => trivial
  intro op calm
  refine issuing.silent fun sid credential same => ?_
  subst same
  exact calm sid rfl

theorem continueRefresh_affine (config : Config)
    (issuing : Issuing rights token) (credential : String)
    (successor : Option Token) {held : Right → Prop}
    (own : successor = none → ∀ right,
      rights.takes (.getdel token) (some (.current credential)) right →
        held right) :
    (continueRefresh config token credential successor).Affine rights
      held := by
  have rotates {sid : Sid} {row : Row} {held : Right → Prop}
      (mine : successor = none → ∀ right fingerprint,
        rights.gives (.createRefresh sid fingerprint) right → held right) :
      (rotateInto config token sid row successor).Affine rights held := by
    cases successor with
    | some successor => trivial
    | none =>
        refine ⟨fun right gives => mine rfl right _ gives, fun refresh => ?_⟩
        have records : IssuesNone (do
            recordSuccessor token refresh
            pure refresh) :=
          (recordSuccessor_issuesNone token refresh).bind fun _ => trivial
        exact (issuing.keeps records).affine _
  have rest {sid : Sid} {row : Row} (refresh : Token) :
      (do
        let access ← writeToken token.user row sid
        pure (Answer.tokens access refresh)).Keeps rights :=
    issuing.keeps ((writeToken_quiet token.user row sid).bind fun access =>
      Quiet.done (Answer.tokens access refresh)).issuesNone
  have refused (error : HttpError) : (do
      endAllSessions config token.user 0
      (.fail error : Handler Sessions.Answer)).Keeps rights :=
    (issuing.keeps (endAllSessions_plain config token.user 0).issuesNone).bind
      fun _ => trivial
  refine Program.Affine.skip (issuing.silent (by simp)) fun found => ?_
  cases found with
  | none => trivial
  | some row =>
      dsimp only
      split
      · trivial
      · split
        · exact (refused _).affine held
        · refine Program.Affine.bind (issuing.keeps
            (companyAdmits_quiet row.company).issuesNone) fun active => ?_
          split
          · exact (refused _).affine held
          · unfold continuedSession
            cases same : token.sid with
            | some sid =>
                refine (rotates fun new right fingerprint gives => ?_).seq rest
                exact own new right
                  (issuing.claimed sid _ right credential same gives)
            | none =>
                have calm (right : Right) :
                    ¬rights.gives (.newSession token.user) right :=
                  issuing.silent (by simp) right
                refine ⟨fun right gives => absurd gives (calm right), ?_⟩
                intro sid
                refine (rotates fun new right fingerprint gives => ?_).seq rest
                rcases issuing.started sid _ right credential gives with
                  claimed | started
                · exact .inl ⟨own new right claimed, calm right⟩
                · exact .inr started

theorem claimed_affine (config : Config) (issuing : Issuing rights token)
    (credential : String) {held : Right → Prop}
    (own : ∀ right,
      rights.takes (.getdel token) (some (.current credential)) right →
        held right) :
    (do
      checkSession token
      continueRefresh config token credential none).Affine rights held :=
  Program.Affine.bind (issuing.keeps (checkSession_quiet token).issuesNone)
    fun _ => continueRefresh_affine config issuing credential none fun _ => own

theorem unclaimed_affine (config : Config) (issuing : Issuing rights token)
    (recordPolls successorPolls : Nat) {held : Right → Prop} :
    (do
      let replayed ← replay config token recordPolls successorPolls
      match replayed with
      | .reused first => do
          if first then revokeCapabilities token.user
          .fail (.reused first)
      | .unknown => .fail .invalidToken
      | .successor credential successor =>
          continueRefresh config token credential (some successor)).Affine
        rights held := by
  refine Program.Affine.bind (issuing.keeps (replay_issuesNone config
    token recordPolls successorPolls)) fun replayed => ?_
  cases replayed with
  | unknown => trivial
  | successor credential successor =>
      refine continueRefresh_affine config issuing credential
        (some successor) fun never => ?_
      cases never
  | reused first =>
      cases first with
      | false => trivial
      | true =>
          exact Program.Affine.skip (issuing.silent (by simp))
            fun _ => trivial

/-- A refresh issues at most one token, and none without a claim. -/
theorem refresh_affine (config : Config) (issuing : Issuing rights token)
    (recordPolls successorPolls : Nat) :
    (refresh config token recordPolls successorPolls).Affine rights
      fun _ => False := by
  refine ⟨fun right gives => ?_, fun raw => ?_⟩
  · exact absurd gives (issuing.silent (by simp) right)
  have unclaimed {held : Right → Prop} := @unclaimed_affine _ _ _ config
    issuing recordPolls successorPolls held
  cases raw with
  | none => exact unclaimed
  | some value =>
      cases value with
      | bare => exact unclaimed
      | current credential =>
          refine Program.Affine.skip (issuing.silent (by simp)) fun _ => ?_
          refine Program.Affine.skip (issuing.silent (by simp)) fun _ => ?_
          refine Program.Affine.skip (issuing.silent (by simp)) fun _ => ?_
          exact claimed_affine config issuing credential
            fun right takes => .inr takes

end Issuing

/-- Only a login and a refresh issue tokens. -/
theorem handle_plain (config : Config) (request : Request)
    (signs : ∀ user hashedPassword, request ≠ .login user hashedPassword)
    (rotates : ∀ token recordPolls successorPolls,
      request ≠ .refresh token recordPolls successorPolls) :
    Plain (handle config request) := by
  cases request with
  | login user hashedPassword => exact absurd rfl (signs _ _)
  | refresh token recordPolls successorPolls =>
      exact absurd rfl (rotates _ _ _)
  | jwtLogin user hashedPassword =>
      exact (jwtLogin_quiet user hashedPassword).plain
  | logout token claims => exact logout_plain config token claims
  | destroyToken claims => exact (destroyToken_quiet config claims).plain
  | update user update =>
      refine Program.Keeps.call (fun _ => id) fun committed => ?_
      cases committed with
      | none => trivial
      | some version =>
          dsimp only
          split
          · exact (endAllSessions_plain config user version).bind
              fun _ => trivial
          · trivial
  | endAll user =>
      exact (endAllSessions_plain config user 0).bind fun _ => trivial

theorem handle_affine (config : Config) (request : Request) :
    (handle config request).Affine rotation fun _ => False := by
  cases request with
  | login user hashedPassword =>
      refine Program.Affine.bind
        (signIn_quiet user hashedPassword).issuesNone fun row => ?_
      refine Program.Affine.call (fun _ never => never.elim) fun sid => ?_
      refine Program.Affine.bind
        (writeToken_quiet user row sid).issuesNone fun access => ?_
      exact Program.Affine.call (fun _ same => .inr same) fun _ => trivial
  | refresh token recordPolls successorPolls =>
      exact refresh_affine config (rotation_issuing token) recordPolls
        successorPolls
  | _ =>
      exact (handle_plain config _ (by simp) (by simp)).issuesNone.affine _

end Affine

/-! ## Runs -/

/-- The refresh token that a logout presents. -/
def Request.presented? : Request → Option Token
  | .logout token _ => token
  | _ => none

/-- The logout ends the session: it presents a token of the session or an
access token issued in it. -/
def Request.EndsSession (request : Request) (sid : Sid) : Prop :=
  match request with
  | .logout token claims => token.bind Token.sid = some sid ∨
      claims.bind Claims.sid = some sid
  | .destroyToken claims => claims.sid = some sid
  | _ => False

instance (request : Request) (sid : Sid) :
    Decidable (request.EndsSession sid) :=
  match request with
  | .logout _ _ => inferInstanceAs (Decidable (_ ∨ _))
  | .destroyToken _ => inferInstanceAs (Decidable (_ = _))
  | .login _ _ | .jwtLogin _ _ | .refresh _ _ _ | .update _ _ | .endAll _ =>
      .isFalse id

/-- The logout at `index` takes the session's refresh token, and finds it. -/
def Takes (index : Nat) (sid : Sid) (pool : Gateway)
    (event : GatewayEvent) : Prop :=
  event = .step index .plain ∧
    ∃ thread ∈ pool.threads[index]?, ∃ token ∈ thread.request.presented?,
      token.sid = some sid ∧
        thread.program.next? = some (.getdel token) ∧
        pool.shared.value? token ≠ none

instance (index : Nat) (sid : Sid) (pool : Gateway)
    (event : GatewayEvent) : Decidable (Takes index sid pool event) :=
  inferInstanceAs (Decidable (_ ∧ _))

/-- A refresh of the session that came from `first` on and has claimed its
token finds the session recorded as ended, and one that was rotated a moment
ago finds its successor gone. -/
def Guarded (sid : Sid) (first : Nat) (pool : Gateway) :
    GatewayEvent → Prop
  | .step index _ => first ≤ index → ∀ thread ∈ pool.threads[index]?,
      thread.request.RefreshOf sid → ∀ op ∈ thread.program.next?,
        (op = .getEnded sid → pool.shared.sessionWasEnded sid = true) ∧
          ∀ token, op = .getRefresh token → token.sid = some sid →
            pool.shared.value? token = none
  | _ => True

/-- A run up to the answer of a logout that ends the session. -/
structure LoggedOut (config : Config) (start : Gateway)
    (events : List GatewayEvent) (index : Nat) (sid : Sid)
    (pool : Gateway) : Prop where
  reached : run (Pool.step (gateway config)) start events = some pool
  answered : ∃ thread ∈ pool.threads[index]?,
    thread.request.EndsSession sid ∧
      thread.program.answer? = some .loggedOut

section Runs

variable {config : Config}

/-- Whoever logs out issues no token. -/
def LogoutIssuesNone (thread : Thread Request Op Reply HttpError Answer) :
    Prop :=
  ∀ token ∈ thread.request.presented?, IssuesNone thread.program

theorem step_logoutIssuesNone {pool next : Gateway} {event : GatewayEvent}
    (holds : Pool.Later 0 LogoutIssuesNone pool)
    (taken : Pool.step (gateway config) pool event = some next) :
    Pool.Later 0 LogoutIssuesNone next := by
  refine Pool.step_later ?_ ?_ ?_ holds taken
  · intro request token presented
    cases request with
    | logout token claims => exact (logout_plain config token claims).issuesNone
    | _ => cases presented
  · exact fun _ _ _ => trivial
  · exact fun _ _ _ _ _ reply _ _ _ _ _ none token presented =>
      (none token presented).2 reply trivial

abbrev Exclusive (pool : Gateway) : Prop :=
  Pool.Linear rotation stock Made pool

abbrev Lapsed (sid : Sid) (pool : Gateway) : Prop :=
  Pool.Lapsed rotation stock Made sid pool

theorem start_exclusive (users : Uid → Option Row)
    (companies : Company → Bool) (legacy : List Legacy) :
    Exclusive (Pool.start (Stores.initial users companies legacy)) := by
  have none (sid : Sid) :
      stock (Stores.initial users companies legacy) sid = 0 := by
    refine List.countP_eq_zero.mpr fun entry member => ?_
    obtain ⟨old, -, rfl⟩ := List.mem_map.mp member
    simp [Legacy.token, Token.sid]
  exact Pool.start_linear (fun sid => by simp [none sid])
    fun sid positive => by simp [none sid] at positive

/-- What holds in every state the gateway reaches. -/
structure Reached (config : Config) (pool : Gateway) : Prop where
  steady : Steady config (fun _ => False) pool
  exclusive : Exclusive pool
  issues : Pool.Later 0 LogoutIssuesNone pool

theorem step_reached {pool next : Gateway} {event : GatewayEvent}
    (reached : Reached config pool)
    (taken : Pool.step (gateway config) pool event = some next) :
    Reached config next where
  steady := (step_steady reached.steady (fun _ => False.elim) taken).1
  exclusive := Pool.step_linear (gateway_conserves config)
    (handle_affine config) reached.exclusive taken
  issues := step_logoutIssuesNone reached.issues taken

theorem start_reached (config : Config) (users : Uid → Option Row)
    (companies : Company → Bool) (legacy : List Legacy) :
    Reached config (.start (Stores.initial users companies legacy)) where
  steady := start_steady users companies legacy
  exclusive := start_exclusive users companies legacy
  issues _ _ _ never := nomatch never

/-- Taking the token ends the right to rotate the session. -/
theorem step_takes {pool next : Gateway} {event : GatewayEvent}
    {index : Nat} {sid : Sid} (reached : Reached config pool)
    (takes : Takes index sid pool event)
    (taken : Pool.step (gateway config) pool event = some next) :
    Lapsed sid next := by
  obtain ⟨rfl, ⟨request, program⟩, running, token, presented, own, next?,
    live⟩ := takes
  cases program with
  | done answer => cases next?
  | fail error => cases next?
  | call op rest =>
      cases next?
      have keeps := reached.issues index _ (Nat.zero_le _) running token
        presented
      refine Pool.step_lapses (gateway_conserves config) reached.exclusive
        running (fun reply => keeps.2 reply trivial) ?_ taken
      intro reply after executed
      obtain ⟨value, found⟩ := Option.ne_none_iff_exists'.mp live
      simp only [gateway, exec, found] at executed
      cases executed
      exact own

theorem step_lapsed {pool next : Gateway} {event : GatewayEvent}
    {sid : Sid} (lapsed : Lapsed sid pool)
    (taken : Pool.step (gateway config) pool event = some next) :
    Lapsed sid next :=
  Pool.step_lapsed (gateway_conserves config) (handle_affine config) lapsed
    taken

/-- A guarded refresh has no way to succeed. -/
theorem guarded_barred {pool : Gateway} {sid : Sid} {first index : Nat}
    {request : Request} {op : Op} {rest : Reply op → Handler Answer}
    {choice : Choice} {reply : Reply op} {after : Stores}
    (steady : Steady config (fun _ => False) pool)
    (guarded : Guarded sid first pool (.step index choice))
    (recent : first ≤ index)
    (running : pool.threads[index]? = some ⟨request, .call op rest⟩)
    (own : request.RefreshOf sid)
    (executed : exec config pool.shared op choice = some (reply, after)) :
    Barred sid False op reply := by
  have ⟨recorded, gone⟩ := guarded recent _ running own op rfl
  cases op with
  | getRefresh token =>
      cases choice <;> simp only [exec] at executed <;> cases executed
      exact gone token rfl
  | getEnded other =>
      intro _ same
      subst same
      cases choice <;> simp only [exec] at executed <;> cases executed
      · simp [recorded rfl]
      · simp
  | getdel token => exact fun never => never.elim
  | getRotated token => exact exec_honest steady.holds executed
  | _ => trivial

/-- After the right has lapsed, no refresh that comes later succeeds. -/
theorem lapsed_refused {sid : Sid} {middle final : Gateway}
    {events : List GatewayEvent} (reached : Reached config middle)
    (lapsed : Lapsed sid middle)
    (ran : run (Pool.step (gateway config)) middle events = some final) :
    Pool.Later middle.threads.length (Refused sid True) final := by
  refine (run_preserves (fun pool => Reached config pool ∧
    Lapsed sid pool ∧
      Pool.Later middle.threads.length (Refused sid True) pool) ?_
    ⟨reached, lapsed, Pool.later_length _ middle⟩ ran).2.2
  intro pool event next ⟨reached, lapsed, refused⟩ taken
  refine ⟨step_reached reached taken, step_lapsed lapsed taken, ?_⟩
  refine step_refused ?_ refused taken
  obtain ⟨_, _, _, zero, _⟩ := lapsed
  exact fun _ _ _ _ _ _ _ _ _ _ _ => empty_barred reached.steady.holds
    fun _ => stock_eq_zero zero

/-- While the later refreshes are guarded, none of them succeeds. -/
theorem guarded_refused {sid : Sid} {middle final : Gateway}
    {events : List GatewayEvent} (reached : Reached config middle)
    (along : Along (Pool.step (gateway config))
      (Guarded sid middle.threads.length) middle events)
    (ran : run (Pool.step (gateway config)) middle events = some final) :
    Pool.Later middle.threads.length (Refused sid False) final := by
  refine (run_preserves_along (fun pool => Reached config pool ∧
    Pool.Later middle.threads.length (Refused sid False) pool) ?_
    ⟨reached, Pool.later_length _ middle⟩ along ran).2
  intro pool event next ⟨reached, refused⟩ guarded taken
  refine ⟨step_reached reached taken, step_refused ?_ refused taken⟩
  intro index choice request op rest reply after recent same running own
    executed
  subst same
  exact guarded_barred reached.steady guarded recent running own executed

/-- After a logout has ended the session, no refresh of it that comes later
succeeds: if the logout took the refresh token itself, or as long as every
later refresh finds the record of the logout and no live successor. -/
theorem logout_final (config : Config) (users : Uid → Option Row)
    (companies : Company → Bool) (legacy : List Legacy)
    {before after : List GatewayEvent} {index : Nat} {sid : Sid}
    {middle final : Gateway}
    (logout : LoggedOut config
      (.start (Stores.initial users companies legacy)) before index sid
      middle)
    (ran : run (Pool.step (gateway config)) middle after = some final)
    (condition : Sometime (Pool.step (gateway config)) (Takes index sid)
        (.start (Stores.initial users companies legacy)) before ∨
      Along (Pool.step (gateway config))
        (Guarded sid middle.threads.length) middle after) :
    Pool.Later middle.threads.length (fun thread =>
      thread.request.RefreshOf sid → thread.program.answer? = none)
      final := by
  have preserved (pool : Gateway) (event : GatewayEvent) (next : Gateway) :
      Reached config pool →
        Pool.step (gateway config) pool event = some next →
          Reached config next :=
    step_reached
  have start := start_reached config users companies legacy
  have reached := run_preserves (Reached config) preserved start logout.reached
  rcases condition with sometime | along
  · obtain ⟨first, event, rest, pool, next, ranFirst, takes, taken,
      ranRest⟩ := sometime.split logout.reached
    have here := run_preserves (Reached config) preserved start ranFirst
    have lapsed : Lapsed sid middle :=
      run_preserves (Lapsed sid) (fun _ _ _ => step_lapsed)
        (step_takes here takes taken) ranRest
    exact fun later thread recent found own =>
      (lapsed_refused reached lapsed ran later thread recent
        found).unanswered own
  · exact fun later thread recent found own =>
      (guarded_refused reached along ran later thread recent
        found).unanswered own

end Runs

/-! ## A run in which the record expires first -/

/-- Access tokens for a minute, refresh tokens for a day. -/
def shortLived : Config where
  accessMinutes := 1
  refreshDays := 1
  fingerprint := id

def member : Uid → Option Row
  | 0 => some ⟨0, "secret", none, none, true⟩
  | _ => none

/-- The account signs in: session 0 with token 0. -/
def signsIn : List GatewayEvent :=
  [.spawn (.login 0 "secret"), .step 0 .plain, .step 0 (.fresh 0),
    .step 0 .plain, .step 0 .plain, .step 0 (.fresh 0)]

/-- The token of the session is presented at `index` and claimed. -/
def refreshes (index : Nat) : List GatewayEvent :=
  [.spawn (.refresh ⟨0, some 0, 0⟩ 0 0), .step index .plain,
    .step index .plain, .step index .plain, .step index .plain,
    .step index .plain, .step index .plain, .step index (.fresh 1),
    .step index .plain, .step index .plain, .step index .plain,
    .step index .plain]

/-- The session that signs in, its token and its access token. -/
def session : Sid :=
  ⟨0, 0⟩

def sessionToken : Token :=
  ⟨0, some 0, 0⟩

/-- A logout with the refresh token, and a refresh with it two minutes
later. -/
theorem logout_final_live_token : ∃ middle final,
    LoggedOut shortLived (.start (Stores.initial member (fun _ => true) []))
      (signsIn ++ ([.spawn (.logout (some sessionToken) none),
        .step 1 .plain, .step 1 .plain, .step 1 .plain, .step 1 .plain] :
          List GatewayEvent))
      1 session middle ∧
    run (Pool.step (gateway shortLived)) middle
      [.environment (.pass (121 * second)),
        .spawn (.refresh sessionToken 0 0), .step 2 .plain,
        .step 2 .plain] = some final ∧
    Pool.Later middle.threads.length (fun thread =>
      thread.request.RefreshOf session → thread.program.answer? = none)
      final := by
  have taken : Sometime (Pool.step (gateway shortLived)) (Takes 1 session)
      (.start (Stores.initial member (fun _ => true) []))
      (signsIn ++ ([.spawn (.logout (some sessionToken) none),
        .step 1 .plain, .step 1 .plain, .step 1 .plain,
        .step 1 .plain] : List GatewayEvent)) := by
    decide +kernel
  have ran : ((run (Pool.step (gateway shortLived))
      (.start (Stores.initial member (fun _ => true) []))
      (signsIn ++ ([.spawn (.logout (some sessionToken) none),
        .step 1 .plain, .step 1 .plain, .step 1 .plain,
        .step 1 .plain] : List GatewayEvent))).any fun middle =>
          decide (∃ thread ∈ middle.threads[1]?,
            thread.request.EndsSession session ∧
              thread.program.answer? = some .loggedOut) &&
          (run (Pool.step (gateway shortLived)) middle
            [.environment (.pass (121 * second)),
              .spawn (.refresh sessionToken 0 0), .step 2 .plain,
              .step 2 .plain]).isSome) = true := by
    decide +kernel
  obtain ⟨middle, reached, rest⟩ := (Option.any_eq_true _ _).mp ran
  obtain ⟨answered, some⟩ := Bool.and_eq_true_iff.mp rest
  obtain ⟨final, ran⟩ := Option.isSome_iff_exists.mp some
  have logout := LoggedOut.mk reached (of_decide_eq_true answered)
  exact ⟨middle, final, logout, ran,
    logout_final shortLived member (fun _ => true) [] logout ran
      (.inl taken)⟩

/-- A logout with the access token only: two minutes later its record has
expired and the refresh token signs the session in again. -/
theorem logout_undone : ¬∀ (config : Config) (users : Uid → Option Row)
    (companies : Company → Bool) (legacy : List Legacy)
    (before after : List GatewayEvent) (index : Nat) (sid : Sid)
    (middle final : Gateway),
    LoggedOut config (.start (Stores.initial users companies legacy))
      before index sid middle →
    run (Pool.step (gateway config)) middle after = some final →
    Pool.Later middle.threads.length (fun thread =>
      thread.request.RefreshOf sid → thread.program.answer? = none)
      final := by
  intro always
  have ran : ((run (Pool.step (gateway shortLived))
      (.start (Stores.initial member (fun _ => true) []))
      (signsIn ++ ([.spawn (.logout none (some ⟨0, some session⟩)),
        .step 1 .plain, .step 1 .plain] : List GatewayEvent))).any fun middle =>
          decide (middle.threads.length = 2 ∧
            ∃ thread ∈ middle.threads[1]?,
              thread.request.EndsSession session ∧
                thread.program.answer? = some .loggedOut) &&
          (run (Pool.step (gateway shortLived)) middle
            (.environment (.pass (121 * second)) :: refreshes 2)).any
              fun final => decide (∃ thread ∈ final.threads[2]?,
                thread.request.RefreshOf session ∧
                  thread.program.answer? ≠ none)) = true := by
    decide +kernel
  obtain ⟨middle, reached, rest⟩ := (Option.any_eq_true _ _).mp ran
  obtain ⟨answered, some⟩ := Bool.and_eq_true_iff.mp rest
  obtain ⟨length, logout⟩ := of_decide_eq_true answered
  obtain ⟨final, ran, succeeded⟩ := (Option.any_eq_true _ _).mp some
  obtain ⟨thread, found, own, answer⟩ := of_decide_eq_true succeeded
  exact answer (always shortLived member (fun _ => true) [] _ _ 1 session
    middle final ⟨reached, logout⟩ ran 2 thread (by omega) found own)

end IndustryFlow.Sessions
