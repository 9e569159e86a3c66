import IndustryFlow.Sessions.Kept

/-!
# When a refresh is refused

A refresh with a token of a session succeeds in two ways: the token is claimed
while the session has no ended-session record, or it was rotated a moment ago
and its successor is live.  Where every reply rules both out, it is refused.
-/

namespace IndustryFlow.Sessions

open Concurrent

/-- Replies that leave a refresh of the session no way to succeed: nothing to
claim when `dead`, otherwise a record that the session ended. -/
def Barred (sid : Sid) (dead : Prop) : ∀ op, Reply op → Prop
  | .getRefresh token, reply => token.sid = some sid → reply = none
  | .getRotated token, reply => ∀ rotation, reply = some rotation →
      rotation.Continues token
  | .getdel token, reply => dead → token.sid = some sid → reply = none
  | .getEnded other, reply => ¬dead → other = sid → reply ≠ some false
  | _, _ => True

/-- Every way the program can end is within `post`. -/
abbrev Ends {Answer : Type} (sid : Sid) (dead : Prop)
    (post : Except HttpError Answer → Prop) (program : Handler Answer) :
    Prop :=
  program.Always (Barred sid dead) (fun _ => True) post

/-- A session without live tokens leaves a refresh no way to succeed. -/
theorem empty_barred {config : Config} {strict : Sid → Prop}
    {stores after : Stores} {sid : Sid} {op : Op} {choice : Choice}
    {reply : Reply op} (consistent : Consistent config strict stores)
    (empty : ∀ token, token.sid = some sid → stores.value? token = none)
    (executed : exec config stores op choice = some (reply, after)) :
    Barred sid True op reply := by
  cases op with
  | getRefresh token =>
      cases choice <;> simp only [exec] at executed <;> cases executed
      exact empty token
  | getdel token =>
      cases choice <;> simp only [exec] at executed <;> try cases executed
      intro _ own
      rw [empty token own] at executed
      cases executed
      rfl
  | getRotated token => exact exec_honest consistent executed
  | getEnded other => exact fun alive => absurd trivial alive
  | _ => trivial

section Refused

variable {sid : Sid} {dead : Prop} {token : Token} {Answer Result : Type}

theorem ends_call {op : Op} {next : Reply op → Handler Answer}
    {post : Except HttpError Answer → Prop}
    (rest : ∀ reply, Barred sid dead op reply →
      Ends sid dead post (next reply)) :
    Ends sid dead post (Program.perform op >>= next) :=
  ⟨trivial, rest⟩

theorem claimRefreshToken_ends (own : token.sid = some sid) :
    Ends sid dead (fun result => ∀ claim, result = .ok claim → dead →
      claim = none) (claimRefreshToken token) := by
  refine ends_call fun reply barred => ?_
  match reply with
  | none =>
      intro claim same _
      cases same
      rfl
  | some .bare =>
      intro claim same _
      cases same
      rfl
  | some (.current credential) =>
      have alive : ¬dead := fun gone => nomatch barred gone own
      refine ends_call fun _ _ => ends_call fun _ _ => ends_call fun _ _ => ?_
      exact fun _ _ gone => absurd gone alive

theorem checkSession_ends (own : token.sid = some sid) (alive : ¬dead) :
    Ends sid dead (fun result => ∀ answer, result ≠ .ok answer)
      (checkSession token) := by
  unfold checkSession
  rw [own]
  refine ends_call fun raw barred => ?_
  match raw with
  | none => exact fun _ same => nomatch same
  | some true => exact fun _ same => nomatch same
  | some false => exact absurd rfl (barred alive rfl)

theorem replay_ends (config : Config) (recordPolls successorPolls : Nat)
    (own : token.sid = some sid) :
    Ends sid dead (fun result => ∀ replayed, result = .ok replayed →
      ∀ credential successor, replayed ≠ .successor credential successor)
      (replay config token recordPolls successorPolls) := by
  have other {replayed : Replay}
      (none : ∀ credential successor,
        replayed ≠ .successor credential successor) :
      Ends sid dead (fun result => ∀ replayed, result = .ok replayed →
        ∀ credential successor, replayed ≠ .successor credential successor)
        (.done replayed) := by
    intro answer same
    cases same
    exact none
  refine Program.Always.bind
    ((awaitRotation_always _ (fun _ => id) recordPolls).mono
      (fun _ _ => id) (fun _ _ => trivial) fun _ => And.right) ?_
    fun _ _ _ never => nomatch never
  intro raw continues
  cases raw with
  | none => exact other fun _ _ same => nomatch same
  | some rotation =>
      refine ends_call fun time _ => ?_
      split
      · split
        · exact other fun _ _ same => nomatch same
        · refine ends_call fun _ _ => ?_
          refine Program.Always.bind (Program.always_any _) (fun _ _ => ?_)
            fun _ _ _ never => nomatch never
          exact other fun _ _ same => nomatch same
      · refine Program.Always.bind
          ((awaitSuccessor_always _ (fun _ => id) successorPolls
            (continues _ rfl rotation rfl)).mono (fun _ _ => id)
            (fun _ _ => trivial) fun _ => And.right) ?_
          fun _ _ _ never => nomatch never
        intro latest same
        cases found : latest.successor with
        | none => exact other fun _ _ same => nomatch same
        | some successor =>
            refine ends_call fun live barred => ?_
            have absent : live = none :=
              barred (same latest rfl sid successor own found)
            rw [absent]
            exact other fun _ _ same => nomatch same

/-- No way to succeed, no success. -/
theorem refresh_ends (config : Config) (recordPolls successorPolls : Nat)
    (own : token.sid = some sid) :
    Ends sid dead (fun result => ∀ answer, result ≠ .ok answer)
      (refresh config token recordPolls successorPolls) := by
  refine Program.Always.bind (claimRefreshToken_ends own) ?_
    fun _ _ _ same => nomatch same
  intro claim claimed
  cases claim with
  | some credential =>
      have alive : ¬dead := fun gone => nomatch claimed _ rfl gone
      refine Program.Always.bind (checkSession_ends own alive) ?_
        fun _ _ _ same => nomatch same
      exact fun answer passed => absurd rfl (passed answer)
  | none =>
      refine Program.Always.bind
        (replay_ends config recordPolls successorPolls own) ?_
        fun _ _ _ same => nomatch same
      intro replayed none
      cases replayed with
      | unknown => exact fun _ same => nomatch same
      | successor credential successor => exact absurd rfl (none _ rfl _ _)
      | reused first =>
          cases first with
          | false => exact fun _ same => nomatch same
          | true => exact ends_call fun _ _ _ same => nomatch same

end Refused

/-! ## Runs -/

/-- A refresh with a token of the session. -/
def Request.RefreshOf (request : Request) (sid : Sid) : Prop :=
  match request with
  | .refresh token _ _ => token.sid = some sid
  | _ => False

instance (request : Request) (sid : Sid) :
    Decidable (request.RefreshOf sid) := by
  cases request with
  | refresh token recordPolls successorPolls =>
      exact inferInstanceAs (Decidable (token.sid = some sid))
  | _ => exact .isFalse id

/-- If the thread is a refresh of the session, it cannot succeed any more. -/
def Refused (sid : Sid) (dead : Prop)
    (thread : Thread Request Op Reply HttpError Answer) : Prop :=
  thread.request.RefreshOf sid →
    Ends sid dead (fun result => ∀ answer, result ≠ .ok answer)
      thread.program

theorem Refused.unanswered {sid : Sid} {dead : Prop}
    {thread : Thread Request Op Reply HttpError Answer}
    (refused : Refused sid dead thread)
    (own : thread.request.RefreshOf sid) :
    thread.program.answer? = none := by
  have ends := refused own
  cases same : thread.program with
  | done answer =>
      rw [same] at ends
      exact absurd rfl (ends answer)
  | fail error => rfl
  | call op next => rfl

/-- One event, when the replies to the later refreshes leave no way. -/
theorem step_refused {config : Config} {sid : Sid} {dead : Prop}
    {first : Nat} {pool next : Gateway} {event : GatewayEvent}
    (barred : ∀ index choice request op rest reply after, first ≤ index →
      event = .step index choice →
      pool.threads[index]? = some ⟨request, .call op rest⟩ →
      request.RefreshOf sid →
      exec config pool.shared op choice = some (reply, after) →
        Barred sid dead op reply)
    (later : Pool.Later first (Refused sid dead) pool)
    (taken : Pool.step (gateway config) pool event = some next) :
    Pool.Later first (Refused sid dead) next := by
  refine Pool.step_later ?_ ?_ ?_ later taken
  · intro request own
    cases request with
    | refresh token recordPolls successorPolls =>
        exact refresh_ends config recordPolls successorPolls own
    | _ => exact own.elim
  · exact fun _ _ _ same => nomatch same
  · intro index choice request op rest reply after recent same running
      executed refused own
    exact (refused own).2 reply (barred index choice request op rest reply
      after recent same running own executed)

end IndustryFlow.Sessions
