import IndustryFlow.Sessions.Logout

/-!
# Reuse of a rotated refresh token

The presentation that marks a rotated token as reused records its session as
ended for the lifetime of a refresh token and deletes the tokens of the
session.  When that has gone through, and no rotation of the session was under
way, the session stays ended for as long as any of its tokens would live.

The mark is a write of its own: a presentation after a marking that was cut
off is answered in the same words with nothing recorded.
-/

namespace IndustryFlow.Sessions

open Concurrent

/-- A presentation that marked a token of the session has ended the session,
and no refresh of it is under way. -/
structure Settled (sid : Sid) (pool : Gateway) : Prop where
  completed : ∃ thread ∈ pool.threads, thread.request.RefreshOf sid ∧
    thread.program.error? = some (.reused true)
  idle : ∀ thread ∈ pool.threads, thread.request.RefreshOf sid →
    thread.program.Finished

section Runs

variable {config : Config} {sid : Sid}

/-- The session was swept, and no later refresh of it succeeds. -/
structure Sealed (config : Config) (sid : Sid) (middle pool : Gateway) :
    Prop where
  steady : Steady config (· = sid) pool
  swept : Swept sid [] pool.shared
  grows : Grows (· = sid) middle.shared pool.shared
  later : Pool.Later middle.threads.length (Refused sid True) pool

/-- While a token of the session lives, the record of its end is there. -/
theorem Sealed.ended {middle pool : Gateway}
    (sealed : Sealed config sid middle pool) {issue : Issue}
    (member : issue ∈ pool.shared.issued)
    (own : issue.token.sid = some sid)
    (lives : pool.shared.now < issue.expires) :
    pool.shared.sessionWasEnded sid = true := by
  obtain ⟨expires, found, -, covers⟩ :=
    sealed.steady.holds.covered sid rfl sealed.swept.1
  have := covers issue member own
  simp only [Stores.sessionWasEnded, found, decide_eq_true_eq]
  omega

end Runs

end IndustryFlow.Sessions
