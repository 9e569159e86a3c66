import IndustryFlow.Sessions.Logout

/-!
# Rotation is single use

Any number of requests may present a refresh token at the same time.  One of
them claims it, only that one issues a token, and everybody who is answered
with a refresh token is answered with that one.

The record of a rotation is written by several requests, and a write can undo
another.  What nobody can do is to name a second successor: a request knows
the successor from the record or because it issued it.  So the proof first
shows that a run issues one successor for a token at most, and then follows
that one through the whole run.
-/

namespace IndustryFlow.Sessions

open Concurrent

/-- The request presents the token for a refresh. -/
def Request.Refreshes (request : Request) (token : Token) : Prop :=
  match request with
  | .refresh other _ _ => other = token
  | _ => False

instance (request : Request) (token : Token) :
    Decidable (request.Refreshes token) :=
  match request with
  | .refresh other _ _ => inferInstanceAs (Decidable (other = token))
  | .login _ _ | .jwtLogin _ _ | .logout _ _ | .destroyToken _ |
      .update _ _ | .endAll _ => .isFalse id

/-- The request at `index`, which presents the token, takes it out of the
store and finds it. -/
def ClaimedBy (token : Token) (index : Nat) (pool : Gateway) :
    GatewayEvent → Prop
  | .step at_ _ | .lose at_ _ => at_ = index ∧
      ∃ thread ∈ pool.threads[index]?, thread.request.Refreshes token ∧
        thread.program.next? = some (.getdel token) ∧
        ∃ value ∈ pool.shared.value? token, value ≠ .bare
  | _ => False

/-- The request at `index`, which presents the token, issues `created`. -/
def IssuedBy (config : Config) (token : Token) (index : Nat)
    (created : Token) (pool : Gateway) : GatewayEvent → Prop
  | .step at_ choice | .lose at_ choice => at_ = index ∧
      ∃ thread ∈ pool.threads[index]?, thread.request.Refreshes token ∧
        ∃ sid credential after,
          thread.program.next? = some (.createRefresh sid credential) ∧
          exec config pool.shared (.createRefresh sid credential) choice =
            some (created, after)
  | _ => False

/-- The token of the session was rotated at most once in the run. -/
structure SingleUse (config : Config) (start : Gateway)
    (events : List GatewayEvent) (token : Token) (sid : Sid)
    (final : Gateway) : Prop where
  claimed_once : ∀ first second,
    Sometime (Pool.step (gateway config)) (ClaimedBy token first) start
      events →
    Sometime (Pool.step (gateway config)) (ClaimedBy token second) start
      events → first = second
  issued_by_claimer : ∀ index created,
    Sometime (Pool.step (gateway config))
      (IssuedBy config token index created) start events →
    Sometime (Pool.step (gateway config)) (ClaimedBy token index) start
      events
  same_successor : ∀ first ∈ final.threads, ∀ second ∈ final.threads,
    first.request.Refreshes token → second.request.Refreshes token →
    ∀ access successor other next,
      first.program.answer? = some (.tokens access successor) →
      second.program.answer? = some (.tokens other next) →
        successor = next
  own_session : ∀ thread ∈ final.threads, thread.request.Refreshes token →
    ∀ access successor,
      thread.program.answer? = some (.tokens access successor) →
        successor.user = token.user ∧ successor.sid = some sid
  one_live : stock final.shared sid ≤ 1

section Claims

variable {config : Config} {token : Token}

/-- The right to issue the successor of the token, which its claim hands
out. -/
def succession (token : Token) : Rights Unit Op Reply where
  takes
    | .getdel other, some (.current _), _ => other = token
    | _, _, _ => False
  gives
    | .createRefresh _ _, _ => True
    | _, _ => False

theorem succession_issuing (token : Token) :
    Issuing (succession token) token where
  issues op right gives := by
    cases op with
    | createRefresh sid credential => exact ⟨sid, credential, rfl⟩
    | _ => exact gives.elim
  claimed _ _ _ _ _ _ := rfl
  started _ _ _ _ _ := .inl rfl

/-- The request at `owner` has claimed the token and may issue its successor;
without an owner nobody may. -/
structure Tracked (token : Token) (owner : Option Nat) (pool : Gateway) :
    Prop where
  affine : ∀ (index : Nat) (thread : Thread Request Op Reply HttpError Answer),
    pool.threads[index]? = some thread → thread.request.Refreshes token →
      thread.program.Affine (succession token) fun _ => owner = some index
  claimed : owner ≠ none → pool.shared.Revoked token

theorem start_tracked (token : Token) (stores : Stores) :
    Tracked token none (.start stores) where
  affine _ _ found := by cases found
  claimed never := absurd rfl never

theorem Tracked.issuer {owner : Option Nat} {pool : Gateway} {index : Nat}
    {created : Token} {event : GatewayEvent}
    (tracked : Tracked token owner pool)
    (issued : IssuedBy config token index created pool event) :
    owner = some index := by
  have held : ∃ thread ∈ pool.threads[index]?,
      thread.request.Refreshes token ∧ ∃ sid credential,
        thread.program.next? = some (.createRefresh sid credential) := by
    cases event with
    | step at_ choice =>
        obtain ⟨-, thread, found, presents, sid, credential, -, next, -⟩ :=
          issued
        exact ⟨thread, found, presents, sid, credential, next⟩
    | lose at_ choice =>
        obtain ⟨-, thread, found, presents, sid, credential, -, next, -⟩ :=
          issued
        exact ⟨thread, found, presents, sid, credential, next⟩
    | _ => exact issued.elim
  obtain ⟨⟨request, program⟩, found, presents, sid, credential, next⟩ := held
  cases program with
  | done answer => cases next
  | fail error => cases next
  | call op rest =>
      cases next
      exact (tracked.affine index _ found presents).1 () trivial

theorem Tracked.unclaimed {owner : Option Nat} {pool : Gateway}
    (tracked : Tracked token owner pool)
    (live : pool.shared.value? token ≠ none) : owner = none := by
  by_contra owned
  exact live (tracked.claimed owned).2

theorem Stores.Revoked.stays {strict : Sid → Prop} {before after : Stores}
    (revoked : before.Revoked token) (grows : Grows strict before after) :
    after.Revoked token := by
  obtain ⟨⟨issue, member, same⟩, absent⟩ := revoked
  exact ⟨⟨issue, grows.issued issue member, same⟩,
    grows.gone token ⟨⟨issue, member, same⟩, absent⟩⟩

/-- What takes the right is a claim. -/
private theorem takes_claim {op : Op} {reply : Reply op} {choice : Choice}
    {stores after : Stores}
    (executed : exec config stores op choice = some (reply, after))
    (takes : (succession token).takes op reply ()) :
    op = .getdel token ∧
      ∃ value ∈ stores.value? token, value ≠ .bare := by
  cases op with
  | getdel other =>
      cases choice <;> simp only [exec] at executed <;> try cases executed
      split at executed
      · rename_i value found
        cases executed
        cases value with
        | bare => exact takes.elim
        | current credential =>
            have same : other = token := takes
            subst same
            exact ⟨rfl, .current credential, found, by simp⟩
      · cases executed
        exact takes.elim
  | _ => exact takes.elim

/-- Who may issue the successor after a call by the request at `index`. -/
private theorem call_tracked {owner : Option Nat} {pool next : Gateway}
    {event : GatewayEvent} {index : Nat} {request : Request} {op : Op}
    {rest : Reply op → Handler Answer} {reply : Reply op} {choice : Choice}
    {after : Stores} {program : Handler Answer}
    (steady : Steady config (fun _ => False) pool)
    (tracked : Tracked token owner pool)
    (kept : pool.shared.Revoked token → next.shared.Revoked token)
    (running : pool.threads[index]? = some ⟨request, .call op rest⟩)
    (executed : exec config pool.shared op choice = some (reply, after))
    (changed : next = ⟨after, pool.threads.set index ⟨request, program⟩⟩)
    (affine : ∀ held : Unit → Prop,
      (rest reply).Affine (succession token) held →
        program.Affine (succession token) held)
    (called : event = .step index choice ∨ event = .lose index choice) :
    ∃ later, Tracked token later next ∧
      (∀ other, later = some other →
        owner = some other ∨ ClaimedBy token other pool event) ∧
      ∀ other created, IssuedBy config token other created pool event →
        later = none := by
  have issues {other : Nat} {created : Token}
      (issued : IssuedBy config token other created pool event) :
      request.Refreshes token ∧ (succession token).gives op () := by
    have held : other = index ∧ ∃ thread ∈ pool.threads[other]?,
        thread.request.Refreshes token ∧ ∃ sid credential,
          thread.program.next? = some (.createRefresh sid credential) := by
      rcases called with rfl | rfl
      · obtain ⟨same, thread, found, presents, sid, credential, -, next, -⟩ :=
          issued
        exact ⟨same.symm, thread, found, presents, sid, credential, next⟩
      · obtain ⟨same, thread, found, presents, sid, credential, -, next, -⟩ :=
          issued
        exact ⟨same.symm, thread, found, presents, sid, credential, next⟩
    obtain ⟨rfl, thread, found, presents, sid, credential, next⟩ := held
    rw [running] at found
    cases found
    cases next
    exact ⟨presents, trivial⟩
  have replaced {later : Option Nat}
      (own : request.Refreshes token →
        program.Affine (succession token) fun _ => later = some index)
      (others : ∀ other, other ≠ index → owner = some other →
        later = some other)
      (claimed : later ≠ none → next.shared.Revoked token) :
      Tracked token later next := by
    subst changed
    refine ⟨fun other thread found presents => ?_, claimed⟩
    rcases Pool.getElem?_set_cases found with ⟨rfl, rfl⟩ | ⟨different, before⟩
    · exact own presents
    · exact (tracked.affine other thread before presents).mono
        fun _ => others other (Ne.symm different)
  by_cases presents : request.Refreshes token
  · obtain ⟨needs, remains⟩ := tracked.affine index _ running presents
    have mine := affine _ (remains reply)
    by_cases gives : (succession token).gives op ()
    · have owned : owner = some index := needs () gives
      refine ⟨none, replaced (fun _ => mine.mono ?_) ?_ ?_, ?_, ?_⟩
      · rintro ⟨⟩ (⟨-, keeps⟩ | takes)
        · exact absurd gives keeps
        · have taken := (takes_claim executed takes).1
          subst taken
          exact gives.elim
      · intro other different same
        rw [owned] at same
        exact absurd (Option.some.inj same).symm different
      · exact fun never => absurd rfl never
      · exact fun _ never => nomatch never
      · exact fun _ _ _ => rfl
    · by_cases takes : (succession token).takes op reply ()
      · obtain ⟨same, value, found, current⟩ := takes_claim executed takes
        subst same
        have live : pool.shared.value? token ≠ none := by
          rw [found]
          exact Option.some_ne_none value
        have free := tracked.unclaimed live
        refine ⟨some index, replaced (fun _ => mine.mono ?_) ?_ ?_, ?_, ?_⟩
        · exact fun _ _ => rfl
        · intro other _ same
          rw [free] at same
          cases same
        · intro _
          have present : reply ≠ none := by
            intro none
            subst none
            exact takes
          rw [changed]
          exact (getdel_spec steady.holds executed).2 present
        · intro other same
          cases same
          refine .inr ?_
          rcases called with rfl | rfl
          · exact ⟨rfl, _, running, presents, rfl, value, found, current⟩
          · exact ⟨rfl, _, running, presents, rfl, value, found, current⟩
        · exact fun _ _ issued => absurd (issues issued).2 gives
      · refine ⟨owner, replaced (fun _ => mine.mono ?_) ?_ ?_, ?_, ?_⟩
        · rintro ⟨⟩ (⟨held, -⟩ | taken)
          · exact held
          · exact absurd taken takes
        · exact fun _ _ same => same
        · exact fun owned => kept (tracked.claimed owned)
        · exact fun _ same => .inl same
        · exact fun _ _ issued => absurd (issues issued).2 gives
  · refine ⟨owner, replaced ?_ ?_ ?_, ?_, ?_⟩
    · exact fun own => absurd own presents
    · exact fun _ _ same => same
    · exact fun owned => kept (tracked.claimed owned)
    · exact fun _ same => .inl same
    · exact fun _ _ issued => absurd (issues issued).1 presents

/-- Nobody comes to own the succession but by a claim, and who issues the
successor owns it no more. -/
theorem step_tracked {owner : Option Nat} {pool next : Gateway}
    {event : GatewayEvent} (steady : Steady config (fun _ => False) pool)
    (tracked : Tracked token owner pool)
    (taken : Pool.step (gateway config) pool event = some next) :
    ∃ later, Tracked token later next ∧
      (∀ index, later = some index →
        owner = some index ∨ ClaimedBy token index pool event) ∧
      ∀ index created, IssuedBy config token index created pool event →
        later = none := by
  have grows := (step_steady steady (fun _ => False.elim) taken).2
  have kept (revoked : pool.shared.Revoked token) :
      next.shared.Revoked token :=
    revoked.stays grows
  cases Pool.stepped taken with
  | spawn request =>
      refine ⟨owner, ⟨?_, ?_⟩, fun _ same => .inl same, ?_⟩
      · intro index thread found presents
        rcases Pool.getElem?_concat_cases found with before | ⟨-, rfl⟩
        · exact tracked.affine index thread before presents
        · cases request with
          | refresh other recordPolls successorPolls =>
              have same : other = token := presents
              subst same
              exact (refresh_affine config (succession_issuing other)
                recordPolls successorPolls).mono fun _ never => never.elim
          | _ => exact presents.elim
      · exact tracked.claimed
      · exact fun _ _ never => never.elim
  | @step index choice request op rest reply after running executed =>
      exact call_tracked steady tracked kept running executed rfl
        (fun _ => id) (.inl rfl)
  | @abort index request op rest running =>
      refine ⟨owner, ⟨?_, ?_⟩, fun _ same => .inl same, ?_⟩
      · intro other thread found presents
        rcases Pool.getElem?_set_cases found with ⟨-, rfl⟩ | ⟨-, before⟩
        · trivial
        · exact tracked.affine other thread before presents
      · exact tracked.claimed
      · exact fun _ _ never => never.elim
  | @lose index choice request op rest reply after running executed =>
      exact call_tracked steady tracked kept running executed rfl
        (fun _ _ => trivial) (.inr rfl)
  | environment changed =>
      exact ⟨owner, ⟨tracked.affine, fun owned =>
        kept (tracked.claimed owned)⟩, fun _ same => .inl same,
        fun _ _ never => never.elim⟩

/-! ## One claim, one successor -/

/-- A claim takes the token for good. -/
theorem claimed_revoked {pool next : Gateway} {event : GatewayEvent}
    {index : Nat} (steady : Steady config (fun _ => False) pool)
    (claimed : ClaimedBy token index pool event)
    (taken : Pool.step (gateway config) pool event = some next) :
    next.shared.Revoked token := by
  have called {request : Request} {op : Op} {rest : Reply op → Handler Answer}
      {reply : Reply op} {choice : Choice} {after : Stores}
      (running : pool.threads[index]? = some ⟨request, .call op rest⟩)
      (executed : exec config pool.shared op choice = some (reply, after))
      (takes : ∃ thread ∈ pool.threads[index]?,
        thread.request.Refreshes token ∧
          thread.program.next? = some (.getdel token) ∧
          ∃ value ∈ pool.shared.value? token, value ≠ .bare) :
      after.Revoked token := by
    obtain ⟨thread, found, -, next?, value, present, -⟩ := takes
    rw [running] at found
    cases found
    cases next?
    have there : reply ≠ none := by
      cases choice <;> simp only [exec, show
        pool.shared.value? token = some value from present] at executed <;>
        cases executed
      exact Option.some_ne_none value
    exact (getdel_spec steady.holds executed).2 there
  cases Pool.stepped taken with
  | step running executed =>
      obtain ⟨rfl, takes⟩ := claimed
      exact called running executed takes
  | lose running executed =>
      obtain ⟨rfl, takes⟩ := claimed
      exact called running executed takes
  | _ => exact claimed.elim

theorem ClaimedBy.live {pool : Gateway} {event : GatewayEvent} {index : Nat}
    (claimed : ClaimedBy token index pool event) :
    pool.shared.value? token ≠ none := by
  have present : ∃ value ∈ pool.shared.value? token, value ≠ .bare := by
    cases event with
    | step at_ choice =>
        obtain ⟨-, _, -, -, -, present⟩ := claimed
        exact present
    | lose at_ choice =>
        obtain ⟨-, _, -, -, -, present⟩ := claimed
        exact present
    | _ => exact claimed.elim
  obtain ⟨value, found, -⟩ := present
  rw [show pool.shared.value? token = some value from found]
  exact Option.some_ne_none value

theorem revoked_unclaimed {pool : Gateway} {index : Nat}
    (steady : Steady config (fun _ => False) pool)
    (revoked : pool.shared.Revoked token) (events : List GatewayEvent) :
    ¬Sometime (Pool.step (gateway config)) (ClaimedBy token index) pool
      events := by
  induction events generalizing pool with
  | nil => exact id
  | cons event events induction =>
      rintro (now | ⟨next, taken, later⟩)
      · exact now.live revoked.2
      · have ⟨kept, grows⟩ := step_steady steady (fun _ => False.elim) taken
        exact induction kept (revoked.stays grows) later

theorem claimed_once {pool : Gateway} {first second : Nat}
    {events : List GatewayEvent}
    (steady : Steady config (fun _ => False) pool)
    (one : Sometime (Pool.step (gateway config)) (ClaimedBy token first)
      pool events)
    (two : Sometime (Pool.step (gateway config)) (ClaimedBy token second)
      pool events) : first = second := by
  induction events generalizing pool with
  | nil => exact one.elim
  | cons event events induction =>
      rcases one with now | ⟨next, taken, later⟩
      · rcases two with same | ⟨next, taken, later⟩
        · cases event with
          | step at_ choice => exact now.1.symm.trans same.1
          | lose at_ choice => exact now.1.symm.trans same.1
          | _ => exact now.elim
        · have kept := (step_steady steady (fun _ => False.elim) taken).1
          exact absurd later (revoked_unclaimed kept
            (claimed_revoked steady now taken) events)
      · have kept := (step_steady steady (fun _ => False.elim) taken).1
        rcases two with now | ⟨other, same, after⟩
        · exact absurd later (revoked_unclaimed kept
            (claimed_revoked steady now taken) events)
        · rw [taken] at same
          cases same
          exact induction kept later after

/-- Only a request that has claimed the token issues its successor. -/
theorem issued_claimed {owner : Option Nat} {pool : Gateway} {index : Nat}
    {created : Token} {events : List GatewayEvent}
    (steady : Steady config (fun _ => False) pool)
    (tracked : Tracked token owner pool)
    (issued : Sometime (Pool.step (gateway config))
      (IssuedBy config token index created) pool events) :
    owner = some index ∨ Sometime (Pool.step (gateway config))
      (ClaimedBy token index) pool events := by
  induction events generalizing owner pool with
  | nil => exact issued.elim
  | cons event events induction =>
      rcases issued with now | ⟨next, taken, later⟩
      · exact .inl (tracked.issuer now)
      · have kept := (step_steady steady (fun _ => False.elim) taken).1
        obtain ⟨heir, still, origin, -⟩ := step_tracked steady tracked taken
        rcases induction kept still later with owned | claimed
        · rcases origin index owned with before | now
          · exact .inl before
          · exact .inr (.inl now)
        · exact .inr (.inr ⟨next, taken, claimed⟩)

/-- After the successor was issued, no second one is. -/
theorem issued_last {owner : Option Nat} {pool next : Gateway}
    {event : GatewayEvent} {index other : Nat} {created second : Token}
    {events : List GatewayEvent}
    (steady : Steady config (fun _ => False) pool)
    (tracked : Tracked token owner pool)
    (issued : IssuedBy config token index created pool event)
    (taken : Pool.step (gateway config) pool event = some next) :
    ¬Sometime (Pool.step (gateway config))
      (IssuedBy config token other second) next events := by
  intro again
  have ⟨kept, grows⟩ := step_steady steady (fun _ => False.elim) taken
  have owned := tracked.issuer issued
  have revoked : next.shared.Revoked token :=
    (tracked.claimed (by simp [owned])).stays grows
  obtain ⟨heir, still, -, spent⟩ := step_tracked steady tracked taken
  rcases issued_claimed kept still again with owns | claimed
  · rw [spent index created issued] at owns
    cases owns
  · exact revoked_unclaimed kept revoked events claimed

theorem IssuedBy.unique {pool : Gateway} {event : GatewayEvent}
    {first second : Nat} {created other : Token}
    (one : IssuedBy config token first created pool event)
    (two : IssuedBy config token second other pool event) :
    created = other := by
  have called {choice : Choice} {at_ : Nat}
      (one : at_ = first ∧ ∃ thread ∈ pool.threads[first]?,
        thread.request.Refreshes token ∧ ∃ sid credential after,
          thread.program.next? = some (.createRefresh sid credential) ∧
          exec config pool.shared (.createRefresh sid credential) choice =
            some (created, after))
      (two : at_ = second ∧ ∃ thread ∈ pool.threads[second]?,
        thread.request.Refreshes token ∧ ∃ sid credential after,
          thread.program.next? = some (.createRefresh sid credential) ∧
          exec config pool.shared (.createRefresh sid credential) choice =
            some (other, after)) : created = other := by
    obtain ⟨rfl, thread, found, -, sid, credential, after, next, made⟩ := one
    obtain ⟨rfl, thread', found', -, sid', credential', after', next',
      made'⟩ := two
    rw [Option.mem_def.mp found] at found'
    cases found'
    rw [next] at next'
    cases next'
    rw [made] at made'
    cases made'
    rfl
  cases event with
  | step at_ choice => exact called one two
  | lose at_ choice => exact called one two
  | _ => exact one.elim

/-- A run issues one successor for a token at most. -/
theorem issued_once {owner : Option Nat} {pool : Gateway}
    {first second : Nat} {created other : Token}
    {events : List GatewayEvent}
    (steady : Steady config (fun _ => False) pool)
    (tracked : Tracked token owner pool)
    (one : Sometime (Pool.step (gateway config))
      (IssuedBy config token first created) pool events)
    (two : Sometime (Pool.step (gateway config))
      (IssuedBy config token second other) pool events) :
    created = other := by
  induction events generalizing owner pool with
  | nil => exact one.elim
  | cons event events induction =>
      rcases one with now | ⟨next, taken, later⟩
      · rcases two with same | ⟨next, taken, later⟩
        · exact now.unique same
        · exact absurd later (issued_last steady tracked now taken)
      · rcases two with now | ⟨other, same, after⟩
        · exact absurd later (issued_last steady tracked now taken)
        · rw [taken] at same
          cases same
          have kept := (step_steady steady (fun _ => False.elim) taken).1
          obtain ⟨heir, still, -, -⟩ := step_tracked steady tracked taken
          exact induction kept still later after

/-- What the run issues for each token, foretold. -/
theorem foretold {pool : Gateway} (events : List GatewayEvent)
    (steady : Steady config (fun _ => False) pool)
    (tracked : ∀ token, Tracked token none pool) :
    ∃ into : Token → Option Token, Along (Pool.step (gateway config))
      (fun pool event => ∀ case : Token × Nat × Token,
        IssuedBy config case.1 case.2.1 case.2.2 pool event →
          into case.1 = some case.2.2) pool events := by
  have each (token : Token) : ∃ successor : Option Token, ∀ index created,
      Sometime (Pool.step (gateway config))
        (IssuedBy config token index created) pool events →
          successor = some created := by
    by_cases issues : ∃ index created,
        Sometime (Pool.step (gateway config))
          (IssuedBy config token index created) pool events
    · obtain ⟨first, successor, one⟩ := issues
      exact ⟨some successor, fun index created two =>
        congrArg some (issued_once steady (tracked token) one two)⟩
    · exact ⟨none, fun index created issued =>
        absurd ⟨index, created, issued⟩ issues⟩
  choose into known using each
  exact ⟨into, Along.of_sometime fun case => known case.1 case.2.1 case.2.2⟩

end Claims

/-! ## Every answer names that successor -/

/-- The run rotates `token` into `successor`, in the session of the token. -/
def Leads (into : Token → Option Token) (token successor : Token) : Prop :=
  into token = some successor ∧
    ∀ sid, token.sid = some sid → successor.sid = some sid

/-- A rotation record of the token names no other successor. -/
def Rotation.Follows (rotation : Rotation) (into : Token → Option Token)
    (token : Token) : Prop :=
  ∀ successor, rotation.successor = some successor →
    Leads into token successor

/-- What a refresh of `token` reads, and what it issues. -/
def Expected (into : Token → Option Token) (token : Token) :
    ∀ op, Reply op → Prop
  | .getRotated other, reply => ∀ rotation, reply = some rotation →
      rotation.Follows into other
  | .createRefresh own _, reply => into token = some reply ∧
      reply.sid = some own
  | _, _ => True

def Op.Follows (into : Token → Option Token) : Op → Prop
  | .setRotated token rotation => rotation.Follows into token
  | _ => True

section Follows

variable {into : Token → Option Token} {token : Token} {Answer : Type}

/-- Only records that name the successor are written. -/
abbrev Faithful (into : Token → Option Token) (token : Token)
    (post : Except HttpError Answer → Prop) (program : Handler Answer) :
    Prop :=
  program.Always (Expected into token) (Op.Follows into) post

theorem Plain.faithful {possible : ∀ op, Reply op → Prop}
    {program : Handler Answer} (plain : Plain program) :
    program.Always possible (Op.Follows into) (fun _ => True) := by
  refine plain.mono (fun _ _ _ => trivial) ?_ fun _ _ => trivial
  intro op calm
  cases op with
  | setRotated other rotation => exact absurd trivial (calm ())
  | _ => trivial

theorem Op.Quiet.follows {op : Op} (calm : op.Quiet) : op.Follows into := by
  cases op with
  | setRotated other rotation => exact calm.elim
  | _ => trivial

theorem faithful_call {possible : ∀ op, Reply op → Prop} {op : Op}
    {next : Reply op → Handler Answer}
    {post : Except HttpError Answer → Prop} (follows : op.Follows into)
    (rest : ∀ reply, possible op reply →
      (next reply).Always possible (Op.Follows into) post) :
    (Program.perform op >>= next).Always possible (Op.Follows into) post :=
  ⟨follows, rest⟩

theorem claimRefreshToken_faithful :
    Faithful into token (fun _ => True) (claimRefreshToken token) := by
  refine faithful_call trivial fun raw _ => ?_
  match raw with
  | none => trivial
  | some .bare => trivial
  | some (.current credential) =>
      refine faithful_call trivial fun _ _ => ?_
      refine faithful_call trivial fun time _ => ?_
      -- a new record names no successor yet
      exact faithful_call (fun _ never => nomatch never) fun _ _ => trivial

/-- What a replay hands out is the successor in the record. -/
theorem replay_faithful (config : Config)
    (recordPolls successorPolls : Nat) :
    Faithful into token (fun result => ∀ credential successor,
      result = .ok (.successor credential successor) →
        Leads into token successor)
      (replay config token recordPolls successorPolls) := by
  refine Program.Always.bind
    ((awaitRotation_always (·.Follows into token) (fun _ => id)
      recordPolls).mono (fun _ _ => id) (fun _ => Op.Quiet.follows)
        fun _ => And.right) ?_ fun _ _ _ _ never => nomatch never
  intro raw follows
  cases raw with
  | none => exact fun _ _ never => nomatch never
  | some rotation =>
      refine faithful_call trivial fun time _ => ?_
      split
      · split
        · exact fun _ _ never => nomatch never
        · -- marking the token keeps the successor that was read
          refine faithful_call (follows _ rfl rotation rfl) fun _ _ => ?_
          refine Program.Always.bind
            (endReusedSession_plain config token).faithful ?_
            fun _ _ _ _ never => nomatch never
          exact fun _ _ _ _ never => nomatch never
      · refine Program.Always.bind
          ((awaitSuccessor_always (·.Follows into token) (fun _ => id)
            successorPolls (follows _ rfl rotation rfl)).mono
              (fun _ _ => id) (fun _ => Op.Quiet.follows)
              fun _ => And.right) ?_ fun _ _ _ _ never => nomatch never
        intro latest known
        cases found : latest.successor with
        | none => exact fun _ _ never => nomatch never
        | some successor =>
            refine faithful_call trivial fun live _ => ?_
            cases live with
            | none => exact fun _ _ never => nomatch never
            | some value =>
                intro credential other same
                cases same
                exact known latest rfl successor found

theorem rotateInto_faithful (config : Config) {sid : Sid} {row : Row}
    {successor : Option Token}
    (own : ∀ other, token.sid = some other → sid = other)
    (known : ∀ next, successor = some next → Leads into token next) :
    Faithful into token
      (fun result => ∀ next, result = .ok next → Leads into token next)
      (rotateInto config token sid row successor) := by
  cases successor with
  | some successor =>
      intro next same
      cases same
      exact known successor rfl
  | none =>
      refine faithful_call trivial fun created ⟨issued, mine⟩ => ?_
      have leads : Leads into token created := by
        refine ⟨issued, fun other session => ?_⟩
        rw [mine, own other session]
      have ended : ∀ next, (.ok created : Except HttpError Token) = .ok next →
          Leads into token next := by
        intro next same
        cases same
        exact leads
      refine faithful_call trivial fun raw follows => ?_
      cases raw with
      | none => exact ended
      | some rotation =>
          refine faithful_call ?_ fun _ _ => ended
          intro next same
          cases same
          exact leads

/-- Who is answered gets the one successor. -/
theorem continueRefresh_faithful (config : Config) (credential : String)
    {successor : Option Token}
    (known : ∀ next, successor = some next → Leads into token next) :
    Faithful into token (fun result => ∀ access next,
      result = .ok (.tokens access next) → Leads into token next)
      (continueRefresh config token credential successor) := by
  have failed {error : HttpError} : ∀ access next,
      (.error error : Except HttpError Sessions.Answer) =
        .ok (.tokens access next) → Leads into token next :=
    fun _ _ never => nomatch never
  have refused (error : HttpError) : Faithful into token
      (fun result => ∀ access next, result = .ok (.tokens access next) →
        Leads into token next) (do
          endAllSessions config token.user 0
          (.fail error : Handler Sessions.Answer)) :=
    Program.Always.bind (endAllSessions_plain config token.user 0).faithful
      (fun _ _ => failed) fun _ _ => failed
  refine faithful_call trivial fun found _ => ?_
  cases found with
  | none => exact failed
  | some row =>
      dsimp only
      split
      · exact failed
      · split
        · exact refused _
        · refine Program.Always.bind
            (companyAdmits_quiet row.company).plain.faithful ?_
            fun _ _ => failed
          intro active _
          split
          · exact refused _
          · have rest {sid : Sid}
                (own : ∀ other, token.sid = some other → sid = other) :
                Faithful into token (fun result => ∀ access next,
                  result = .ok (Sessions.Answer.tokens access next) →
                    Leads into token next) (do
                  let refresh ← rotateInto config token sid row successor
                  let access ← writeToken token.user row sid
                  pure (Sessions.Answer.tokens access refresh)) := by
              refine Program.Always.bind
                (rotateInto_faithful config own known) ?_ fun _ _ => failed
              intro refresh leads
              refine Program.Always.bind
                (writeToken_quiet token.user row sid).plain.faithful ?_
                fun _ _ => failed
              intro access _ other next same
              cases same
              exact leads refresh rfl
            unfold continuedSession
            cases session : token.sid with
            | some sid =>
                refine rest fun other same => ?_
                rw [session] at same
                exact Option.some.inj same
            | none =>
                refine faithful_call trivial fun sid _ => rest ?_
                intro other same
                rw [session] at same
                cases same

theorem refresh_faithful (config : Config)
    (recordPolls successorPolls : Nat) :
    Faithful into token (fun result => ∀ access next,
      result = .ok (.tokens access next) → Leads into token next)
      (refresh config token recordPolls successorPolls) := by
  have failed {error : HttpError} : ∀ access next,
      (.error error : Except HttpError Sessions.Answer) =
        .ok (.tokens access next) → Leads into token next :=
    fun _ _ never => nomatch never
  refine Program.Always.bind claimRefreshToken_faithful ?_ fun _ _ => failed
  intro claim _
  cases claim with
  | some credential =>
      refine Program.Always.bind (checkSession_quiet token).plain.faithful ?_
        fun _ _ => failed
      exact fun _ _ => continueRefresh_faithful config credential
        fun _ never => nomatch never
  | none =>
      refine Program.Always.bind
        (replay_faithful config recordPolls successorPolls) ?_
        fun _ _ => failed
      intro replayed known
      cases replayed with
      | unknown => exact failed
      | successor credential successor =>
          refine continueRefresh_faithful config credential ?_
          intro next same
          cases same
          exact known credential successor rfl
      | reused first =>
          cases first with
          | false => exact failed
          | true => exact faithful_call trivial fun _ _ => failed

/-- A request that presents no token writes no rotation record. -/
theorem handle_faithful (config : Config) (request : Request)
    (none : ∀ token, ¬request.Refreshes token) :
    (handle config request).Always (fun _ _ => True) (Op.Follows into)
      (fun _ => True) := by
  cases request with
  | login user hashedPassword =>
      refine Program.Always.bind
        (signIn_quiet user hashedPassword).plain.faithful
        (fun row _ => ?_) fun _ _ => trivial
      refine faithful_call trivial fun sid _ => ?_
      refine Program.Always.bind
        (writeToken_quiet user row sid).plain.faithful
        (fun access _ => ?_) fun _ _ => trivial
      exact faithful_call trivial fun _ _ => trivial
  | refresh other recordPolls successorPolls => exact absurd rfl (none other)
  | _ => exact (handle_plain config _ (by simp) (by simp)).faithful

end Follows

section Runs

variable {config : Config} {into : Token → Option Token}

/-- The request writes records that follow the run, and its answer does. -/
def FollowsRun (into : Token → Option Token)
    (thread : Thread Request Op Reply HttpError Answer) : Prop :=
  (∀ token, thread.request.Refreshes token →
    Faithful into token (fun result => ∀ access next,
      result = .ok (.tokens access next) → Leads into token next)
      thread.program) ∧
  ((∀ token, ¬thread.request.Refreshes token) →
    thread.program.Always (fun _ _ => True) (Op.Follows into)
      (fun _ => True))

theorem FollowsRun.next {request : Request} {op : Op}
    {rest : Reply op → Handler Answer}
    (follows : FollowsRun into ⟨request, .call op rest⟩) :
    op.Follows into := by
  by_cases presents : ∃ token, request.Refreshes token
  · obtain ⟨token, own⟩ := presents
    exact (follows.1 token own).1
  · exact (follows.2 fun token own => presents ⟨token, own⟩).1

def RecordsFollow (into : Token → Option Token) (stores : Stores) : Prop :=
  ∀ token rotation expires,
    stores.rotated token = some (rotation, expires) →
      rotation.Follows into token

theorem exec_recorded {stores after : Stores} {op : Op} {choice : Choice}
    {reply : Reply op} (recorded : RecordsFollow into stores)
    (follows : op.Follows into)
    (executed : exec config stores op choice = some (reply, after)) :
    RecordsFollow into after := by
  cases op with
  | setRotated token rotation =>
      cases choice <;> simp only [exec] at executed <;> try cases executed
      intro other found expires present
      simp only [Stores.rotate, Function.update_apply] at present
      split at present
      · rename_i same
        cases present
        exact same ▸ follows
      · exact recorded other found expires present
  | _ =>
      have same : after.rotated = stores.rotated := by
        cases choice <;> simp only [exec] at executed <;>
          (try split at executed) <;> cases executed <;> rfl
      intro token rotation expires present
      rw [same] at present
      exact recorded token rotation expires present

theorem exec_expected {stores after : Stores} {op : Op} {choice : Choice}
    {reply : Reply op} {token : Token} (recorded : RecordsFollow into stores)
    (executed : exec config stores op choice = some (reply, after))
    (issues : ∀ sid credential created,
      op = .createRefresh sid credential →
      exec config stores (.createRefresh sid credential) choice =
        some (created, after) → into token = some created) :
    Expected into token op reply := by
  cases op with
  | createRefresh own credential =>
      refine ⟨issues own credential reply rfl executed, ?_⟩
      cases choice <;> simp only [exec] at executed <;> try cases executed
      split at executed <;> cases executed
      rfl
  | getRotated other =>
      cases choice <;> simp only [exec] at executed <;> cases executed
      intro rotation found
      simp only [Stores.rotation?] at found
      split at found
      · rename_i present
        split at found
        · cases found
          exact recorded other rotation _ present
        · cases found
      · cases found
  | _ => trivial

/-- The records and the requests follow the run. -/
structure Followed (into : Token → Option Token) (pool : Gateway) :
    Prop where
  recorded : RecordsFollow into pool.shared
  threads : Pool.Later 0 (FollowsRun into) pool

theorem start_followed (into : Token → Option Token)
    (users : Uid → Option Row) (companies : Company → Bool)
    (legacy : List Legacy) :
    Followed into (.start (Stores.initial users companies legacy)) where
  recorded _ _ _ never := nomatch never
  threads _ _ _ never := nomatch never

theorem step_followed {pool next : Gateway} {event : GatewayEvent}
    (followed : Followed into pool)
    (issues : ∀ case : Token × Nat × Token,
      IssuedBy config case.1 case.2.1 case.2.2 pool event →
        into case.1 = some case.2.2)
    (taken : Pool.step (gateway config) pool event = some next) :
    Followed into next := by
  constructor
  · have called {index : Nat} {request : Request} {op : Op}
        {rest : Reply op → Handler Answer} {reply : Reply op}
        {choice : Choice} {after : Stores}
        (running : pool.threads[index]? = some ⟨request, .call op rest⟩)
        (executed : exec config pool.shared op choice = some (reply, after)) :
        RecordsFollow into after :=
      exec_recorded followed.recorded
        (followed.threads index _ (Nat.zero_le _) running).next executed
    cases Pool.stepped taken with
    | spawn request => exact followed.recorded
    | step running executed => exact called running executed
    | abort running => exact followed.recorded
    | lose running executed => exact called running executed
    | @environment event after changed =>
        cases event <;> cases changed <;> exact followed.recorded
  · refine Pool.step_later ?_ ?_ ?_ followed.threads taken
    · intro request
      constructor
      · intro token presents
        cases request with
        | refresh other recordPolls successorPolls =>
            have same : other = token := presents
            subst same
            exact refresh_faithful config recordPolls successorPolls
        | _ => exact presents.elim
      · exact handle_faithful config request
    · intro request
      constructor
      · exact fun _ _ _ _ never => nomatch never
      · exact fun _ => trivial
    · intro index choice request op rest reply after _ stepped running
        executed follows
      constructor
      · intro token presents
        refine (follows.1 token presents).2 reply ?_
        refine exec_expected followed.recorded executed ?_
        intro sid credential created same made
        subst same
        refine issues (token, index, created) ?_
        rw [stepped]
        exact ⟨rfl, _, running, presents, sid, credential, after, rfl, made⟩
      · intro none
        exact (follows.2 none).2 reply trivial

/-- Every answer to the token is with the successor the run issued for it. -/
theorem Followed.answered {pool : Gateway} (followed : Followed into pool)
    {thread : Thread Request Op Reply HttpError Answer} {token : Token}
    (member : thread ∈ pool.threads)
    (presents : thread.request.Refreshes token) {access : AccessToken}
    {successor : Token}
    (answer : thread.program.answer? = some (.tokens access successor)) :
    Leads into token successor := by
  obtain ⟨index, found⟩ := List.getElem?_of_mem member
  have follows := (followed.threads index thread (Nat.zero_le _) found).1
    token presents
  rw [Program.answer?_eq_some answer] at follows
  exact follows access successor rfl

/-- A refresh token of a session is rotated once, whatever the requests do
beside each other: one request claims it at most, only that one issues a
token, all that are answered with tokens get the same successor, in the
session of the token, and one token of the session lives at most. -/
theorem refresh_single_use (config : Config) (users : Uid → Option Row)
    (companies : Company → Bool) (legacy : List Legacy)
    {events : List GatewayEvent} {final : Gateway} {token : Token}
    {sid : Sid} (own : token.sid = some sid)
    (ran : run (Pool.step (gateway config))
      (.start (Stores.initial users companies legacy)) events =
        some final) :
    SingleUse config (.start (Stores.initial users companies legacy)) events
      token sid final := by
  have steady : Steady config (fun _ => False)
      (Pool.start (Stores.initial users companies legacy)) :=
    start_steady users companies legacy
  have tracked (token : Token) : Tracked token none
      (Pool.start (Stores.initial users companies legacy)) :=
    start_tracked token _
  obtain ⟨into, along⟩ := foretold events steady tracked
  have followed : Followed into final :=
    run_preserves_along (Followed into)
      (fun _ _ _ => step_followed)
      (start_followed into users companies legacy) along ran
  constructor
  · exact fun first second => claimed_once steady
  · intro index created issued
    rcases issued_claimed steady (tracked token) issued with never | claimed
    · cases never
    · exact claimed
  · intro first member second other presents again access successor
      access' next answer answer'
    have leads := followed.answered member presents answer
    have same := followed.answered other again answer'
    exact Option.some.inj (leads.1.symm.trans same.1)
  · intro thread member presents access successor answer
    have mine := (followed.answered member presents answer).2 sid own
    refine ⟨?_, mine⟩
    obtain ⟨_, -, left⟩ := Option.map_eq_some_iff.mp own
    obtain ⟨_, -, right⟩ := Option.map_eq_some_iff.mp mine
    exact congrArg Sid.user (right.trans left.symm)
  · obtain ⟨held, exclusive⟩ := run_preserves Exclusive
      (fun _ _ _ => Pool.step_linear (gateway_conserves config)
        (handle_affine config))
      (start_exclusive users companies legacy) ran
    exact exclusive.stock_le sid

end Runs

/-- The token of the session is presented twice at the same time; the second
request finds it claimed and waits for the successor. -/
def presentsTwice : List GatewayEvent :=
  signsIn ++ ([.spawn (.refresh sessionToken 0 0),
    .spawn (.refresh sessionToken 0 1), .step 1 .plain, .step 2 .plain,
    .step 1 .plain, .step 1 .plain, .step 1 .plain, .step 2 .plain,
    .step 2 .plain, .step 1 .plain, .step 1 .plain, .step 1 (.fresh 1),
    .step 1 .plain, .step 1 .plain, .step 2 .plain, .step 2 .plain,
    .step 2 .plain, .step 1 .plain, .step 2 .plain, .step 1 .plain,
    .step 2 .plain] : List GatewayEvent)

/-- Both requests are answered with the one successor. -/
theorem refresh_single_use_twice : ∃ final,
    run (Pool.step (gateway shortLived))
      (.start (Stores.initial member (fun _ => true) [])) presentsTwice =
        some final ∧
    (∀ thread ∈ final.threads, thread.request.Refreshes sessionToken →
      thread.program.answer? ≠ none) ∧
    SingleUse shortLived (.start (Stores.initial member (fun _ => true) []))
      presentsTwice sessionToken session final := by
  have ran : ((run (Pool.step (gateway shortLived))
      (.start (Stores.initial member (fun _ => true) []))
      presentsTwice).any fun final => decide (∀ thread ∈ final.threads,
        thread.request.Refreshes sessionToken →
          thread.program.answer? ≠ none)) = true := by
    decide +kernel
  obtain ⟨final, reached, answered⟩ := (Option.any_eq_true _ _).mp ran
  exact ⟨final, reached, of_decide_eq_true answered,
    refresh_single_use shortLived member (fun _ => true) [] rfl reached⟩

end IndustryFlow.Sessions
