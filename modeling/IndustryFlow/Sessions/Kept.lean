import IndustryFlow.Sessions.Consistency

/-!
# Every request keeps the stores consistent

Each function of the refresh-token store and each handler, beside any others,
with what its answer says about the stores: the reuse of a token leaves no
live token of its session, and an update that ends sessions has recorded it.
-/

namespace IndustryFlow.Sessions

open Concurrent

/-- The terms on which the requests share the stores. -/
def contract (config : Config) (strict : Sid → Prop) :
    Contract Stores Op Choice where
  invariant := Consistent config strict
  allowed stores op _ := ∀ sid, strict sid → Permitted config sid stores op
  rely := Grows strict
  guarantee := Grows strict
  rely_refl := Grows.refl strict
  rely_trans := Grows.trans

/-- Neither writes an index or a rotation record nor issues a token. -/
def Op.Quiet : Op → Prop
  | .srem _ _ => False
  | .setRotated _ _ => False
  | .createRefresh _ _ => False
  | _ => True

/-- A rotation record names a successor of the same session. -/
def Honest : ∀ op, Reply op → Prop
  | .getRotated token, reply => ∀ rotation, reply = some rotation →
      rotation.Continues token
  | _, _ => True

/-- Not the answer that a token was reused. -/
def Unmarked {Answer : Type} (result : Except HttpError Answer) : Prop :=
  result ≠ .error (.reused true)

/-- Only quiet calls, and no reuse found. -/
abbrev Quiet {Answer : Type} (program : Handler Answer) : Prop :=
  program.Always (fun _ _ => True) Op.Quiet Unmarked

theorem unmarked_ok {Answer : Type} (answer : Answer) :
    Unmarked (.ok answer : Except HttpError Answer) := by
  intro same
  cases same

theorem Unmarked.error {Answer : Type} {error : HttpError}
    (unmarked : Unmarked (.error error : Except HttpError Answer))
    (Result : Type) :
    Unmarked (.error error : Except HttpError Result) := by
  intro same
  cases same
  exact unmarked rfl

theorem Quiet.bind {Answer Result : Type} {program : Handler Answer}
    {continuation : Answer → Handler Result} (first : Quiet program)
    (rest : ∀ answer, Quiet (continuation answer)) :
    Quiet (program >>= continuation) :=
  Program.Always.bind first (fun answer _ => rest answer)
    fun _ unmarked => unmarked.error Result

theorem Quiet.call {Answer : Type} {op : Op}
    {next : Reply op → Handler Answer} (calm : op.Quiet)
    (rest : ∀ reply, Quiet (next reply)) :
    Quiet (Program.perform op >>= next) :=
  ⟨calm, fun reply _ => rest reply⟩

theorem Quiet.done {Answer : Type} (answer : Answer) :
    Quiet (.done answer) :=
  unmarked_ok answer

theorem Quiet.perform {op : Op} (calm : op.Quiet) :
    Quiet (Program.perform op) :=
  ⟨calm, fun reply _ => Quiet.done reply⟩

theorem waitOutAnEnd_quiet (user : Uid) : Quiet (waitOutAnEnd user) := by
  refine Quiet.call trivial fun raw => ?_
  match raw with
  | none => exact .done ()
  | some none => exact .done ()
  | some (some ended) =>
      refine Quiet.call trivial fun started => ?_
      split
      · exact Quiet.perform trivial
      · exact .done ()

theorem writeToken_quiet (user : Uid) (row : Row) (sid : Sid) :
    Quiet (writeToken user row sid) :=
  (waitOutAnEnd_quiet user).bind fun _ =>
    Quiet.perform trivial

theorem companyAdmits_quiet (company : Option Company) :
    Quiet (companyAdmits company) := by
  cases company with
  | none => exact .done true
  | some company => exact Quiet.perform trivial

theorem authenticate_quiet (user : Uid) (hashedPassword : String) :
    Quiet (authenticate user hashedPassword) := by
  refine Quiet.call trivial fun found => ?_
  cases found with
  | none => exact .done none
  | some row =>
      dsimp only
      split
      · exact .done none
      · split
        · exact .done (some row)
        · refine (companyAdmits_quiet row.company).bind fun active => ?_
          split
          · exact .done (some row)
          · exact .done none

theorem signIn_quiet (user : Uid) (hashedPassword : String) :
    Quiet (signIn user hashedPassword) := by
  refine (authenticate_quiet user hashedPassword).bind fun admitted => ?_
  cases admitted with
  | none => exact fun same => nomatch same
  | some row =>
      dsimp only
      split
      · exact .done row
      · exact fun same => nomatch same

theorem jwtLogin_quiet (user : Uid) (hashedPassword : String) :
    Quiet (jwtLogin user hashedPassword) :=
  (signIn_quiet user hashedPassword).bind fun row =>
    Quiet.call trivial fun sid =>
      (writeToken_quiet user row sid).bind fun access =>
        .done (Answer.access access)

theorem checkSession_quiet (token : Token) : Quiet (checkSession token) := by
  unfold checkSession
  split
  · exact .done ()
  · refine Quiet.call trivial fun raw => ?_
    match raw with
    | none => exact fun same => nomatch same
    | some true => exact fun same => nomatch same
    | some false => exact .done ()

theorem endSession_quiet (config : Config) (sid : Option Sid) :
    Quiet (endSession config sid) := by
  cases sid with
  | none => exact .done ()
  | some sid => exact Quiet.perform trivial

theorem destroyToken_quiet (config : Config) (claims : Claims) :
    Quiet (destroyToken config claims) :=
  (endSession_quiet config claims.sid).bind fun _ =>
    Quiet.call trivial fun _ => .done Answer.loggedOut

/-- The live tokens of a session that was recorded as ended are among
`tokens`. -/
def Swept (sid : Sid) (tokens : List Token) (stores : Stores) : Prop :=
  sid ∈ stores.sealed ∧ ∀ token, token.sid = some sid →
    stores.value? token ≠ none → token ∈ tokens

theorem Swept.stable {config : Config} {strict : Sid → Prop} {sid : Sid}
    {tokens : List Token} {before after : Stores}
    (swept : Swept sid tokens before)
    (consistent : Consistent config strict after)
    (grows : Grows strict before after) (holds : strict sid) :
    Swept sid tokens after := by
  refine ⟨grows.sealed sid swept.1, fun token own live => ?_⟩
  obtain ⟨value, found⟩ := Option.ne_none_iff_exists'.mp live
  obtain ⟨entry, member, rfl, -, -⟩ := Stores.value?_eq_some found
  have issued := grows.frozen sid holds swept.1 _
    (consistent.stored_issued entry member) own
  exact swept.2 entry.token own fun absent =>
    live (grows.gone entry.token ⟨⟨_, issued, rfl⟩, absent⟩)

/-- What is known of every record read is known of the one returned. -/
theorem awaitRotation_always {possible : ∀ op, Reply op → Prop}
    {token : Token} (good : Rotation → Prop)
    (replies : ∀ reply, possible (.getRotated token) reply →
      ∀ rotation, reply = some rotation → good rotation) (polls : Nat) :
    (awaitRotation token polls).Always possible Op.Quiet fun result =>
      Unmarked result ∧ ∀ raw, result = .ok raw →
        ∀ rotation, raw = some rotation → good rotation := by
  induction polls with
  | zero =>
      refine ⟨trivial, fun reply admitted => ⟨unmarked_ok reply, ?_⟩⟩
      intro raw same
      cases same
      exact replies reply admitted
  | succ polls induction =>
      refine ⟨trivial, fun reply admitted => ?_⟩
      cases reply with
      | none => exact induction
      | some rotation =>
          refine ⟨unmarked_ok (some rotation), fun raw same => ?_⟩
          cases same
          exact replies _ admitted

theorem awaitSuccessor_always {possible : ∀ op, Reply op → Prop}
    {token : Token} (good : Rotation → Prop)
    (replies : ∀ reply, possible (.getRotated token) reply →
      ∀ rotation, reply = some rotation → good rotation) (polls : Nat)
    {rotation : Rotation} (known : good rotation) :
    (awaitSuccessor token rotation polls).Always possible Op.Quiet
      fun result => Unmarked result ∧
        ∀ latest, result = .ok latest → good latest := by
  have given {latest : Rotation} (same : good latest) :
      Unmarked (.ok latest : Except HttpError Rotation) ∧
        ∀ other, (.ok latest : Except HttpError Rotation) = .ok other →
          good other := by
    refine ⟨unmarked_ok latest, fun other equal => ?_⟩
    cases equal
    exact same
  induction polls generalizing rotation with
  | zero => exact given known
  | succ polls induction =>
      unfold awaitSuccessor
      split
      · exact given known
      · refine ⟨trivial, fun raw admitted => ?_⟩
        apply induction
        cases raw with
        | none => exact known
        | some found => exact replies _ admitted found rfl

section Safe

variable {config : Config} {strict : Sid → Prop} {Answer Result : Type}

abbrev Served (config : Config) (strict : Sid → Prop)
    (post : Except HttpError Answer → Stores → Prop)
    (program : Handler Answer) (stores : Stores) : Prop :=
  program.Safe (exec config) (contract config strict) post stores

/-- One call, in any state the others may leave. -/
theorem served_call {op : Op} {next : Reply op → Handler Answer}
    {post : Except HttpError Answer → Stores → Prop} {stores : Stores}
    (sound : ∀ later, Grows strict stores later → Sound later op)
    (rest : ∀ later choice reply after, Consistent config strict later →
      Grows strict stores later →
      exec config later op choice = some (reply, after) →
      Consistent config strict after → Grows strict later after →
        Served config strict post (next reply) after) :
    Served config strict post (Program.perform op >>= next) stores := by
  intro later consistent grows choice reply after permitted executed
  have ⟨kept, grown⟩ :=
    exec_keeps consistent permitted (sound later grows) executed
  exact ⟨kept, grown,
    rest later choice reply after consistent grows executed kept grown⟩

theorem exec_honest {stores after : Stores} {op : Op} {choice : Choice}
    {reply : Reply op} (consistent : Consistent config strict stores)
    (executed : exec config stores op choice = some (reply, after)) :
    Honest op reply := by
  cases op with
  | getRotated token =>
      cases choice <;> simp only [exec] at executed <;> cases executed
      intro rotation found
      simp only [Stores.rotation?] at found
      split at found
      · rename_i present
        split at found
        · cases found
          exact consistent.continued token rotation _ present
        · cases found
      · cases found
  | _ => trivial

theorem always_served {program : Handler Answer}
    {post : Except HttpError Answer → Prop}
    (always : program.Always Honest Op.Quiet post) (stores : Stores) :
    Served config strict (fun result _ => post result) program stores := by
  refine Program.Always.safe always ?_ stores
  intro op calm shared choice reply after consistent permitted executed
  have sound : Sound shared op := by
    cases op <;> trivial
  have ⟨kept, grown⟩ := exec_keeps consistent permitted sound executed
  exact ⟨kept, grown, exec_honest consistent executed⟩

theorem Quiet.served {program : Handler Answer} (quiet : Quiet program)
    (stores : Stores) :
    Served config strict (fun result _ => Unmarked result) program stores :=
  always_served (quiet.mono (fun _ _ _ => trivial) (fun _ => id)
    fun _ => id) stores

/-- The last call of a function without a result to speak of. -/
theorem served_last {op : Op} {stores : Stores}
    (sound : ∀ later, Grows strict stores later → Sound later op) :
    Served config strict (fun result _ => Unmarked result)
      (Program.perform op : Handler (Reply op)) stores :=
  served_call sound fun _ _ reply after _ _ _ _ _ =>
    (Quiet.done reply).served after

/-- A part that finds no reuse, and then the rest. -/
theorem served_bind {program : Handler Answer}
    {continuation : Answer → Handler Result}
    {middle : Answer → Stores → Prop}
    {post : Except HttpError Result → Stores → Prop} {stores : Stores}
    (consistent : Consistent config strict stores)
    (first : Served config strict (fun result later => Unmarked result ∧
      ∀ answer, result = .ok answer → middle answer later) program stores)
    (answered : ∀ answer later, Consistent config strict later →
      middle answer later →
        Served config strict post (continuation answer) later)
    (failed : ∀ error later,
      Unmarked (.error error : Except HttpError Result) →
        post (.error error) later) :
    Served config strict post (program >>= continuation) stores := by
  refine Program.Safe.bind consistent first ?_ ?_
  · exact fun answer later kept ⟨_, holds⟩ =>
      answered answer later kept (holds answer rfl)
  · exact fun error later ⟨unmarked, _⟩ =>
      failed error later (unmarked.error Result)

theorem getdel_spec {stores after : Stores} {token : Token}
    {choice : Choice} {reply : Option Value}
    (consistent : Consistent config strict stores)
    (executed : exec config stores (.getdel token) choice =
      some (reply, after)) :
    after.value? token = none ∧
      (reply ≠ none → after.Revoked token) := by
  cases choice <;> simp only [exec] at executed <;> try cases executed
  split at executed
  · rename_i value found
    cases executed
    obtain ⟨entry, member, rfl, -, -⟩ := Stores.value?_eq_some found
    have absent : (stores.delete entry.token).value? entry.token = none := by
      rw [Stores.value?_eq_none]
      intro other kept same
      have different := List.of_mem_filter kept
      simp [same] at different
    exact ⟨absent, fun _ =>
      ⟨⟨_, consistent.stored_issued entry member, rfl⟩, absent⟩⟩
  · rename_i absent
    cases executed
    exact ⟨absent, fun present => absurd rfl present⟩

/-- A revoked token leaves the index. -/
theorem srem_sound {user : Uid} {token : Token} {stores later : Stores}
    (revoked : stores.Revoked token) (grows : Grows strict stores later) :
    Sound later (.srem user [token]) := by
  intro removed member
  cases List.mem_singleton.mp member
  exact grows.gone token revoked

theorem claimRefreshToken_served (token : Token) (stores : Stores) :
    Served config strict (fun result _ => Unmarked result)
      (claimRefreshToken token) stores := by
  refine served_call (fun _ _ => trivial) ?_
  intro later choice reply after consistent _ executed _ _
  have revoked := (getdel_spec consistent executed).2
  match reply with
  | none => exact (Quiet.done none).served after
  | some .bare => exact (Quiet.done none).served after
  | some (.current credential) =>
      refine served_call (fun _ => srem_sound (revoked (by simp)))
        fun _ _ _ _ _ _ _ _ _ => ?_
      refine served_call (fun _ _ => trivial) fun _ _ time _ _ _ _ _ _ => ?_
      refine served_call (fun _ _ _ _ _ never => nomatch never) ?_
      exact fun _ _ _ last _ _ _ _ _ =>
        (Quiet.done (some credential)).served last

theorem recordSuccessor_served {token successor : Token} {stores : Stores}
    (continues : ∀ sid, token.sid = some sid → successor.sid = some sid) :
    Served config strict (fun result _ => Unmarked result)
      (recordSuccessor token successor) stores := by
  refine served_call (fun _ _ => trivial) ?_
  intro _ _ reply after _ _ _ _ _
  cases reply with
  | none => exact (Quiet.done ()).served after
  | some rotation =>
      refine served_last fun _ _ => ?_
      intro sid found own same
      cases same
      exact continues sid own

theorem sweep_served {user : Uid} {sid : Sid} {tokens : List Token}
    {stores : Stores} (issued : ∀ token ∈ tokens, stores.Issued token)
    (swept : strict sid → Swept sid tokens stores) :
    Served config strict (fun result later => Unmarked result ∧
      (strict sid → Swept sid [] later)) (sweep user sid tokens) stores := by
  induction tokens generalizing stores with
  | nil =>
      exact fun later consistent grows => ⟨unmarked_ok (), fun holds =>
        (swept holds).stable consistent grows holds⟩
  | cons token tokens induction =>
      have tail {later : Stores} (grows : Grows strict stores later)
          (absent : strict sid → token.sid = some sid →
            later.value? token = none)
          (consistent : Consistent config strict later) :
          (∀ other ∈ tokens, later.Issued other) ∧
            (strict sid → Swept sid tokens later) := by
        constructor
        · exact fun other member =>
            grows.issuedToken (issued other (List.mem_cons_of_mem _ member))
        · intro holds
          have stable := (swept holds).stable consistent grows holds
          refine ⟨stable.1, fun other own live => ?_⟩
          rcases List.mem_cons.mp (stable.2 other own live) with rfl | rest
          · exact absurd (absent holds own) live
          · exact rest
      refine served_call (fun _ _ => trivial) ?_
      intro later choice reply after consistent grows executed kept grown
      have known := grown.issuedToken
        (grows.issuedToken (issued token List.mem_cons_self))
      cases choice <;> simp only [exec] at executed <;> cases executed
      have skip (absent : strict sid → token.sid = some sid →
          later.value? token = none) :
          Served config strict (fun result last => Unmarked result ∧
            (strict sid → Swept sid [] last)) (sweep user sid tokens) later :=
        induction (tail grows absent consistent).1
          (tail grows absent consistent).2
      cases found : later.value? token with
      | none => exact skip fun _ _ => found
      | some value =>
          cases value with
          | bare =>
              refine skip fun _ own => ?_
              obtain ⟨entry, member, rfl, -, same⟩ :=
                Stores.value?_eq_some found
              obtain ⟨credential, current⟩ :=
                consistent.stored_current entry member (by simp [own])
              simp [current] at same
          | current credential =>
              dsimp only
              split
              · rename_i own
                refine served_call (fun _ _ => trivial) ?_
                intro second _ _ third consistent2 grows2 deleted kept3 grown3
                have revoked : third.Revoked token :=
                  ⟨grown3.issuedToken (grows2.issuedToken known),
                    (getdel_spec consistent2 deleted).1⟩
                refine served_call (fun _ => srem_sound revoked) ?_
                intro fourth _ _ fifth _ grows4 _ kept5 grown5
                have all := grows.trans (grows2.trans (grown3.trans
                  (grows4.trans grown5)))
                have rest := tail all (fun _ _ =>
                  (grows4.trans grown5).gone token revoked) kept5
                exact induction rest.1 rest.2
              · rename_i other
                exact skip fun _ own => absurd own other

theorem endReusedSession_served (token : Token) (stores : Stores) :
    Served config strict (fun result later => Unmarked result ∧
      ∀ sid, strict sid → token.sid = some sid → Swept sid [] later)
      (endReusedSession config token) stores := by
  unfold endReusedSession
  cases own : token.sid with
  | none =>
      intro later _ _
      refine ⟨unmarked_ok (), fun sid _ never => ?_⟩
      cases never
  | some sid =>
      refine served_call (fun _ _ => trivial) ?_
      intro _ choice _ marked _ _ executed _ _
      have sealed : sid ∈ marked.sealed := by
        cases choice <;> simp only [exec] at executed <;> cases executed
        simp [Stores.recordEnded]
      refine served_call (fun _ _ => trivial) ?_
      intro later choice tokens after consistent grows executed kept _
      cases choice <;> simp only [exec] at executed <;> cases executed
      have issued (other : Token) (member : other ∈ later.members _) :=
        consistent.indexed_issued token.user other (Stores.mem_index member)
      have swept (_ : strict sid) : Swept sid (later.members token.user) later :=
        ⟨grows.sealed sid sealed, fun other mine live =>
          consistent.live_member own mine live⟩
      refine Program.Safe.mono (sweep_served issued swept) ?_
      intro result last _ ended
      obtain ⟨unmarked, done⟩ := ended
      refine ⟨unmarked, fun mine holds same => ?_⟩
      cases same
      exact done holds

/-- What a replay says about the stores. -/
def Replayed (strict : Sid → Prop) (token : Token)
    (result : Except HttpError Replay) (stores : Stores) : Prop :=
  Unmarked result ∧ ∀ replayed, result = .ok replayed →
    replayed = .reused true →
      ∀ sid, strict sid → token.sid = some sid → Swept sid [] stores

theorem replay_served (token : Token) (recordPolls successorPolls : Nat)
    {stores : Stores} (consistent : Consistent config strict stores) :
    Served config strict (Replayed strict token)
      (replay config token recordPolls successorPolls) stores := by
  have plain {replayed : Replay} {stores : Stores}
      (other : replayed ≠ .reused true) :
      Served config strict (Replayed strict token) (.done replayed)
        stores := by
    intro later _ _
    refine ⟨unmarked_ok replayed, fun answer same reused => ?_⟩
    cases same
    exact absurd reused other
  have failed (error : HttpError) (later : Stores)
      (unmarked : Unmarked (.error error : Except HttpError Replay)) :
      Replayed strict token (.error error) later :=
    ⟨unmarked, fun _ never => nomatch never⟩
  refine served_bind consistent (always_served
    (awaitRotation_always _ (fun _ => id) recordPolls) stores) ?_ failed
  intro raw _ _ continues
  cases raw with
  | none => exact plain fun same => nomatch same
  | some rotation =>
      refine served_call (fun _ _ => trivial) ?_
      intro _ _ time after _ _ _ kept _
      split
      · split
        · exact plain fun same => by simp at same
        · refine served_call (fun _ _ => continues rotation rfl) ?_
          intro _ _ _ marked _ _ _ keptMarked _
          refine Program.Safe.bind keptMarked
            (endReusedSession_served token marked) ?_ ?_
          · intro _ last _ ⟨_, swept⟩ later consistentLater grows
            refine ⟨unmarked_ok _, fun _ _ _ sid holds own => ?_⟩
            exact (swept sid holds own).stable consistentLater grows holds
          · exact fun error last ⟨unmarked, _⟩ =>
              failed error last (unmarked.error Replay)
      · refine Program.Safe.bind kept (always_served
          (awaitSuccessor_always _ (fun _ => id) successorPolls
            (continues rotation rfl)) after) ?_ ?_
        · intro latest last _ _
          cases latest.successor with
          | none => exact plain fun same => nomatch same
          | some successor =>
              refine served_call (fun _ _ => trivial) ?_
              intro _ _ live _ _ _ _ _ _
              cases live with
              | none => exact plain fun same => nomatch same
              | some value => exact plain fun same => nomatch same
        · exact fun error last ⟨unmarked, _⟩ =>
            failed error last (unmarked.error Replay)

/-- A part that finds no reuse, before more that finds none. -/
theorem served_seq {program : Handler Answer}
    {continuation : Answer → Handler Result} {stores : Stores}
    (consistent : Consistent config strict stores)
    (first : Served config strict (fun result _ => Unmarked result) program
      stores)
    (rest : ∀ answer later, Consistent config strict later →
      Served config strict (fun result _ => Unmarked result)
        (continuation answer) later) :
    Served config strict (fun result _ => Unmarked result)
      (program >>= continuation) stores :=
  Program.Safe.bind consistent first
    (fun answer later kept _ => rest answer later kept)
    fun _ _ unmarked => unmarked.error Result

theorem revokeRefreshToken_served (token : Token) (stores : Stores) :
    Served config strict (fun result _ => Unmarked result)
      (revokeRefreshToken config token) stores := by
  refine served_call (fun _ _ => trivial) ?_
  intro later choice reply after consistent _ executed _ _
  have revoked := (getdel_spec consistent executed).2
  have removes {last : Stores} (grows : Grows strict after last)
      (present : reply ≠ none) :
      Served config strict (fun result _ => Unmarked result)
        (do
          srem token.user [token]
          pure (some token.user)) last :=
    served_call (fun _ => srem_sound (grows.revoked (revoked present)))
      fun _ _ _ final _ _ _ _ _ =>
        (Quiet.done (some token.user)).served final
  match reply with
  | none => exact (Quiet.done none).served after
  | some .bare => exact removes (Grows.refl strict after) (by simp)
  | some (.current credential) =>
      dsimp only
      split
      · refine served_call (fun _ _ => trivial) ?_
        exact fun _ _ _ _ _ grows _ _ grown =>
          removes (grows.trans grown) (by simp)
      · exact removes (Grows.refl strict after) (by simp)

theorem revokeEach_served {tokens : List Token} {stores : Stores}
    (issued : ∀ token ∈ tokens, stores.Issued token) :
    Served config strict (fun result later => Unmarked result ∧
      ∀ token ∈ tokens, later.Revoked token)
      (revokeEach config tokens) stores := by
  induction tokens generalizing stores with
  | nil =>
      exact fun later _ grows =>
        ⟨unmarked_ok (), fun _ never => nomatch never⟩
  | cons token tokens induction =>
      refine served_call (fun _ _ => trivial) ?_
      intro later choice reply after consistent grows executed _ grown
      have head : after.Revoked token :=
        ⟨(grows.trans grown).issuedToken (issued token List.mem_cons_self),
          (getdel_spec consistent executed).1⟩
      have rest {last : Stores} (more : Grows strict after last) :
          Served config strict (fun result later => Unmarked result ∧
            ∀ other ∈ token :: tokens, later.Revoked other)
            (revokeEach config tokens) last := by
        have known (other : Token) (member : other ∈ tokens) :
            last.Issued other :=
          (grows.trans (grown.trans more)).issuedToken
            (issued other (List.mem_cons_of_mem _ member))
        refine (Program.Safe.tracks id (induction known)).mono ?_
        intro result final _ ⟨⟨unmarked, gone⟩, within⟩
        refine ⟨unmarked, fun other member => ?_⟩
        rcases List.mem_cons.mp member with rfl | tail
        · exact (more.trans within).revoked head
        · exact gone other tail
      split
      · refine served_call (fun _ _ => trivial) ?_
        exact fun _ _ _ _ _ more _ _ last => rest (more.trans last)
      · exact rest (Grows.refl strict after)

theorem revokeAllRefreshTokens_served (user : Uid) (stores : Stores) :
    Served config strict (fun result _ => Unmarked result)
      (revokeAllRefreshTokens config user) stores := by
  refine served_call (fun _ _ => trivial) ?_
  intro later choice tokens after consistent _ executed kept _
  have issued (token : Token) (member : token ∈ tokens) :
      after.Issued token := by
    cases choice <;> simp only [exec] at executed <;> cases executed
    exact consistent.indexed_issued user token (Stores.mem_index member)
  split
  · exact (Quiet.done ()).served after
  · refine Program.Safe.bind kept (revokeEach_served issued) ?_ ?_
    · intro _ last _ ⟨_, gone⟩
      exact served_last fun final grows token member =>
        grows.gone token (gone token member)
    · exact fun _ _ ⟨unmarked, _⟩ => unmarked.error Unit

/-- The end of the user's sessions is recorded. -/
def Recorded (user : Uid) (version : Nat) (stores : Stores) : Prop :=
  ∃ ended ∈ stores.ends, ended.user = user ∧ ended.version = version

theorem Recorded.stable {user : Uid} {version : Nat}
    {before after : Stores} (recorded : Recorded user version before)
    (grows : Grows strict before after) : Recorded user version after := by
  obtain ⟨ended, member, same⟩ := recorded
  exact ⟨ended, grows.ends ended member, same⟩

theorem endAllSessions_served (user : Uid) (version : Nat)
    (stores : Stores) :
    Served config strict (fun result later => Unmarked result ∧
      ∀ answer, result = .ok answer → Recorded user version later)
      (endAllSessions config user version) stores := by
  refine served_call (fun _ _ => trivial) ?_
  intro later choice _ after _ _ executed kept _
  have recorded : Recorded user version after := by
    cases choice <;> simp only [exec] at executed <;> try cases executed
    split at executed <;> cases executed
    exact ⟨_, List.mem_cons_self, rfl, rfl⟩
  have rest : Served config strict (fun result _ => Unmarked result)
      (do
        revokeAllRefreshTokens config user
        revokeCapabilities user) after :=
    served_seq kept (revokeAllRefreshTokens_served user after)
      fun _ _ _ => served_last fun _ _ => trivial
  refine (Program.Safe.tracks id rest).mono ?_
  exact fun result last _ ⟨unmarked, within⟩ =>
    ⟨unmarked, fun _ _ => recorded.stable within⟩

theorem continuedSession_served (token : Token) (stores : Stores) :
    Served config strict (fun result _ => Unmarked result ∧
      ∀ sid, result = .ok sid → ∀ own, token.sid = some own → sid = own)
      (continuedSession token) stores := by
  unfold continuedSession
  cases same : token.sid with
  | some own =>
      intro later _ _
      refine ⟨unmarked_ok own, fun sid answered other found => ?_⟩
      cases answered
      cases found
      rfl
  | none =>
      refine served_call (fun _ _ => trivial) ?_
      intro _ _ sid _ _ _ _ _ _ later _ _
      exact ⟨unmarked_ok sid, fun _ _ _ never => nomatch never⟩

theorem rotateInto_served {token : Token} {sid : Sid} {row : Row}
    {successor : Option Token} {stores : Stores}
    (same : ∀ own, token.sid = some own → sid = own) :
    Served config strict (fun result _ => Unmarked result)
      (rotateInto config token sid row successor) stores := by
  cases successor with
  | some successor => exact (Quiet.done successor).served stores
  | none =>
      refine served_call (fun _ _ => trivial) ?_
      intro later choice refresh after _ _ executed kept _
      have mine : refresh.sid = some sid := by
        cases choice <;> simp only [exec] at executed <;>
          try cases executed
        split at executed <;> cases executed
        rfl
      refine served_seq kept (recordSuccessor_served fun own found => ?_) ?_
      · rw [mine, same own found]
      · exact fun _ last _ => (Quiet.done refresh).served last

/-- Ending all sessions before a refusal. -/
private theorem refused_served {user : Uid} {error : HttpError}
    {stores : Stores} (consistent : Consistent config strict stores)
    (unmarked : error ≠ .reused true) :
    Served config strict (fun result _ => Unmarked result)
      (do
        endAllSessions config user 0
        (.fail error : Handler Answer)) stores := by
  refine served_seq consistent
    ((endAllSessions_served user 0 stores).mono fun _ _ _ => And.left) ?_
  intro _ _ _ _ _ _ same
  cases same
  exact unmarked rfl

theorem continueRefresh_served (token : Token) (credential : String)
    (successor : Option Token) (stores : Stores) :
    Served config strict (fun result _ => Unmarked result)
      (continueRefresh config token credential successor) stores := by
  refine served_call (fun _ _ => trivial) ?_
  intro _ _ found after _ _ _ kept _
  cases found with
  | none => exact fun _ _ _ same => nomatch same
  | some row =>
      dsimp only
      split
      · exact fun _ _ _ same => nomatch same
      · split
        · exact refused_served kept fun same => nomatch same
        · refine served_seq kept
            ((companyAdmits_quiet row.company).served after) ?_
          intro active later consistent
          split
          · exact refused_served consistent fun same => nomatch same
          · refine served_bind consistent
              (continuedSession_served token later) ?_
              fun _ _ unmarked => unmarked
            intro sid last keptLast same
            refine served_seq keptLast (rotateInto_served same) ?_
            intro refresh final _
            refine Quiet.served ?_ final
            exact (writeToken_quiet token.user row sid).bind fun access =>
              Quiet.done (Answer.tokens access refresh)

/-- What the answer to a request says about the stores. -/
def Promise (strict : Sid → Prop) :
    Request → Except HttpError Sessions.Answer → Stores → Prop
  | .refresh token _ _, result, stores => result = .error (.reused true) →
      ∀ sid, strict sid → token.sid = some sid → Swept sid [] stores
  | .update user update, result, stores => update.EndsSessions →
      ∀ version, result = .ok (.updated version) →
        Recorded user version stores
  | _, _, _ => True

theorem refresh_served (token : Token) (recordPolls successorPolls : Nat)
    {stores : Stores} (consistent : Consistent config strict stores) :
    Served config strict
      (Promise strict (.refresh token recordPolls successorPolls))
      (refresh config token recordPolls successorPolls) stores := by
  refine Program.Safe.bind consistent (claimRefreshToken_served token stores)
    ?_ fun _ _ unmarked same => absurd same (unmarked.error _)
  intro claim later kept _
  cases claim with
  | some credential =>
      have rest := served_seq kept
        ((checkSession_quiet token).served later) fun _ last _ =>
          continueRefresh_served token credential none last
      exact rest.mono fun _ _ _ unmarked same => absurd same unmarked
  | none =>
      refine Program.Safe.bind kept
        (replay_served token recordPolls successorPolls kept) ?_
        fun _ _ ⟨unmarked, _⟩ same => absurd same (unmarked.error _)
      intro replayed last keptLast ⟨_, swept⟩
      cases replayed with
      | unknown => exact fun _ _ _ same => nomatch same
      | successor credential successor =>
          exact (continueRefresh_served token credential (some successor)
            last).mono fun _ _ _ unmarked same => absurd same unmarked
      | reused first =>
          cases first with
          | false => exact fun _ _ _ same => by simp at same
          | true =>
              have done := swept _ rfl rfl
              refine served_call (fun _ _ => trivial) ?_
              intro _ _ _ _ _ grows _ _ grown final consistentFinal more _
                sid holds own
              exact (done sid holds own).stable consistentFinal
                (grows.trans (grown.trans more)) holds

theorem login_served (user : Uid) (hashedPassword : String)
    {stores : Stores} (consistent : Consistent config strict stores) :
    Served config strict (fun result _ => Unmarked result)
      (login config user hashedPassword) stores := by
  refine served_seq consistent
    ((signIn_quiet user hashedPassword).served stores) ?_
  intro row later _
  refine served_call (fun _ _ => trivial) fun _ _ sid after _ _ _ kept _ => ?_
  refine served_seq kept ((writeToken_quiet user row sid).served after) ?_
  intro access last _
  refine served_call (fun _ _ => trivial) fun _ _ refresh final _ _ _ _ _ => ?_
  exact (Quiet.done (Answer.tokens access refresh)).served final

theorem revokeCapabilitiesOf_quiet (users : List Uid) :
    Quiet (revokeCapabilitiesOf users) := by
  induction users with
  | nil => exact Quiet.done ()
  | cons user users induction =>
      exact Quiet.call trivial fun _ => induction

theorem logout_served (token : Option Token) (claims : Option Claims)
    {stores : Stores} (consistent : Consistent config strict stores) :
    Served config strict (fun result _ => Unmarked result)
      (logout config token claims) stores := by
  refine served_seq consistent ?_ ?_
  · cases token with
    | none => exact (Quiet.done none).served stores
    | some token => exact revokeRefreshToken_served token stores
  · intro owner later _
    refine Quiet.served ?_ later
    exact (endSession_quiet config (claims.bind Claims.sid)).bind fun _ =>
      (revokeCapabilitiesOf_quiet (owners owner claims)).bind fun _ =>
        Quiet.done Answer.loggedOut

theorem updateUser_served (user : Uid) (update : UserUpdate)
    (stores : Stores) :
    Served config strict (Promise strict (.update user update))
      (updateUser config user update) stores := by
  refine served_call (fun _ _ => trivial) ?_
  intro _ _ committed after _ _ _ kept _
  cases committed with
  | none => exact fun _ _ _ _ _ never => nomatch never
  | some version =>
      dsimp only
      split
      · refine served_bind kept (endAllSessions_served user version after)
          ?_ fun _ _ _ _ _ never => nomatch never
        intro _ _ _ recorded _ _ grows _ answered same
        cases same
        exact recorded.stable grows
      · rename_i keeps
        exact fun _ _ _ ends => absurd ends keeps

theorem handle_served (request : Request) {stores : Stores}
    (consistent : Consistent config strict stores) :
    Served config strict (Promise strict request) (handle config request)
      stores := by
  cases request with
  | login user hashedPassword =>
      exact (login_served user hashedPassword consistent).mono
        fun _ _ _ _ => trivial
  | jwtLogin user hashedPassword =>
      exact ((jwtLogin_quiet user hashedPassword).served stores).mono
        fun _ _ _ _ => trivial
  | refresh token recordPolls successorPolls =>
      exact refresh_served token recordPolls successorPolls consistent
  | logout token claims =>
      exact (logout_served token claims consistent).mono
        fun _ _ _ _ => trivial
  | destroyToken claims =>
      exact ((destroyToken_quiet config claims).served stores).mono
        fun _ _ _ _ => trivial
  | update user update => exact updateUser_served user update stores
  | endAll user =>
      refine served_bind consistent (endAllSessions_served user 0 stores)
        (fun _ _ _ _ => ?_) fun _ _ _ => trivial
      exact fun _ _ _ => trivial

end Safe

/-! ## Runs -/

abbrev Gateway := Pool Stores Request Op Reply HttpError Answer

abbrev GatewayEvent := PoolEvent Request Choice Change

/-- No request issues a token of the session once it was recorded as ended for
the lifetime of a refresh token, and none shortens that record. -/
def Undisturbed (config : Config) (sid : Sid) (pool : Gateway) :
    GatewayEvent → Prop
  | .step index _ | .lose index _ => ∀ thread ∈ pool.threads[index]?,
      ∀ op ∈ thread.program.next?, Permitted config sid pool.shared op
  | _ => True

instance (config : Config) (sid : Sid) (pool : Gateway)
    (event : GatewayEvent) :
    Decidable (Undisturbed config sid pool event) :=
  match event with
  | .step _ _ => inferInstanceAs (Decidable (∀ _ ∈ _, _))
  | .lose _ _ => inferInstanceAs (Decidable (∀ _ ∈ _, _))
  | .spawn _ => .isTrue trivial
  | .abort _ => .isTrue trivial
  | .environment _ => .isTrue trivial

/-- The stores are consistent and every request keeps them so. -/
abbrev Steady (config : Config) (strict : Sid → Prop) (pool : Gateway) : Prop :=
  Pool.Kept (gateway config) (contract config strict) (Promise strict) pool

theorem initial_consistent (config : Config) (strict : Sid → Prop)
    (users : Uid → Option Row) (companies : Company → Bool)
    (legacy : List Legacy) :
    Consistent config strict (Stores.initial users companies legacy) := by
  have stored {entry : Entry} (member : entry ∈
      (Stores.initial users companies legacy).refresh) :
      ∃ old ∈ legacy, entry = ⟨old.token, old.value, old.expires⟩ := by
    obtain ⟨old, present, rfl⟩ := List.mem_map.mp member
    exact ⟨old, present, rfl⟩
  have issued {old : Legacy} (present : old ∈ legacy) :
      Issue.mk old.token old.expires ∈
        (Stores.initial users companies legacy).issued :=
    List.mem_map.mpr ⟨old, present, rfl⟩
  constructor
  · intro entry member
    obtain ⟨old, present, rfl⟩ := stored member
    exact issued present
  · intro entry member session
    obtain ⟨old, -, rfl⟩ := stored member
    exact absurd rfl session
  · intro entry member session
    obtain ⟨old, -, rfl⟩ := stored member
    exact absurd rfl session
  · intro user token member
    obtain ⟨old, present, rfl⟩ := List.mem_map.mp member
    exact ⟨_, issued (List.mem_of_mem_filter present), rfl⟩
  · intro issue member session
    obtain ⟨old, -, rfl⟩ := List.mem_map.mp member
    exact absurd rfl session
  · exact fun _ _ _ never => nomatch never
  · exact fun _ _ never => nomatch never

section Runs

variable {config : Config} {strict : Sid → Prop}

theorem start_steady (users : Uid → Option Row)
    (companies : Company → Bool) (legacy : List Legacy) :
    Steady config strict
      (Pool.start (Stores.initial users companies legacy)) :=
  ⟨initial_consistent config strict users companies legacy,
    fun _ never => nomatch never⟩

theorem step_steady {pool next : Gateway} {event : GatewayEvent}
    (steady : Steady config strict pool)
    (undisturbed : ∀ sid, strict sid → Undisturbed config sid pool event)
    (taken : Pool.step (gateway config) pool event = some next) :
    Steady config strict next ∧ Grows strict pool.shared next.shared := by
  have permitted : Pool.Allowed (fun _ => True) (contract config strict)
      pool event := by
    cases event with
    | spawn request => trivial
    | step index choice =>
        exact fun request op rest running sid holds =>
          undisturbed sid holds _ running op rfl
    | abort index => trivial
    | lose index choice =>
        exact fun request op rest running sid holds =>
          undisturbed sid holds _ running op rfl
    | environment change => trivial
  refine Pool.step_keeps id ?_ ?_ ?_ steady permitted taken
  · exact fun request _ _ consistent => handle_served request consistent
  · intro request _ _
    cases request with
    | refresh token recordPolls successorPolls =>
        exact fun never => nomatch never
    | update user update => exact fun _ _ never => nomatch never
    | _ => trivial
  · exact fun _ _ _ consistent changed => change_keeps consistent changed

end Runs

end IndustryFlow.Sessions
