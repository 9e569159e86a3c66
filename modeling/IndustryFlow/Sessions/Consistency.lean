import IndustryFlow.Sessions.Requests

/-!
# What every command keeps

Whatever the requests do at the same time, a stored token of a session is in
the index of its user while it is live, a token that is gone does not come
back, and what a token was rotated into belongs to its session.

The last clauses are about the sessions for which a run is `strict`: after
such a session was recorded as ended for the lifetime of a refresh token, no
token of it is issued and no write of the record shortens it.
-/

namespace IndustryFlow.Sessions

open Concurrent

namespace Stores

def Issued (stores : Stores) (token : Token) : Prop :=
  ∃ issue ∈ stores.issued, issue.token = token

/-- The token was issued and is no longer stored. -/
def Revoked (stores : Stores) (token : Token) : Prop :=
  stores.Issued token ∧ stores.value? token = none

theorem value?_eq_none {stores : Stores} {token : Token} :
    stores.value? token = none ↔
      ∀ entry ∈ stores.refresh, entry.token = token →
        entry.expires ≤ stores.now := by
  simp only [value?, Option.map_eq_none_iff, List.find?_eq_none,
    decide_eq_true_eq, not_and, Nat.not_lt]

theorem value?_eq_some {stores : Stores} {token : Token} {value : Value}
    (found : stores.value? token = some value) :
    ∃ entry ∈ stores.refresh, entry.token = token ∧
      stores.now < entry.expires ∧ entry.value = value := by
  obtain ⟨entry, first, same⟩ := Option.map_eq_some_iff.mp found
  have matched := List.find?_some first
  simp only [decide_eq_true_eq] at matched
  exact ⟨entry, List.mem_of_find?_eq_some first, matched.1, matched.2, same⟩

theorem mem_index {stores : Stores} {user : Uid} {token : Token}
    (member : token ∈ stores.members user) : token ∈ stores.index user := by
  unfold members at member
  split at member
  · exact member
  · cases member

end Stores

/-- The successor of a session's token belongs to the session. -/
def Rotation.Continues (rotation : Rotation) (token : Token) : Prop :=
  ∀ sid successor, token.sid = some sid →
    rotation.successor = some successor → successor.sid = some sid

structure Consistent (config : Config) (strict : Sid → Prop) (stores : Stores) :
    Prop where
  stored_issued : ∀ entry ∈ stores.refresh,
    Issue.mk entry.token entry.expires ∈ stores.issued
  stored_current : ∀ entry ∈ stores.refresh, entry.token.sid ≠ none →
    ∃ credential, entry.value = .current credential
  stored_indexed : ∀ entry ∈ stores.refresh, entry.token.sid ≠ none →
    stores.now < entry.expires →
      entry.token ∈ stores.index entry.token.user ∧
        entry.expires ≤ stores.indexExpires entry.token.user
  indexed_issued : ∀ user, ∀ token ∈ stores.index user, stores.Issued token
  issued_short : ∀ issue ∈ stores.issued, issue.token.sid ≠ none →
    issue.expires ≤ stores.now + config.ttl
  continued : ∀ token rotation expires,
    stores.rotated token = some (rotation, expires) →
      rotation.Continues token
  covered : ∀ sid, strict sid → sid ∈ stores.sealed → ∃ expires,
    stores.ended sid = some expires ∧ expires ≤ stores.now + config.ttl ∧
      ∀ issue ∈ stores.issued, issue.token.sid = some sid →
        issue.expires ≤ expires

/-- The index of a user lists the live tokens of his sessions. -/
theorem Consistent.live_member {config : Config} {strict : Sid → Prop}
    {stores : Stores} (consistent : Consistent config strict stores)
    {token other : Token} {sid : Sid} (own : token.sid = some sid)
    (mine : other.sid = some sid) (live : stores.value? other ≠ none) :
    other ∈ stores.members token.user := by
  obtain ⟨value, found⟩ := Option.ne_none_iff_exists'.mp live
  obtain ⟨entry, member, rfl, unexpired, -⟩ := Stores.value?_eq_some found
  have ⟨indexed, short⟩ :=
    consistent.stored_indexed entry member (by simp [mine]) unexpired
  have same : entry.token.user = token.user := by
    obtain ⟨_, -, left⟩ := Option.map_eq_some_iff.mp own
    obtain ⟨_, -, right⟩ := Option.map_eq_some_iff.mp mine
    exact congrArg Sid.user (right.trans left.symm)
  rw [same] at indexed short
  rw [Stores.members, if_pos (Nat.lt_of_lt_of_le unexpired short)]
  exact indexed

/-- What nobody undoes. -/
structure Grows (strict : Sid → Prop) (before after : Stores) : Prop where
  now_le : before.now ≤ after.now
  issued : ∀ issue ∈ before.issued, issue ∈ after.issued
  gone : ∀ token, before.Revoked token → after.value? token = none
  ends : ∀ ended ∈ before.ends, ended ∈ after.ends
  sealed : ∀ sid ∈ before.sealed, sid ∈ after.sealed
  frozen : ∀ sid, strict sid → sid ∈ before.sealed →
    ∀ issue ∈ after.issued, issue.token.sid = some sid →
      issue ∈ before.issued
  recorded : ∀ sid, strict sid → sid ∈ before.sealed → ∀ expires,
    before.ended sid = some expires → ∃ later,
      after.ended sid = some later ∧ expires ≤ later

theorem Grows.refl (strict : Sid → Prop) (stores : Stores) :
    Grows strict stores stores where
  now_le := Nat.le_refl _
  issued _ member := member
  gone _ revoked := revoked.2
  ends _ member := member
  sealed _ member := member
  frozen _ _ _ _ member _ := member
  recorded _ _ _ expires found := ⟨expires, found, Nat.le_refl _⟩

theorem Grows.issuedToken {strict : Sid → Prop} {before after : Stores}
    (grows : Grows strict before after) {token : Token}
    (known : before.Issued token) : after.Issued token := by
  obtain ⟨issue, member, same⟩ := known
  exact ⟨issue, grows.issued issue member, same⟩

theorem Grows.revoked {strict : Sid → Prop} {before after : Stores}
    (grows : Grows strict before after) {token : Token}
    (revoked : before.Revoked token) : after.Revoked token :=
  ⟨grows.issuedToken revoked.1, grows.gone token revoked⟩

theorem Grows.trans {strict : Sid → Prop} {first second third : Stores}
    (left : Grows strict first second) (right : Grows strict second third) :
    Grows strict first third where
  now_le := Nat.le_trans left.now_le right.now_le
  issued issue member := right.issued issue (left.issued issue member)
  gone token revoked := right.gone token (left.revoked revoked)
  ends ended member := right.ends ended (left.ends ended member)
  sealed sid member := right.sealed sid (left.sealed sid member)
  frozen sid holds member issue later same :=
    left.frozen sid holds member issue
      (right.frozen sid holds (left.sealed sid member) issue later same) same
  recorded sid holds member expires found := by
    obtain ⟨middle, foundMiddle, one⟩ :=
      left.recorded sid holds member expires found
    obtain ⟨last, foundLast, two⟩ :=
      right.recorded sid holds (left.sealed sid member) middle foundMiddle
    exact ⟨last, foundLast, Nat.le_trans one two⟩

/-- Once the session was recorded as ended for the lifetime of a refresh
token, no token of it is issued and no write of the record shortens it. -/
def Permitted (config : Config) (sid : Sid) (stores : Stores) : Op → Prop
  | .createRefresh own _ => own = sid → own ∉ stores.sealed
  | .setEnded own ttl => own = sid → own ∈ stores.sealed →
      ttl = config.ttl ∨ ttl ≤ config.ttl ∧
        ∀ expires ∈ stores.ended own, expires ≤ stores.now + ttl
  | _ => True

instance (config : Config) (sid : Sid) (stores : Stores) (op : Op) :
    Decidable (Permitted config sid stores op) := by
  cases op with
  | createRefresh own credential =>
      exact inferInstanceAs (Decidable (_ → _ ∉ _))
  | setEnded own ttl => exact inferInstanceAs (Decidable (_ → _ → _ ∨ _))
  | _ => exact .isTrue trivial

/-- Two commands are safe by what the code did before them. -/
def Sound (stores : Stores) : Op → Prop
  | .srem _ tokens => ∀ token ∈ tokens, stores.value? token = none
  | .setRotated token rotation => rotation.Continues token
  | _ => True

section Commands

variable {config : Config} {strict : Sid → Prop} {stores : Stores}

private theorem delete_keeps (consistent : Consistent config strict stores)
    (token : Token) :
    Consistent config strict (stores.delete token) ∧
      Grows strict stores (stores.delete token) := by
  constructor
  · exact { consistent with
      stored_issued := fun entry member =>
        consistent.stored_issued entry (List.mem_of_mem_filter member)
      stored_current := fun entry member =>
        consistent.stored_current entry (List.mem_of_mem_filter member)
      stored_indexed := fun entry member =>
        consistent.stored_indexed entry (List.mem_of_mem_filter member) }
  · refine { Grows.refl strict stores with gone := ?_ }
    intro other ⟨_, absent⟩
    rw [Stores.value?_eq_none] at absent ⊢
    exact fun entry member => absent entry (List.mem_of_mem_filter member)

private theorem create_keeps (consistent : Consistent config strict stores)
    {sid : Sid} {nonce : Nat} {credential : String}
    (fresh : ¬stores.Issued ⟨sid.user, some sid.nonce, nonce⟩)
    (open_ : strict sid → sid ∉ stores.sealed) :
    Consistent config strict
        (stores.create config ⟨sid.user, some sid.nonce, nonce⟩
          credential) ∧
      Grows strict stores
        (stores.create config ⟨sid.user, some sid.nonce, nonce⟩
          credential) := by
  have known {token : Token} (issued : stores.Issued token) :
      (stores.create config ⟨sid.user, some sid.nonce, nonce⟩
        credential).Issued token := by
    obtain ⟨issue, member, same⟩ := issued
    exact ⟨issue, List.mem_cons_of_mem _ member, same⟩
  have own : (stores.create config ⟨sid.user, some sid.nonce, nonce⟩
      credential).Issued ⟨sid.user, some sid.nonce, nonce⟩ :=
    ⟨_, List.mem_cons_self, rfl⟩
  constructor
  · constructor
    · intro entry member
      rcases List.mem_cons.mp member with rfl | before
      · exact List.mem_cons_self
      · exact List.mem_cons_of_mem _ (consistent.stored_issued entry before)
    · intro entry member
      rcases List.mem_cons.mp member with rfl | before
      · exact fun _ => ⟨credential, rfl⟩
      · exact consistent.stored_current entry before
    · intro entry member session live
      rcases List.mem_cons.mp member with rfl | before
      · simp [Stores.create]
      · have ⟨indexed, short⟩ :=
          consistent.stored_indexed entry before session live
        by_cases same : entry.token.user = sid.user
        · have there : stores.now < stores.indexExpires sid.user := by
            rw [← same]
            exact Nat.lt_of_lt_of_le live short
          rw [same] at indexed
          simp only [Stores.create, Stores.members, same, if_pos there,
            Function.update_self]
          exact ⟨List.mem_cons_of_mem _ indexed, consistent.issued_short _
            (consistent.stored_issued entry before) session⟩
        · simp only [Stores.create, Function.update_of_ne same]
          exact ⟨indexed, short⟩
    · intro user token member
      by_cases same : user = sid.user
      · simp only [same, Stores.create, Function.update_self] at member
        rcases List.mem_cons.mp member with rfl | before
        · exact own
        · exact known (consistent.indexed_issued _ token
            (Stores.mem_index before))
      · simp only [Stores.create, Function.update_of_ne same] at member
        exact known (consistent.indexed_issued user token member)
    · intro issue member session
      rcases List.mem_cons.mp member with rfl | before
      · exact Nat.le_refl _
      · exact consistent.issued_short issue before session
    · exact consistent.continued
    · intro other holds sealed
      obtain ⟨expires, found, short, covers⟩ :=
        consistent.covered other holds sealed
      refine ⟨expires, found, short, ?_⟩
      intro issue member same
      rcases List.mem_cons.mp member with rfl | before
      · cases same
        exact absurd sealed (open_ holds)
      · exact covers issue before same
  · refine { Grows.refl strict stores with
      issued := ?_, gone := ?_, frozen := ?_ }
    · exact fun issue member => List.mem_cons_of_mem _ member
    · intro token ⟨issued, absent⟩
      rw [Stores.value?_eq_none] at absent ⊢
      intro entry member same
      rcases List.mem_cons.mp member with rfl | before
      · subst same
        exact absurd issued fresh
      · exact absent entry before same
    · intro other holds sealed issue member same
      rcases List.mem_cons.mp member with rfl | before
      · cases same
        exact absurd sealed (open_ holds)
      · exact before

private theorem srem_keeps (consistent : Consistent config strict stores)
    (user : Uid) {tokens : List Token}
    (absent : ∀ token ∈ tokens, stores.value? token = none) :
    Consistent config strict { stores with
      index := Function.update stores.index user
        ((stores.index user).filter (· ∉ tokens)) } := by
  refine { consistent with stored_indexed := ?_, indexed_issued := ?_ }
  · intro entry member session live
    have ⟨indexed, short⟩ :=
      consistent.stored_indexed entry member session live
    refine ⟨?_, short⟩
    by_cases same : entry.token.user = user
    · have kept : entry.token ∉ tokens := by
        intro removed
        have gone := Stores.value?_eq_none.mp (absent _ removed) entry
          member rfl
        exact absurd live (Nat.not_lt.mpr gone)
      subst same
      simp [Function.update_self, indexed, kept]
    · simp only [Function.update_of_ne same]
      exact indexed
  · intro other token member
    by_cases same : other = user
    · subst same
      simp only [Function.update_self] at member
      exact consistent.indexed_issued _ token (List.mem_of_mem_filter member)
    · simp only [Function.update_of_ne same] at member
      exact consistent.indexed_issued other token member

private theorem rotate_keeps (consistent : Consistent config strict stores)
    {token : Token} {rotation : Rotation}
    (continues : rotation.Continues token) :
    Consistent config strict (stores.rotate config token rotation) := by
  refine { consistent with continued := ?_ }
  intro other found expires present
  simp only [Stores.rotate, Function.update_apply] at present
  split at present
  · rename_i same
    cases present
    exact same ▸ continues
  · exact consistent.continued other found expires present

private theorem recordEnded_keeps
    (consistent : Consistent config strict stores) {sid : Sid} {ttl : Nat}
    (permitted : ∀ own, strict own →
      Permitted config own stores (.setEnded sid ttl)) :
    Consistent config strict (stores.recordEnded config sid ttl) ∧
      Grows strict stores (stores.recordEnded config sid ttl) := by
  have ended_of_ne {other : Sid} (different : other ≠ sid) :
      (stores.recordEnded config sid ttl).ended other =
        stores.ended other :=
    Function.update_of_ne different _ _
  have ended_self : (stores.recordEnded config sid ttl).ended sid =
      some (stores.now + ttl) :=
    Function.update_self ..
  have sealed_of {other : Sid}
      (member : other ∈ (stores.recordEnded config sid ttl).sealed) :
      (other = sid ∧ ttl = config.ttl) ∨ other ∈ stores.sealed := by
    simp only [Stores.recordEnded] at member
    split at member
    · rename_i long
      rcases List.mem_cons.mp member with same | before
      · exact .inl ⟨same, long⟩
      · exact .inr before
    · exact .inr member
  have recorded {other : Sid} (holds : strict other)
      (sealed : other ∈ stores.sealed) {expires : Nat}
      (found : stores.ended other = some expires) :
      ∃ later, (stores.recordEnded config sid ttl).ended other =
        some later ∧ expires ≤ later ∧ later ≤ stores.now + config.ttl := by
    obtain ⟨covering, present, short, -⟩ :=
      consistent.covered other holds sealed
    rw [present] at found
    cases found
    by_cases same : other = sid
    · subst same
      refine ⟨_, ended_self, ?_⟩
      rcases permitted other holds rfl sealed with rfl | ⟨within, outlasts⟩
      · exact ⟨short, Nat.le_refl _⟩
      · exact ⟨outlasts expires present, Nat.add_le_add_left within _⟩
    · exact ⟨expires, (ended_of_ne same).trans present, Nat.le_refl _, short⟩
  constructor
  · refine { consistent with covered := ?_ }
    intro other holds member
    rcases sealed_of member with ⟨rfl, rfl⟩ | before
    · refine ⟨_, ended_self, Nat.le_refl _, ?_⟩
      intro issue issued own
      exact consistent.issued_short issue issued (by simp [own])
    · obtain ⟨expires, present, -, covers⟩ :=
        consistent.covered other holds before
      obtain ⟨later, found, longer, short⟩ := recorded holds before present
      exact ⟨later, found, short, fun issue issued own =>
        Nat.le_trans (covers issue issued own) longer⟩
  · refine { Grows.refl strict stores with sealed := ?_, recorded := ?_ }
    · intro other member
      simp only [Stores.recordEnded]
      split
      · exact List.mem_cons_of_mem _ member
      · exact member
    · intro other holds member expires found
      obtain ⟨later, present, longer, -⟩ := recorded holds member found
      exact ⟨later, present, longer⟩

-- The equations of `exec` are derived here, once for all that follow.
attribute [local simp] exec in
/-- One command. -/
theorem exec_keeps (consistent : Consistent config strict stores) {op : Op}
    {choice : Choice} {reply : Reply op} {after : Stores}
    (permitted : ∀ sid, strict sid → Permitted config sid stores op)
    (sound : Sound stores op)
    (executed : exec config stores op choice = some (reply, after)) :
    Consistent config strict after ∧ Grows strict stores after := by
  have same : Consistent config strict stores ∧ Grows strict stores stores :=
    ⟨consistent, Grows.refl strict stores⟩
  cases op with
  | getdel token =>
      cases choice <;> simp only [exec] at executed <;> try cases executed
      split at executed
      · cases executed
        exact delete_keeps consistent token
      · cases executed
        exact same
  | createRefresh sid credential =>
      cases choice <;> simp only [exec] at executed <;> try cases executed
      split at executed
      · cases executed
      · rename_i fresh
        cases executed
        exact create_keeps consistent fresh fun holds =>
          permitted sid holds rfl
  | srem user tokens =>
      cases choice <;> simp only [exec] at executed <;> try cases executed
      exact ⟨srem_keeps consistent user sound,
        { Grows.refl strict stores with }⟩
  | setRotated token rotation =>
      cases choice <;> simp only [exec] at executed <;> try cases executed
      exact ⟨rotate_keeps consistent sound,
        { Grows.refl strict stores with }⟩
  | setEnded sid ttl =>
      cases choice <;> simp only [exec] at executed <;> try cases executed
      exact recordEnded_keeps consistent permitted
  | setUserEnded user version =>
      cases choice <;> simp only [exec] at executed <;> try cases executed
      split at executed
      · cases executed
        exact ⟨{ consistent with }, { Grows.refl strict stores with
          ends := fun _ member => List.mem_cons_of_mem _ member }⟩
      · cases executed
  | newSession user =>
      cases choice <;> simp only [exec] at executed <;> try cases executed
      split at executed
      · cases executed
      · cases executed
        exact ⟨{ consistent with }, { Grows.refl strict stores with }⟩
  | commitUser user update =>
      cases choice <;> simp only [exec] at executed <;> try cases executed
      split at executed
      · cases executed
        exact same
      · cases executed
        exact ⟨{ consistent with }, { Grows.refl strict stores with }⟩
  | sign user row sid =>
      cases choice <;> simp only [exec] at executed <;> try cases executed
      exact ⟨{ consistent with }, { Grows.refl strict stores with }⟩
  | waitUntil time =>
      cases choice <;> simp only [exec] at executed <;> try cases executed
      split at executed <;> cases executed
      exact same
  | getEnded sid =>
      cases choice <;> simp only [exec] at executed <;> cases executed
      · exact same
      · exact same
  | getUserEnded user =>
      cases choice <;> simp only [exec] at executed <;> cases executed
      · exact same
      · exact same
  | getRefresh token =>
      cases choice <;> simp only [exec] at executed <;> cases executed
      exact same
  | smembers user =>
      cases choice <;> simp only [exec] at executed <;> cases executed
      exact same
  | getRotated token =>
      cases choice <;> simp only [exec] at executed <;> cases executed
      exact same
  | loadUser user =>
      cases choice <;> simp only [exec] at executed <;> cases executed
      exact same
  | companyActive company =>
      cases choice <;> simp only [exec] at executed <;> cases executed
      exact same
  | clock =>
      cases choice <;> simp only [exec] at executed <;> cases executed
      exact same
  | revokeCapabilities user =>
      cases choice <;> simp only [exec] at executed <;> cases executed
      exact same

theorem change_keeps (consistent : Consistent config strict stores)
    {event : Change} {after : Stores}
    (changed : change stores event = some after) :
    Consistent config strict after ∧ Grows strict stores after := by
  cases event with
  | pass time =>
      cases changed
      constructor
      · refine { consistent with
          stored_indexed := ?_, issued_short := ?_, covered := ?_ }
        · intro entry member session (live : _ + time < _)
          exact consistent.stored_indexed entry member session (by omega)
        · intro issue member session
          have short := consistent.issued_short issue member session
          simp only
          omega
        · intro sid holds member
          obtain ⟨expires, found, short, covers⟩ :=
            consistent.covered sid holds member
          exact ⟨expires, found, by simp only; omega, covers⟩
      · refine { Grows.refl strict stores with now_le := ?_, gone := ?_ }
        · exact Nat.le_add_right _ _
        · intro token ⟨_, absent⟩
          rw [Stores.value?_eq_none] at absent ⊢
          exact fun entry member same =>
            Nat.le_trans (absent entry member same) (Nat.le_add_right _ _)
  | company company active =>
      cases changed
      exact ⟨{ consistent with }, { Grows.refl strict stores with }⟩

end Commands

end IndustryFlow.Sessions
