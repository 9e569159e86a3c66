import IndustryFlow.Concurrent.Run
import Mathlib.Data.List.Nodup

/-!
# The refreshes of a page

Both clients of the API share one refresh: a request that is refused waits for
the refresh that is in flight, or starts one.  The sensor socket refreshes the
session for itself, beside them.
-/

namespace IndustryFlow.Browser

open Concurrent

/-! ## Requests -/

inductive Method where
  | get
  | head
  | post
  | put
  | patch
  | delete
deriving DecidableEq

/-- `['POST', 'PUT', 'PATCH', 'DELETE'].includes(m)`. -/
def Method.changes : Method → Bool
  | .get | .head => false
  | .post | .put | .patch | .delete => true

/-- `csrfHeaders`, of the cookie's token; a token is not empty. -/
def csrfHeaders (cookie : Option String) (method : Method) : Option String :=
  if method.changes then cookie else none

/-- `url.includes('/auth/')`. -/
def includesAuth (url : String) : Bool :=
  url.toList.tails.any fun rest => "/auth/".toList.isPrefixOf rest

/-- `shouldRefresh`. -/
def shouldRefresh (status : Option Nat) (url : String) : Bool :=
  status = some 401 && !includesAuth url

/-- `/^https?:|^wss?:/.test(path)`. -/
def isAbsolute (path : String) : Bool :=
  ["http:", "https:", "ws:", "wss:"].any fun scheme =>
    scheme.toList.isPrefixOf path.toList

/-- `authFetch`, or the axios client. -/
inductive Client where
  | fetch
  | axios
deriving DecidableEq

/-- A request that was sent: the CSRF token it carries, the one that was
current, and how many refreshes had completed. -/
structure Sent where
  token : Option String
  current : Option String
  completed : Nat
deriving DecidableEq

inductive Phase where
  /-- The first attempt is in flight. -/
  | first
  /-- It was refused, and waits for a refresh. -/
  | waiting (refresh : Nat)
  | second
  | settled
deriving DecidableEq

structure Request where
  client : Client
  method : Method
  path : String
  phase : Phase
  sent : List Sent
  /-- The refresh that it waited for, and how many had completed when its 401
  arrived. -/
  refused : Option (Nat × Nat)
deriving DecidableEq

/-- A 401 of this request is for the client to refresh on. -/
def Request.refreshes (request : Request) (status : Option Nat) : Bool :=
  match request.client with
  | .fetch => !isAbsolute request.path && shouldRefresh status request.path
  | .axios => shouldRefresh status request.path

/-- The CSRF token of the next attempt.  The headers of `send` are built for
each attempt; those of axios are kept and assigned to. -/
def Request.token (request : Request) (cookie : Option String) :
    Option String :=
  match request.client with
  | .fetch => csrfHeaders cookie request.method
  | .axios => (csrfHeaders cookie request.method).or
      (request.sent.getLast?.bind Sent.token)

def Request.send (request : Request) (cookie : Option String)
    (completed : Nat) : Request :=
  { request with sent := request.sent ++
      [⟨request.token cookie, csrfHeaders cookie request.method, completed⟩] }

/-! ## The page -/

/-- A `POST /auth/refresh`. -/
structure Post where
  id : Nat
  /-- It is `inflight`, and not the socket's own. -/
  shared : Bool
deriving DecidableEq

structure Page where
  cookie : Option String
  /-- `inflight`. -/
  inflight : Option Nat
  refreshedSinceMessage : Bool
  requests : List Request
  /-- The refreshes in flight. -/
  posts : List Post
  /-- The refreshes that have completed, and whether they renewed the session.
  -/
  completed : List (Nat × Bool)
  nextPost : Nat

def Page.start (cookie : Option String) : Page where
  cookie
  inflight := none
  refreshedSinceMessage := false
  requests := []
  posts := []
  completed := []
  nextPost := 0

inductive Event where
  | call (client : Client) (method : Method) (path : String)
  /-- An attempt is answered, or fails. -/
  | answer (request : Nat) (status : Option Nat)
  /-- A refresh is answered, or fails. -/
  | refreshed (post : Nat) (ok : Bool)
  /-- A sensor socket is closed. -/
  | closed (code : Nat)
  /-- A sensor socket has a message. -/
  | message
  /-- The server sets the cookie. -/
  | cookie (token : Option String)

namespace Page

variable (page : Page)

def post (shared : Bool) : Page :=
  { page with
    posts := page.posts ++ [⟨page.nextPost, shared⟩]
    nextPost := page.nextPost + 1 }

def setRequest (index : Nat) (request : Request) : Page :=
  { page with requests := page.requests.set index request }

/-- `refreshSession`, and the refresh that it answers. -/
def refreshSession : Page × Nat :=
  match page.inflight with
  | some refresh => (page, refresh)
  | none => ({ page.post true with inflight := some page.nextPost },
      page.nextPost)

/-- What a request does when the refresh it waits for has completed. -/
def resume (refresh : Nat) (ok : Bool) (request : Request) : Request :=
  if request.phase = .waiting refresh then
    if ok then
      { request.send page.cookie page.completed.length with phase := .second }
    else { request with phase := .settled }
  else request

end Page

/-- `SESSION_EXPIRED`. -/
def sessionExpired : Nat := 4401

def step (page : Page) : Event → Option Page
  | .call client method path =>
      let request : Request := ⟨client, method, path, .first, [], none⟩
      some { page with requests := page.requests ++
        [request.send page.cookie page.completed.length] }
  | .answer index status =>
      match page.requests[index]? with
      | none => none
      | some request =>
          match request.phase with
          | .first =>
              if request.refreshes status then
                let (next, refresh) := page.refreshSession
                some (next.setRequest index { request with
                  phase := .waiting refresh
                  refused := some (refresh, page.completed.length) })
              else
                some (page.setRequest index { request with phase := .settled })
          | .second =>
              some (page.setRequest index { request with phase := .settled })
          | .waiting _ | .settled => none
  | .refreshed id ok =>
      match page.posts.find? (·.id = id) with
      | none => none
      | some post =>
          let next : Page :=
            { page with
              posts := page.posts.filter (·.id ≠ id)
              completed := page.completed ++ [(id, ok)] }
          if post.shared then
            some { next with
              inflight := none
              requests := next.requests.map (next.resume id ok) }
          else some next
  | .closed code =>
      if code = sessionExpired && !page.refreshedSinceMessage then
        some { page.post false with refreshedSinceMessage := true }
      else some page
  | .message => some { page with refreshedSinceMessage := false }
  | .cookie token => some { page with cookie := token }

/-! ## The law -/

/-- What is said of a request: it is sent at most twice, the second time only
after a refresh that had not completed when its 401 arrived has renewed the
session, with the CSRF token that is current, and not if that refresh failed.
-/
structure Request.Right (completed : List (Nat × Bool)) (request : Request) :
    Prop where
  twice : request.sent.length ≤ 2
  after : ∀ again ∈ request.sent[1]?, ∃ refresh count,
    request.refused = some (refresh, count) ∧
      refresh ∉ (completed.take count).map Prod.fst ∧
        (refresh, true) ∈ (completed.take again.completed).drop count
  current : ∀ again ∈ request.sent[1]?, again.token = again.current
  failed : ∀ refresh count, request.refused = some (refresh, count) →
    (refresh, false) ∈ completed → request.sent.length = 1

/-- One refresh at most is in flight, and the requests are right. -/
structure Page.Right (page : Page) : Prop where
  single : page.posts.length ≤ 1
  requests : ∀ request ∈ page.requests, request.Right page.completed

/-- The event starts no refresh beside another one, and no request of the
axios client is repeated with the token of its first attempt where there is no
current one. -/
def Apart (page : Page) : Event → Prop
  | .answer index status =>
      ∀ request ∈ page.requests[index]?, request.phase = .first →
        request.refreshes status = true → page.inflight = none →
          page.posts = []
  | .refreshed id ok =>
      ok = true → ∀ request ∈ page.requests, request.phase = .waiting id →
        request.client = .axios →
          csrfHeaders page.cookie request.method = none →
            request.sent.getLast?.bind Sent.token = none
  | .closed code =>
      code = sessionExpired → page.refreshedSinceMessage = false →
        page.posts = []
  | _ => True

/-! ## What one step preserves -/

/-- The request was repeated after the refresh that it waited for. -/
def Request.Repeated (completed : List (Nat × Bool)) (request : Request) :
    Prop :=
  ∃ first again refresh count, request.sent = [first, again] ∧
    request.refused = some (refresh, count) ∧
      count ≤ completed.length ∧ again.completed ≤ completed.length ∧
        refresh ∉ (completed.take count).map Prod.fst ∧
          (refresh, true) ∈ (completed.take again.completed).drop count

def Request.Kept (completed : List (Nat × Bool)) (inflight : Option Nat)
    (request : Request) : Prop :=
  match request.phase with
  | .first => request.sent.length = 1 ∧ request.refused = none
  | .waiting refresh => request.sent.length = 1 ∧ inflight = some refresh ∧
      ∃ count ≤ completed.length, request.refused = some (refresh, count)
  | .second => request.Repeated completed
  | .settled => request.sent.length = 1 ∨ request.Repeated completed

structure Page.Sound (page : Page) : Prop where
  posts : ∀ post ∈ page.posts, post.id < page.nextPost ∧
    post.id ∉ page.completed.map Prod.fst
  distinct : ∀ post ∈ page.posts, ∀ other ∈ page.posts,
    post.id = other.id → post = other
  completed : ∀ done ∈ page.completed, done.1 < page.nextPost
  once : (page.completed.map Prod.fst).Nodup
  inflight : ∀ refresh, page.inflight = some refresh ↔
    ⟨refresh, true⟩ ∈ page.posts
  requests : ∀ request ∈ page.requests,
    request.Kept page.completed page.inflight

section

variable {page next : Page} {request : Request}
variable {completed : List (Nat × Bool)} {inflight : Option Nat}

theorem Request.Repeated.append (repeated : request.Repeated completed)
    (done : Nat × Bool) : request.Repeated (completed ++ [done]) := by
  obtain ⟨first, again, refresh, count, sent, refused, early, late, fresh,
    renewed⟩ := repeated
  have longer : completed.length ≤ (completed ++ [done]).length := by simp
  refine ⟨first, again, refresh, count, sent, refused,
    Nat.le_trans early longer, Nat.le_trans late longer, ?_, ?_⟩
  · rwa [List.take_append_of_le_length early]
  · rwa [List.take_append_of_le_length late]

/-- A refresh that another one completes beside changes nothing. -/
theorem Request.Kept.append (kept : request.Kept completed inflight)
    (done : Nat × Bool) : request.Kept (completed ++ [done]) inflight := by
  unfold Request.Kept at kept ⊢
  split at kept
  · exact kept
  · obtain ⟨one, own, count, early, refused⟩ := kept
    exact ⟨one, own, count, Nat.le_trans early (by simp), refused⟩
  · exact kept.append done
  · exact kept.imp_right fun repeated => repeated.append done

/-- A refresh that is started lets no request wait for another one. -/
theorem Request.Kept.start (kept : request.Kept completed none)
    (refresh : Option Nat) : request.Kept completed refresh := by
  unfold Request.Kept at kept ⊢
  split at kept
  · exact kept
  · cases kept.2.1
  · exact kept
  · exact kept

theorem start_sound (cookie : Option String) : (Page.start cookie).Sound where
  posts := nofun
  distinct := nofun
  completed := nofun
  once := List.nodup_nil
  inflight _ := by simp [Page.start]
  requests := nofun

/-- The number of a new refresh is new. -/
theorem Page.Sound.post_new (sound : page.Sound) (shared : Bool) :
    ∀ post ∈ (page.post shared).posts, post.id < page.nextPost + 1 ∧
      post.id ∉ page.completed.map Prod.fst := by
  intro post member
  rcases List.mem_append.mp member with before | last
  · obtain ⟨below, fresh⟩ := sound.posts post before
    exact ⟨Nat.lt_succ_of_lt below, fresh⟩
  · rw [List.mem_singleton.mp last]
    refine ⟨Nat.lt_succ_self _, fun done => ?_⟩
    obtain ⟨entry, member, same⟩ := List.mem_map.mp done
    have below := sound.completed entry member
    rw [same] at below
    exact Nat.lt_irrefl _ below

theorem Page.Sound.post_distinct (sound : page.Sound) (shared : Bool) :
    ∀ post ∈ (page.post shared).posts, ∀ other ∈ (page.post shared).posts,
      post.id = other.id → post = other := by
  intro post member other also same
  rcases List.mem_append.mp member with before | last
  · have below := (sound.posts post before).1
    rcases List.mem_append.mp also with left | right
    · exact sound.distinct post before other left same
    · rw [same, List.mem_singleton.mp right] at below
      exact absurd below (Nat.lt_irrefl _)
  · rcases List.mem_append.mp also with left | right
    · have below := (sound.posts other left).1
      rw [← same, List.mem_singleton.mp last] at below
      exact absurd below (Nat.lt_irrefl _)
    · rw [List.mem_singleton.mp last, List.mem_singleton.mp right]

/-- A refresh of the socket's own. -/
theorem Page.Sound.post_sound (sound : page.Sound) : (page.post false).Sound where
  posts := sound.post_new false
  distinct := sound.post_distinct false
  completed done member := Nat.lt_succ_of_lt (sound.completed done member)
  once := sound.once
  inflight refresh := by
    rw [show (page.post false).inflight = page.inflight from rfl,
      sound.inflight]
    simp [Page.post]
  requests := sound.requests

/-- A refresh that is shared, if there is none. -/
theorem Page.Sound.refreshSession (sound : page.Sound) :
    page.refreshSession.1.Sound ∧
      page.refreshSession.1.inflight = some page.refreshSession.2 ∧
      page.refreshSession.1.requests = page.requests ∧
      page.refreshSession.1.completed = page.completed := by
  cases free : page.inflight with
  | some refresh =>
      simp only [Page.refreshSession, free]
      exact ⟨sound, trivial, trivial, trivial⟩
  | none =>
      simp only [Page.refreshSession, free]
      refine ⟨⟨sound.post_new true, sound.post_distinct true, fun done member =>
        Nat.lt_succ_of_lt (sound.completed done member), sound.once, ?_, ?_⟩,
        trivial, rfl, rfl⟩
      · intro refresh
        have none_shared : (⟨refresh, true⟩ : Post) ∉ page.posts := by
          rw [← sound.inflight, free]
          nofun
        simp [Page.post, none_shared, eq_comm]
      · intro request member
        have kept := sound.requests request member
        rw [free] at kept
        exact kept.start _

theorem Page.Sound.setRequest (sound : page.Sound) (index : Nat)
    (kept : request.Kept page.completed page.inflight) :
    (page.setRequest index request).Sound where
  posts := sound.posts
  distinct := sound.distinct
  completed := sound.completed
  once := sound.once
  inflight := sound.inflight
  requests other member := by
    rcases List.mem_or_eq_of_mem_set member with before | rfl
    · exact sound.requests other before
    · exact kept

/-- The request that a completed refresh has let go on. -/
theorem Page.Sound.resume {refresh : Nat} {ok : Bool}
    (fresh : refresh ∉ completed.map Prod.fst) (page : Page)
    (ended : page.completed = completed ++ [(refresh, ok)])
    (kept : request.Kept completed (some refresh)) :
    (page.resume refresh ok request).Kept (completed ++ [(refresh, ok)])
      none := by
  unfold Page.resume
  split
  · rename_i waited
    rw [Request.Kept, waited] at kept
    obtain ⟨one, -, count, early, refused⟩ := kept
    cases ok with
    | false => exact .inl one
    | true =>
        obtain ⟨first, sent⟩ := List.length_eq_one_iff.mp one
        refine ⟨first, ⟨request.token page.cookie,
          csrfHeaders page.cookie request.method, page.completed.length⟩,
          refresh, count, ?_, refused,
          Nat.le_trans early (by simp), ?_, ?_, ?_⟩
        · simp only [Request.send, sent]
          rfl
        · simp [ended]
        · rw [List.take_append_of_le_length early]
          intro done
          obtain ⟨entry, member, same⟩ := List.mem_map.mp done
          exact fresh (List.mem_map.mpr
            ⟨entry, List.mem_of_mem_take member, same⟩)
        · rw [ended, List.take_of_length_le (Nat.le_refl _),
            List.drop_append_of_le_length early]
          exact List.mem_append_right _ List.mem_cons_self
  · rename_i other
    have later := kept.append (refresh, ok)
    unfold Request.Kept at later ⊢
    split at later
    · exact later
    · rename_i phase waiting
      have same := Option.some.inj later.2.1
      rw [same] at other
      exact absurd waiting other
    · exact later
    · exact later

/-- A refresh has completed. -/
theorem Page.Sound.complete (sound : page.Sound) {post : Post} {ok : Bool}
    (member : post ∈ page.posts) :
    post.id ∉ page.completed.map Prod.fst ∧
      (∀ other ∈ page.posts.filter (·.id ≠ post.id),
        other.id < page.nextPost ∧ other.id ∉
          (page.completed ++ [(post.id, ok)]).map Prod.fst) ∧
      (∀ done ∈ page.completed ++ [(post.id, ok)],
        done.1 < page.nextPost) ∧
      ((page.completed ++ [(post.id, ok)]).map Prod.fst).Nodup := by
  obtain ⟨below, fresh⟩ := sound.posts post member
  refine ⟨fresh, ?_, ?_, ?_⟩
  · intro other left
    obtain ⟨there, apart⟩ := List.mem_filter.mp left
    obtain ⟨earlier, new⟩ := sound.posts other there
    refine ⟨earlier, ?_⟩
    rw [List.map_append, List.mem_append, not_or]
    exact ⟨new, by simpa using apart⟩
  · intro done either
    rcases List.mem_append.mp either with before | last
    · exact sound.completed done before
    · rw [List.mem_singleton.mp last]
      exact below
  · rw [List.map_append, List.nodup_append]
    refine ⟨sound.once, by simp, ?_⟩
    intro first before second last same
    rw [same, List.mem_singleton.mp last] at before
    exact fresh before

theorem step_sound {event : Event} (sound : page.Sound)
    (taken : step page event = some next) : next.Sound := by
  cases event with
  | call client method path =>
      cases taken
      refine ⟨sound.posts, sound.distinct, sound.completed, sound.once,
        sound.inflight, ?_⟩
      intro request member
      rcases List.mem_append.mp member with before | last
      · exact sound.requests request before
      · rw [List.mem_singleton.mp last]
        exact ⟨rfl, rfl⟩
  | answer index status =>
      simp only [step] at taken
      split at taken
      · cases taken
      · rename_i request known
        have kept := sound.requests request (List.mem_of_getElem? known)
        split at taken
        · rename_i first
          rw [Request.Kept, first] at kept
          split at taken
          · cases taken
            obtain ⟨started, inflight, -, completed⟩ := sound.refreshSession
            refine started.setRequest index ⟨kept.1, inflight, ?_⟩
            exact ⟨page.completed.length, Nat.le_of_eq (by rw [completed]), rfl⟩
          · cases taken
            exact sound.setRequest index (.inl kept.1)
        · rename_i second
          rw [Request.Kept, second] at kept
          cases taken
          exact sound.setRequest index (.inr kept)
        · cases taken
        · cases taken
  | refreshed id ok =>
      simp only [step] at taken
      split at taken
      · cases taken
      · rename_i post found
        have member := List.mem_of_find?_eq_some found
        have own : post.id = id := by
          simpa using List.find?_some found
        subst own
        obtain ⟨fresh, posts, completed, once⟩ :=
          @Page.Sound.complete _ sound _ ok member
        have distinct : ∀ first ∈ page.posts.filter (·.id ≠ post.id),
            ∀ other ∈ page.posts.filter (·.id ≠ post.id),
              first.id = other.id → first = other :=
          fun first left other right =>
            sound.distinct first (List.mem_filter.mp left).1 other
              (List.mem_filter.mp right).1
        split at taken
        · rename_i shared
          cases taken
          have inflight : page.inflight = some post.id :=
            (sound.inflight _).mpr (shared ▸ member)
          refine ⟨posts, distinct, completed, once, ?_, ?_⟩
          · intro refresh
            refine ⟨nofun, fun left => ?_⟩
            obtain ⟨there, other⟩ := List.mem_filter.mp left
            have same := (sound.inflight refresh).mpr there
            rw [inflight] at same
            simp [Option.some.inj same] at other
          · intro request resumed
            obtain ⟨before, listed, rfl⟩ := List.mem_map.mp resumed
            have kept := sound.requests before listed
            rw [inflight] at kept
            exact Page.Sound.resume fresh _ rfl kept
        · rename_i apart
          cases taken
          refine ⟨posts, distinct, completed, once, ?_, ?_⟩
          · intro refresh
            rw [sound.inflight, List.mem_filter]
            refine ⟨fun there => ⟨there, ?_⟩, And.left⟩
            have other : refresh ≠ post.id := by
              intro same
              have alike := sound.distinct _ there post member same
              exact apart (alike ▸ rfl)
            simpa using other
          · intro request listed
            exact (sound.requests request listed).append _
  | closed code =>
      simp only [step] at taken
      split at taken
      · cases taken
        have posted := sound.post_sound
        exact ⟨posted.posts, posted.distinct, posted.completed, posted.once,
          posted.inflight, posted.requests⟩
      · cases taken
        exact sound
  | message =>
      cases taken
      exact ⟨sound.posts, sound.distinct, sound.completed, sound.once,
        sound.inflight, sound.requests⟩
  | cookie token =>
      cases taken
      exact ⟨sound.posts, sound.distinct, sound.completed, sound.once,
        sound.inflight, sound.requests⟩

/-- A request that was sent once is right. -/
theorem Request.Right.of_one (one : request.sent.length = 1) :
    request.Right completed := by
  have none_again : request.sent[1]? = none := by
    exact List.getElem?_eq_none_iff.mpr (Nat.le_of_eq one)
  exact ⟨by omega, by simp [none_again], by simp [none_again],
    fun _ _ _ _ => one⟩

theorem Request.Repeated.right (repeated : request.Repeated completed)
    (once : (completed.map Prod.fst).Nodup)
    (current : ∀ again ∈ request.sent[1]?, again.token = again.current) :
    request.Right completed := by
  obtain ⟨first, again, refresh, count, sent, refused, -, -, fresh,
    renewed⟩ := repeated
  have renewed_once := List.mem_of_mem_take (List.mem_of_mem_drop renewed)
  refine ⟨by simp [sent], ?_, current, ?_⟩
  · intro own sent_again
    rw [sent] at sent_again
    cases sent_again
    exact ⟨refresh, count, refused, fresh, renewed⟩
  · intro other others known failed
    rw [refused] at known
    cases known
    cases List.inj_on_of_nodup_map once renewed_once failed rfl

/-- Only the token is not right in every state. -/
theorem Page.Sound.request_right (sound : page.Sound)
    (member : request ∈ page.requests)
    (current : ∀ again ∈ request.sent[1]?, again.token = again.current) :
    request.Right page.completed := by
  have kept := sound.requests request member
  unfold Request.Kept at kept
  split at kept
  · exact .of_one kept.1
  · exact .of_one kept.1
  · exact kept.right sound.once current
  · rcases kept with one | repeated
    · exact .of_one one
    · exact repeated.right sound.once current

theorem Page.Sound.right_iff (sound : page.Sound) :
    page.Right ↔ page.posts.length ≤ 1 ∧ ∀ request ∈ page.requests,
      ∀ again ∈ request.sent[1]?, again.token = again.current := by
  constructor
  · intro right
    exact ⟨right.single, fun request member =>
      (right.requests request member).current⟩
  · rintro ⟨single, current⟩
    exact ⟨single, fun request member =>
      sound.request_right member (current request member)⟩

/-- A second refresh beside the first. -/
theorem post_single (page : Page) (shared : Bool) :
    (page.post shared).posts.length ≤ 1 ↔ page.posts = [] := by
  rw [Page.post, List.length_append, List.length_singleton,
    ← List.length_eq_zero_iff]
  omega

/-- The token of the repeated request is the current one. -/
theorem resume_token {refresh : Nat} (one : request.sent.length = 1)
    (waited : request.phase = .waiting refresh) :
    (∀ again ∈ (page.resume refresh true request).sent[1]?,
        again.token = again.current) ↔
      (request.client = .axios →
        csrfHeaders page.cookie request.method = none →
          request.sent.getLast?.bind Sent.token = none) := by
  obtain ⟨first, sent⟩ := List.length_eq_one_iff.mp one
  rw [Page.resume, if_pos waited, if_pos rfl]
  simp only [Request.send, sent, List.singleton_append,
    List.getElem?_cons_succ, List.getElem?_cons_zero, Option.mem_some_iff,
    forall_eq', Request.token, List.getLast?_singleton, Option.bind_some]
  cases request.client with
  | fetch => simp
  | axios =>
      cases csrfHeaders page.cookie request.method with
      | none => simp
      | some token => simp

theorem Page.Sound.resume_current (sound : page.Sound) {done : Page}
    {refresh : Nat} {ok : Bool} (listed : request ∈ page.requests)
    (current : ∀ again ∈ request.sent[1]?, again.token = again.current) :
    (∀ again ∈ (done.resume refresh ok request).sent[1]?,
        again.token = again.current) ↔
      (ok = true → request.phase = .waiting refresh →
        request.client = .axios →
          csrfHeaders done.cookie request.method = none →
            request.sent.getLast?.bind Sent.token = none) := by
  by_cases waited : request.phase = .waiting refresh
  · have kept := sound.requests request listed
    rw [Request.Kept, waited] at kept
    cases ok with
    | false =>
        rw [Page.resume, if_pos waited]
        exact ⟨fun _ => nofun, fun _ => current⟩
    | true =>
        rw [resume_token kept.1 waited]
        exact ⟨fun same _ _ => same, fun given => given rfl waited⟩
  · rw [Page.resume, if_neg waited]
    exact ⟨fun _ _ own => absurd own waited, fun _ => current⟩

theorem step_right {event : Event} (sound : page.Sound) (right : page.Right)
    (taken : step page event = some next) :
    next.Right ↔ Apart page event := by
  have current := (sound.right_iff.mp right).2
  rw [(step_sound sound taken).right_iff]
  cases event with
  | call client method path =>
      cases taken
      refine ⟨fun _ => trivial, fun _ => ⟨right.single, ?_⟩⟩
      intro request member
      rcases List.mem_append.mp member with before | last
      · exact current request before
      · rw [List.mem_singleton.mp last]
        nofun
  | answer index status =>
      simp only [step] at taken
      split at taken
      · cases taken
      · rename_i request known
        have own := current request (List.mem_of_getElem? known)
        have kept_current (changed : Request)
            (same : changed.sent = request.sent) :
            ∀ other ∈ page.requests.set index changed,
              ∀ again ∈ other.sent[1]?, again.token = again.current := by
          intro other member
          rcases List.mem_or_eq_of_mem_set member with before | rfl
          · exact current other before
          · rwa [same]
        split at taken
        · rename_i first
          split at taken
          · rename_i refused
            cases taken
            change ((page.refreshSession.1.posts.length ≤ 1) ∧ _) ↔ _
            cases free : page.inflight with
            | some refresh =>
                simp only [Page.refreshSession, free]
                refine ⟨fun _ _ _ _ _ idle => ?_, fun _ =>
                  ⟨right.single, kept_current _ rfl⟩⟩
                rw [free] at idle
                cases idle
            | none =>
                simp only [Page.refreshSession, free]
                constructor
                · rintro ⟨single, -⟩ - - - - -
                  exact (post_single page true).mp single
                · intro apart
                  exact ⟨(post_single page true).mpr
                    (apart request known first refused free),
                    kept_current _ rfl⟩
          · rename_i spared
            cases taken
            refine ⟨fun _ other there _ refreshes => ?_, fun _ =>
              ⟨right.single, kept_current _ rfl⟩⟩
            rw [known] at there
            cases there
            exact absurd refreshes spared
        · rename_i second
          cases taken
          refine ⟨fun _ other there first => ?_, fun _ =>
            ⟨right.single, kept_current _ rfl⟩⟩
          rw [known] at there
          cases there
          rw [second] at first
          cases first
        · cases taken
        · cases taken
  | refreshed id ok =>
      simp only [step] at taken
      split at taken
      · cases taken
      · rename_i post found
        have fewer : (page.posts.filter (·.id ≠ id)).length ≤ 1 :=
          Nat.le_trans (List.length_filter_le _ _) right.single
        have member := List.mem_of_find?_eq_some found
        have own : post.id = id := by
          simpa using List.find?_some found
        split at taken
        · rename_i shared
          cases taken
          constructor
          · rintro ⟨-, resumed⟩ renewed request listed
            let done : Page :=
              { page with
                posts := page.posts.filter (·.id ≠ id)
                completed := page.completed ++ [(id, ok)] }
            have there : done.resume id ok request ∈
                page.requests.map (done.resume id ok) :=
              List.mem_map_of_mem listed
            exact (@Page.Sound.resume_current page request sound done id ok
              listed (current request listed)).mp (resumed _ there) renewed
          · intro apart
            refine ⟨fewer, fun request resumed => ?_⟩
            obtain ⟨before, listed, rfl⟩ := List.mem_map.mp resumed
            exact (sound.resume_current listed (current before listed)).mpr
              fun renewed => apart renewed before listed
        · rename_i apart
          cases taken
          refine ⟨fun _ _ request listed waited => ?_, fun _ =>
            ⟨fewer, current⟩⟩
          -- a request waits for a shared refresh only
          have kept := sound.requests request listed
          rw [Request.Kept, waited] at kept
          have there := (sound.inflight id).mp kept.2.1
          have same := sound.distinct _ there post member own.symm
          exact absurd (same ▸ rfl) apart
  | closed code =>
      simp only [step] at taken
      split at taken
      · rename_i expired
        obtain ⟨code_own, unspent⟩ := Bool.and_eq_true_iff.mp expired
        cases taken
        constructor
        · rintro ⟨single, -⟩ - -
          exact (post_single page false).mp single
        · intro apart
          refine ⟨(post_single page false).mpr ?_, current⟩
          exact apart (of_decide_eq_true code_own) (by simpa using unspent)
      · rename_i spared
        cases taken
        refine ⟨fun _ own unspent => ?_, fun _ => ⟨right.single, current⟩⟩
        simp [own, unspent] at spared
  | message =>
      cases taken
      exact ⟨fun _ => trivial, fun _ => ⟨right.single, current⟩⟩
  | cookie token =>
      cases taken
      exact ⟨fun _ => trivial, fun _ => ⟨right.single, current⟩⟩

end

/-! ## Runs -/

/-- The event leads to a state that is right. -/
def Lawful (page : Page) (event : Event) : Prop :=
  ∀ next, step page event = some next → next.Right

theorem start_right (cookie : Option String) : (Page.start cookie).Right where
  single := Nat.zero_le 1
  requests := nofun

/-- An event that cannot happen starts and repeats nothing. -/
theorem apart_of_none {page : Page} {event : Event} (sound : page.Sound)
    (never : step page event = none) : Apart page event := by
  cases event with
  | answer index status =>
      intro request there first refreshes
      simp only [step, show page.requests[index]? = some request from there,
        first, refreshes, if_true] at never
      cases never
  | refreshed id ok =>
      intro _ request listed waited
      have kept := sound.requests request listed
      rw [Request.Kept, waited] at kept
      have there := (sound.inflight id).mp kept.2.1
      simp only [step] at never
      split at never
      · rename_i missing
        have apart := List.find?_eq_none.mp missing _ there
        simp at apart
      · split at never
        · cases never
        · cases never
  | closed code =>
      simp only [step] at never
      split at never
      · cases never
      · cases never
  | call client method path => trivial
  | message => trivial
  | cookie token => trivial

theorem lawful_along_iff {page : Page} (sound : page.Sound)
    (right : page.Right) (events : List Event) :
    Along step Lawful page events ↔ Along step Apart page events := by
  induction events generalizing page with
  | nil => exact Iff.rfl
  | cons event events induction =>
      cases stepped : step page event with
      | none =>
          have never {other : Page} : step page event ≠ some other := by
            rw [stepped]
            nofun
          refine ⟨fun _ => ⟨apart_of_none sound stepped, ?_⟩, fun _ => ⟨?_, ?_⟩⟩
          · exact fun _ taken => absurd taken never
          · exact fun _ taken => absurd taken never
          · exact fun _ taken => absurd taken never
      | some next =>
          have same := step_right sound right stepped
          constructor
          · rintro ⟨lawful, later⟩
            have reached := lawful next stepped
            refine ⟨same.mp reached, fun other taken => ?_⟩
            cases stepped.symm.trans taken
            exact (induction (step_sound sound stepped) reached).mp
              (later next stepped)
          · rintro ⟨apart, later⟩
            have reached := same.mpr apart
            refine ⟨fun other taken => ?_, fun other taken => ?_⟩
            · cases stepped.symm.trans taken
              exact reached
            · cases stepped.symm.trans taken
              exact (induction (step_sound sound stepped) reached).mpr
                (later next stepped)

/-- In every state of a run one refresh at most is in flight and the requests
are right exactly where no event of the run starts a refresh beside another one
or repeats a token that is not current. -/
theorem refreshes_right_iff (cookie : Option String) (events : List Event) :
    Along step Lawful (.start cookie) events ↔
      Along step Apart (.start cookie) events :=
  lawful_along_iff (start_sound cookie) (start_right cookie) events

/-- A request is refused while the socket refreshes the session. -/
theorem socket_refreshes_beside :
    ¬∀ (cookie : Option String) (events : List Event),
      Along step Lawful (.start cookie) events := by
  intro always
  have refused : shouldRefresh (some 401) "/api/alerts" = true := by
    decide +kernel
  have along := (lawful_along_iff (start_sound none) (start_right none)
    [.call .axios .get "/api/alerts", .closed 4401,
      .answer 0 (some 401)]).mp (always none _)
  have apart := ((along.2 _ rfl).2 _ rfl).1
  have posts := apart _ rfl rfl refused rfl
  cases posts

end IndustryFlow.Browser
