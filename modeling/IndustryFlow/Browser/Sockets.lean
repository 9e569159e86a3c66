import IndustryFlow.Concurrent.Run
import Mathlib.Data.List.Nodup

/-!
# The sensor socket of a page

One field of the service names the current socket.  The close of an older
socket, the timer of a reconnection and the answer of a refresh open and clear
it, each without asking about the others.
-/

namespace IndustryFlow.Browser.Sockets

open Concurrent

/-- `WebSocketService`, and what the browser holds for it: a socket, a timer
and a message are the number of those before it.  The code does not read
`given`, `left` and `stray`. -/
structure Page where
  /-- `ws`. -/
  ws : Option Nat
  messageListeners : List Nat
  errorListeners : List Nat
  /-- `reconnectTimer`; it may name a timer that has fired. -/
  reconnectTimer : Option Nat
  refreshedSinceMessage : Bool
  /-- `new WebSocket` does not throw. -/
  constructs : Bool
  sockets : Nat
  /-- The sockets that have not been closed. -/
  live : List Nat
  /-- The sockets whose close event was delivered. -/
  ended : List Nat
  nextTimer : Nat
  /-- The timers that are still to fire. -/
  timers : List Nat
  /-- The refreshes in flight. -/
  refreshes : Nat
  nextMessage : Nat
  /-- The messages that are still to be delivered, each with its socket. -/
  transit : List (Nat × Nat)
  /-- What was given to whom. -/
  given : List (Nat × Nat)
  /-- `disconnect` was called, and `subscribe` not since. -/
  left : Bool
  /-- A socket was opened at such a time. -/
  stray : Bool

def start : Page where
  ws := none
  messageListeners := []
  errorListeners := []
  reconnectTimer := none
  refreshedSinceMessage := false
  constructs := true
  sockets := 0
  live := []
  ended := []
  nextTimer := 0
  timers := []
  refreshes := 0
  nextMessage := 0
  transit := []
  given := []
  left := false
  stray := false

inductive Event where
  | subscribe (onMessage onError : Option Nat)
  /-- What `subscribe` returns is called. -/
  | unsubscribe (onMessage onError : Option Nat)
  | disconnect
  | opened (socket : Nat)
  /-- The server sends a message to the sockets there are. -/
  | sends
  | message (socket message : Nat) (parses : Bool)
  | closed (socket code : Nat)
  | timer (timer : Nat)
  | refreshed (ok : Bool)
  | constructs (works : Bool)

/-- `Set.add`, of a listener if there is one. -/
def add (listeners : List Nat) : Option Nat → List Nat
  | none => listeners
  | some listener =>
      if listener ∈ listeners then listeners else listeners ++ [listener]

/-- `Set.delete`. -/
def delete (listeners : List Nat) : Option Nat → List Nat
  | none => listeners
  | some listener => listeners.filter (· ≠ listener)

def policyViolation : Nat := 1008

/-- `SESSION_EXPIRED`. -/
def sessionExpired : Nat := 4401

namespace Page

variable (page : Page)

/-- `_open`. -/
def openSocket : Page :=
  if page.constructs then
    { page with
      ws := some page.sockets
      sockets := page.sockets + 1
      live := page.live ++ [page.sockets]
      stray := page.stray || page.left }
  else page

/-- `subscribe`. -/
def subscribe (onMessage onError : Option Nat) : Page :=
  let subscribed : Page :=
    { page with
      messageListeners := add page.messageListeners onMessage
      errorListeners := add page.errorListeners onError
      left := false }
  if page.ws.isNone then subscribed.openSocket else subscribed

/-- `clearTimeout(this.reconnectTimer)`, if there is one. -/
def clearTimer : Page :=
  match page.reconnectTimer with
  | none => page
  | some timer =>
      { page with
        timers := page.timers.filter (· ≠ timer)
        reconnectTimer := none }

/-- `disconnect`. -/
def disconnect : Page :=
  let cleared := page.clearTimer
  { cleared with
    messageListeners := []
    errorListeners := []
    live := match page.ws with
      | none => page.live
      | some socket => page.live.filter (· ≠ socket)
    ws := none
    left := true }

/-- Whether anyone is still listening. -/
def heard : Bool :=
  !page.messageListeners.isEmpty || !page.errorListeners.isEmpty

/-- `onclose`, whichever socket it is of. -/
def onclose (socket code : Nat) : Page :=
  let closed : Page :=
    { page with
      ws := none
      live := page.live.filter (· ≠ socket)
      ended := page.ended ++ [socket] }
  if code = policyViolation then closed
  else if code = sessionExpired then
    if page.refreshedSinceMessage then closed
    else
      { closed with
        refreshedSinceMessage := true
        refreshes := page.refreshes + 1 }
  else if page.heard then
    { closed with
      reconnectTimer := some page.nextTimer
      timers := page.timers ++ [page.nextTimer]
      nextTimer := page.nextTimer + 1 }
  else closed

end Page

def step (page : Page) : Event → Option Page
  | .subscribe onMessage onError => some (page.subscribe onMessage onError)
  | .unsubscribe onMessage onError => some
      { page with
        messageListeners := delete page.messageListeners onMessage
        errorListeners := delete page.errorListeners onError }
  | .disconnect => some page.disconnect
  | .opened socket =>
      if socket < page.sockets then some page.clearTimer else none
  | .sends => some
      { page with
        transit := page.transit ++ page.live.map fun socket =>
          (socket, page.nextMessage)
        nextMessage := page.nextMessage + 1 }
  | .message socket message parses =>
      if (socket, message) ∈ page.transit then some
        { page with
          refreshedSinceMessage := false
          transit := page.transit.filter (· ≠ (socket, message))
          given := page.given ++
            if parses then page.messageListeners.map fun listener =>
              (listener, message)
            else [] }
      else none
  | .closed socket code =>
      if socket < page.sockets ∧ socket ∉ page.ended then
        some (page.onclose socket code)
      else none
  | .timer timer =>
      if timer ∈ page.timers then
        some ({ page with timers :=
          page.timers.filter (· ≠ timer) } : Page).openSocket
      else none
  | .refreshed ok =>
      match page.refreshes with
      | 0 => none
      | left + 1 =>
          let answered : Page := { page with refreshes := left }
          some (if ok then answered.openSocket else answered)
  | .constructs works => some { page with constructs := works }

/-! ## The law -/

/-- One socket at most is not closed, no message is given to a listener twice,
and none was opened after a disconnect without a later subscription. -/
structure Page.Right (page : Page) : Prop where
  single : page.live.length ≤ 1
  once : page.given.Nodup
  quiet : page.stray = false

/-- Nothing is still to open a socket. -/
def Page.Still (page : Page) : Prop :=
  page.timers = [] ∧ page.refreshes = 0

/-- The event does not happen beside one that is still to open a socket: there
is no subscription that opens one, and no disconnection beside a refresh; and
of the sockets only the current one is closed, except that an older one may be
while there is no other and its close starts nothing. -/
def Orderly (page : Page) : Event → Prop
  | .subscribe _ _ => page.ws = none → page.Still
  | .disconnect => page.refreshes = 0
  | .closed socket code => page.ws = some socket ∨
      page.ws = none ∧ (code = policyViolation ∨
        (code = sessionExpired ∧ page.refreshedSinceMessage = true) ∨
          (code ≠ sessionExpired ∧ page.heard = false))
  | _ => True

instance Orderly.decidable (page : Page) :
    (event : Event) → Decidable (Orderly page event)
  | .subscribe _ _ => inferInstanceAs
      (Decidable (page.ws = none → page.timers = [] ∧ page.refreshes = 0))
  | .disconnect => inferInstanceAs (Decidable (page.refreshes = 0))
  | .closed socket code => inferInstanceAs
      (Decidable (page.ws = some socket ∨
        page.ws = none ∧ (code = policyViolation ∨
          (code = sessionExpired ∧ page.refreshedSinceMessage = true) ∨
            (code ≠ sessionExpired ∧ page.heard = false))))
  | .unsubscribe _ _ => .isTrue trivial
  | .opened _ => .isTrue trivial
  | .sends => .isTrue trivial
  | .message _ _ _ => .isTrue trivial
  | .timer _ => .isTrue trivial
  | .refreshed _ => .isTrue trivial
  | .constructs _ => .isTrue trivial

/-! ## What one step preserves -/

/-- Where the next socket comes from. -/
inductive Page.Shape (page : Page) : Prop where
  | idle : page.ws = none → page.live = [] → page.timers = [] →
      page.refreshes = 0 → page.Shape
  | live (socket : Nat) : page.ws = some socket → page.live = [socket] →
      page.timers = [] → page.refreshes = 0 → page.left = false → page.Shape
  | reconnecting (timer : Nat) : page.ws = none → page.live = [] →
      page.timers = [timer] → page.reconnectTimer = some timer →
      page.refreshes = 0 → page.left = false → page.Shape
  | refreshing : page.ws = none → page.live = [] → page.timers = [] →
      page.refreshes = 1 → page.left = false → page.Shape

structure Page.Sound (page : Page) : Prop where
  shape : page.Shape
  listeners : page.messageListeners.Nodup
  sent : ∀ copy ∈ page.transit, copy.2 < page.nextMessage
  copies : ∀ copy ∈ page.transit, ∀ other ∈ page.transit,
    copy.2 = other.2 → copy = other
  known : ∀ pair ∈ page.given, pair.2 < page.nextMessage
  apart : ∀ pair ∈ page.given, ∀ copy ∈ page.transit, pair.2 ≠ copy.2
  once : page.given.Nodup
  quiet : page.stray = false

section

variable {page next : Page}

theorem Page.Shape.single (shape : page.Shape) : page.live.length ≤ 1 := by
  cases shape with
  | idle _ live => simp [live]
  | live socket _ live => simp [live]
  | reconnecting timer _ live => simp [live]
  | refreshing _ live => simp [live]

theorem Page.Sound.right (sound : page.Sound) : page.Right :=
  ⟨sound.shape.single, sound.once, sound.quiet⟩

theorem start_sound : start.Sound where
  shape := .idle rfl rfl rfl rfl
  listeners := List.nodup_nil
  sent := nofun
  copies := nofun
  known := nofun
  apart := nofun
  once := List.nodup_nil
  quiet := rfl

/-- A change that leaves the messages as they are. -/
theorem Page.Sound.change {changed : Page} (sound : page.Sound)
    (shape : changed.Shape) (listeners : changed.messageListeners.Nodup)
    (next_message : changed.nextMessage = page.nextMessage)
    (transit : changed.transit = page.transit)
    (given : changed.given = page.given) (quiet : changed.stray = false) :
    changed.Sound where
  shape := shape
  listeners := listeners
  sent := by
    rw [transit, next_message]
    exact sound.sent
  copies := by
    rw [transit]
    exact sound.copies
  known := by
    rw [given, next_message]
    exact sound.known
  apart := by
    rw [given, transit]
    exact sound.apart
  once := by
    rw [given]
    exact sound.once
  quiet := quiet

theorem add_nodup {listeners : List Nat} (distinct : listeners.Nodup)
    (listener : Option Nat) : (add listeners listener).Nodup := by
  unfold add
  split
  · exact distinct
  · split
    · exact distinct
    · rename_i fresh
      rw [← List.concat_eq_append]
      exact List.Nodup.concat fresh distinct

theorem delete_nodup {listeners : List Nat} (distinct : listeners.Nodup)
    (listener : Option Nat) : (delete listeners listener).Nodup := by
  unfold delete
  split
  · exact distinct
  · exact distinct.filter _

/-- A socket is opened where nothing else is there to open one. -/
theorem openSocket_shape (closed : page.ws = none) (none_live : page.live = [])
    (still : page.Still) (subscribed : page.left = false) :
    page.openSocket.Shape := by
  unfold Page.openSocket
  split
  · exact .live page.sockets rfl (by simp [none_live]) still.1 still.2
      subscribed
  · exact .idle closed none_live still.1 still.2

theorem Page.Sound.openSocket (sound : page.Sound)
    (shape : page.openSocket.Shape) (subscribed : page.left = false) :
    page.openSocket.Sound := by
  refine sound.change shape ?_ ?_ ?_ ?_ ?_
  · unfold Page.openSocket
    split
    · exact sound.listeners
    · exact sound.listeners
  · unfold Page.openSocket
    split <;> rfl
  · unfold Page.openSocket
    split <;> rfl
  · unfold Page.openSocket
    split <;> rfl
  · unfold Page.openSocket
    split
    · simp [sound.quiet, subscribed]
    · exact sound.quiet

/-- Clearing the timer leaves no reconnection. -/
theorem clearTimer_shape (shape : page.Shape) : page.clearTimer.Shape := by
  unfold Page.clearTimer
  cases held : page.reconnectTimer with
  | none => exact shape
  | some timer =>
      cases shape with
      | idle closed none_live idle renewed =>
          exact .idle closed none_live (by simp [idle]) renewed
      | live socket own live idle renewed subscribed =>
          exact .live socket own live (by simp [idle]) renewed subscribed
      | reconnecting other closed none_live waiting own renewed =>
          have same : timer = other := by
            rw [held] at own
            exact Option.some.inj own
          exact .idle closed none_live (by simp [waiting, same]) renewed
      | refreshing closed none_live idle one subscribed =>
          exact .refreshing closed none_live (by simp [idle]) one subscribed

theorem Page.Sound.clearTimer (sound : page.Sound) :
    page.clearTimer.Sound := by
  refine sound.change (clearTimer_shape sound.shape) ?_ ?_ ?_ ?_ ?_
  all_goals unfold Page.clearTimer
  all_goals split
  · exact sound.listeners
  · exact sound.listeners
  · rfl
  · rfl
  · rfl
  · rfl
  · rfl
  · rfl
  · exact sound.quiet
  · exact sound.quiet

/-- The listeners alone change, and `disconnect` may be taken back. -/
theorem Page.Sound.listen (sound : page.Sound) {heard : List Nat}
    (distinct : heard.Nodup) (errors : List Nat) {gone : Bool}
    (stays : page.left = false → gone = false) :
    ({ page with
      messageListeners := heard
      errorListeners := errors
      left := gone } : Page).Sound := by
  refine sound.change ?_ distinct rfl rfl rfl sound.quiet
  cases sound.shape with
  | idle closed live idle renewed => exact .idle closed live idle renewed
  | live socket own live idle renewed subscribed =>
      exact .live socket own live idle renewed (stays subscribed)
  | reconnecting timer closed live waiting own renewed subscribed =>
      exact .reconnecting timer closed live waiting own renewed
        (stays subscribed)
  | refreshing closed live idle one subscribed =>
      exact .refreshing closed live idle one (stays subscribed)

theorem Page.Shape.closed_live (shape : page.Shape) (closed : page.ws = none) :
    page.live = [] := by
  cases shape with
  | live _ own => rw [closed] at own; cases own
  | idle _ live => exact live
  | reconnecting _ _ live => exact live
  | refreshing _ live => exact live

theorem Page.Sound.subscribe (sound : page.Sound)
    (onMessage onError : Option Nat) (still : page.ws = none → page.Still) :
    (page.subscribe onMessage onError).Sound := by
  have subscribed := sound.listen (add_nodup sound.listeners onMessage)
    (add page.errorListeners onError) (fun _ => rfl)
  unfold Page.subscribe
  dsimp only
  split
  · rename_i closed
    have closed := Option.isNone_iff_eq_none.mp closed
    exact subscribed.openSocket (openSocket_shape closed
      (sound.shape.closed_live closed) (still closed) rfl) rfl
  · exact subscribed

theorem Page.Sound.disconnect (sound : page.Sound)
    (renewed : page.refreshes = 0) : page.disconnect.Sound := by
  have cleared := sound.clearTimer
  refine cleared.change ?_ List.nodup_nil rfl rfl rfl cleared.quiet
  have kept : page.clearTimer.refreshes = page.refreshes := by
    unfold Page.clearTimer
    split <;> rfl
  refine .idle rfl ?_ ?_ (kept.trans renewed)
  · unfold Page.disconnect
    cases sound.shape with
    | idle closed live => simp [closed, live]
    | live socket own live => simp [own, live]
    | reconnecting _ closed live => simp [closed, live]
    | refreshing closed live => simp [closed, live]
  · change page.clearTimer.timers = []
    cases clearTimer_shape sound.shape with
    | idle _ _ idle => exact idle
    | live _ _ _ idle => exact idle
    | refreshing _ _ idle => exact idle
    | reconnecting timer _ _ waiting own =>
        unfold Page.clearTimer at own waiting ⊢
        split at own
        · rename_i held
          rw [held] at own
          cases own
        · cases own

/-- The close of the current socket. -/
theorem onclose_shape {socket : Nat} (code : Nat) (shape : page.Shape)
    (own : page.ws = some socket) : (page.onclose socket code).Shape := by
  cases shape with
  | idle closed => rw [own] at closed; cases closed
  | reconnecting _ closed => rw [own] at closed; cases closed
  | refreshing closed => rw [own] at closed; cases closed
  | live other same live idle renewed subscribed =>
      rw [own] at same
      cases same
      have none_live : page.live.filter (· ≠ socket) = [] := by simp [live]
      unfold Page.onclose
      split
      · exact .idle rfl none_live idle renewed
      · split
        · split
          · exact .idle rfl none_live idle renewed
          · exact .refreshing rfl none_live idle (by simp [renewed])
              subscribed
        · split
          · exact .reconnecting page.nextTimer rfl none_live (by simp [idle])
              rfl renewed subscribed
          · exact .idle rfl none_live idle renewed

/-- A late close that starts nothing. -/
theorem onclose_late {socket code : Nat} (shape : page.Shape)
    (closed : page.ws = none)
    (quiet : code = policyViolation ∨
      (code = sessionExpired ∧ page.refreshedSinceMessage = true) ∨
        (code ≠ sessionExpired ∧ page.heard = false)) :
    (page.onclose socket code).Shape := by
  have same : page.onclose socket code =
      { page with
        ws := none
        live := page.live.filter (· ≠ socket)
        ended := page.ended ++ [socket] } := by
    unfold Page.onclose
    split
    · rfl
    · rename_i other
      rcases quiet with policy | ⟨expired, refreshed⟩ | ⟨kept, unheard⟩
      · exact absurd policy other
      · rw [if_pos expired, if_pos refreshed]
      · rw [if_neg kept, if_neg (by simp [unheard])]
  rw [same]
  cases shape with
  | idle _ live idle renewed => exact .idle rfl (by simp [live]) idle renewed
  | live _ own => rw [closed] at own; cases own
  | reconnecting timer _ live waiting own renewed subscribed =>
      exact .reconnecting timer rfl (by simp [live]) waiting own renewed
        subscribed
  | refreshing _ live idle one subscribed =>
      exact .refreshing rfl (by simp [live]) idle one subscribed

theorem Page.Sound.onclose (sound : page.Sound) {socket code : Nat}
    (shape : (page.onclose socket code).Shape) :
    (page.onclose socket code).Sound := by
  refine sound.change shape ?_ ?_ ?_ ?_ ?_
  all_goals unfold Page.onclose
  all_goals split_ifs
  all_goals first | rfl | exact sound.listeners | exact sound.quiet

/-- A message is sent to one socket at most. -/
theorem Page.Sound.sends (sound : page.Sound) :
    ({ page with
      transit := page.transit ++ page.live.map fun socket =>
        (socket, page.nextMessage)
      nextMessage := page.nextMessage + 1 } : Page).Sound where
  shape := by
    cases sound.shape with
    | idle closed live idle renewed => exact .idle closed live idle renewed
    | live socket own live idle renewed subscribed =>
        exact .live socket own live idle renewed subscribed
    | reconnecting timer closed live waiting own renewed subscribed =>
        exact .reconnecting timer closed live waiting own renewed subscribed
    | refreshing closed live idle one subscribed =>
        exact .refreshing closed live idle one subscribed
  listeners := sound.listeners
  sent copy member := by
    rcases List.mem_append.mp member with before | now
    · exact Nat.lt_succ_of_lt (sound.sent copy before)
    · obtain ⟨socket, -, rfl⟩ := List.mem_map.mp now
      exact Nat.lt_succ_self _
  copies copy member other also same := by
    rcases List.mem_append.mp member with before | now
    · have below := sound.sent copy before
      rcases List.mem_append.mp also with left | right
      · exact sound.copies copy before other left same
      · obtain ⟨socket, -, rfl⟩ := List.mem_map.mp right
        rw [same] at below
        exact absurd below (Nat.lt_irrefl _)
    · obtain ⟨socket, live, rfl⟩ := List.mem_map.mp now
      rcases List.mem_append.mp also with left | right
      · have below := sound.sent other left
        rw [← same] at below
        exact absurd below (Nat.lt_irrefl _)
      · obtain ⟨another, also_live, rfl⟩ := List.mem_map.mp right
        have one : socket = another := by
          cases sound.shape with
          | idle _ none_live => rw [none_live] at live; cases live
          | reconnecting _ _ none_live => rw [none_live] at live; cases live
          | refreshing _ none_live => rw [none_live] at live; cases live
          | live _ _ own =>
              rw [own, List.mem_singleton] at live also_live
              rw [live, also_live]
        rw [one]
  known pair member := Nat.lt_succ_of_lt (sound.known pair member)
  apart pair member copy either := by
    rcases List.mem_append.mp either with before | now
    · exact sound.apart pair member copy before
    · obtain ⟨socket, -, rfl⟩ := List.mem_map.mp now
      exact Nat.ne_of_lt (sound.known pair member)
  once := sound.once
  quiet := sound.quiet

theorem heard_message {listeners : List Nat} {message : Nat} {parses : Bool}
    {pair : Nat × Nat}
    (member : pair ∈ if parses then
      listeners.map fun listener => (listener, message) else []) :
    pair.2 = message := by
  split at member
  · obtain ⟨listener, -, rfl⟩ := List.mem_map.mp member
    rfl
  · cases member

/-- A copy of a message is delivered. -/
theorem Page.Sound.message (sound : page.Sound) {socket message : Nat}
    (parses : Bool) (copy : (socket, message) ∈ page.transit) :
    ({ page with
      refreshedSinceMessage := false
      transit := page.transit.filter (· ≠ (socket, message))
      given := page.given ++
        if parses then page.messageListeners.map fun listener =>
          (listener, message)
        else [] } : Page).Sound where
  shape := by
    cases sound.shape with
    | idle closed live idle renewed => exact .idle closed live idle renewed
    | live socket own live idle renewed subscribed =>
        exact .live socket own live idle renewed subscribed
    | reconnecting timer closed live waiting own renewed subscribed =>
        exact .reconnecting timer closed live waiting own renewed subscribed
    | refreshing closed live idle one subscribed =>
        exact .refreshing closed live idle one subscribed
  listeners := sound.listeners
  sent other member := sound.sent other (List.mem_filter.mp member).1
  copies first left other right :=
    sound.copies first (List.mem_filter.mp left).1 other
      (List.mem_filter.mp right).1
  known pair member := by
    rcases List.mem_append.mp member with before | now
    · exact sound.known pair before
    · rw [heard_message now]
      exact sound.sent _ copy
  apart pair member other left := by
    have waiting := List.mem_filter.mp left
    rcases List.mem_append.mp member with before | now
    · exact sound.apart pair before other waiting.1
    · intro same
      rw [heard_message now] at same
      have one := sound.copies _ copy other waiting.1 same
      simp [one] at waiting
  once := by
    refine List.Nodup.append sound.once ?_ ?_
    · split
      · exact sound.listeners.map fun _ _ same => (Prod.mk.inj same).1
      · exact List.nodup_nil
    · intro pair before now
      exact sound.apart pair before _ copy (heard_message now)
  quiet := sound.quiet

/-- The timer of a reconnection, or the answer of a refresh, opens the next
socket. -/
theorem Page.Sound.fires (sound : page.Sound) {timer : Nat}
    (waiting : timer ∈ page.timers) :
    ({ page with timers :=
      page.timers.filter (· ≠ timer) } : Page).openSocket.Sound := by
  cases sound.shape with
  | idle _ _ idle => rw [idle] at waiting; cases waiting
  | live _ _ _ idle => rw [idle] at waiting; cases waiting
  | refreshing _ _ idle => rw [idle] at waiting; cases waiting
  | reconnecting own closed live timers _ renewed subscribed =>
      rw [timers, List.mem_singleton] at waiting
      have idle : page.timers.filter (· ≠ timer) = [] := by
        simp [timers, waiting]
      have fired : ({ page with
          timers := page.timers.filter (· ≠ timer) } : Page).Sound :=
        sound.change (.idle closed live idle renewed) sound.listeners rfl rfl
          rfl sound.quiet
      exact fired.openSocket
        (openSocket_shape closed live ⟨idle, renewed⟩ subscribed) subscribed

theorem Page.Sound.answered (sound : page.Sound) {waiting : Nat}
    (flight : page.refreshes = waiting + 1) (ok : Bool) :
    (if ok then ({ page with refreshes := waiting } : Page).openSocket
      else { page with refreshes := waiting }).Sound := by
  cases sound.shape with
  | idle _ _ _ renewed => rw [flight] at renewed; cases renewed
  | live _ _ _ _ renewed => rw [flight] at renewed; cases renewed
  | reconnecting _ _ _ _ _ renewed => rw [flight] at renewed; cases renewed
  | refreshing closed live idle one subscribed =>
      have none_left : waiting = 0 := by omega
      have answered : Page.Sound { page with refreshes := waiting } :=
        sound.change (.idle closed live idle none_left) sound.listeners rfl
          rfl rfl sound.quiet
      split
      · exact answered.openSocket
          (openSocket_shape closed live ⟨idle, none_left⟩ subscribed)
          subscribed
      · exact answered

theorem step_sound {event : Event} (sound : page.Sound)
    (orderly : Orderly page event) (taken : step page event = some next) :
    next.Sound := by
  cases event with
  | subscribe onMessage onError =>
      cases taken
      exact sound.subscribe onMessage onError orderly
  | unsubscribe onMessage onError =>
      cases taken
      exact sound.listen (delete_nodup sound.listeners onMessage) _ id
  | disconnect =>
      cases taken
      exact sound.disconnect orderly
  | opened socket =>
      simp only [step] at taken
      split at taken
      · cases taken
        exact sound.clearTimer
      · cases taken
  | sends =>
      cases taken
      exact sound.sends
  | message socket message parses =>
      simp only [step] at taken
      split at taken
      · rename_i copy
        cases taken
        exact sound.message parses copy
      · cases taken
  | closed socket code =>
      simp only [step] at taken
      split at taken
      · cases taken
        rcases orderly with own | ⟨closed, quiet⟩
        · exact sound.onclose (onclose_shape code sound.shape own)
        · exact sound.onclose (onclose_late sound.shape closed quiet)
      · cases taken
  | timer timer =>
      simp only [step] at taken
      split at taken
      · rename_i waiting
        cases taken
        exact sound.fires waiting
      · cases taken
  | refreshed ok =>
      simp only [step] at taken
      split at taken
      · cases taken
      · rename_i waiting flight
        cases taken
        exact sound.answered flight ok
  | constructs works =>
      cases taken
      have shape : Page.Shape { page with constructs := works } := by
        cases sound.shape with
        | idle closed live idle renewed => exact .idle closed live idle renewed
        | live socket own live idle renewed subscribed =>
            exact .live socket own live idle renewed subscribed
        | reconnecting timer closed live waiting own renewed subscribed =>
            exact .reconnecting timer closed live waiting own renewed
              subscribed
        | refreshing closed live idle one subscribed =>
            exact .refreshing closed live idle one subscribed
      exact sound.change shape sound.listeners rfl rfl rfl sound.quiet

end

/-! ## Runs -/

/-- A page is right after every run whose subscriptions, disconnections and
closes do not happen beside something that is still to open a socket. -/
theorem page_right_of_orderly {events : List Event} {page : Page}
    (orderly : Along step Orderly start events)
    (reached : run step start events = some page) : page.Right :=
  (run_preserves_along Page.Sound (fun _ _ _ sound orderly taken =>
    step_sound sound orderly taken) start_sound orderly reached).right

/-- A page is disconnected while it reconnects and subscribes again. -/
theorem page_right_of_orderly_reconnected :
    ∃ page, run step start
      [.subscribe (some 0) (some 1), .opened 0, .sends, .message 0 0 true,
        .closed 0 4401, .refreshed true, .closed 1 1006, .timer 0, .sends,
        .disconnect, .closed 2 1000, .subscribe (some 0) none] = some page ∧
      page.live = [3] ∧ page.Right := by
  have reached : (run step start
      [.subscribe (some 0) (some 1), .opened 0, .sends, .message 0 0 true,
        .closed 0 4401, .refreshed true, .closed 1 1006, .timer 0, .sends,
        .disconnect, .closed 2 1000, .subscribe (some 0) none]).map
      Page.live = some [3] := by decide +kernel
  obtain ⟨page, last, live⟩ := Option.map_eq_some_iff.mp reached
  have orderly : Along step Orderly start
      [.subscribe (some 0) (some 1), .opened 0, .sends, .message 0 0 true,
        .closed 0 4401, .refreshed true, .closed 1 1006, .timer 0, .sends,
        .disconnect, .closed 2 1000, .subscribe (some 0) none] := by
    decide +kernel
  exact ⟨page, last, live, page_right_of_orderly orderly last⟩

/-- A component subscribes while the page waits to reconnect. -/
theorem subscription_beside_timer :
    ¬∀ (events : List Event) (page : Page),
      run step start events = some page → page.Right := by
  intro always
  have reached : (run step start
      [.subscribe (some 0) (some 0), .closed 0 1006, .subscribe (some 1) none,
        .timer 0]).map Page.live = some [1, 2] := by decide +kernel
  obtain ⟨page, last, live⟩ := Option.map_eq_some_iff.mp reached
  have single := (always _ page last).single
  rw [live] at single
  exact absurd single (by decide)

end IndustryFlow.Browser.Sockets
