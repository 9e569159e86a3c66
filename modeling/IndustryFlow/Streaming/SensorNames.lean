import IndustryFlow.Concurrent.Run
import IndustryFlow.Dicts
import Mathlib.Algebra.Field.Rat
import Mathlib.Algebra.Order.Ring.Rat
import Mathlib.Data.NNRat.Defs

/-!
# The names of streamed sensors

The sockets of a tenant share one entry of names.  It holds the names of the
sensors of the socket that loaded it, and every socket of the tenant is served
from it while it lasts.
-/

namespace IndustryFlow.Streaming

open Concurrent

/-- What `sensor_names` reads from a row. -/
structure Names where
  sensorName : String
  displayName : Option String
  equipmentName : Option String
deriving DecidableEq

/-- What is read of a value in Redis. -/
structure Reading (Tenant Sensor Equipment : Type) where
  sensor : Sensor
  companyId : Option Tenant
  equipmentId : Option Equipment

/-- The sockets, and what the stores hold at each moment. -/
structure World (Tenant Sensor Equipment : Type) where
  /-- `session.user.company_id`. -/
  companyId : Nat → Tenant
  /-- The equipment that a socket asks for, if it asks for one. -/
  equipmentId : Nat → Option Equipment
  /-- `get_all_sensors`. -/
  latest : ℚ → List (Reading Tenant Sensor Equipment)
  /-- The rows of the tenants. -/
  rows : ℚ → Tenant → Sensor → Option Names

/-- An entry of `_names_cache`.  The code does not keep `asked` and
`readAt`. -/
structure Entry (Sensor : Type) where
  loadedAt : ℚ
  names : List (Sensor × Names)
  /-- The sensors that were asked for. -/
  asked : List Sensor
  /-- When the rows were read. -/
  readAt : ℚ

/-- A call of `enrich_sensors_with_names` that waits for `_load_names`. -/
structure Call (Sensor : Type) where
  currentTime : ℚ
  sensors : List Sensor
  cached : Option (Entry Sensor)
  /-- What the query has read, and when. -/
  read : Option (ℚ × List (Sensor × Names))

structure Update (Sensor : Type) where
  socket : Nat
  /-- When its tick looked at the clock, and when it was sent. -/
  begun : ℚ
  time : ℚ
  /-- The names that each sensor carries, if it carries any. -/
  sensors : List (Sensor × Option Names)
  /-- A load of the tenant had succeeded. -/
  loaded : Bool
deriving DecidableEq

/-- The process.  The code does not read `sent` and `loaded`. -/
structure Gateway (Tenant Sensor : Type) where
  clock : ℚ
  namesCache : List (Tenant × Entry Sensor)
  calls : List (Nat × Call Sensor)
  sent : List (Update Sensor)
  /-- The tenants a load of which has succeeded. -/
  loaded : List Tenant

inductive Event where
  | wait (time : ℚ≥0)
  /-- `_stream` builds the next update of a socket. -/
  | tick (socket : Nat)
  /-- The query of a load reads the rows. -/
  | read (socket : Nat)
  /-- The answer of a load comes. -/
  | answered (socket : Nat)
  | failed (socket : Nat)

def cacheTtl : ℚ := 60

def cacheMaxTenants : Nat := 256

variable {Tenant Sensor Equipment : Type}
variable [DecidableEq Tenant] [DecidableEq Sensor] [DecidableEq Equipment]

def Gateway.start (clock : ℚ) : Gateway Tenant Sensor where
  clock := clock
  namesCache := []
  calls := []
  sent := []
  loaded := []

/-- What `_load_names` makes of the rows of a tenant. -/
def loadNames (rows : Sensor → Option Names) (sensors : List Sensor) :
    List (Sensor × Names) :=
  sensors.filterMap fun sensor => (rows sensor).map fun names => (sensor, names)

/-- Whether a socket selects a value. -/
def World.selects (world : World Tenant Sensor Equipment) (socket : Nat)
    (data : Reading Tenant Sensor Equipment) : Bool :=
  data.companyId = some (world.companyId socket) &&
    match world.equipmentId socket with
    | none => true
    | some equipment => data.equipmentId = some equipment

/-- The sensors of the next update of a socket. -/
def World.sensors (world : World Tenant Sensor Equipment) (moment : ℚ)
    (socket : Nat) : List Sensor :=
  ((world.latest moment).filter (world.selects socket)).map Reading.sensor

/-- The names are to be loaded. -/
def expired (clock : ℚ) : Option (Entry Sensor) → Bool
  | none => true
  | some entry => cacheTtl < clock - entry.loadedAt

/-- The names of an entry, for the sensors of an update. -/
def carry (names : List (Sensor × Names)) (sensors : List Sensor) :
    List (Sensor × Option Names) :=
  sensors.map fun sensor => (sensor, names.lookup sensor)

/-- `cached[1]`, or no name where there is no entry. -/
def namesOf : Option (Entry Sensor) → List (Sensor × Names)
  | none => []
  | some entry => entry.names

namespace Gateway

variable (gateway : Gateway Tenant Sensor)

/-- The update is sent. -/
def send (socket : Nat) (tenant : Tenant) (begun : ℚ) (sensors : List Sensor)
    (names : List (Sensor × Names)) : Gateway Tenant Sensor :=
  { gateway with
    sent := gateway.sent ++
      [⟨socket, begun, gateway.clock, carry names sensors,
        tenant ∈ gateway.loaded⟩] }

/-- `move_to_end` and what follows it, of a tenant with an entry.  It raises a
KeyError where the entry was evicted during the load. -/
def touch (tenant : Tenant) :
    Option (Entry Sensor) → Option (Gateway Tenant Sensor)
  | none => some gateway
  | some _ => (Dicts.moveToEnd gateway.namesCache tenant).map fun moved =>
      { gateway with
        namesCache := moved.drop (moved.length - cacheMaxTenants) }

/-- The end of `enrich_sensors_with_names`, and the update; after an error
`_stream` sends none. -/
def enrich (socket : Nat) (tenant : Tenant) (begun : ℚ)
    (sensors : List Sensor) (cached : Option (Entry Sensor)) :
    Gateway Tenant Sensor :=
  match gateway.touch tenant cached with
  | none => gateway
  | some touched => touched.send socket tenant begun sensors (namesOf cached)

/-- A load has returned. -/
def store (tenant : Tenant) (entry : Entry Sensor) : Gateway Tenant Sensor :=
  { gateway with
    namesCache := Dicts.set gateway.namesCache tenant entry
    loaded := tenant :: gateway.loaded }

def setCall (socket : Nat) (call : Call Sensor) : Gateway Tenant Sensor :=
  { gateway with calls := Dicts.set gateway.calls socket call }

def endCall (socket : Nat) : Gateway Tenant Sensor :=
  { gateway with calls := Dicts.without gateway.calls socket }

end Gateway

def step (world : World Tenant Sensor Equipment)
    (gateway : Gateway Tenant Sensor) :
    Event → Option (Gateway Tenant Sensor)
  | .wait time => some { gateway with clock := gateway.clock + time }
  | .tick socket =>
      match gateway.calls.lookup socket with
      | some _ => none
      | none =>
          let tenant := world.companyId socket
          let sensors := world.sensors gateway.clock socket
          let cached := gateway.namesCache.lookup tenant
          if expired gateway.clock cached && !sensors.isEmpty then
            some (gateway.setCall socket
              ⟨gateway.clock, sensors, cached, none⟩)
          else
            some (gateway.enrich socket tenant gateway.clock sensors cached)
  | .read socket =>
      match gateway.calls.lookup socket with
      | some ⟨begun, sensors, cached, none⟩ =>
          let names := loadNames
            (world.rows gateway.clock (world.companyId socket)) sensors
          some (gateway.setCall socket
            ⟨begun, sensors, cached, some (gateway.clock, names)⟩)
      | _ => none
  | .answered socket =>
      match gateway.calls.lookup socket with
      | some ⟨begun, sensors, _, some (readAt, names)⟩ =>
          let tenant := world.companyId socket
          let entry : Entry Sensor := ⟨begun, names, sensors, readAt⟩
          some (((gateway.endCall socket).store tenant entry).enrich socket
            tenant begun sensors (some entry))
      | _ => none
  | .failed socket =>
      match gateway.calls.lookup socket with
      | some call =>
          some ((gateway.endCall socket).enrich socket
            (world.companyId socket) call.currentTime call.sensors
            call.cached)
      | none => none

/-! ## The law -/

/-- The names are those of the sensor's row at a moment at most the lifetime
of an entry before the update. -/
def Update.Fresh (world : World Tenant Sensor Equipment)
    (update : Update Sensor) : Prop :=
  ∀ carried ∈ update.sensors, ∃ moment,
    update.time - cacheTtl ≤ moment ∧ moment ≤ update.time ∧
      carried.2 = world.rows moment (world.companyId update.socket) carried.1

/-- The names were once those of the tenant's own row of the sensor. -/
def Update.Own (world : World Tenant Sensor Equipment)
    (update : Update Sensor) : Prop :=
  ∀ carried ∈ update.sensors, ∀ names, carried.2 = some names →
    ∃ moment ≤ update.time,
      world.rows moment (world.companyId update.socket) carried.1 = some names

/-- The updates of one socket at one tick, in two runs. -/
def Matched (socket : Nat) (update other : Update Sensor) : Prop :=
  update.socket = socket ∧ other.socket = socket ∧
    update.begun = other.begun ∧ update.loaded = true ∧ other.loaded = true

/-- The other sockets of the tenant never connect. -/
def Alone (world : World Tenant Sensor Equipment) (socket : Nat) :
    Event → Prop
  | .wait _ => True
  | .tick other | .read other | .answered other | .failed other =>
      world.companyId other = world.companyId socket → other = socket

/-- The rows of a tenant do not change in this time. -/
def World.Steady (world : World Tenant Sensor Equipment) (tenant : Tenant)
    (first last : ℚ) : Prop :=
  ∀ moment other, first ≤ moment → moment ≤ last → first ≤ other →
    other ≤ last → world.rows moment tenant = world.rows other tenant

/-- An entry that lasts was loaded for every sensor of the update; the answer
of a load comes within the lifetime of what it has read; and a load fails only
where none of the tenant has succeeded. -/
def Served (world : World Tenant Sensor Equipment)
    (gateway : Gateway Tenant Sensor) : Event → Prop
  | .tick socket =>
      ∀ entry ∈ gateway.namesCache.lookup (world.companyId socket),
        expired gateway.clock (some entry) = false →
          ∀ sensor ∈ world.sensors gateway.clock socket, sensor ∈ entry.asked
  | .answered socket =>
      ∀ call ∈ gateway.calls.lookup socket, ∀ read ∈ call.read,
        gateway.clock - cacheTtl ≤ read.1
  | .failed socket => world.companyId socket ∉ gateway.loaded
  | _ => True

instance Served.decidable (world : World Tenant Sensor Equipment)
    (gateway : Gateway Tenant Sensor) :
    (event : Event) → Decidable (Served world gateway event)
  | .tick socket => inferInstanceAs (Decidable
      (∀ entry ∈ gateway.namesCache.lookup (world.companyId socket),
        expired gateway.clock (some entry) = false →
          ∀ sensor ∈ world.sensors gateway.clock socket,
            sensor ∈ entry.asked))
  | .answered socket => inferInstanceAs (Decidable
      (∀ call ∈ gateway.calls.lookup socket, ∀ read ∈ call.read,
        gateway.clock - cacheTtl ≤ read.1))
  | .failed socket => inferInstanceAs
      (Decidable (world.companyId socket ∉ gateway.loaded))
  | .wait _ => .isTrue trivial
  | .read _ => .isTrue trivial

/-! ## What is loaded and carried -/

section

set_option linter.unusedSectionVars false

variable {world : World Tenant Sensor Equipment}
variable {gateway next touched : Gateway Tenant Sensor}

theorem lookup_loadNames (rows : Sensor → Option Names)
    (sensors : List Sensor) (sensor : Sensor) :
    (loadNames rows sensors).lookup sensor =
      if sensor ∈ sensors then rows sensor else none := by
  unfold loadNames
  induction sensors with
  | nil => simp
  | cons first sensors induction =>
      rw [List.filterMap_cons]
      cases row : rows first with
      | none =>
          simp only [Option.map_none, induction]
          by_cases own : sensor = first
          · simp [own, row]
          · simp [own]
      | some names =>
          simp only [Option.map_some, List.lookup_cons, induction]
          by_cases own : sensor = first
          · simp [own, row]
          · simp [own, beq_false_of_ne own]

theorem carry_keys (names : List (Sensor × Names)) (sensors : List Sensor) :
    (carry names sensors).map Prod.fst = sensors := by
  simp [carry, Function.comp_def]

/-! ## What one step preserves -/

structure Entry.Sound (world : World Tenant Sensor Equipment)
    (tenant : Tenant) (clock : ℚ) (entry : Entry Sensor) : Prop where
  begun : entry.loadedAt ≤ entry.readAt
  past : entry.readAt ≤ clock
  names : entry.names = loadNames (world.rows entry.readAt tenant) entry.asked

structure Call.Sound (world : World Tenant Sensor Equipment) (socket : Nat)
    (gateway : Gateway Tenant Sensor) (call : Call Sensor) : Prop where
  begun : call.currentTime ≤ gateway.clock
  sensors : call.sensors = world.sensors call.currentTime socket
  cached : ∀ entry ∈ call.cached,
    entry.Sound world (world.companyId socket) gateway.clock
  read : ∀ read ∈ call.read,
    call.currentTime ≤ read.1 ∧ read.1 ≤ gateway.clock ∧
      read.2 = loadNames (world.rows read.1 (world.companyId socket))
        call.sensors

structure Update.Sound (world : World Tenant Sensor Equipment)
    (update : Update Sensor) : Prop where
  begun : update.begun ≤ update.time
  sensors : update.sensors.map Prod.fst =
    world.sensors update.begun update.socket
  own : update.Own world

structure Gateway.Sound (world : World Tenant Sensor Equipment)
    (gateway : Gateway Tenant Sensor) : Prop where
  entries : ∀ held ∈ gateway.namesCache,
    held.2.Sound world held.1 gateway.clock
  calls : ∀ waiting ∈ gateway.calls,
    waiting.2.Sound world waiting.1 gateway
  sent : ∀ update ∈ gateway.sent, update.Sound world

/-- The names of an entry are those of the rows when it was read. -/
theorem Entry.Sound.lookup {tenant : Tenant} {clock : ℚ}
    {entry : Entry Sensor} (sound : entry.Sound world tenant clock)
    (sensor : Sensor) :
    entry.names.lookup sensor =
      if sensor ∈ entry.asked then world.rows entry.readAt tenant sensor
      else none := by
  rw [sound.names, lookup_loadNames]

theorem Entry.Sound.later {tenant : Tenant} {clock later : ℚ}
    {entry : Entry Sensor} (sound : entry.Sound world tenant clock)
    (after : clock ≤ later) : entry.Sound world tenant later :=
  ⟨sound.begun, sound.past.trans after, sound.names⟩

theorem Gateway.start_sound (clock : ℚ) :
    (Gateway.start clock).Sound world where
  entries := nofun
  calls := nofun
  sent := nofun

/-- A touched gateway differs in the order of its entries, and holds no other
than it did. -/
theorem touch_some {tenant : Tenant} {cached : Option (Entry Sensor)}
    (done : gateway.touch tenant cached = some touched) :
    ∃ kept, (∀ held ∈ kept, held ∈ gateway.namesCache) ∧
      touched = { gateway with namesCache := kept } := by
  cases cached with
  | none =>
      cases done
      exact ⟨gateway.namesCache, fun _ member => member, rfl⟩
  | some entry =>
      obtain ⟨moved, own, rfl⟩ := Option.map_eq_some_iff.mp done
      refine ⟨_, fun held member => ?_, rfl⟩
      exact Dicts.mem_moveToEnd own (List.mem_of_mem_drop member)

/-- An update of names that were the tenant's is sent. -/
theorem Gateway.Sound.enrich (sound : gateway.Sound world) {socket : Nat}
    {begun : ℚ} {cached : Option (Entry Sensor)}
    (before : begun ≤ gateway.clock)
    (held : ∀ entry ∈ cached,
      entry.Sound world (world.companyId socket) gateway.clock) :
    (gateway.enrich socket (world.companyId socket) begun
      (world.sensors begun socket) cached).Sound world := by
  unfold Gateway.enrich
  split
  · exact sound
  · rename_i touched done
    obtain ⟨kept, among, rfl⟩ := touch_some done
    refine ⟨fun entry member => sound.entries entry (among entry member),
      fun waiting member => ?_, fun update member => ?_⟩
    · obtain ⟨started, sensors, cached, read⟩ := sound.calls waiting member
      exact ⟨started, sensors, cached, read⟩
    · rcases List.mem_append.mp member with sent | last
      · exact sound.sent update sent
      · rw [List.mem_singleton.mp last]
        refine ⟨before, carry_keys _ _, ?_⟩
        intro carried among names own
        obtain ⟨sensor, -, rfl⟩ := List.mem_map.mp among
        cases cached with
        | none => cases own
        | some entry =>
            have entry_sound := held entry rfl
            simp only [namesOf, entry_sound.lookup] at own
            split at own
            · exact ⟨entry.readAt, entry_sound.past, own⟩
            · cases own

theorem Gateway.Sound.endCall (sound : gateway.Sound world) (socket : Nat) :
    (gateway.endCall socket).Sound world where
  entries := sound.entries
  calls waiting member := by
    obtain ⟨begun, sensors, cached, read⟩ :=
      sound.calls waiting (List.mem_filter.mp member).1
    exact ⟨begun, sensors, cached, read⟩
  sent := sound.sent

theorem Gateway.Sound.setCall (sound : gateway.Sound world) {socket : Nat}
    {call : Call Sensor} (own : call.Sound world socket gateway) :
    (gateway.setCall socket call).Sound world where
  entries := sound.entries
  calls waiting member := by
    rcases Dicts.mem_set member with rfl | before
    · exact ⟨own.begun, own.sensors, own.cached, own.read⟩
    · obtain ⟨begun, sensors, cached, read⟩ := sound.calls waiting before
      exact ⟨begun, sensors, cached, read⟩
  sent := sound.sent

theorem Gateway.Sound.store (sound : gateway.Sound world) {tenant : Tenant}
    {entry : Entry Sensor} (own : entry.Sound world tenant gateway.clock) :
    (gateway.store tenant entry).Sound world where
  entries held member := by
    rcases Dicts.mem_set member with rfl | before
    · exact own
    · exact sound.entries held before
  calls waiting member := by
    obtain ⟨begun, sensors, cached, read⟩ := sound.calls waiting member
    exact ⟨begun, sensors, cached, read⟩
  sent := sound.sent

theorem Gateway.Sound.waitingCall (sound : gateway.Sound world)
    {socket : Nat} {call : Call Sensor}
    (waiting : gateway.calls.lookup socket = some call) :
    call.Sound world socket gateway :=
  sound.calls (socket, call) (Dicts.mem_of_lookup waiting)

/-- The entry that an answered load stores. -/
theorem Call.Sound.entry {socket : Nat} {begun readAt : ℚ}
    {sensors : List Sensor} {cached : Option (Entry Sensor)}
    {names : List (Sensor × Names)}
    (own : Call.Sound world socket gateway
      ⟨begun, sensors, cached, some (readAt, names)⟩) :
    Entry.Sound world (world.companyId socket) gateway.clock
      ⟨begun, names, sensors, readAt⟩ := by
  obtain ⟨since, past, same⟩ := own.read _ rfl
  exact ⟨since, past, same⟩

theorem step_sound {event : Event} (sound : gateway.Sound world)
    (taken : step world gateway event = some next) : next.Sound world := by
  cases event with
  | wait time =>
      cases taken
      have after : gateway.clock ≤ gateway.clock + time :=
        le_add_of_nonneg_right time.2
      refine ⟨fun held member => (sound.entries held member).later after,
        fun waiting member => ?_, sound.sent⟩
      obtain ⟨begun, sensors, cached, read⟩ := sound.calls waiting member
      refine ⟨begun.trans after, sensors, fun entry own =>
        (cached entry own).later after, fun loaded own => ?_⟩
      obtain ⟨since, past, same⟩ := read loaded own
      exact ⟨since, past.trans after, same⟩
  | tick socket =>
      simp only [step] at taken
      split at taken
      · cases taken
      · have held : ∀ entry ∈ gateway.namesCache.lookup
            (world.companyId socket),
            entry.Sound world (world.companyId socket) gateway.clock :=
          fun entry found => sound.entries _ (Dicts.mem_of_lookup found)
        split at taken
        · cases taken
          exact sound.setCall ⟨le_rfl, rfl, held, nofun⟩
        · cases taken
          exact sound.enrich le_rfl held
  | read socket =>
      simp only [step] at taken
      split at taken
      · rename_i begun sensors cached waiting
        cases taken
        have own := sound.waitingCall waiting
        refine sound.setCall ⟨own.begun, own.sensors, own.cached, ?_⟩
        rintro read ⟨⟩
        exact ⟨own.begun, le_rfl, rfl⟩
      · cases taken
  | answered socket =>
      simp only [step] at taken
      split at taken
      · rename_i begun sensors cached readAt names waiting
        cases taken
        have own := sound.waitingCall waiting
        have stored := (sound.endCall socket).store own.entry
        have same : sensors = world.sensors begun socket := own.sensors
        subst same
        refine stored.enrich own.begun ?_
        rintro entry ⟨⟩
        exact own.entry
      · cases taken
  | failed socket =>
      simp only [step] at taken
      split at taken
      · rename_i call waiting
        cases taken
        have own := sound.waitingCall waiting
        rw [own.sensors]
        exact (sound.endCall socket).enrich own.begun own.cached
      · cases taken

/-! ## The bound -/

theorem touch_bounded {tenant : Tenant} {cached : Option (Entry Sensor)}
    (done : gateway.touch tenant cached = some touched)
    (bounded : cached = none →
      gateway.namesCache.length ≤ cacheMaxTenants) :
    touched.namesCache.length ≤ cacheMaxTenants := by
  cases cached with
  | none =>
      cases done
      exact bounded rfl
  | some entry =>
      obtain ⟨moved, -, rfl⟩ := Option.map_eq_some_iff.mp done
      simp only [List.length_drop]
      omega

/-- A tenant with an entry is touched. -/
theorem touch_isSome {tenant : Tenant} {held : Entry Sensor}
    (found : gateway.namesCache.lookup tenant = some held)
    (cached : Option (Entry Sensor)) :
    (gateway.touch tenant cached).isSome = true := by
  cases cached with
  | none => rfl
  | some entry => simp [Gateway.touch, Dicts.moveToEnd, found]

theorem enrich_bounded {socket : Nat} {tenant : Tenant} {begun : ℚ}
    {sensors : List Sensor} {cached : Option (Entry Sensor)}
    (bounded : gateway.namesCache.length ≤ cacheMaxTenants) :
    (gateway.enrich socket tenant begun sensors cached).namesCache.length ≤
      cacheMaxTenants := by
  unfold Gateway.enrich
  split
  · exact bounded
  · rename_i touched done
    exact @touch_bounded _ _ _ _ gateway touched tenant cached done
      fun _ => bounded

/-- The entry that is stored makes its tenant the last one, and one too many is
dropped. -/
theorem store_bounded {socket : Nat} {tenant : Tenant} {begun : ℚ}
    {sensors : List Sensor} (entry : Entry Sensor) :
    ((gateway.store tenant entry).enrich socket tenant begun sensors
      (some entry)).namesCache.length ≤ cacheMaxTenants := by
  have found : (gateway.store tenant entry).namesCache.lookup tenant =
      some entry := by
    simp [Gateway.store, Dicts.lookup_set]
  unfold Gateway.enrich
  split
  · rename_i none_touched
    have some_touched := touch_isSome found (some entry)
    rw [none_touched] at some_touched
    cases some_touched
  · rename_i touched done
    exact @touch_bounded _ _ _ _ _ touched tenant (some entry) done nofun

theorem step_bounded {event : Event}
    (bounded : gateway.namesCache.length ≤ cacheMaxTenants)
    (taken : step world gateway event = some next) :
    next.namesCache.length ≤ cacheMaxTenants := by
  cases event with
  | wait time =>
      cases taken
      exact bounded
  | tick socket =>
      simp only [step] at taken
      split at taken
      · cases taken
      · split at taken
        · cases taken
          exact bounded
        · cases taken
          exact enrich_bounded bounded
  | read socket =>
      simp only [step] at taken
      split at taken
      · cases taken
        exact bounded
      · cases taken
  | answered socket =>
      simp only [step] at taken
      split at taken
      · cases taken
        exact store_bounded _
      · cases taken
  | failed socket =>
      simp only [step] at taken
      split at taken
      · cases taken
        exact enrich_bounded bounded
      · cases taken

/-! ## Steps that serve every sensor -/

/-- The updates so far are fresh where a load of the tenant had succeeded. -/
def Gateway.Fresh (world : World Tenant Sensor Equipment)
    (gateway : Gateway Tenant Sensor) : Prop :=
  ∀ update ∈ gateway.sent, update.loaded = true → update.Fresh world

/-- An update is fresh where the entry was read within its lifetime, for all of
its sensors. -/
theorem Gateway.Fresh.enrich (fresh : gateway.Fresh world) {socket : Nat}
    {begun : ℚ} {sensors : List Sensor} {cached : Option (Entry Sensor)}
    (served : world.companyId socket ∈ gateway.loaded →
      ∀ sensor ∈ sensors, ∃ entry ∈ cached,
        entry.Sound world (world.companyId socket) gateway.clock ∧
          gateway.clock - cacheTtl ≤ entry.readAt ∧ sensor ∈ entry.asked) :
    (gateway.enrich socket (world.companyId socket) begun sensors
      cached).Fresh world := by
  unfold Gateway.enrich
  split
  · exact fresh
  · rename_i touched done
    obtain ⟨kept, -, rfl⟩ := touch_some done
    intro update member loaded
    rcases List.mem_append.mp member with sent | last
    · exact fresh update sent loaded
    · rw [List.mem_singleton.mp last] at loaded ⊢
      intro carried among
      obtain ⟨sensor, own, rfl⟩ := List.mem_map.mp among
      obtain ⟨entry, same, sound, since, asked⟩ :=
        served (of_decide_eq_true loaded) sensor own
      refine ⟨entry.readAt, since, sound.past, ?_⟩
      rw [same]
      simp only [namesOf, sound.lookup, if_pos asked]

/-- An entry that has not expired was read within its lifetime. -/
theorem Entry.Sound.since {tenant : Tenant} {clock : ℚ}
    {entry : Entry Sensor} (sound : entry.Sound world tenant clock)
    (lasts : expired clock (some entry) = false) :
    clock - cacheTtl ≤ entry.readAt := by
  have loaded : clock - entry.loadedAt ≤ cacheTtl := by
    simpa [expired] using lasts
  have begun := sound.begun
  exact (sub_le_comm.mp loaded).trans begun

theorem step_fresh {event : Event} (sound : gateway.Sound world)
    (fresh : gateway.Fresh world) (served : Served world gateway event)
    (taken : step world gateway event = some next) : next.Fresh world := by
  cases event with
  | wait time =>
      cases taken
      exact fresh
  | tick socket =>
      simp only [step] at taken
      split at taken
      · cases taken
      · split at taken
        · cases taken
          exact fresh
        · rename_i cached
          cases taken
          refine fresh.enrich fun _ sensor own => ?_
          have some_sensor : (world.sensors gateway.clock socket).isEmpty =
              false := by
            cases listed : world.sensors gateway.clock socket with
            | nil => rw [listed] at own; cases own
            | cons first rest => rfl
          have lasts : expired gateway.clock
              (gateway.namesCache.lookup (world.companyId socket)) =
                false := by
            simpa [some_sensor] using cached
          cases found : gateway.namesCache.lookup (world.companyId socket) with
          | none => rw [found] at lasts; cases lasts
          | some entry =>
              rw [found] at lasts
              have entry_sound := sound.entries _ (Dicts.mem_of_lookup found)
              exact ⟨entry, rfl, entry_sound, entry_sound.since lasts,
                served entry found lasts sensor own⟩
  | read socket =>
      simp only [step] at taken
      split at taken
      · cases taken
        exact fresh
      · cases taken
  | answered socket =>
      simp only [step] at taken
      split at taken
      · rename_i begun sensors cached readAt names waiting
        cases taken
        have stored : ((gateway.endCall socket).store (world.companyId socket)
            ⟨begun, names, sensors, readAt⟩).Fresh world := fresh
        refine stored.enrich fun _ sensor own => ?_
        exact ⟨_, rfl, (sound.waitingCall waiting).entry,
          served _ waiting _ rfl, own⟩
      · cases taken
  | failed socket =>
      simp only [step] at taken
      split at taken
      · cases taken
        have ended : (gateway.endCall socket).Fresh world := fresh
        exact ended.enrich fun loaded => absurd loaded served
      · cases taken

end

/-! ## Runs -/

section

set_option linter.unusedSectionVars false

variable {world : World Tenant Sensor Equipment} {clock : ℚ}

theorem run_sound {events : List Event} {gateway : Gateway Tenant Sensor}
    (reached : run (step world) (.start clock) events = some gateway) :
    gateway.Sound world :=
  run_preserves (Gateway.Sound world)
    (fun _ _ _ sound taken => step_sound sound taken)
    (Gateway.start_sound clock) reached

theorem run_bounded {events : List Event} {gateway : Gateway Tenant Sensor}
    (reached : run (step world) (.start clock) events = some gateway) :
    gateway.namesCache.length ≤ cacheMaxTenants :=
  run_preserves
    (fun gateway : Gateway Tenant Sensor =>
      gateway.namesCache.length ≤ cacheMaxTenants)
    (fun _ _ _ bounded taken => step_bounded bounded taken)
    (show (Gateway.start clock : Gateway Tenant Sensor).namesCache.length ≤
      cacheMaxTenants from Nat.zero_le _) reached

theorem run_fresh {events : List Event} {gateway : Gateway Tenant Sensor}
    (served : Along (step world) (Served world) (.start clock) events)
    (reached : run (step world) (.start clock) events = some gateway) :
    gateway.Fresh world :=
  (run_preserves_along
    (fun gateway => gateway.Sound world ∧ gateway.Fresh world)
    (fun _ _ _ kept served taken => ⟨step_sound kept.1 taken,
      step_fresh kept.1 kept.2 served taken⟩)
    ⟨Gateway.start_sound clock, nofun⟩ served reached).2

/-- The names of a fresh update are those of the rows at any moment of a time
in which they do not change. -/
theorem fresh_sensors {update : Update Sensor} {moment : ℚ}
    (sound : update.Sound world) (fresh : update.Fresh world)
    (same : ∀ other, update.time - cacheTtl ≤ other → other ≤ update.time →
      world.rows other (world.companyId update.socket) =
        world.rows moment (world.companyId update.socket)) :
    update.sensors = (world.sensors update.begun update.socket).map
      fun sensor => (sensor,
        world.rows moment (world.companyId update.socket) sensor) := by
  rw [← sound.sensors, List.map_map]
  refine (List.map_id update.sensors).symm.trans ?_
  refine List.map_congr_left fun carried member => ?_
  obtain ⟨read, since, past, names⟩ := fresh carried member
  rw [same read since past] at names
  exact Prod.ext rfl names

/-- Two updates of one tick are the same where both are fresh and no row of the
tenant has changed. -/
theorem matched_same {socket : Nat} {update other : Update Sensor}
    (matched : Matched socket update other) (left : update.Sound world)
    (right : other.Sound world) (fresh : update.Fresh world)
    (also_fresh : other.Fresh world)
    (steady : world.Steady (world.companyId socket)
      (update.begun - cacheTtl) (max update.time other.time)) :
    update.sensors = other.sensors := by
  obtain ⟨own, also_own, same, -, -⟩ := matched
  have before : update.begun - cacheTtl ≤ update.begun :=
    sub_le_self _ (by decide)
  have until_end := left.begun.trans (le_max_left update.time other.time)
  rw [fresh_sensors left fresh, fresh_sensors right also_fresh, own, also_own,
    same]
  · intro moment since past
    rw [also_own]
    refine steady moment update.begun ?_ ?_ before until_end
    · rw [same]
      exact (sub_le_sub_right right.begun cacheTtl).trans since
    · exact past.trans (le_max_right update.time other.time)
  · intro moment since past
    rw [own]
    refine steady moment update.begun ?_ ?_ before until_end
    · exact (sub_le_sub_right left.begun cacheTtl).trans since
    · exact past.trans (le_max_left update.time other.time)

/-- In every run no update carries the names of another tenant and the cache is
bounded.  In a run whose steps serve every sensor, an update after the first
load carries names that its rows held within the lifetime; and if the steps of
another run serve every sensor too, that of the socket alone among them, then
an update of one tick is the same in both, unless a row has changed
meanwhile. -/
theorem names_right {events alone : List Event}
    {gateway other : Gateway Tenant Sensor} {socket : Nat}
    (reached : run (step world) (.start clock) events = some gateway)
    (alone_reached : run (step world) (.start clock) alone = some other) :
    (∀ update ∈ gateway.sent, update.Own world) ∧
      gateway.namesCache.length ≤ cacheMaxTenants ∧
      (Along (step world) (Served world) (.start clock) events →
        gateway.Fresh world ∧
          (Along (step world) (Served world) (.start clock) alone →
            ∀ update ∈ gateway.sent, ∀ same ∈ other.sent,
              Matched socket update same →
              world.Steady (world.companyId socket)
                (update.begun - cacheTtl) (max update.time same.time) →
              update.sensors = same.sensors)) := by
  have sound := run_sound reached
  refine ⟨fun update member => (sound.sent update member).own,
    run_bounded reached, fun served => ?_⟩
  have fresh := run_fresh served reached
  refine ⟨fresh, fun also_served update member same also matched steady => ?_⟩
  have alone_fresh := run_fresh also_served alone_reached
  have also_sound := (run_sound alone_reached).sent same also
  exact matched_same matched (sound.sent update member) also_sound
    (fresh update member matched.2.2.2.1)
    (alone_fresh same also matched.2.2.2.2) steady

end

/-! ## Two sockets of one tenant -/

/-- One sensor on each of two machines; the sockets 0 and 2 ask for the first
machine, and the socket 1 for both. -/
def machines (renamed : ℚ) : World Nat Nat Nat where
  companyId _ := 0
  equipmentId socket := if socket = 1 then none else some 7
  latest _ := [⟨0, some 0, some 7⟩, ⟨1, some 0, some 8⟩, ⟨1, some 1, some 7⟩]
  rows moment _ sensor :=
    if sensor = 0 then
      some ⟨"co2", if moment < renamed then none else some "CO₂", none⟩
    else some ⟨"ppfd", some "Light", some "Cabinet"⟩

/-- Two sockets that ask for the same machine, and a rename. -/
theorem names_right_renamed :
    ∃ gateway other,
      run (step (machines 30)) (.start 0) [.tick 0, .failed 0, .tick 0,
        .read 0, .wait 1, .answered 0, .wait 40, .tick 2, .wait 20, .tick 2,
        .read 2, .answered 2] = some gateway ∧
      run (step (machines 30)) (.start 0) [.tick 0, .read 0, .wait 1,
        .answered 0] = some other ∧
      gateway.sent.map Update.time = [0, 1, 41, 61] ∧
      other.sent.map Update.time = [1] ∧
      gateway.Fresh (machines 30) ∧
      gateway.namesCache.length ≤ cacheMaxTenants := by
  have times : (run (step (machines 30)) (.start 0) [.tick 0, .failed 0,
      .tick 0, .read 0, .wait 1, .answered 0, .wait 40, .tick 2, .wait 20,
      .tick 2, .read 2, .answered 2]).map
        (fun gateway => gateway.sent.map Update.time) =
          some [0, 1, 41, 61] := by
    decide +kernel
  have alone_times : (run (step (machines 30)) (.start 0) [.tick 0, .read 0,
      .wait 1, .answered 0]).map
        (fun gateway => gateway.sent.map Update.time) = some [1] := by
    decide +kernel
  have served : Along (step (machines 30)) (Served (machines 30)) (.start 0)
      [.tick 0, .failed 0, .tick 0, .read 0, .wait 1, .answered 0, .wait 40,
        .tick 2, .wait 20, .tick 2, .read 2, .answered 2] := by
    decide +kernel
  obtain ⟨gateway, reached, same⟩ := Option.map_eq_some_iff.mp times
  obtain ⟨other, alone, also⟩ := Option.map_eq_some_iff.mp alone_times
  have right := @names_right _ _ _ _ _ _ (machines 30) 0 _ _ gateway other 0
    reached alone
  exact ⟨gateway, other, reached, alone, same, also,
    (right.2.2 served).1, right.2.1⟩

/-- A socket of both machines is served what one of the first machine has
loaded. -/
theorem names_of_other_socket :
    ¬∀ (world : World Nat Nat Nat) (clock : ℚ) (events alone : List Event)
        (gateway other : Gateway Nat Nat) (socket : Nat),
      run (step world) (.start clock) events = some gateway →
      (∀ event ∈ alone, Alone world socket event) →
      run (step world) (.start clock) alone = some other →
      gateway.Fresh world ∧
        ∀ update ∈ gateway.sent, ∀ same ∈ other.sent,
          Matched socket update same → update.sensors = same.sensors := by
  intro always
  have reached : (run (step (machines 0)) (.start 0)
      [.tick 0, .read 0, .answered 0, .tick 1]).map Gateway.sent =
        some [⟨0, 0, 0, [(0, some ⟨"co2", some "CO₂", none⟩)], true⟩,
          ⟨1, 0, 0, [(0, some ⟨"co2", some "CO₂", none⟩), (1, none)],
            true⟩] := by
    decide +kernel
  have alone_reached : (run (step (machines 0)) (.start 0)
      [.tick 1, .read 1, .answered 1]).map Gateway.sent =
        some [⟨1, 0, 0, [(0, some ⟨"co2", some "CO₂", none⟩),
          (1, some ⟨"ppfd", some "Light", some "Cabinet"⟩)], true⟩] := by
    decide +kernel
  obtain ⟨gateway, ran, sent⟩ := Option.map_eq_some_iff.mp reached
  obtain ⟨other, alone_ran, alone_sent⟩ :=
    Option.map_eq_some_iff.mp alone_reached
  have only : ∀ event ∈ [Event.tick 1, .read 1, .answered 1],
      Alone (machines 0) 1 event := by
    intro event member
    simp only [List.mem_cons, List.not_mem_nil, or_false] at member
    rcases member with rfl | rfl | rfl
    · exact fun _ => rfl
    · exact fun _ => rfl
    · exact fun _ => rfl
  have agree := (always (machines 0) 0 _ _ gateway other 1 ran only
    alone_ran).2
  rw [sent, alone_sent] at agree
  have same := agree _ (.tail _ (.head _)) _ (.head _)
    ⟨rfl, rfl, rfl, rfl, rfl⟩
  simp at same

end IndustryFlow.Streaming
