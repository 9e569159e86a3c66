import IndustryFlow.Alerts.Reading
import IndustryFlow.Calendar
import Mathlib.Data.List.Induction
import Mathlib.Logic.Function.Basic

/-!
# The snapshot of an equipment

The store appends each reading to its sensor's window and takes the reading
that was appended last for the sensor's current one.  Readings are delivered at
least once and in any order, so the last one is not always the newest.
-/

namespace IndustryFlow.FeatureStore

open AlertWorker (codePoints)
open AlertWorker.Python (withOffset)
open Calendar (instant)
open Isoformat (Datetime)
open JsonText (Text)

/-! ## The store -/

/-- A reading as it is stored; the value is the bits of a double. -/
structure Stored where
  timestamp : Text
  value : UInt64
deriving DecidableEq

/-- The parts of a key.  The ids in it are canonical and so of one length, and
the text of the key tells its parts. -/
structure Key where
  tenant : Text
  equipment : Text
  sensor : Text
deriving DecidableEq

structure Settings where
  maxWindow : Nat
  /-- `str(uuid.UUID(text))`, or a `ValueError`. -/
  uuid : Text → Option Text
  /-- `datetime.fromisoformat`, or a `ValueError`. -/
  fromIsoformat : Text → Option Datetime

/-- `reading_time`, in microseconds.  The times that are stored are in UTC, and
their conversion does not overflow. -/
def Settings.readingTime (settings : Settings) (timestamp : Text) :
    Option Int :=
  (settings.fromIsoformat (withOffset timestamp)).map fun time =>
    instant time.toFields

abbrev Store := Key → List Stored

def Store.empty : Store := fun _ => []

/-- A call of `store_reading`. -/
structure Call where
  company : Text
  equipment : Text
  sensor : Text
  timestamp : Text
  value : UInt64
deriving DecidableEq

def Call.stored (call : Call) : Stored :=
  ⟨call.timestamp, call.value⟩

/-- `items[-limit:]`. -/
def lastItems {Item : Type} (limit : Nat) (items : List Item) : List Item :=
  if limit = 0 then items else items.drop (items.length - limit)

section

variable (settings : Settings)

/-- `_make_key`. -/
def makeKey (company equipment sensor : Text) : Option Key := do
  let tenant ← settings.uuid company
  let equipment ← settings.uuid equipment
  some ⟨tenant, equipment, sensor⟩

def Call.key (call : Call) : Option Key :=
  makeKey settings call.company call.equipment call.sensor

/-- The window with one more reading. -/
def appended (readings : List Stored) (reading : Stored) : List Stored :=
  let readings := readings ++ [reading]
  if settings.maxWindow < readings.length then
    lastItems settings.maxWindow readings
  else readings

/-- `store_reading`; `none` is a `ValueError`. -/
def storeReading (store : Store) (call : Call) : Option Store :=
  (call.key settings).map fun key => Function.update store key
    (appended settings (store key) call.stored)

inductive Event where
  | store (call : Call)
  /-- The time to live of a key ends. -/
  | expire (key : Key)
deriving DecidableEq

def step (store : Store) : Event → Store
  | .store call => (storeReading settings store call).getD store
  | .expire key => Function.update store key []

/-- The store after the events. -/
def after (events : List Event) : Store :=
  events.foldl (step settings) .empty

/-- `get_recent_readings`. -/
def getRecentReadings (store : Store) (company equipment sensor : Text)
    (limit : Nat) : Option (List Stored) :=
  (makeKey settings company equipment sensor).map fun key =>
    lastItems limit (store key)

/-! ## The snapshot -/

/-- `age.total_seconds() > max_age_seconds`. -/
structure AgeBound where
  exceeds : Int → Bool
  monotone : ∀ age older, age ≤ older → exceeds age = true →
    exceeds older = true

structure Request where
  company : Text
  equipment : Text
  sensorNames : List Text
  maxAge : Option AgeBound
  now : Int

structure Snapshot where
  values : Text → Option UInt64
  asOf : Option Int

def Snapshot.empty : Snapshot := ⟨fun _ => none, none⟩

/-- The reading is left out for its age. -/
def tooOld (request : Request) (reading : Stored) : Bool :=
  match request.maxAge, settings.readingTime reading.timestamp with
  | none, _ => false
  | some _, none => true
  | some bound, some time => bound.exceeds (request.now - time)

/-- The greater of the times. -/
def later (asOf time : Option Int) : Option Int :=
  match asOf, time with
  | asOf, none => asOf
  | none, some time => some time
  | some before, some time => if before < time then some time else some before

/-- What the loop over the sensors makes of the latest reading of one. -/
def taken (request : Request) (snapshot : Snapshot) (sensor : Text) :
    Option Stored → Snapshot
  | none => snapshot
  | some latest =>
      if tooOld settings request latest then snapshot
      else
        { values := Function.update snapshot.values sensor (some latest.value)
          asOf := later snapshot.asOf
            (settings.readingTime latest.timestamp) }

/-- The loop body of `get_current_snapshot`. -/
def visit (store : Store) (request : Request) (snapshot : Snapshot)
    (sensor : Text) : Option Snapshot :=
  (getRecentReadings settings store request.company request.equipment sensor
    1).map fun readings => taken settings request snapshot sensor
      readings.getLast?

/-- `get_current_snapshot`. -/
def getCurrentSnapshot (store : Store) (request : Request) :
    Option Snapshot :=
  request.sensorNames.foldlM (visit settings store request) .empty

/-! ## The newest state -/

/-- The stored readings of a key: those since it last expired. -/
def keptStep (key : Key) (readings : List Stored) : Event → List Stored
  | .store call =>
      if call.key settings = some key then readings ++ [call.stored]
      else readings
  | .expire expired => if expired = key then [] else readings

def kept (key : Key) (events : List Event) : List Stored :=
  events.foldl (keptStep settings key) []

/-- The reading with the greatest event time. -/
def newest (readings : List Stored) : Option Stored :=
  readings.foldl (fun best reading =>
    match best with
    | none => some reading
    | some found =>
        if (settings.readingTime found.timestamp).getD 0 <
            (settings.readingTime reading.timestamp).getD 0 then some reading
        else some found) none

/-- The time is the greatest, if there is one. -/
def Greatest (times : List Int) : Option Int → Prop
  | none => times = []
  | some time => time ∈ times ∧ ∀ other ∈ times, other ≤ time

/-- The snapshot is made of the readings that `pick` has for the sensors, and
that are not too old. -/
structure MadeOf (request : Request) (pick : Text → Option Stored)
    (snapshot : Snapshot) : Prop where
  values : ∀ sensor, snapshot.values sensor =
    if sensor ∈ request.sensorNames then
      ((pick sensor).filter (!tooOld settings request ·)).map Stored.value
    else none
  asOf : Greatest (request.sensorNames.filterMap fun sensor =>
    ((pick sensor).filter (!tooOld settings request ·)).bind fun reading =>
      settings.readingTime reading.timestamp) snapshot.asOf

/-- A sequence of calls whose event times are distinct for each sensor, and
a delivery of it that fits in the window. -/
structure Delivery (calls : List Call) (events : List Event) : Prop where
  timed : ∀ call ∈ calls, ∃ time,
    settings.readingTime call.timestamp = some time
  distinct : ∀ call ∈ calls, ∀ other ∈ calls,
    call.key settings = other.key settings →
    settings.readingTime call.timestamp =
      settings.readingTime other.timestamp → call = other
  delivered : ∀ call, .store call ∈ events ↔ call ∈ calls
  fits : ∀ key, (events.filter fun event => match event with
    | .store call => call.key settings = some key
    | .expire _ => false).length ≤ settings.maxWindow

/-- The equipment's canonical key for a sensor. -/
def Request.key (request : Request) (sensor : Text) : Option Key :=
  makeKey settings request.company request.equipment sensor

/-- The newest stored reading of a sensor. -/
def newestOf (events : List Event) (request : Request) (sensor : Text) :
    Option Stored :=
  (request.key settings sensor).bind fun key =>
    newest settings (kept settings key events)

/-- The reading of a sensor that was stored last. -/
def lastOf (events : List Event) (request : Request) (sensor : Text) :
    Option Stored :=
  (request.key settings sensor).bind fun key =>
    (kept settings key events).getLast?

/-- The snapshot is returned and is the newest state. -/
def IsNewestState (events : List Event) (request : Request) : Prop :=
  ∃ snapshot,
    getCurrentSnapshot settings (after settings events) request =
      some snapshot ∧
    MadeOf settings request (newestOf settings events request) snapshot

/-- The last reading of each sensor is the newest, or both are too old, or both
have one value and neither is; and one that is the newest is as new as any that
is not too old. -/
def Timely (events : List Event) (request : Request) : Prop :=
  (∀ sensor ∈ request.sensorNames, ∀ last newest,
    lastOf settings events request sensor = some last →
    newestOf settings events request sensor = some newest →
      last = newest ∨
        (tooOld settings request last = true ∧
          tooOld settings request newest = true) ∨
        (tooOld settings request last = false ∧
          tooOld settings request newest = false ∧
          last.value = newest.value)) ∧
  ∀ sensor ∈ request.sensorNames, ∀ newest,
    newestOf settings events request sensor = some newest →
    tooOld settings request newest = false →
    ∃ other ∈ request.sensorNames, ∃ last,
      lastOf settings events request other = some last ∧
      newestOf settings events request other = some last ∧
      tooOld settings request last = false ∧
      ∀ time, settings.readingTime newest.timestamp = some time →
        ∃ latest, settings.readingTime last.timestamp = some latest ∧
          time ≤ latest

end

section

variable {settings : Settings}

/-! ## What is stored -/

theorem lastItems_getLast? {Item : Type} (items : List Item) :
    (lastItems 1 items).getLast? = items.getLast? := by
  rcases List.eq_nil_or_concat items with rfl | ⟨front, last, rfl⟩
  · rfl
  · simp [lastItems]

/-- The deliveries to a key. -/
def deliveries (settings : Settings) (key : Key) (events : List Event) :
    Nat :=
  (events.filter fun event => match event with
    | .store call => call.key settings = some key
    | .expire _ => false).length

theorem step_store {store : Store} {call : Call} {key : Key} :
    step settings store (.store call) key =
      if call.key settings = some key then
        appended settings (store key) call.stored
      else store key := by
  simp only [step, storeReading]
  cases own : call.key settings with
  | none => simp
  | some named =>
      simp only [Option.map_some, Option.getD_some]
      by_cases same : named = key
      · subst same
        rw [Function.update_self, if_pos rfl]
      · rw [Function.update_of_ne (Ne.symm same),
          if_neg fun equal => same (Option.some.inj equal)]

/-- A delivery that fits in the window leaves every reading in it. -/
theorem after_eq_kept (key : Key) (events : List Event)
    (fits : deliveries settings key events ≤ settings.maxWindow) :
    after settings events key = kept settings key events ∧
      (kept settings key events).length ≤
        deliveries settings key events := by
  induction events using List.reverseRecOn with
  | nil => exact ⟨rfl, Nat.le_refl _⟩
  | append_singleton events event induction =>
      have split : deliveries settings key (events ++ [event]) =
          deliveries settings key events +
            deliveries settings key [event] := by
        simp [deliveries, List.filter_append]
      rw [split] at fits
      obtain ⟨same, few⟩ := induction (by omega)
      have stepped : after settings (events ++ [event]) key =
          step settings (after settings events) event key := by
        rw [after, List.foldl_append]
        rfl
      have keeps : kept settings key (events ++ [event]) =
          keptStep settings key (kept settings key events) event := by
        rw [kept, List.foldl_append]
        rfl
      rw [stepped, keeps, split]
      cases event with
      | expire expired =>
          by_cases own : expired = key
          · subst own
            simp [step, keptStep]
          · rw [step, Function.update_of_ne (Ne.symm own), keptStep,
              if_neg own]
            exact ⟨same, by omega⟩
      | store call =>
          rw [step_store, keptStep, same]
          by_cases own : call.key settings = some key
          · have one : deliveries settings key [.store call] = 1 := by
              simp [deliveries, own]
            rw [if_pos own, if_pos own, appended, if_neg]
            · exact ⟨rfl, by simp; omega⟩
            · simp
              omega
          · rw [if_neg own, if_neg own]
            exact ⟨rfl, by omega⟩

theorem mem_kept {key : Key} {events : List Event} {reading : Stored}
    (member : reading ∈ kept settings key events) :
    ∃ call, .store call ∈ events ∧ call.key settings = some key ∧
      call.stored = reading := by
  induction events using List.reverseRecOn with
  | nil => cases member
  | append_singleton events event induction =>
      have earlier (before : reading ∈ kept settings key events) :
          ∃ call, .store call ∈ events ++ [event] ∧
            call.key settings = some key ∧ call.stored = reading := by
        obtain ⟨call, stored, rest⟩ := induction before
        exact ⟨call, List.mem_append_left _ stored, rest⟩
      rw [kept, List.foldl_append] at member
      cases event with
      | expire expired =>
          simp only [List.foldl_cons, List.foldl_nil, keptStep] at member
          split at member
          · cases member
          · exact earlier member
      | store call =>
          simp only [List.foldl_cons, List.foldl_nil, keptStep] at member
          split at member
          · rename_i own
            rcases List.mem_append.mp member with before | now
            · exact earlier before
            · refine ⟨call, by simp, own, ?_⟩
              exact (List.mem_singleton.mp now).symm
          · exact earlier member

/-! ## The newest reading -/

theorem newest_append (readings : List Stored) (reading : Stored) :
    newest settings (readings ++ [reading]) =
      match newest settings readings with
      | none => some reading
      | some found =>
          if (settings.readingTime found.timestamp).getD 0 <
              (settings.readingTime reading.timestamp).getD 0 then
            some reading
          else some found := by
  rw [newest, List.foldl_append]
  rfl

theorem newest_nil_iff {readings : List Stored} :
    newest settings readings = none ↔ readings = [] := by
  rcases List.eq_nil_or_concat readings with rfl | ⟨front, last, rfl⟩
  · exact ⟨fun _ => rfl, fun _ => rfl⟩
  · rw [List.concat_eq_append, newest_append]
    constructor
    · intro never
      split at never
      · cases never
      · split at never
        · cases never
        · cases never
    · intro never
      simp at never

/-- The newest reading is one of them, and none is newer. -/
theorem newest_spec {readings : List Stored} {found : Stored}
    (is : newest settings readings = some found) :
    found ∈ readings ∧ ∀ reading ∈ readings,
      (settings.readingTime reading.timestamp).getD 0 ≤
        (settings.readingTime found.timestamp).getD 0 := by
  induction readings using List.reverseRecOn generalizing found with
  | nil => cases is
  | append_singleton readings reading induction =>
      rw [newest_append] at is
      cases best : newest settings readings with
      | none =>
          rw [best] at is
          cases is
          rw [newest_nil_iff.mp best]
          simp
      | some other =>
          obtain ⟨member, greatest⟩ := induction best
          rw [best] at is
          simp only at is
          split at is
          · rename_i newer
            cases is
            refine ⟨by simp, fun old listed => ?_⟩
            rcases List.mem_append.mp listed with before | now
            · exact Int.le_of_lt (Int.lt_of_le_of_lt (greatest old before)
                newer)
            · cases List.mem_singleton.mp now
              exact Int.le_refl _
          · rename_i older
            cases is
            refine ⟨List.mem_append_left _ member, fun old listed => ?_⟩
            rcases List.mem_append.mp listed with before | now
            · exact greatest old before
            · cases List.mem_singleton.mp now
              omega

/-! ## The loop over the sensors -/

theorem Greatest.later {times : List Int} {asOf : Option Int}
    (greatest : Greatest times asOf) (time : Option Int) :
    Greatest (times ++ time.toList) (later asOf time) := by
  cases time with
  | none => simpa [FeatureStore.later] using greatest
  | some time =>
      cases asOf with
      | none =>
          have empty : times = [] := greatest
          subst empty
          simp [FeatureStore.later, Greatest]
      | some before =>
          obtain ⟨member, least⟩ := greatest
          simp only [FeatureStore.later]
          split
          · rename_i newer
            refine ⟨by simp, fun other listed => ?_⟩
            rcases List.mem_append.mp listed with early | now
            · exact Int.le_of_lt (Int.lt_of_le_of_lt (least other early)
                newer)
            · have same := Option.some.inj (Option.mem_toList.mp now)
              omega
          · rename_i older
            refine ⟨List.mem_append_left _ member, fun other listed => ?_⟩
            rcases List.mem_append.mp listed with early | now
            · exact least other early
            · have same := Option.some.inj (Option.mem_toList.mp now)
              omega

/-- The reading of a sensor that is not too old. -/
def fresh (settings : Settings) (request : Request)
    (pick : Text → Option Stored) (sensor : Text) : Option Stored :=
  (pick sensor).filter (!tooOld settings request ·)

theorem taken_eq (request : Request) (pick : Text → Option Stored)
    (snapshot : Snapshot) (sensor : Text) :
    taken settings request snapshot sensor (pick sensor) =
      match fresh settings request pick sensor with
      | none => snapshot
      | some reading =>
          { values := Function.update snapshot.values sensor
              (some reading.value)
            asOf := later snapshot.asOf
              (settings.readingTime reading.timestamp) } := by
  unfold fresh
  cases pick sensor with
  | none => rfl
  | some reading =>
      cases old : tooOld settings request reading with
      | true => simp [taken, old, Option.filter]
      | false => simp [taken, old, Option.filter]

/-- What the loop has made of the sensors that it has seen. -/
theorem taken_fold (settings : Settings) (request : Request)
    (pick : Text → Option Stored) (names : List Text) :
    let snapshot := names.foldl (fun snapshot sensor =>
      taken settings request snapshot sensor (pick sensor)) .empty
    (∀ sensor, snapshot.values sensor =
      if sensor ∈ names then
        (fresh settings request pick sensor).map Stored.value
      else none) ∧
    Greatest (names.filterMap fun sensor =>
      (fresh settings request pick sensor).bind fun reading =>
        settings.readingTime reading.timestamp) snapshot.asOf := by
  induction names using List.reverseRecOn with
  | nil => exact ⟨fun _ => rfl, rfl⟩
  | append_singleton names name induction =>
      obtain ⟨values, greatest⟩ := induction
      rw [List.foldl_append, List.foldl_cons, List.foldl_nil, taken_eq,
        List.filterMap_append]
      cases found : fresh settings request pick name with
      | none =>
          constructor
          · intro sensor
            rw [values]
            by_cases own : sensor = name
            · subst own
              simp [found]
            · simp [own]
          · simpa [found] using greatest
      | some reading =>
          dsimp only
          constructor
          · intro sensor
            by_cases own : sensor = name
            · subst own
              simp [found]
            · rw [Function.update_of_ne own, values]
              simp [own]
          · have next := greatest.later
              (settings.readingTime reading.timestamp)
            have last : [name].filterMap (fun sensor =>
                (fresh settings request pick sensor).bind fun reading =>
                  settings.readingTime reading.timestamp) =
                (settings.readingTime reading.timestamp).toList := by
              cases timed : settings.readingTime reading.timestamp with
              | none => simp [found, timed]
              | some time => simp [found, timed]
            rw [last]
            exact next

/-- The snapshot is made of the readings that were stored last. -/
theorem getCurrentSnapshot_spec {calls : List Call} {events : List Event}
    {request : Request} {tenant equipment : Text}
    (delivery : Delivery settings calls events)
    (company : settings.uuid request.company = some tenant)
    (machine : settings.uuid request.equipment = some equipment) :
    ∃ snapshot,
      getCurrentSnapshot settings (after settings events) request =
        some snapshot ∧
      MadeOf settings request (lastOf settings events request) snapshot := by
  have keyed (sensor : Text) : request.key settings sensor =
      some ⟨tenant, equipment, sensor⟩ := by
    rw [Request.key, makeKey, company, machine]
    rfl
  have visited (snapshot : Snapshot) (sensor : Text) :
      visit settings (after settings events) request snapshot sensor =
        some (taken settings request snapshot sensor
          (lastOf settings events request sensor)) := by
    have key : makeKey settings request.company request.equipment sensor =
        some ⟨tenant, equipment, sensor⟩ := keyed sensor
    rw [visit, getRecentReadings, key, Option.map_some, Option.map_some,
      lastItems_getLast?, lastOf, keyed, Option.bind_some,
      (after_eq_kept _ events (delivery.fits _)).1]
  have folded (names : List Text) (start : Snapshot) :
      names.foldlM (visit settings (after settings events) request) start =
        some (names.foldl (fun snapshot sensor =>
          taken settings request snapshot sensor
            (lastOf settings events request sensor)) start) := by
    induction names generalizing start with
    | nil => rfl
    | cons name names induction =>
        rw [List.foldlM_cons, visited]
        exact induction _
  obtain ⟨values, greatest⟩ := taken_fold settings request
    (lastOf settings events request) request.sensorNames
  exact ⟨_, folded request.sensorNames .empty, values, greatest⟩

/-! ## The last reading and the newest -/

section Delivered

variable {calls : List Call} {events : List Event} {request : Request}
variable {sensor : Text} {last newest : Stored}

theorem lastOf_mem (is : lastOf settings events request sensor = some last) :
    ∃ key, request.key settings sensor = some key ∧
      last ∈ kept settings key events := by
  obtain ⟨key, named, found⟩ := Option.bind_eq_some_iff.mp is
  exact ⟨key, named, List.mem_of_getLast? found⟩

theorem newestOf_spec
    (is : newestOf settings events request sensor = some newest) :
    ∃ key, request.key settings sensor = some key ∧
      newest ∈ kept settings key events ∧
      ∀ reading ∈ kept settings key events,
        (settings.readingTime reading.timestamp).getD 0 ≤
          (settings.readingTime newest.timestamp).getD 0 := by
  obtain ⟨key, named, found⟩ := Option.bind_eq_some_iff.mp is
  exact ⟨key, named, newest_spec found⟩

theorem newestOf_of_lastOf
    (is : lastOf settings events request sensor = some last) :
    ∃ newest, newestOf settings events request sensor = some newest := by
  obtain ⟨key, named, member⟩ := lastOf_mem is
  rw [newestOf, named, Option.bind_some, ← Option.ne_none_iff_exists']
  intro none
  rw [newest_nil_iff.mp none] at member
  cases member

theorem lastOf_of_newestOf
    (is : newestOf settings events request sensor = some newest) :
    ∃ last, lastOf settings events request sensor = some last := by
  obtain ⟨key, named, member, -⟩ := newestOf_spec is
  rw [lastOf, named, Option.bind_some, ← Option.ne_none_iff_exists']
  intro none
  rw [List.getLast?_eq_none_iff.mp none] at member
  cases member

theorem Delivery.timed_kept (delivery : Delivery settings calls events)
    {key : Key} {reading : Stored}
    (member : reading ∈ kept settings key events) :
    ∃ time, settings.readingTime reading.timestamp = some time := by
  obtain ⟨call, stored, -, rfl⟩ := mem_kept member
  exact delivery.timed call ((delivery.delivered call).mp stored)

/-- Readings of one sensor with one event time are one reading. -/
theorem Delivery.same (delivery : Delivery settings calls events) {key : Key}
    {reading other : Stored} (member : reading ∈ kept settings key events)
    (also : other ∈ kept settings key events)
    (time : settings.readingTime reading.timestamp =
      settings.readingTime other.timestamp) : reading = other := by
  obtain ⟨call, stored, named, rfl⟩ := mem_kept member
  obtain ⟨second, again, same, rfl⟩ := mem_kept also
  rw [delivery.distinct call ((delivery.delivered call).mp stored) second
    ((delivery.delivered second).mp again) (named.trans same.symm) time]

/-- The event times of the reading stored last and of the newest. -/
theorem Delivery.times (delivery : Delivery settings calls events)
    (lastIs : lastOf settings events request sensor = some last)
    (newestIs : newestOf settings events request sensor = some newest) :
    ∃ early late, settings.readingTime last.timestamp = some early ∧
      settings.readingTime newest.timestamp = some late ∧ early ≤ late ∧
      (early = late → last = newest) := by
  obtain ⟨key, named, member⟩ := lastOf_mem lastIs
  obtain ⟨_, same, also, greatest⟩ := newestOf_spec newestIs
  cases named.symm.trans same
  obtain ⟨early, first⟩ := delivery.timed_kept member
  obtain ⟨late, second⟩ := delivery.timed_kept also
  refine ⟨early, late, first, second, ?_, ?_⟩
  · have order := greatest last member
    rw [first, second] at order
    exact order
  · rintro rfl
    exact delivery.same member also (first.trans second.symm)

theorem tooOld_of_newer {early late : Int}
    (first : settings.readingTime last.timestamp = some early)
    (second : settings.readingTime newest.timestamp = some late)
    (order : early ≤ late) (old : tooOld settings request newest = true) :
    tooOld settings request last = true := by
  unfold tooOld at old ⊢
  cases bounded : request.maxAge with
  | none =>
      rw [bounded] at old
      cases old
  | some bound =>
      rw [bounded, second] at old
      rw [first]
      exact bound.monotone _ _ (by omega) old

theorem fresh_eq_some {pick : Text → Option Stored} {reading : Stored} :
    fresh settings request pick sensor = some reading ↔
      pick sensor = some reading ∧
        tooOld settings request reading = false := by
  simp [fresh, Option.filter_eq_some_iff]

/-- Where the readings agree, both are left out or both have one value. -/
theorem Delivery.values_iff (delivery : Delivery settings calls events)
    (lastIs : lastOf settings events request sensor = some last)
    (newestIs : newestOf settings events request sensor = some newest) :
    (fresh settings request (lastOf settings events request) sensor).map
        Stored.value =
      (fresh settings request (newestOf settings events request) sensor).map
        Stored.value ↔
    last = newest ∨
      (tooOld settings request last = true ∧
        tooOld settings request newest = true) ∨
      (tooOld settings request last = false ∧
        tooOld settings request newest = false ∧
        last.value = newest.value) := by
  obtain ⟨early, late, first, second, order, -⟩ :=
    delivery.times lastIs newestIs
  have older := @tooOld_of_newer settings request last newest _ _ first
    second order
  unfold fresh
  rw [lastIs, newestIs]
  cases oldLast : tooOld settings request last with
  | true =>
      cases oldNewest : tooOld settings request newest with
      | true => simp [Option.filter, oldLast, oldNewest]
      | false =>
          simp only [Option.filter, oldLast, oldNewest]
          constructor
          · intro same
            cases same
          · rintro (rfl | ⟨_, never⟩ | ⟨never, _⟩)
            · rw [oldLast] at oldNewest
              cases oldNewest
            · cases never
            · cases never
  | false =>
      cases oldNewest : tooOld settings request newest with
      | true =>
          rw [older oldNewest] at oldLast
          cases oldLast
      | false =>
          simp only [Option.filter, oldLast, oldNewest]
          constructor
          · intro same
            exact .inr (.inr ⟨trivial, trivial, Option.some.inj same⟩)
          · rintro (rfl | ⟨never, _⟩ | ⟨_, _, same⟩)
            · rfl
            · cases never
            · exact congrArg some same

/-- The event times of the readings that are not too old. -/
def youngTimes (settings : Settings) (request : Request)
    (pick : Text → Option Stored) : List Int :=
  request.sensorNames.filterMap fun sensor =>
    (fresh settings request pick sensor).bind fun reading =>
      settings.readingTime reading.timestamp

theorem mem_youngTimes {pick : Text → Option Stored} {time : Int} :
    time ∈ youngTimes settings request pick ↔
      ∃ sensor ∈ request.sensorNames, ∃ reading,
        pick sensor = some reading ∧
        tooOld settings request reading = false ∧
        settings.readingTime reading.timestamp = some time := by
  rw [youngTimes, List.mem_filterMap]
  constructor
  · rintro ⟨sensor, member, found⟩
    obtain ⟨reading, kept, timed⟩ := Option.bind_eq_some_iff.mp found
    obtain ⟨picked, young⟩ := fresh_eq_some.mp kept
    exact ⟨sensor, member, reading, picked, young, timed⟩
  · rintro ⟨sensor, member, reading, picked, young, timed⟩
    refine ⟨sensor, member, Option.bind_eq_some_iff.mpr ⟨reading, ?_, timed⟩⟩
    exact fresh_eq_some.mpr ⟨picked, young⟩

theorem MadeOf.greatest {pick : Text → Option Stored} {snapshot : Snapshot}
    (made : MadeOf settings request pick snapshot) :
    Greatest (youngTimes settings request pick) snapshot.asOf :=
  made.asOf

theorem Greatest.of_mem {times : List Int} {asOf : Option Int} {time : Int}
    (greatest : Greatest times asOf) (member : time ∈ times) :
    ∃ last, asOf = some last ∧ last ∈ times ∧ time ≤ last := by
  cases asOf with
  | none =>
      have empty : times = [] := greatest
      rw [empty] at member
      cases member
  | some last => exact ⟨last, rfl, greatest.1, greatest.2 time member⟩

/-- The values of the snapshot are those of the newest readings. -/
theorem Delivery.all_values_iff (delivery : Delivery settings calls events) :
    (∀ sensor ∈ request.sensorNames,
      (fresh settings request (lastOf settings events request) sensor).map
          Stored.value =
        (fresh settings request (newestOf settings events request)
          sensor).map Stored.value) ↔
    ∀ sensor ∈ request.sensorNames, ∀ last newest,
      lastOf settings events request sensor = some last →
      newestOf settings events request sensor = some newest →
        last = newest ∨
          (tooOld settings request last = true ∧
            tooOld settings request newest = true) ∨
          (tooOld settings request last = false ∧
            tooOld settings request newest = false ∧
            last.value = newest.value) := by
  constructor
  · intro same sensor member last newest lastIs newestIs
    exact (delivery.values_iff lastIs newestIs).mp (same sensor member)
  · intro agree sensor member
    cases lastIs : lastOf settings events request sensor with
    | none =>
        cases newestIs : newestOf settings events request sensor with
        | none => simp [fresh, lastIs, newestIs]
        | some newest =>
            obtain ⟨last, found⟩ := lastOf_of_newestOf newestIs
            rw [lastIs] at found
            cases found
    | some last =>
        obtain ⟨newest, newestIs⟩ := newestOf_of_lastOf lastIs
        exact (delivery.values_iff lastIs newestIs).mpr
          (agree sensor member last newest lastIs newestIs)

theorem Delivery.newest_young (delivery : Delivery settings calls events)
    (lastIs : lastOf settings events request sensor = some last)
    (newestIs : newestOf settings events request sensor = some newest)
    (young : tooOld settings request last = false) :
    tooOld settings request newest = false := by
  obtain ⟨early, late, first, second, order, -⟩ :=
    delivery.times lastIs newestIs
  cases old : tooOld settings request newest with
  | false => rfl
  | true =>
      rw [tooOld_of_newer first second order old] at young
      cases young

/-- A snapshot of the last readings that is the newest state. -/
theorem Delivery.timely_of_madeOf (delivery : Delivery settings calls events)
    {snapshot : Snapshot}
    (made : MadeOf settings request (lastOf settings events request) snapshot)
    (wanted : MadeOf settings request (newestOf settings events request)
      snapshot) : Timely settings events request := by
  constructor
  · apply delivery.all_values_iff.mp
    intro sensor member
    have left := made.values sensor
    have right := wanted.values sensor
    rw [if_pos member] at left right
    exact left.symm.trans right
  · intro sensor member newest newestIs young
    obtain ⟨before, beforeIs⟩ := lastOf_of_newestOf newestIs
    obtain ⟨_, late, -, timed, -, -⟩ := delivery.times beforeIs newestIs
    obtain ⟨asOf, reached, -, bounded⟩ := wanted.greatest.of_mem
      (mem_youngTimes.mpr ⟨sensor, member, newest, newestIs, young, timed⟩)
    -- Some last reading has the time of the snapshot, and it is the newest of
    -- its sensor: a newer one would have a time after the snapshot's.
    have attained := made.greatest
    rw [reached] at attained
    obtain ⟨other, requested, last, lastIs, also, taken⟩ :=
      mem_youngTimes.mp attained.1
    obtain ⟨best, bestIs⟩ := newestOf_of_lastOf lastIs
    obtain ⟨early, last', first, second, order, same⟩ :=
      delivery.times lastIs bestIs
    cases first.symm.trans taken
    obtain ⟨_, again, -, newer⟩ := wanted.greatest.of_mem
      (mem_youngTimes.mpr ⟨other, requested, best, bestIs,
        delivery.newest_young lastIs bestIs also, second⟩)
    cases reached.symm.trans again
    cases same (by omega)
    refine ⟨other, requested, last, lastIs, bestIs, also, ?_⟩
    intro time is
    cases timed.symm.trans is
    exact ⟨asOf, first, bounded⟩

/-- A timely delivery makes the last readings the newest state. -/
theorem Delivery.madeOf_of_timely (delivery : Delivery settings calls events)
    {snapshot : Snapshot}
    (made : MadeOf settings request (lastOf settings events request) snapshot)
    (timely : Timely settings events request) :
    MadeOf settings request (newestOf settings events request) snapshot := by
  obtain ⟨agree, attained⟩ := timely
  -- A newest reading is no newer than some last reading that is used.
  have reached {time : Int}
      (member : time ∈ youngTimes settings request
        (newestOf settings events request)) :
      ∃ latest, time ≤ latest ∧
        latest ∈ youngTimes settings request
          (lastOf settings events request) ∧
        latest ∈ youngTimes settings request
          (newestOf settings events request) := by
    obtain ⟨sensor, listed, newest, newestIs, young, timed⟩ :=
      mem_youngTimes.mp member
    obtain ⟨other, requested, last, lastIs, also, fits, bound⟩ :=
      attained sensor listed newest newestIs young
    obtain ⟨latest, is, order⟩ := bound time timed
    exact ⟨latest, order,
      mem_youngTimes.mpr ⟨other, requested, last, lastIs, fits, is⟩,
      mem_youngTimes.mpr ⟨other, requested, last, also, fits, is⟩⟩
  constructor
  · intro sensor
    rw [made.values sensor]
    by_cases member : sensor ∈ request.sensorNames
    · rw [if_pos member, if_pos member]
      exact delivery.all_values_iff.mpr agree sensor member
    · rw [if_neg member, if_neg member]
  · show Greatest (youngTimes settings request
      (newestOf settings events request)) snapshot.asOf
    have greatest := made.greatest
    cases is : snapshot.asOf with
    | none =>
        rw [is] at greatest
        have empty : youngTimes settings request
          (lastOf settings events request) = [] := greatest
        apply List.eq_nil_iff_forall_not_mem.mpr
        intro time member
        obtain ⟨latest, -, found, -⟩ := reached member
        rw [empty] at found
        cases found
    | some asOf =>
        rw [is] at greatest
        constructor
        · obtain ⟨sensor, listed, last, lastIs, young, timed⟩ :=
            mem_youngTimes.mp greatest.1
          obtain ⟨newest, newestIs⟩ := newestOf_of_lastOf lastIs
          obtain ⟨early, late, first, second, order, -⟩ :=
            delivery.times lastIs newestIs
          cases first.symm.trans timed
          obtain ⟨latest, newer, found, also⟩ := reached
            (mem_youngTimes.mpr ⟨sensor, listed, newest, newestIs,
              delivery.newest_young lastIs newestIs young, second⟩)
          have least := greatest.2 latest found
          have same : latest = asOf := by omega
          rw [← same]
          exact also
        · intro time member
          obtain ⟨latest, order, found, -⟩ := reached member
          exact Int.le_trans order (greatest.2 latest found)

/-- The snapshot is the newest state just when the delivery is timely. -/
theorem isNewestState_iff {tenant equipment : Text}
    (delivery : Delivery settings calls events)
    (company : settings.uuid request.company = some tenant)
    (machine : settings.uuid request.equipment = some equipment) :
    IsNewestState settings events request ↔
      Timely settings events request := by
  obtain ⟨snapshot, returned, made⟩ :=
    getCurrentSnapshot_spec delivery company machine
  constructor
  · rintro ⟨_, also, wanted⟩
    cases returned.symm.trans also
    exact delivery.timely_of_madeOf made wanted
  · intro timely
    exact ⟨snapshot, returned, delivery.madeOf_of_timely made timely⟩

end Delivered

end

/-! ## A late reading -/

def sampleSettings : Settings where
  maxWindow := 100
  uuid := some
  fromIsoformat text :=
    Isoformat.fromIsoformat (fun _ => none)
      (String.ofList (text.map Char.ofNat))

def sampleCompany : Text :=
  codePoints "00000000-0000-0000-0000-0000000000ab"

def sampleEquipment : Text :=
  codePoints "00000000-0000-0000-0000-0000000000cd"

def pressure : Text :=
  codePoints "pressure"

def sampleCall (time : String) (value : UInt64) : Call :=
  ⟨sampleCompany, sampleEquipment, pressure, codePoints time, value⟩

def earlyCall : Call := sampleCall "2026-01-01T00:00:00+00:00" 1

def lateCall : Call := sampleCall "2026-01-01T00:00:01+00:00" 2

def sampleRequest : Request where
  company := sampleCompany
  equipment := sampleEquipment
  sensorNames := [pressure]
  maxAge := none
  now := 0

theorem sample_times :
    (sampleSettings.readingTime earlyCall.timestamp).isSome = true ∧
    (sampleSettings.readingTime lateCall.timestamp).isSome = true ∧
    sampleSettings.readingTime earlyCall.timestamp ≠
      sampleSettings.readingTime lateCall.timestamp := by
  refine ⟨?_, ?_, ?_⟩
  · decide +kernel
  · decide +kernel
  · decide +kernel

/-- The two readings, stored in the one order or in the other. -/
theorem sample_delivery {events : List Event}
    (order : events = [.store earlyCall, .store lateCall] ∨
      events = [.store lateCall, .store earlyCall]) :
    Delivery sampleSettings [earlyCall, lateCall] events := by
  obtain ⟨early, late, apart⟩ := sample_times
  constructor
  · intro call member
    rcases List.mem_pair.mp member with rfl | rfl
    · exact Option.isSome_iff_exists.mp early
    · exact Option.isSome_iff_exists.mp late
  · intro call member other also _ same
    rcases List.mem_pair.mp member with rfl | rfl
    · rcases List.mem_pair.mp also with rfl | rfl
      · rfl
      · exact absurd same apart
    · rcases List.mem_pair.mp also with rfl | rfl
      · exact absurd same.symm apart
      · rfl
  · intro call
    rcases order with rfl | rfl
    · simp
    · simp [or_comm]
  · intro key
    refine Nat.le_trans (List.length_filter_le _ _) ?_
    rcases order with rfl | rfl
    · decide
    · decide

theorem isNewestState_in_order :
    IsNewestState sampleSettings [.store earlyCall, .store lateCall]
      sampleRequest := by
  apply (isNewestState_iff (sample_delivery (.inl rfl)) rfl rfl).mpr
  have lastIs : lastOf sampleSettings [.store earlyCall, .store lateCall]
      sampleRequest pressure = some lateCall.stored := by
    decide +kernel
  have newestIs : newestOf sampleSettings [.store earlyCall, .store lateCall]
      sampleRequest pressure = some lateCall.stored := by
    decide +kernel
  constructor
  · intro sensor member last newest first second
    cases List.mem_singleton.mp member
    cases lastIs.symm.trans first
    cases newestIs.symm.trans second
    exact .inl rfl
  · intro sensor member newest is _
    cases List.mem_singleton.mp member
    cases newestIs.symm.trans is
    exact ⟨pressure, member, lateCall.stored, lastIs, newestIs, rfl,
      fun time timed => ⟨time, timed, Int.le_refl _⟩⟩

/-- The reading that is delivered last is taken, though it is the older one. -/
theorem late_reading_taken :
    ¬∀ (settings : Settings) (calls : List Call) (events : List Event)
      (request : Request) (tenant equipment : Text),
      Delivery settings calls events →
      settings.uuid request.company = some tenant →
      settings.uuid request.equipment = some equipment →
        IsNewestState settings events request := by
  intro every
  obtain ⟨snapshot, returned, made⟩ := every sampleSettings
    [earlyCall, lateCall] [.store lateCall, .store earlyCall] sampleRequest
    sampleCompany sampleEquipment (sample_delivery (.inr rfl)) rfl rfl
  have shown : (getCurrentSnapshot sampleSettings
      (after sampleSettings [.store lateCall, .store earlyCall])
      sampleRequest).map (·.values pressure) = some (some 1) := by
    decide +kernel
  have newestIs : newestOf sampleSettings [.store lateCall, .store earlyCall]
      sampleRequest pressure = some lateCall.stored := by
    decide +kernel
  have wanted := made.values pressure
  rw [returned] at shown
  have value : snapshot.values pressure = some 1 := Option.some.inj shown
  rw [value, newestIs] at wanted
  exact absurd wanted (by decide)

end IndustryFlow.FeatureStore
