import IndustryFlow.Companies.StatusCache

/-!
# Bounded staleness

An entry expires by the clock before its registry read, so whatever happened
while the read was under way, the registry held the company active no earlier
than that (`Justified.fresh`).  A call that answers yes has found the marker
absent after it started.
-/

namespace IndustryFlow.CompanyStatus

open Concurrent

variable {other : List Char → Option Int} {settings : Settings}

/-! ## What a process keeps -/

/-- An entry says yes for no longer than a moment of the registry allows. -/
def Justified (settings : Settings) (process : Process) (entry : Cached) :
    Prop :=
  entry.active = true → ∃ moment ∈ process.past,
    moment.active entry.key = true ∧ entry.expires ≤ moment.now + settings.cacheSeconds

structure Sound (settings : Settings) (process : Process) : Prop where
  current : process.past.getLast? = some process.moment
  bounded : process.cache.length ≤ settings.cacheMaxCompanies
  justified : ∀ entry ∈ process.cache, Justified settings process entry

/-- Moments are added, and the clock goes on. -/
structure Passes (before after : Process) : Prop where
  past : before.past <+: after.past
  now : before.moment.now ≤ after.moment.now

theorem Passes.refl (process : Process) : Passes process process :=
  ⟨List.prefix_rfl, le_rfl⟩

theorem Passes.trans {first second third : Process}
    (earlier : Passes first second) (later : Passes second third) :
    Passes first third :=
  ⟨earlier.past.trans later.past, earlier.now.trans later.now⟩

theorem Justified.later {before after : Process} {entry : Cached}
    (justified : Justified settings before entry)
    (passes : Passes before after) : Justified settings after entry := by
  intro active
  obtain ⟨moment, member, held, bound⟩ := justified active
  exact ⟨moment, passes.past.subset member, held, bound⟩

/-- Only entries that were there are in the cache. -/
theorem Sound.shrinks {process : Process} {cache : List Cached}
    (sound : Sound settings process) (inside : cache ⊆ process.cache)
    (length : cache.length ≤ process.cache.length) :
    Sound settings { process with cache } where
  current := sound.current
  bounded := length.trans sound.bounded
  justified entry member := sound.justified entry (inside member)

theorem Sound.drop {process : Process}
    (sound : Sound settings process) (key : String) :
    Sound settings (process.drop key) :=
  sound.shrinks (List.filter_subset_self _) (List.length_filter_le _ _)

theorem Sound.moveToEnd {process : Process}
    (sound : Sound settings process) (key : String) :
    Sound settings (process.moveToEnd key) := by
  have reordered : (process.cache.filter (·.key ≠ key) ++
      process.cache.filter (·.key = key)).Perm process.cache := by
    apply List.perm_append_comm.trans
    have split := List.filter_append_perm
      (fun entry : Cached => decide (entry.key = key)) process.cache
    simpa using split
  exact sound.shrinks reordered.subset reordered.length_eq.le

theorem Sound.remember {process : Process} {entry : Cached}
    (sound : Sound settings process)
    (justified : Justified settings process entry) :
    Sound settings (process.remember settings entry) where
  current := sound.current
  bounded := by
    rw [Process.remember]
    dsimp only
    rw [List.length_drop]
    omega
  justified found member := by
    rcases List.mem_append.mp (List.mem_of_mem_drop member) with kept | new
    · exact sound.justified found (List.mem_of_mem_filter kept)
    · rw [List.mem_singleton.mp new]
      exact justified

theorem Sound.became {process : Process}
    (sound : Sound settings process) {moment : Moment}
    (later : process.moment.now ≤ moment.now) :
    Sound settings (process.became moment) ∧
      Passes process (process.became moment) := by
  have passes : Passes process (process.became moment) :=
    ⟨List.prefix_append _ _, later⟩
  refine ⟨⟨List.getLast?_concat, sound.bounded, ?_⟩, passes⟩
  exact fun entry member => (sound.justified entry member).later passes

theorem Sound.here {process : Process} (sound : Sound settings process) :
    process.moment ∈ process.past :=
  List.mem_of_getLast? sound.current

/-! ## A call -/

/-- The call has started. -/
structure Since (started : Started) (process : Process) : Prop where
  position : started.position < process.past.length
  now : started.now ≤ process.moment.now

theorem Since.later {started : Started} {before after : Process}
    (since : Since started before) (passes : Passes before after) :
    Since started after :=
  ⟨since.position.trans_le passes.past.length_le,
    since.now.trans passes.now⟩

/-- After the call started the marker was absent. -/
def Unmarked (started : Started) (key : String) (process : Process) : Prop :=
  ∃ moment ∈ process.past.drop started.position,
    started.now ≤ moment.now ∧ moment.marked key = false

/-- The registry held the company active no longer before than the cache
allows. -/
def Fresh (settings : Settings) (started : Started) (key : String)
    (process : Process) : Prop :=
  ∃ moment ∈ process.past, started.now ≤ moment.now + settings.cacheSeconds ∧
    moment.active key = true

theorem Unmarked.later {started : Started} {key : String}
    {before after : Process} (unmarked : Unmarked started key before)
    (passes : Passes before after) : Unmarked started key after := by
  obtain ⟨moment, member, late, absent⟩ := unmarked
  exact ⟨moment, (passes.past.drop started.position).subset member, late,
    absent⟩

theorem Fresh.later {started : Started} {key : String}
    {before after : Process} (fresh : Fresh settings started key before)
    (passes : Passes before after) :
    Fresh settings started key after := by
  obtain ⟨moment, member, late, active⟩ := fresh
  exact ⟨moment, passes.past.subset member, late, active⟩

theorem Sound.unmarked {process : Process} {started : Started} {key : String}
    (sound : Sound settings process) (since : Since started process)
    (absent : process.moment.marked key = false) :
    Unmarked started key process := by
  refine ⟨process.moment, ?_, since.now, absent⟩
  apply List.mem_of_getLast?
  rw [List.getLast?_drop, if_neg (Nat.not_le.mpr since.position)]
  exact sound.current

/-- A cached yes is that of the registry, or of before it forgot. -/
theorem Sound.hit {process : Process} {started : Started} {key : String}
    (sound : Sound settings process) (since : Since started process)
    (found : process.lookup key = some true) :
    Fresh settings started key process := by
  obtain ⟨entry, held, active⟩ := Option.map_eq_some_iff.mp found
  obtain ⟨looked, valid⟩ := Option.filter_eq_some_iff.mp held
  have own := List.find?_some looked
  obtain ⟨moment, member, positive, bound⟩ :=
    sound.justified entry (List.mem_of_find?_eq_some looked) active
  have later := since.now
  simp only [decide_eq_true_eq] at own valid
  rw [own] at positive
  exact ⟨moment, member, by omega, positive⟩

/-! ## Every call beside the others -/

/-- The marker store answers. -/
def terms (settings : Settings) : Contract Process Op Choice where
  invariant := Sound settings
  allowed _ op choice := ∀ key, op = .markerExists key → choice = .answers
  rely := Passes
  guarantee := Passes
  rely_refl := Passes.refl
  rely_trans := Passes.trans

/-- What a yes says. -/
def Says (settings : Settings) (started : Started) (key : String)
    (outcome : Except Error Bool) (process : Process) : Prop :=
  outcome = .ok true → Unmarked started key process ∧
    Fresh settings started key process

abbrev Safely {Result : Type} (settings : Settings)
    (post : Except Error Result → Process → Prop)
    (program : Handler Result) (process : Process) : Prop :=
  program.Safe (exec settings) (terms settings) post process

theorem says_done {started : Started} {key : String} {process : Process}
    {active : Bool} (unmarked : Unmarked started key process)
    (fresh : active = true → Fresh settings started key process) :
    Safely settings (Says settings started key) (pure active)
      process := by
  intro later sound passes yes
  cases yes
  exact ⟨unmarked.later passes, (fresh rfl).later passes⟩

theorem refresh_safe {started : Started} {key : String} {process : Process}
    (since : Since started process)
    (unmarked : Unmarked started key process) {now : Nat}
    (past : now ≤ process.moment.now) :
    Safely settings (Says settings started key)
      (refresh settings key now) process := by
  intro reading sound passes choice reply after permitted executed
  cases choice with
  | fails =>
      cases executed
      refine ⟨sound, Passes.refl _, fun _ _ _ => nofun⟩
  | answers =>
      cases executed
      refine ⟨sound, Passes.refl _, ?_⟩
      intro writing kept goes choice reply after permitted executed
      cases executed
      have entry : Justified settings writing
          ⟨key, reading.moment.active key, now + settings.cacheSeconds⟩ := by
        intro active
        have late := passes.now
        exact ⟨reading.moment, goes.past.subset sound.here, active,
          by dsimp only; omega⟩
      have same : Passes writing (writing.remember settings
          ⟨key, reading.moment.active key, now + settings.cacheSeconds⟩) :=
        ⟨List.prefix_rfl, le_rfl⟩
      refine ⟨kept.remember entry, same, ?_⟩
      apply says_done
      · exact unmarked.later (passes.trans (goes.trans same))
      · intro active
        have begun := since.later passes
        refine ⟨reading.moment, goes.past.subset sound.here, ?_, active⟩
        exact begun.now.trans (Nat.le_add_right _ _)

theorem cachedActive_safe {started : Started} {key : String}
    {process : Process} (since : Since started process)
    (unmarked : Unmarked started key process) :
    Safely settings (Says settings started key)
      (cachedActive settings key) process := by
  intro looking sound passes choice reply after permitted executed
  cases executed
  have begun := since.later passes
  have absent := unmarked.later passes
  cases found : looking.lookup key with
  | none =>
      rw [if_neg (by simp)]
      exact ⟨sound, Passes.refl _, refresh_safe begun absent le_rfl⟩
  | some active =>
      rw [if_pos (by simp)]
      have same : Passes looking (looking.moveToEnd key) :=
        ⟨List.prefix_rfl, le_rfl⟩
      refine ⟨sound.moveToEnd key, same, ?_⟩
      apply says_done (absent.later same)
      intro yes
      rw [yes] at found
      exact (sound.hit begun found).later same

theorem checked_safe {started : Started} {key : String} {process : Process}
    (since : Since started process) :
    Safely settings (Says settings started key)
      (do
        let marked ← markedSuspended key
        if marked then pure false else cachedActive settings key)
      process := by
  intro reading sound passes choice reply after permitted executed
  cases permitted key rfl
  cases executed
  refine ⟨sound, Passes.refl _, ?_⟩
  have begun := since.later passes
  change Safely settings (Says settings started key)
    (if reading.moment.marked key then pure false
      else cachedActive settings key) reading
  cases marked : reading.moment.marked key with
  | true => exact fun _ _ _ => nofun
  | false => exact cachedActive_safe begun (sound.unmarked begun marked)

theorem isCompanyActive_safe {started : Started} {companyId : String}
    {process : Process} (since : Since started process) :
    Safely settings
      (fun outcome later => outcome = .ok true →
        ∃ key, canonical other companyId = some key ∧
          Unmarked started key later ∧ Fresh settings started key later)
      (isCompanyActive settings other companyId) process := by
  rw [isCompanyActive]
  split
  · exact fun _ _ _ => nofun
  · next key known =>
      apply (checked_safe since).mono
      intro outcome later sound told yes
      exact ⟨key, known, told yes⟩

/-- What a request promises of its answer. -/
def promises (other : List Char → Option Int) (settings : Settings) :
    Request → Except Error Answer → Process → Prop
  | .isActive companyId, .ok (.active started true), process =>
      ∃ key, canonical other companyId = some key ∧
        Unmarked started key process ∧ Fresh settings started key process
  | _, _, _ => True

theorem code_safe (request : Request) (process : Process) :
    Safely settings (promises other settings request)
      (code settings other request) process := by
  cases request with
  | isActive companyId =>
      intro beginning sound passes choice reply after permitted executed
      cases executed
      refine ⟨sound, Passes.refl _, ?_⟩
      have begun : Since ⟨beginning.past.length - 1, beginning.moment.now⟩
          beginning := by
        have some_moment := List.length_pos_of_mem sound.here
        exact ⟨by dsimp only; omega, le_rfl⟩
      apply Program.Safe.bind sound (isCompanyActive_safe begun)
      · intro active later kept told last holds goes
        cases active with
        | false => trivial
        | true =>
            obtain ⟨key, known, unmarked, fresh⟩ := told rfl
            exact ⟨key, known, unmarked.later goes, fresh.later goes⟩
      · exact fun _ _ _ => trivial
  | forget companyId =>
      rw [code, forget]
      split
      · exact fun _ _ _ => trivial
      · next key known =>
          intro dropping sound passes choice reply after permitted executed
          cases executed
          exact ⟨sound.drop key, ⟨List.prefix_rfl, le_rfl⟩,
            fun _ _ _ => trivial⟩
  | clear =>
      intro clearing sound passes choice reply after permitted executed
      cases executed
      refine ⟨?_, ⟨List.prefix_rfl, le_rfl⟩, fun _ _ _ => trivial⟩
      exact sound.shrinks (List.nil_subset _) (Nat.zero_le _)
  | mark companyId suspended =>
      intro writing sound passes choice reply after permitted executed
      cases executed
      let written : Moment := { writing.moment with
        marked := Function.update writing.moment.marked companyId suspended }
      have unmoved : writing.moment.now ≤ written.now := le_rfl
      obtain ⟨kept, goes⟩ := sound.became unmoved
      exact ⟨kept, goes, fun _ _ _ => trivial⟩

theorem change_sound {process after : Process} {happens : Change}
    (sound : Sound settings process)
    (changed : change process happens = some after) :
    Sound settings after ∧ Passes process after := by
  cases happens with
  | passes now =>
      rw [change] at changed
      split at changed
      · next later =>
          cases changed
          exact sound.became later
      · cases changed
  | registry key active =>
      cases changed
      exact sound.became le_rfl
  | marker key suspended =>
      cases changed
      exact sound.became le_rfl
  | evict key =>
      cases changed
      exact ⟨sound.drop key, List.prefix_rfl, le_rfl⟩

/-! ## Every run -/

abbrev Kept (settings : Settings) (other : List Char → Option Int)
    (pool : Gateway) : Prop :=
  Pool.Kept (gateway settings other) (terms settings)
    (promises other settings) pool

theorem step_kept {pool next : Gateway} {event : Event}
    (kept : Kept settings other pool) (readable : MarkerReadable pool event)
    (taken : Pool.step (gateway settings other) pool event = some next) :
    Kept settings other next := by
  have answers {index : Nat} {choice : Choice}
      (own : event = .step index choice ∨ event = .lose index choice) :
      ∀ request op next, pool.threads[index]? =
        some ⟨request, .call op next⟩ →
          (terms settings).allowed pool.shared op choice := by
    intro request op next running key marker
    cases choice with
    | answers => rfl
    | fails =>
        subst marker
        exact absurd running (readable index own request key next)
  have permitted :
      Pool.Allowed (fun _ => True) (terms settings) pool event := by
    cases event with
    | spawn request => trivial
    | step index choice => exact answers (.inl rfl)
    | abort index => trivial
    | lose index choice => exact answers (.inr rfl)
    | environment change => trivial
  refine (Pool.step_keeps id ?_ ?_ ?_ kept permitted taken).1
  · exact fun request process _ _ => code_safe request process
  · intro request process _
    cases request with
    | isActive companyId => trivial
    | forget companyId => trivial
    | clear => trivial
    | mark companyId suspended => trivial
  · exact fun process change after sound changed =>
      change_sound sound changed

/-- In every run the cache stays within its bound, and a call that answers yes
found the marker absent after it started and a registry that held the company
active no longer before that than the cache keeps an entry. -/
theorem staleness_bounded (settings : Settings)
    (other : List Char → Option Int) (moment : Moment) (events : List Event)
    (final : Gateway)
    (readable : Along (Pool.step (gateway settings other)) MarkerReadable
      (.start (start moment)) events)
    (ran : run (Pool.step (gateway settings other)) (.start (start moment))
      events = some final) :
    final.shared.cache.length ≤ settings.cacheMaxCompanies ∧
      ∀ companyId started,
        ⟨.isActive companyId, .done (.active started true)⟩ ∈
          final.threads →
        ∃ key, canonical other companyId = some key ∧
          Unmarked started key final.shared ∧
            Fresh settings started key final.shared := by
  have first : Kept settings other (.start (start moment)) := by
    refine ⟨⟨rfl, Nat.zero_le _, ?_⟩, ?_⟩
    · intro entry member
      cases member
    · intro thread member
      cases member
  have kept : Kept settings other final := by
    refine run_preserves_along (Kept settings other) ?_ first readable ran
    intro pool event next kept allowed taken
    exact step_kept kept allowed taken
  refine ⟨kept.holds.bounded, fun companyId started member => ?_⟩
  exact kept.answered member

/-! ## A company that is suspended while its flag is read -/

def sampleSettings : Settings := ⟨30, 4096⟩

def sampleId : String := "00000000-0000-0000-0000-000000000001"

def activeAt (now : Nat) : Moment :=
  ⟨now, fun _ => true, fun _ => false⟩

/-- One call reads the registry, the company is suspended there and forgotten
before the call writes the cache, and another call finds that entry. -/
def suspendedMeanwhile : List Event :=
  (.spawn (.isActive sampleId) :: .replicate 4 (.step 0 .answers) :
    List Event) ++
    ([.environment (.registry sampleId false), .spawn (.forget sampleId),
      .step 1 .answers, .step 0 .answers, .environment (.passes 129),
      .spawn (.isActive sampleId)] : List Event) ++
    (.replicate 3 (.step 2 .answers) : List Event)

def readableEvent : Event → Bool
  | .step _ .fails | .lose _ .fails => false
  | _ => true

theorem staleness_bounded_suspended :
    ∃ final, run (Pool.step (gateway sampleSettings fun _ => none))
        (.start (start (activeAt 100))) suspendedMeanwhile = some final ∧
      final.shared.cache.length ≤ 4096 ∧
      ∃ key, canonical (fun _ => none) sampleId = some key ∧
        Unmarked ⟨2, 129⟩ key final.shared ∧
          Fresh sampleSettings ⟨2, 129⟩ key final.shared := by
  have answered : ((run (Pool.step (gateway sampleSettings fun _ => none))
      (.start (start (activeAt 100))) suspendedMeanwhile).bind fun final =>
        final.threads[2]?.map fun thread =>
          (thread.request, thread.program.answer?)) =
      some (.isActive sampleId, some (.active ⟨2, 129⟩ true)) := by
    decide +kernel
  obtain ⟨final, ran, found⟩ := Option.bind_eq_some_iff.mp answered
  obtain ⟨⟨request, program⟩, looked, same⟩ :=
    Option.map_eq_some_iff.mp found
  obtain ⟨rfl, yes⟩ := Prod.mk.inj same
  obtain rfl := Program.answer?_eq_some yes
  have readable : Along (Pool.step (gateway sampleSettings fun _ => none))
      MarkerReadable (.start (start (activeAt 100))) suspendedMeanwhile := by
    have all : ∀ event ∈ suspendedMeanwhile, readableEvent event = true :=
      List.all_eq_true.mp (by decide)
    apply (Along.of_forall _ _ all).mono
    intro pool event ok index fails
    rcases fails with rfl | rfl
    · cases ok
    · cases ok
  obtain ⟨bounded, told⟩ := staleness_bounded sampleSettings (fun _ => none)
    (activeAt 100) suspendedMeanwhile final readable ran
  exact ⟨final, ran, bounded,
    told sampleId ⟨2, 129⟩ (List.mem_of_getElem? looked)⟩

end IndustryFlow.CompanyStatus
