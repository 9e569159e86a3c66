import IndustryFlow.Models.Serving

/-!
# One artifact for the checks and the load

A search that is answered tells the first model that the run has then.  Where
the two checks of the last successful deployment and a load were answered while
the run had the same first model, all three read one artifact.
-/

namespace IndustryFlow.Models.Serving

open Concurrent

variable {settings : Settings}

def uriOf (runId : String) : Option String → String
  | some modelId => modelUri modelId
  | none => legacyUri runId

/-- The URI is that of the first model the run had when it was looked for. -/
def Known (store : Store) (address : Address) (resolved : Resolved) : Prop :=
  ∀ runId, given? address.runId = some runId → ∀ place,
    resolved.seen = some place → ∃ front,
      (store.firsts runId)[place]? = some front ∧
        resolved.uri = uriOf runId front

def KnownJudged (store : Store) (address : Address) (judged : Judged) :
    Prop :=
  Known store address judged.authorCode ∧
    Known store address judged.compatibility

structure Sound (store : Store) : Prop where
  current : ∀ runId, (store.firsts runId).getLast? =
    some (first store.logged runId)
  judged : ∀ modelId record, store.records modelId = some record →
    ∀ judged ∈ record.judged, KnownJudged store record.address judged
  loads : ∀ loaded ∈ store.loads,
    Known store loaded.record.address loaded.resolved ∧
      ∀ judged ∈ loaded.record.judged,
        KnownJudged store loaded.record.address judged

/-- First models are added, and a row keeps its address. -/
structure Extends (before after : Store) : Prop where
  firsts : ∀ runId, before.firsts runId <+: after.firsts runId
  records : ∀ modelId old, before.records modelId = some old →
    ∃ new, after.records modelId = some new ∧ new.address = old.address

theorem Extends.refl (store : Store) : Extends store store :=
  ⟨fun _ => List.prefix_rfl, fun _ old found => ⟨old, found, rfl⟩⟩

theorem Extends.trans {first second third : Store}
    (left : Extends first second) (right : Extends second third) :
    Extends first third where
  firsts runId := (left.firsts runId).trans (right.firsts runId)
  records modelId old found := by
    obtain ⟨middle, between, same⟩ := left.records modelId old found
    obtain ⟨new, last, alike⟩ := right.records modelId middle between
    exact ⟨new, last, alike.trans same⟩

theorem Known.later {before after : Store} {address : Address}
    {resolved : Resolved} (known : Known before address resolved)
    (extended : Extends before after) : Known after address resolved := by
  intro runId own place seen
  obtain ⟨front, there, same⟩ := known runId own place seen
  obtain ⟨more, longer⟩ := extended.firsts runId
  refine ⟨front, ?_, same⟩
  rw [← longer, List.getElem?_append_left
    (List.getElem?_eq_some_iff.mp there).1]
  exact there

theorem KnownJudged.later {before after : Store} {address : Address}
    {judged : Judged} (known : KnownJudged before address judged)
    (extended : Extends before after) : KnownJudged after address judged :=
  ⟨known.1.later extended, known.2.later extended⟩

/-- A row of this address has this id. -/
def Addressed (store : Store) (modelId : String) (address : Address) : Prop :=
  ∃ record, store.records modelId = some record ∧ record.address = address

theorem Addressed.later {before after : Store} {modelId : String}
    {address : Address} (addressed : Addressed before modelId address)
    (extended : Extends before after) : Addressed after modelId address := by
  obtain ⟨record, found, same⟩ := addressed
  obtain ⟨new, there, alike⟩ := extended.records modelId record found
  exact ⟨new, there, alike.trans same⟩

/-! ## The calls -/

/-- Nothing but the cache changes. -/
structure Alike (before after : Store) : Prop where
  records : after.records = before.records
  logged : after.logged = before.logged
  firsts : after.firsts = before.firsts
  loads : after.loads = before.loads

theorem Alike.keeps {before after : Store} (alike : Alike before after)
    (sound : Sound before) : Sound after ∧ Extends before after := by
  obtain ⟨records, logged, firsts, loads⟩ := alike
  have extended : Extends before after := by
    constructor
    · intro runId
      exact firsts ▸ List.prefix_rfl
    · intro modelId old found
      exact ⟨old, by rw [records, found], rfl⟩
  refine ⟨⟨?_, ?_, ?_⟩, extended⟩
  · intro runId
    rw [firsts, logged]
    exact sound.current runId
  · intro modelId record found judged member
    rw [records] at found
    exact (sound.judged modelId record found judged member).later extended
  · intro loaded member
    rw [loads] at member
    have known := sound.loads loaded member
    refine ⟨known.1.later extended, fun judged held => ?_⟩
    exact (known.2 judged held).later extended

/-- The call changes no row and logs no load. -/
def calm : Op → Prop
  | .insert _ _ _ | .setStatus _ _ _ | .load _ _ => False
  | _ => True

theorem exec_calm {store after : Store} {op : Op} {choice : Choice}
    {reply : Reply op} (quiet : calm op)
    (executed : exec settings store op choice = some (reply, after)) :
    Alike store after := by
  have same : Alike store store := ⟨rfl, rfl, rfl, rfl⟩
  cases op with
  | insert address detector status => exact quiet.elim
  | setStatus modelId status judged => exact quiet.elim
  | load modelId resolved => exact quiet.elim
  | warm key =>
      obtain rfl : after = (store.warm key).2 :=
        (congrArg Prod.snd (Option.some.inj executed)).symm
      rw [Store.warm]
      split
      · exact same
      · exact ⟨rfl, rfl, rfl, rfl⟩
  | keep key uri =>
      cases executed
      exact ⟨rfl, rfl, rfl, rfl⟩
  | hang => cases executed
  | _ => cases choice <;> cases executed <;> exact same

theorem insert_keeps {store after : Store} {address : Address}
    {detector : Option String} {status : Status} {choice : Choice}
    {reply : Unit} (sound : Sound store)
    (executed : exec settings store (.insert address detector status)
      choice = some (reply, after)) :
    Sound after ∧ Extends store after := by
  cases choice with
  | fresh modelId =>
      simp only [exec] at executed
      split at executed
      · cases executed
      next unused =>
      cases executed
      have extended : Extends store { store with
          records := Function.update store.records modelId
            (some ⟨address, detector, status, none⟩) } := by
        refine ⟨fun _ => List.prefix_rfl, fun other old found => ?_⟩
        refine ⟨old, ?_, rfl⟩
        have apart : other ≠ modelId := by
          rintro rfl
          rw [unused] at found
          cases found
        exact (Function.update_of_ne apart _ _).trans found
      refine ⟨⟨sound.current, ?_, sound.loads⟩, extended⟩
      intro other record found judged member
      by_cases same : other = modelId
      · subst same
        simp only [Function.update_self, Option.some.injEq] at found
        subst found
        cases member
      · simp only [Function.update_of_ne same] at found
        exact sound.judged other record found judged member
  | _ => cases executed

theorem setStatus_keeps {store : Store} {modelId : String}
    {status : Status} {judged : Option Judged} (sound : Sound store)
    {address : Address} (addressed : Addressed store modelId address)
    (known : ∀ made ∈ judged, KnownJudged store address made) :
    Sound (store.setStatus modelId status judged).2 ∧
      Extends store (store.setStatus modelId status judged).2 := by
  obtain ⟨record, found, same⟩ := addressed
  simp only [Store.setStatus, found]
  have extended : Extends store { store with
      records := Function.update store.records modelId (some { record with
        status, judged := judged.or record.judged }) } := by
    refine ⟨fun _ => List.prefix_rfl, fun other old there => ?_⟩
    by_cases own : other = modelId
    · subst own
      rw [found] at there
      cases there
      exact ⟨_, Function.update_self _ _ _, rfl⟩
    · exact ⟨old, (Function.update_of_ne own _ _).trans there, rfl⟩
  refine ⟨⟨sound.current, ?_, sound.loads⟩, extended⟩
  intro other row there made member
  by_cases own : other = modelId
  · subst own
    simp only [Function.update_self, Option.some.injEq] at there
    subst there
    rcases Option.or_eq_some_iff.mp member with new | ⟨-, old⟩
    · exact same ▸ known made new
    · exact sound.judged other record found made old
  · simp only [Function.update_of_ne own] at there
    exact sound.judged other row there made member

theorem load_keeps {store : Store} {modelId : String} {address : Address}
    {resolved : Resolved} (sound : Sound store)
    (addressed : Addressed store modelId address)
    (known : Known store address resolved) :
    Sound (store.load modelId resolved) ∧
      Extends store (store.load modelId resolved) := by
  obtain ⟨record, found, same⟩ := addressed
  refine ⟨⟨sound.current, sound.judged, ?_⟩, ?_⟩
  · intro loaded member
    rcases List.mem_append.mp member with before | last
    · exact sound.loads loaded before
    · rw [found] at last
      cases List.mem_singleton.mp last
      exact ⟨same ▸ known, sound.judged modelId record found⟩
  · exact ⟨fun _ => List.prefix_rfl, fun _ old there => ⟨old, there, rfl⟩⟩

theorem log_keeps {store : Store} (sound : Sound store)
    (model : LoggedModel) (place : Nat) :
    Sound (store.log model place) ∧
      Extends store (store.log model place) := by
  have extended : Extends store (store.log model place) := by
    refine ⟨fun runId => ?_, fun _ old found => ⟨old, found, rfl⟩⟩
    simp only [Store.log]
    split
    · exact List.prefix_rfl
    · exact List.prefix_append _ _
  refine ⟨⟨fun runId => ?_, ?_, ?_⟩, extended⟩
  · simp only [Store.log]
    split
    · next same => exact same ▸ sound.current runId
    · exact List.getLast?_concat
  · exact fun modelId record found judged member =>
      (sound.judged modelId record found judged member).later extended
  · intro loaded member
    have known := sound.loads loaded member
    exact ⟨known.1.later extended, fun judged held =>
      (known.2 judged held).later extended⟩

/-! ## The code -/

/-- Every request keeps what the others know. -/
def terms : Contract Store Op Choice where
  invariant := Sound
  allowed _ _ _ := True
  rely := Extends
  guarantee := Extends
  rely_refl := .refl
  rely_trans := .trans

abbrev Safely {Result : Type} (settings : Settings)
    (post : Except Error Result → Store → Prop)
    (program : Handler Result) (store : Store) : Prop :=
  program.Safe (exec settings) terms post store

/-- What is known of an answer, and stays known. -/
abbrev Gives {Result : Type} (holds : Result → Store → Prop) :
    Except Error Result → Store → Prop :=
  fun outcome later => ∀ answer, outcome = .ok answer → holds answer later

theorem gives_pure {Result : Type} {holds : Result → Store → Prop}
    {answer : Result} {store : Store}
    (now : ∀ later, Extends store later → holds answer later) :
    Safely settings (Gives holds) (pure answer) store := by
  intro later _ extended other same
  cases same
  exact now later extended

theorem gives_fail {Result : Type} {holds : Result → Store → Prop}
    (error : Error) (store : Store) :
    Safely settings (Gives holds) (.fail error) store :=
  fun _ _ _ _ => nofun

/-- A call that changes no row and logs no load. -/
theorem calm_safe {Result : Type} {op : Op}
    {next : Reply op → Handler Result}
    {post : Except Error Result → Store → Prop} {store : Store}
    (quiet : calm op)
    (rest : ∀ reply later, Sound later → Extends store later →
      Safely settings post (next reply) later) :
    Safely settings post (.call op next) store := by
  intro later sound extended choice reply after _ executed
  obtain ⟨kept, more⟩ := (exec_calm quiet executed).keeps sound
  exact ⟨kept, more, rest reply after kept (extended.trans more)⟩

/-- Only such calls. -/
abbrev Calm {Result : Type} (program : Handler Result) : Prop :=
  program.Always (fun _ _ => True) calm (fun _ => True)

theorem Calm.safe {Result : Type} {program : Handler Result}
    (quiet : Calm program) (store : Store) :
    Safely settings (fun _ _ => True) program store := by
  apply Program.Always.safe quiet
  intro op calls later choice reply after sound _ executed
  obtain ⟨kept, more⟩ := (exec_calm calls executed).keeps sound
  exact ⟨kept, more, trivial⟩

theorem checkAdmissible_calm (status : Nat) (address : Address) :
    Calm (checkAdmissible settings status address) := by
  unfold checkAdmissible
  split
  · trivial
  split
  · trivial
  refine ⟨trivial, fun owned _ => ?_⟩
  cases owned with
  | none => trivial
  | some yes => cases yes <;> trivial

theorem detectorFor_calm (status : Nat) (detector : Option String) :
    Calm (detectorFor status detector) := by
  unfold detectorFor
  split
  · trivial
  refine ⟨trivial, fun loaded _ => ?_⟩
  cases loaded <;> trivial

theorem keepLoaded_calm (address : Address) (resolved : Resolved)
    (loaded : Bool) : Calm (keepLoaded address resolved loaded) := by
  unfold keepLoaded
  split
  · exact ⟨trivial, fun _ _ => trivial⟩
  · trivial

theorem successOrRaise_calm (success : Bool) :
    Calm (successOrRaise success) := by
  unfold successOrRaise
  split <;> trivial

/-! ## Resolution -/

theorem legacy_unseen (store : Store) (address : Address) (uri : String) :
    Known store address ⟨uri, none⟩ :=
  fun _ _ _ => nofun

/-- A search that is answered tells the run's first model. -/
theorem known_first {store : Store} (sound : Sound store)
    {address : Address} {runId : String}
    (own : given? address.runId = some runId) :
    Known store address
      ⟨uriOf runId (first store.logged runId),
        some ((store.firsts runId).length - 1)⟩ := by
  intro other same place seen
  rw [own] at same
  cases same
  cases seen
  refine ⟨_, ?_, rfl⟩
  rw [← List.getLast?_eq_getElem?]
  exact sound.current runId

theorem ofRun_own {logged : List LoggedModel} {runId : String}
    {model : LoggedModel} (member : model ∈ ofRun logged runId) :
    model.sourceRunId = runId := by
  simpa using (List.mem_filter.mp member).2

/-- The first page has the run's first model, if it has one. -/
theorem find_first (logged : List LoggedModel) (runId : String)
    (size : Nat) :
    ((pageOf (ofRun logged runId) (size + 1) none).items.find?
      (·.sourceRunId = runId)).map LoggedModel.modelId =
        first logged runId := by
  rw [first]
  cases same : ofRun logged runId with
  | nil => rfl
  | cons model rest =>
      have own : model.sourceRunId = runId :=
        ofRun_own (same ▸ List.mem_cons_self)
      simp [pageOf, own]

/-- Without one it is the last page. -/
theorem last_page {logged : List LoggedModel} {runId : String}
    (none_ : first logged runId = none) (size : Nat) :
    (pageOf (ofRun logged runId) (size + 1) none).next = none := by
  simp only [first, Option.map_eq_none_iff, List.head?_eq_none_iff]
    at none_
  simp [pageOf, none_]

theorem onPage_safe {store : Store} (sound : Sound store)
    {address : Address} {runId : String}
    (own : given? address.runId = some runId)
    (more : Nat → Handler Resolved) :
    Safely settings (Gives fun resolved later =>
        Known later address resolved)
      (onPage runId
        (pageOf (ofRun store.logged runId) (settings.pageSize + 1) none)
        ((store.firsts runId).length - 1) more) store := by
  have found := find_first store.logged runId settings.pageSize
  have known := known_first sound own
  rw [onPage]
  split
  · next model looked =>
    rw [looked] at found
    rw [← found] at known
    exact gives_pure fun last on => known.later on
  · next looked =>
    rw [looked] at found
    rw [last_page found.symm settings.pageSize]
    rw [← found] at known
    exact gives_pure fun last on => known.later on

theorem searchFrom_safe {address : Address} {runId : String}
    (own : given? address.runId = some runId) (rounds : Nat)
    (store : Store) :
    Safely settings (Gives fun resolved later =>
        Known later address resolved)
      (searchFrom runId rounds none) store := by
  cases rounds with
  | zero =>
      intro later _ _ choice reply after _ executed
      cases executed
  | succ rounds =>
      intro later sound _ choice reply after _ executed
      cases choice with
      | answers yes =>
          cases executed
          refine ⟨sound, .refl _, ?_⟩
          exact onPage_safe sound own _
      | _ =>
          cases executed
          exact ⟨sound, .refl _, gives_pure fun last _ =>
            legacy_unseen last address _⟩

theorem modelUriFor_safe (raised : Error) (address : Address)
    (store : Store) :
    Safely settings (Gives fun resolved later =>
        Known later address resolved)
      (modelUriFor settings raised address) store := by
  unfold modelUriFor
  split
  · next runId own =>
    unfold resolveModelUri
    split
    · exact gives_fail _ _
    · refine calm_safe (show calm (Op.getRun runId) from trivial) ?_
      intro there later _ _
      cases there with
      | false => exact gives_pure fun last _ => legacy_unseen last address _
      | true => exact searchFrom_safe own settings.rounds later
  · split
    · exact gives_pure fun last _ => legacy_unseen last address _
    · exact gives_fail _ _

theorem refuseAuthorCode_safe (status : Nat) (address : Address)
    {store : Store} (sound : Sound store) :
    Safely settings (Gives fun resolved later =>
        Known later address resolved)
      (refuseAuthorCode settings status address) store := by
  apply Program.Safe.bind sound (modelUriFor_safe _ address store)
  · intro resolved later kept told
    have known := told resolved rfl
    refine calm_safe
      (show calm (Op.readFlavors resolved.uri) from trivial) ?_
    intro flavors last _ more
    cases flavors with
    | none => exact gives_fail _ _
    | some reason =>
        cases reason with
        | some reason => exact gives_fail _ _
        | none => exact gives_pure fun final on =>
            known.later (more.trans on)
  · exact fun _ _ _ _ => nofun

theorem evaluateOrReject_safe (status : Nat) (address : Address)
    {store : Store} (sound : Sound store) :
    Safely settings (Gives fun (read : Option Resolved) later =>
        ∀ resolved ∈ read, Known later address resolved)
      (evaluateOrReject settings status address) store := by
  unfold evaluateOrReject
  split
  · exact gives_pure fun _ _ _ => nofun
  apply Program.Safe.bind sound (modelUriFor_safe _ address store)
  · intro resolved later kept told
    have known := told resolved rfl
    refine calm_safe
      (show calm (Op.compatibility resolved.uri) from trivial) ?_
    intro verdict last _ more
    cases verdict with
    | none => exact gives_fail _ _
    | some compatibility =>
        change Safely settings _
          (servableOrReject status resolved compatibility) last
        unfold servableOrReject
        split
        · apply gives_pure
          intro final on other same
          cases same
          exact known.later (more.trans on)
        · exact gives_fail _ _
  · exact fun _ _ _ _ => nofun

/-! ## Loads and deployments -/

theorem loadModel_safe {modelId : String} {address : Address}
    {store : Store} (addressed : Addressed store modelId address) :
    Safely settings (fun _ _ => True) (loadModel settings modelId address)
      store := by
  unfold loadModel
  split
  · exact fun _ _ _ => trivial
  refine calm_safe (show calm (Op.warm (cacheKey address)) from trivial) ?_
  intro hit later sound extended
  have here := addressed.later extended
  cases hit with
  | true => exact fun _ _ _ => trivial
  | false =>
      apply Program.Safe.bind sound
        (((checkAdmissible_calm 422 address).safe later).tracks id)
      · intro _ second kept ⟨_, more⟩
        apply Program.Safe.bind kept
          ((modelUriFor_safe _ address second).tracks id)
        · intro resolved third _ ⟨told, on⟩
          have known := told resolved rfl
          have there := here.later (more.trans on)
          intro loading whole grown choice reply after _ executed
          have logged : after = loading.load modelId resolved := by
            cases choice <;> cases executed <;> rfl
          subst logged
          obtain ⟨kept, extended⟩ := load_keeps whole (there.later grown)
            (known.later grown)
          refine ⟨kept, extended, ?_⟩
          exact (keepLoaded_calm address resolved reply).safe _
        · exact fun _ _ _ => trivial
      · exact fun _ _ _ => trivial

theorem loadAndScore_safe {modelId : String} {address : Address}
    {store : Store} (addressed : Addressed store modelId address) :
    Safely settings (fun _ _ => True)
      (loadAndScore settings modelId address) store := by
  unfold loadAndScore
  split
  · refine calm_safe
      (show calm (Op.probe (address.artifactUri.getD "")) from trivial) ?_
    intro passed later _ _
    cases passed <;> exact fun _ _ _ => trivial
  · refine calm_safe (show calm (Op.plan modelId) from trivial) ?_
    intro sample later _ extended
    cases sample with
    | false => exact fun _ _ _ => trivial
    | true => exact loadModel_safe (addressed.later extended)

theorem updateStatus_safe {modelId : String} {address : Address}
    {status : Status} {judged : Option Judged} {store : Store}
    (addressed : Addressed store modelId address)
    (known : ∀ made ∈ judged, KnownJudged store address made) :
    Safely settings (fun _ _ => True) (updateStatus modelId status judged)
      store := by
  intro later sound extended choice reply after _ executed
  obtain rfl : after = (later.setStatus modelId status judged).2 :=
    (congrArg Prod.snd (Option.some.inj executed)).symm
  obtain ⟨kept, more⟩ := setStatus_keeps sound
    (addressed.later extended)
    fun made member => (known made member).later extended
  exact ⟨kept, more, (successOrRaise_calm reply).safe _⟩

/-- What the gate of a deployment hands on. -/
theorem deploymentGate_safe {modelId : String} {record : Record}
    {store : Store} (sound : Sound store)
    (addressed : Addressed store modelId record.address) :
    Safely settings (Gives fun (judged : Option Judged) later =>
        ∀ made ∈ judged, KnownJudged later record.address made)
      (deploymentGate settings modelId record) store := by
  apply Program.Safe.bind sound
    (((checkAdmissible_calm 409 record.address).safe store).tracks id)
  · intro _ first kept ⟨_, one⟩
    apply Program.Safe.bind kept
      (((detectorFor_calm 409 record.detector).safe first).tracks id)
    · intro _ second kept ⟨_, two⟩
      apply Program.Safe.bind kept
        ((refuseAuthorCode_safe 409 record.address kept).tracks id)
      · intro authorCode third kept ⟨told, three⟩
        apply Program.Safe.bind kept
          ((evaluateOrReject_safe 409 record.address kept).tracks id)
        · intro read fourth kept ⟨judged, four⟩
          have there := addressed.later
            (one.trans (two.trans (three.trans four)))
          apply Program.Safe.bind kept
            ((loadAndScore_safe there).tracks id)
          · intro _ fifth _ ⟨_, five⟩
            apply gives_pure
            intro last more made member
            obtain ⟨resolved, held, rfl⟩ := Option.map_eq_some_iff.mp member
            constructor
            · exact (told authorCode rfl).later
                (four.trans (five.trans more))
            · exact (judged read rfl resolved held).later
                (five.trans more)
          · exact fun _ _ _ _ => nofun
        · exact fun _ _ _ _ => nofun
      · exact fun _ _ _ _ => nofun
    · exact fun _ _ _ _ => nofun
  · exact fun _ _ _ _ => nofun

/-! ## The routes -/

/-- A row that has been read has its address from then on. -/
theorem row_safe {modelId : String} {store : Store}
    {next : Option Record → Handler Unit}
    (missing : Calm (next none))
    (found : ∀ record later, Sound later →
      Addressed later modelId record.address →
        Safely settings (fun _ _ => True) (next (some record)) later) :
    Safely settings (fun _ _ => True)
      (Program.perform (Op.getModel modelId) >>= next) store := by
  intro reading sound _ choice reply after _ executed
  cases executed
  refine ⟨sound, .refl _, ?_⟩
  cases looked : reading.records modelId with
  | none => exact missing.safe reading
  | some record => exact found record reading sound ⟨record, looked, rfl⟩

theorem registerModel_safe (request : ModelCreateRequest) {store : Store}
    (sound : Sound store) :
    Safely settings (fun _ _ => True) (registerModel settings request)
      store := by
  unfold registerModel
  split
  · exact fun _ _ _ => trivial
  apply Program.Safe.bind sound
    ((checkAdmissible_calm 422 request.address).safe store)
  · intro _ first kept _
    apply Program.Safe.bind kept (refuseAuthorCode_safe 422 _ kept)
    · intro _ second kept _
      apply Program.Safe.bind kept (evaluateOrReject_safe 422 _ kept)
      · intro _ third _ _
        refine calm_safe (show calm Op.bindInputs from trivial) ?_
        intro bound last _ _
        cases bound with
        | false => exact fun _ _ _ => trivial
        | true =>
            change Safely settings _ (createModel request) last
            unfold createModel
            split
            · exact fun _ _ _ => trivial
            · intro inserting whole _ choice reply after _ executed
              obtain ⟨kept, more⟩ := insert_keeps whole executed
              exact ⟨kept, more, fun _ _ _ => trivial⟩
      · exact fun _ _ _ => trivial
    · exact fun _ _ _ => trivial
  · exact fun _ _ _ => trivial

theorem deployModel_safe (modelId environment : String) (store : Store) :
    Safely settings (fun _ _ => True)
      (deployModel settings modelId environment) store := by
  unfold deployModel
  split
  · exact fun _ _ _ => trivial
  apply row_safe
  · trivial
  · intro record later sound addressed
    simp only
    split
    · apply Program.Safe.bind sound
        ((deploymentGate_safe sound addressed).tracks id)
      · intro judged last _ ⟨told, more⟩
        exact updateStatus_safe (addressed.later more) (told judged rfl)
      · exact fun _ _ _ => trivial
    · exact updateStatus_safe addressed (by nofun)

theorem deleteModel_safe (modelId : String) (store : Store) :
    Safely settings (fun _ _ => True) (deleteModel modelId) store := by
  apply row_safe
  · trivial
  · exact fun record later _ addressed =>
      updateStatus_safe addressed (by nofun)

theorem scored_safe {modelId : String} {record : Record} {store : Store}
    (sound : Sound store)
    (addressed : Addressed store modelId record.address) :
    Safely settings (fun _ _ => True) (do
      detectorFor 422 record.detector
      loadModel settings modelId record.address) store := by
  apply Program.Safe.bind sound
    (((detectorFor_calm 422 record.detector).safe store).tracks id)
  · exact fun _ later _ told => loadModel_safe (addressed.later told.2)
  · exact fun _ _ _ => trivial

theorem predict_safe (modelId : String) (store : Store) :
    Safely settings (fun _ _ => True) (predict settings modelId) store := by
  apply row_safe
  · trivial
  · intro record later sound addressed
    simp only
    split
    · exact scored_safe sound addressed
    · exact fun _ _ _ => trivial

theorem evaluateDrift_safe (modelId : String) (store : Store) :
    Safely settings (fun _ _ => True) (evaluateDrift settings modelId)
      store := by
  apply row_safe
  · trivial
  · intro record later sound addressed
    refine calm_safe (show calm (Op.plan modelId) from trivial) ?_
    intro sample last kept extended
    cases sample with
    | false => exact fun _ _ _ => trivial
    | true => exact scored_safe kept (addressed.later extended)

theorem code_safe (request : Request) {store : Store} (sound : Sound store) :
    Safely settings (fun _ _ => True) (code settings request) store := by
  cases request with
  | register request => exact registerModel_safe request sound
  | deploy modelId environment => exact deployModel_safe _ _ store
  | delete modelId => exact deleteModel_safe modelId store
  | predict modelId => exact predict_safe modelId store
  | evaluateDrift modelId => exact evaluateDrift_safe modelId store

/-! ## Every run -/

theorem start_sound (logged : List LoggedModel) : Sound (start logged) where
  current _ := rfl
  judged _ _ never := nomatch never
  loads _ never := nomatch never

theorem change_keeps {store after : Store} {happens : Change}
    (sound : Sound store) (changed : change store happens = some after) :
    Sound after ∧ Extends store after := by
  cases happens with
  | logs model place =>
      rw [change] at changed
      split at changed
      · cases changed
        exact log_keeps sound model place
      · cases changed
  | evicts key =>
      cases changed
      exact Alike.keeps ⟨rfl, rfl, rfl, rfl⟩ sound

abbrev Kept (settings : Settings) (service_ : Service) : Prop :=
  Pool.Kept (service settings) terms (fun _ _ _ => True) service_

theorem step_kept {before after : Service} {event : Event}
    (kept : Kept settings before)
    (taken : Pool.step (service settings) before event = some after) :
    Kept settings after := by
  have permitted : Pool.Allowed (fun _ => True) terms before event := by
    cases event with
    | step index choice => exact fun _ _ _ _ => trivial
    | lose index choice => exact fun _ _ _ _ => trivial
    | _ => trivial
  refine (Pool.step_keeps id ?_ ?_ ?_ kept permitted taken).1
  · exact fun request store _ sound => code_safe request sound
  · exact fun _ _ _ => trivial
  · exact fun store happens next sound changed => change_keeps sound changed

/-- In every run, where the run had the same first model when the two checks of
the last successful deployment and a load were answered, the load reads the
artifact that both checks read. -/
theorem served_as_judged (settings : Settings) (logged : List LoggedModel)
    (events : List Event) (final : Service)
    (ran : run (Pool.step (service settings)) (.start (start logged)) events =
      some final) :
    ∀ loaded ∈ final.shared.loads, ∀ runId judged place,
      given? loaded.record.address.runId = some runId →
      loaded.record.judged = some judged →
      judged.authorCode.seen = some place →
      judged.compatibility.seen = some place →
      loaded.resolved.seen = some place →
        loaded.resolved.uri = judged.authorCode.uri ∧
          loaded.resolved.uri = judged.compatibility.uri := by
  have begun : Kept settings (.start (start logged)) :=
    ⟨start_sound logged, fun thread never => nomatch never⟩
  have kept : Kept settings final :=
    run_preserves (Kept settings)
      (fun _ _ _ held taken => step_kept held taken) begun ran
  intro loaded member runId judged place own made author compatible seen
  obtain ⟨known, deployed⟩ := kept.holds.loads loaded member
  obtain ⟨authorKnown, compatibleKnown⟩ := deployed judged made
  obtain ⟨front, there, uri⟩ := known runId own place seen
  obtain ⟨authorFront, authorThere, authorUri⟩ :=
    authorKnown runId own place author
  obtain ⟨otherFront, otherThere, otherUri⟩ :=
    compatibleKnown runId own place compatible
  obtain rfl : authorFront = front :=
    Option.some.inj (authorThere.symm.trans there)
  obtain rfl : otherFront = authorFront :=
    Option.some.inj (otherThere.symm.trans there)
  exact ⟨uri.trans authorUri.symm, uri.trans otherUri.symm⟩

/-! ## A model logged after the deployment -/

def sampleSettings : Settings where
  deployment := ⟨"uploads", none, []⟩
  pageSize := 99
  rounds := 1
  cacheSize := 8

def sampleRequest : ModelCreateRequest where
  modelName := "pump"
  modelVersion := 1
  mlflowRunId := some "run1"
  artifactUri := none
  scoreSemantics := none
  detector := some "sklearn"
  status := "training"
  featureConfigId := none
  equipmentId := none
  sensorIds := none

def answered : List Choice :=
  [.answers true, .answers true, .flavors none, .answers true,
    .answers true, .judges ⟨.compatible, [], none⟩]

/-- The model is registered and deployed. -/
def deployed : List Event :=
  (.spawn (.register sampleRequest) ::
    (([.answers true] : List Choice) ++ answered ++
      ([.answers true, .fresh "m"] : List Choice)).map (.step 0 ·) :
    List Event) ++
    (.spawn (.deploy "m" "production") ::
      (([.answers true, .answers true, .answers true] : List Choice) ++
        answered ++
        ([.answers false, .answers true] : List Choice)).map (.step 1 ·) :
      List Event)

def predicted : List Event :=
  .spawn (.predict "m") ::
    (List.replicate 8 (.answers true : Choice)).map (.step 2 ·)

def loadsOf (events : List Event) : Option (List Loaded) :=
  (run (Pool.step (service sampleSettings))
    (.start (start [⟨"first", "run1"⟩])) events).map (·.shared.loads)

def sampleRecord : Record where
  address := ⟨some "run1", none⟩
  detector := some "sklearn"
  status := .production
  judged := some ⟨⟨"models:/first", some 0⟩, ⟨"models:/first", some 0⟩⟩

/-- A model that is logged in front is scored without a check. -/
theorem served_unjudged :
    ∃ final, run (Pool.step (service sampleSettings))
        (.start (start [⟨"first", "run1"⟩]))
        (deployed ++ .environment (.logs ⟨"second", "run1"⟩ 0) ::
          predicted) = some final ∧
      ∃ loaded ∈ final.shared.loads, loaded.record.status.Served ∧
        ∃ judged, loaded.record.judged = some judged ∧
          loaded.resolved.uri = "models:/second" ∧
          judged.authorCode.uri = "models:/first" ∧
          judged.compatibility.uri = "models:/first" := by
  have loads : loadsOf (deployed ++
      .environment (.logs ⟨"second", "run1"⟩ 0) :: predicted) =
        some [⟨sampleRecord, ⟨"models:/second", some 1⟩⟩] := by
    decide +kernel
  obtain ⟨final, ran, same⟩ := Option.map_eq_some_iff.mp loads
  refine ⟨final, ran, _, same ▸ List.mem_singleton_self _, ?_, _, rfl,
    rfl, rfl, rfl⟩
  exact .inl rfl

/-- Behind the first model it changes nothing. -/
theorem served_as_judged_behind :
    ∃ final, run (Pool.step (service sampleSettings))
        (.start (start [⟨"first", "run1"⟩]))
        (deployed ++ .environment (.logs ⟨"second", "run1"⟩ 1) ::
          predicted) = some final ∧
      ∃ loaded ∈ final.shared.loads, ∃ judged,
        loaded.record.judged = some judged ∧
          loaded.resolved.uri = judged.authorCode.uri ∧
          loaded.resolved.uri = judged.compatibility.uri := by
  have loads : loadsOf (deployed ++
      .environment (.logs ⟨"second", "run1"⟩ 1) :: predicted) =
        some [⟨sampleRecord, ⟨"models:/first", some 0⟩⟩] := by
    decide +kernel
  obtain ⟨final, ran, same⟩ := Option.map_eq_some_iff.mp loads
  have member : (⟨sampleRecord, ⟨"models:/first", some 0⟩⟩ : Loaded) ∈
      final.shared.loads := same ▸ List.mem_singleton_self _
  have judged := served_as_judged sampleSettings _ _ final ran _ member
    "run1" _ 0 (by decide) rfl rfl rfl rfl
  exact ⟨final, ran, _, member, _, rfl, judged⟩

end IndustryFlow.Models.Serving
