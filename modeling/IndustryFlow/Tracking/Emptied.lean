import IndustryFlow.Tracking.Offboarding

/-!
# What emptying a tenant leaves

A call that comes to its end leaves no registered model, no experiment under
the tenant's names and no object under its keys, and what is under its deleted
names is in the trash without a logged model.  Calls that are cut off leave
enough for the next one to go on from.  No call changes anything of another
tenant, and once a call has come to its end further ones change nothing.
-/

namespace IndustryFlow.Tracking.Offboarding

open Concurrent Tenancy

/-! ## Names -/

variable (company : Company)

def Named (name : Text) : Prop :=
  namePrefix company <+: name

/-- Under the prefix of deleted names. -/
def Trashed (name : Text) : Prop :=
  deletedNamePrefix company <+: name

def Ours (name : Text) : Prop :=
  Named company name ∨ Trashed company name

def OursKey (key : Text) : Prop :=
  artifactPrefix company <+: key ∨ stagingArea company <+: key

def OursId (store : Store) (id : String) : Prop :=
  ∃ experiment ∈ store.experiments,
    experiment.id = id ∧ Ours company experiment.name

variable {company}

theorem like_percent {name : Text} : like ['%'] name = true := by
  apply List.any_eq_true.mpr
  exact ⟨[], (List.mem_tails _ _).mpr List.nil_suffix, rfl⟩

/-- A text matches itself, also where it holds wildcards. -/
theorem like_under (owner rest : Text) :
    like (under owner) (owner ++ rest) = true := by
  induction owner with
  | nil => exact like_percent
  | cons char owner induction =>
      by_cases any : char = '%'
      · subst any
        apply List.any_eq_true.mpr
        exact ⟨owner ++ rest, (List.mem_tails _ _).mpr (List.suffix_cons _ _),
          induction⟩
      · by_cases one : char = '_'
        · subst one
          exact induction
        · simp only [under, List.cons_append, like, beq_self_eq_true,
            Bool.true_and] at induction ⊢
          exact induction

theorem Named.like {name : Text} (named : Named company name) :
    like (under (namePrefix company)) name = true := by
  obtain ⟨rest, rfl⟩ := named
  exact like_under _ _

theorem Trashed.like {name : Text} (trashed : Trashed company name) :
    Offboarding.like (under (deletedNamePrefix company)) name = true := by
  obtain ⟨rest, rfl⟩ := trashed
  exact like_under _ _

theorem Ours.candidate {name : Text} (ours : Ours company name) :
    candidate company name = true := by
  rcases ours with named | trashed
  · exact Bool.or_eq_true_iff.mpr (.inl named.like)
  · exact Bool.or_eq_true_iff.mpr (.inr trashed.like)

theorem ownedName_isSome {owner name : Text} (nonempty : owner ≠ []) :
    (ownedName owner name).isSome ↔ owner <+: name := by
  rw [ownedName]
  constructor
  · intro owned
    split at owned
    · cases owned
    · rename_i inside
      rw [Bool.or_eq_true_iff, not_or] at inside
      rw [← List.isPrefixOf_iff_prefix]
      simpa using inside.2
  · rintro ⟨rest, rfl⟩
    rw [if_neg]
    · rfl
    · simp [nonempty]

theorem namePrefix_ne_nil : namePrefix company ≠ [] :=
  List.cons_ne_nil _ _

theorem deletedNamePrefix_ne_nil : deletedNamePrefix company ≠ [] :=
  List.cons_ne_nil _ _

/-- The names under the two prefixes begin with different characters. -/
theorem Trashed.not_named {name : Text} (trashed : Trashed company name) :
    ¬Named company name := by
  rintro ⟨rest, rfl⟩
  obtain ⟨other, same⟩ := trashed
  have first := congrArg List.head? same
  exact absurd (Option.some.inj first) (by decide)

/-! ## Rows under a key -/

section Rows

variable {Row : Type} {key : Row → String} {change : Row → Row}
variable {id : String} {rows : List Row} {row : Row}

theorem mem_amendAt : row ∈ amendAt key id change rows ↔
    (∃ old ∈ rows, key old = id ∧ change old = row) ∨
      (row ∈ rows ∧ key row ≠ id) := by
  rw [amendAt, List.mem_map]
  constructor
  · rintro ⟨old, member, changed⟩
    split at changed
    · rename_i same
      exact .inl ⟨old, member, same, changed⟩
    · rename_i other
      subst changed
      exact .inr ⟨member, other⟩
  · rintro (⟨old, member, same, changed⟩ | ⟨member, other⟩)
    · exact ⟨old, member, by rw [if_pos same]; exact changed⟩
    · exact ⟨row, member, if_neg other⟩

theorem mem_amendAt_other (keeps : ∀ row, key (change row) = key row)
    (other : key row ≠ id) : row ∈ amendAt key id change rows ↔ row ∈ rows := by
  rw [mem_amendAt]
  constructor
  · rintro (⟨old, -, same, rfl⟩ | ⟨member, -⟩)
    · exact absurd ((keeps old).trans same) other
    · exact member
  · exact fun member => .inr ⟨member, other⟩

theorem unique_row {first second : Row} (nodup : (rows.map key).Nodup)
    (left : first ∈ rows) (right : second ∈ rows)
    (same : key first = key second) : first = second :=
  List.inj_on_of_nodup_map nodup left right same

end Rows

/-! ## What the searches look at -/

theorem OursId.seen {store : Store} {id : String}
    (ours : OursId company store id) :
    (store.experiments.any fun experiment => experiment.id = id &&
      candidate company experiment.name) = true := by
  obtain ⟨experiment, member, rfl, named⟩ := ours
  apply List.any_eq_true.mpr
  exact ⟨experiment, member, by simp [named.candidate]⟩

section View

variable {before after : Store}

theorem mem_experiments (same : after.view company = before.view company)
    {experiment : Experiment} (ours : Ours company experiment.name) :
    experiment ∈ after.experiments ↔ experiment ∈ before.experiments := by
  have equal := congrArg (experiment ∈ ·) (congrArg View.experiments same)
  simpa [Store.view, List.mem_filter, ours.candidate] using equal

theorem oursId_iff (same : after.view company = before.view company)
    {id : String} : OursId company after id ↔ OursId company before id := by
  constructor
  · rintro ⟨experiment, member, named, ours⟩
    exact ⟨experiment, (mem_experiments same ours).mp member, named, ours⟩
  · rintro ⟨experiment, member, named, ours⟩
    exact ⟨experiment, (mem_experiments same ours).mpr member, named, ours⟩

theorem mem_loggedModels (same : after.view company = before.view company)
    {model : Entry} (ours : OursId company before model.experiment) :
    model ∈ after.loggedModels ↔ model ∈ before.loggedModels := by
  have equal := congrArg (model ∈ ·) (congrArg View.loggedModels same)
  simp only [Store.view, List.mem_filter, ours.seen,
    ((oursId_iff same).mpr ours).seen, and_true] at equal
  exact iff_of_eq equal

theorem mem_registered (same : after.view company = before.view company)
    {name : Text} (named : Named company name) :
    name ∈ after.registered ↔ name ∈ before.registered := by
  have equal := congrArg (name ∈ ·) (congrArg View.registered same)
  simpa [Store.view, List.mem_filter, named.like] using equal

theorem mem_objects (same : after.view company = before.view company)
    {key : Text} (ours : OursKey company key) :
    key ∈ after.objects ↔ key ∈ before.objects := by
  have inside : ((artifactPrefix company).isPrefixOf key ||
      (stagingArea company).isPrefixOf key) = true := by
    rw [Bool.or_eq_true_iff, List.isPrefixOf_iff_prefix,
      List.isPrefixOf_iff_prefix]
    exact ours
  have equal := congrArg (key ∈ ·) (congrArg View.objects same)
  simpa only [Store.view, List.mem_filter, inside, and_true,
    eq_iff_iff] using equal

theorem filter_of_view {Item : Type} {before after : List Item}
    {seen sought : Item → Bool}
    (implies : ∀ item, sought item = true → seen item = true)
    (same : after.filter seen = before.filter seen) :
    after.filter sought = before.filter sought := by
  have narrow (items : List Item) :
      items.filter sought = (items.filter seen).filter sought := by
    rw [List.filter_filter]
    apply List.filter_congr
    intro item _
    cases found : sought item with
    | false => rfl
    | true => rw [implies item found]; rfl
  rw [narrow, same, ← narrow]

theorem matching_eq (same : after.view company = before.view company)
    {owner : Text}
    (known : owner = namePrefix company ∨ owner = deletedNamePrefix company) :
    after.matching (under owner) = before.matching (under owner) := by
  apply filter_of_view _ (congrArg View.experiments same)
  intro experiment found
  rcases known with rfl | rfl
  · exact Bool.or_eq_true_iff.mpr (.inl found)
  · exact Bool.or_eq_true_iff.mpr (.inr found)

theorem registered_eq (same : after.view company = before.view company) :
    after.registered.filter (like (under (namePrefix company))) =
      before.registered.filter (like (under (namePrefix company))) :=
  congrArg View.registered same

theorem keysUnder_eq (same : after.view company = before.view company)
    {root : Text}
    (known : root = artifactPrefix company ∨ root = stagingArea company) :
    after.keysUnder root = before.keysUnder root := by
  apply filter_of_view _ (congrArg View.objects same)
  intro key found
  rcases known with rfl | rfl
  · exact Bool.or_eq_true_iff.mpr (.inl found)
  · exact Bool.or_eq_true_iff.mpr (.inr found)

theorem activeLogged_eq (same : after.view company = before.view company)
    {id : String} (ours : OursId company before id) :
    after.activeLogged id = before.activeLogged id := by
  have narrow {store : Store} (seen : OursId company store id) :
      store.activeLogged id =
        (store.view company).loggedModels.filter fun model =>
          model.experiment = id && model.stage = .active := by
    rw [Store.view, List.filter_filter]
    apply List.filter_congr
    intro model _
    by_cases own : model.experiment = id
    · rw [own, seen.seen, Bool.and_true]
    · simp [own]
  rw [narrow ours, narrow ((oursId_iff same).mpr ours), same]

end View

/-! ## The tenant and the others -/

variable (company)

/-- Nothing of another tenant has changed. -/
structure Untouched (before after : Store) : Prop where
  experiments : ∀ experiment, ¬Ours company experiment.name →
    (experiment ∈ after.experiments ↔ experiment ∈ before.experiments)
  runs : ∀ run, ¬OursId company before run.experiment →
    (run ∈ after.runs ↔ run ∈ before.runs)
  loggedModels : ∀ model, ¬OursId company before model.experiment →
    (model ∈ after.loggedModels ↔ model ∈ before.loggedModels)
  registered : ∀ name, ¬Named company name →
    (name ∈ after.registered ↔ name ∈ before.registered)
  objects : ∀ key, ¬OursKey company key →
    (key ∈ after.objects ↔ key ∈ before.objects)

/-- A deleted experiment under the deleted names has no logged model left. -/
def Clean (store : Store) : Prop :=
  ∀ experiment ∈ store.experiments, Trashed company experiment.name →
    experiment.stage = .deleted → ∀ model ∈ store.loggedModels,
      model.experiment = experiment.id → model.stage = .deleted

/-- The tenant is out of the tracking store, but for its trash. -/
structure Emptied (store : Store) : Prop where
  registered : ∀ name ∈ store.registered, ¬Named company name
  objects : ∀ key ∈ store.objects, ¬OursKey company key
  named : ∀ experiment ∈ store.experiments, ¬Named company experiment.name
  trashed : ∀ experiment ∈ store.experiments,
    Trashed company experiment.name → experiment.stage = .deleted ∧
      ∀ model ∈ store.loggedModels, model.experiment = experiment.id →
        model.stage = .deleted

variable {company}

theorem Untouched.refl (store : Store) : Untouched company store store where
  experiments _ _ := .rfl
  runs _ _ := .rfl
  loggedModels _ _ := .rfl
  registered _ _ := .rfl
  objects _ _ := .rfl

theorem Clean.stable {before after : Store} (clean : Clean company before)
    (same : after.view company = before.view company) :
    Clean company after := by
  intro experiment member trashed deleted model listed own
  have inside := (mem_experiments same (.inr trashed)).mp member
  have seen : OursId company before model.experiment :=
    ⟨experiment, inside, own.symm, .inr trashed⟩
  exact clean experiment inside trashed deleted model
    ((mem_loggedModels same seen).mp listed) own

theorem Emptied.stable {before after : Store}
    (emptied : Emptied company before)
    (same : after.view company = before.view company) :
    Emptied company after where
  registered name member named :=
    emptied.registered name ((mem_registered same named).mp member) named
  objects key member ours :=
    emptied.objects key ((mem_objects same ours).mp member) ours
  named experiment member named := emptied.named experiment
    ((mem_experiments same (.inl named)).mp member) named
  trashed experiment member trashed := by
    have inside := (mem_experiments same (.inr trashed)).mp member
    obtain ⟨deleted, none⟩ := emptied.trashed experiment inside trashed
    refine ⟨deleted, fun model listed own => ?_⟩
    have seen : OursId company before model.experiment :=
      ⟨experiment, inside, own.symm, .inr trashed⟩
    exact none model ((mem_loggedModels same seen).mp listed) own

/-! ## What the calls change -/

section Changes

variable {store : Store} {id : String}

/-- Every experiment under an id of the tenant is the tenant's. -/
theorem OursId.all (ours : OursId company store id) {experiment : Experiment}
    (member : experiment ∈ store.experiments) (same : experiment.id = id) :
    Ours company experiment.name := by
  obtain ⟨found, inside, named, owned⟩ := ours
  rw [unique_row store.experimentIds member inside (same.trans named.symm)]
  exact owned

theorem amend_experiments (ours : OursId company store id)
    {change : Experiment → Experiment}
    (keeps : ∀ experiment, (change experiment).id = experiment.id)
    (owned : ∀ experiment, Ours company experiment.name →
      Ours company (change experiment).name)
    {experiment : Experiment} (other : ¬Ours company experiment.name) :
    experiment ∈ amendAt Experiment.id id change store.experiments ↔
      experiment ∈ store.experiments := by
  by_cases same : experiment.id = id
  · rw [mem_amendAt]
    constructor
    · rintro (⟨old, member, named, rfl⟩ | ⟨member, -⟩)
      · exact absurd (owned old (ours.all member named)) other
      · exact member
    · exact fun member => absurd (ours.all member same) other
  · exact mem_amendAt_other keeps same

theorem untouched_setStage (ours : OursId company store id) (stage : Stage) :
    Untouched company store (store.setStage id stage) where
  experiments _ other :=
    amend_experiments ours (fun _ => by rfl) (fun _ owned => by exact owned)
      other
  runs run other := by
    refine mem_amendAt_other (fun _ => by rfl) ?_
    intro same
    exact other (same ▸ ours)
  loggedModels _ _ := .rfl
  registered _ _ := .rfl
  objects _ _ := .rfl

theorem untouched_rename (ours : OursId company store id) {name : Text}
    (owned : Ours company name) :
    Untouched company store (store.rename id name) where
  experiments _ other :=
    amend_experiments ours (fun _ => by rfl) (fun _ _ => by exact owned) other
  runs _ _ := .rfl
  loggedModels _ _ := .rfl
  registered _ _ := .rfl
  objects _ _ := .rfl

theorem untouched_deleteLogged {model : Entry}
    (member : model ∈ store.loggedModels)
    (ours : OursId company store model.experiment) :
    Untouched company store (store.deleteLogged model.id) where
  experiments _ _ := .rfl
  runs _ _ := .rfl
  loggedModels other foreign := by
    by_cases same : other.id = model.id
    · have never : other ∉ store.loggedModels := fun listed =>
        foreign (unique_row store.loggedModelIds listed member same ▸ ours)
      refine iff_of_false ?_ never
      intro amended
      rcases mem_amendAt.mp amended with ⟨old, listed, named, rfl⟩ | ⟨now, -⟩
      · rw [unique_row store.loggedModelIds listed member named] at foreign
        exact foreign ours
      · exact never now
    · exact mem_amendAt_other (fun _ => by rfl) same
  registered _ _ := .rfl
  objects _ _ := .rfl

theorem mem_filter_ne {Item : Type} [DecidableEq Item] {items : List Item}
    {item gone : Item} (other : item ≠ gone) :
    item ∈ items.filter (· ≠ gone) ↔ item ∈ items := by
  simp [List.mem_filter, other]

theorem untouched_deleteRegistered {name : Text}
    (named : Named company name) :
    Untouched company store (store.deleteRegistered name) where
  experiments _ _ := .rfl
  runs _ _ := .rfl
  loggedModels _ _ := .rfl
  registered _ foreign :=
    mem_filter_ne fun same => foreign (same ▸ named)
  objects _ _ := .rfl

theorem untouched_deleteObject {key : Text} (ours : OursKey company key) :
    Untouched company store (store.deleteObject key) where
  experiments _ _ := .rfl
  runs _ _ := .rfl
  loggedModels _ _ := .rfl
  registered _ _ := .rfl
  objects _ foreign := mem_filter_ne fun same => foreign (same ▸ ours)

theorem Clean.restore (clean : Clean company store) (id : String) :
    Clean company (store.setStage id .active) := by
  intro experiment member trashed deleted model listed own
  rcases mem_amendAt.mp member with ⟨old, -, -, rfl⟩ | ⟨inside, -⟩
  · cases deleted
  · exact clean experiment inside trashed deleted model listed own

theorem Clean.delete (clean : Clean company store)
    (none : ∀ model ∈ store.loggedModels, model.experiment = id →
      model.stage = .deleted) :
    Clean company (store.setStage id .deleted) := by
  intro experiment member trashed deleted model listed own
  rcases mem_amendAt.mp member with ⟨old, -, named, rfl⟩ | ⟨inside, -⟩
  · exact none model listed (own.trans named)
  · exact clean experiment inside trashed deleted model listed own

theorem Clean.rename (clean : Clean company store) {experiment : Experiment}
    (member : experiment ∈ store.experiments)
    (active : experiment.stage = .active) (name : Text) :
    Clean company (store.rename experiment.id name) := by
  intro renamed listed trashed deleted model inside own
  rcases mem_amendAt.mp listed with ⟨old, before, same, rfl⟩ | ⟨before, -⟩
  · have found := unique_row store.experimentIds before member same
    rw [found] at deleted
    exact absurd (active.symm.trans deleted) (by decide)
  · exact clean renamed before trashed deleted model inside own

theorem Clean.deleteLogged (clean : Clean company store) (id : String) :
    Clean company (store.deleteLogged id) := by
  intro experiment member trashed deleted model listed own
  rcases mem_amendAt.mp listed with ⟨old, -, -, rfl⟩ | ⟨inside, -⟩
  · rfl
  · exact clean experiment member trashed deleted model inside own

end Changes

/-! ## Terms -/

variable (company)

/-- The others leave what the tenant's searches see; a call leaves what is
another tenant's, and all of it where the tenant is out. -/
def terms : Contract Store Op Choice where
  invariant := Clean company
  allowed _ _ _ := True
  rely before after := after.view company = before.view company
  guarantee before after := Untouched company before after ∧
    (Emptied company before → after = before)
  rely_refl _ := rfl
  rely_trans first second := second.trans first

abbrev Safely {Answer : Type}
    (post : Except Failure Answer → Store → Prop) (program : Gateway Answer)
    (store : Store) : Prop :=
  program.Safe exec (terms company) post store

/-- A part of the program that only looks, and answers with what there is. -/
abbrev Looks {Answer : Type} (value : Store → Answer)
    (program : Gateway Answer) (store : Store) : Prop :=
  Safely company (fun result later => later.view company =
    store.view company ∧ ∀ answer, result = .ok answer →
      answer = value later) program store

variable {company}

theorem still (store : Store) :
    (terms company).guarantee store store :=
  ⟨.refl store, fun _ => rfl⟩

/-- A call is refused, and leaves the store, or is served. -/
theorem exec_cases {store after : Store} {op : Op} {choice : Choice}
    {reply : Reply op} (executed : exec store op choice =
      some (reply, after)) :
    (after = store ∧ ∃ code, code ≠ 200 ∧ code ≠ notFound ∧
      refuse code op = some reply) ∨
      serve store op = some (reply, after) := by
  cases choice with
  | succeeds => exact .inr executed
  | fails code =>
      rw [exec] at executed
      split at executed
      · cases executed
      · rename_i other
        obtain ⟨refused, found, same⟩ := Option.map_eq_some_iff.mp executed
        cases same
        exact .inl ⟨rfl, code, fun ok => other (.inl ok),
          fun absent => other (.inr absent), found⟩

theorem fails_safe {Answer : Type} {post : Except Failure Answer → Store →
      Prop} {failure : Failure} {store : Store}
    (holds : ∀ later, later.view company = store.view company →
      post (.error failure) later) :
    Safely company post (.fail failure) store :=
  fun later _ same => holds later same

/-! ## Searches -/

theorem hang_looks {Answer : Type} (store : Store) :
    Safely company (fun _ _ => False) (hang : Gateway Answer) store := by
  intro later _ _ choice reply after _ executed
  exact nomatch reply

/-- A call that only looks. -/
theorem asked {op : Op} {Answer : Type} {next : Reply op → Gateway Answer}
    {value : Store → Answer} {store : Store}
    (served : ∀ later reply after, serve later op = some (reply, after) →
      after = later ∧ next reply = .done (value later))
    (refused : ∀ code reply, refuse code op = some reply →
      ∃ failure, next reply = .fail failure)
    (stable : ∀ {first later}, first.view company = store.view company →
      later.view company = first.view company → value later = value first) :
    Looks company value (.call op next) store := by
  intro later clean same choice reply after _ executed
  rcases exec_cases executed with ⟨rfl, code, -, -, found⟩ | found
  · refine ⟨clean, still _, ?_⟩
    obtain ⟨failure, ends⟩ := refused code reply found
    rw [ends]
    exact fails_safe fun last kept => ⟨kept.trans same, nofun⟩
  · obtain ⟨rfl, ends⟩ := served later reply after found
    refine ⟨clean, still _, ?_⟩
    rw [ends]
    intro last _ kept
    refine ⟨kept.trans same, fun answer equal => ?_⟩
    cases equal
    exact (stable same kept).symm

theorem Looks.bind {First Answer : Type} {value : Store → First}
    {program : Gateway First} {continuation : First → Gateway Answer}
    {post : Except Failure Answer → Store → Prop} {store : Store}
    (looks : Looks company value program store) (clean : Clean company store)
    (continues : ∀ later, Clean company later →
      later.view company = store.view company →
        Safely company post (continuation (value later)) later)
    (failed : ∀ failure later, later.view company = store.view company →
      post (.error failure) later) :
    Safely company post (program >>= continuation) store := by
  apply Program.Safe.bind clean looks
  · intro answer later kept ⟨same, known⟩
    rw [known answer rfl]
    exact continues later kept same
  · intro failure later ⟨same, _⟩
    exact failed failure later same

/-- What a search under a prefix finds. -/
def Store.experimentsUnder (store : Store) (owner : Text) :
    List Experiment :=
  (store.matching (under owner)).filterMap (ownedExperiment owner)

def Store.modelsUnder (store : Store) (owner : Text) : List Text :=
  (store.registered.filter (like (under owner))).filterMap (ownedModel owner)

theorem experiments_looks {owner : Text}
    (known : owner = namePrefix company ∨ owner = deletedNamePrefix company)
    (rounds : Nat) {store : Store} (clean : Clean company store) :
    Looks company (fun later => later.experimentsUnder owner)
      (experiments rounds owner) store := by
  have stable {before after : Store} (_ : True)
      (same : after.view company = before.view company) :
      True ∧ after.matching (under owner) = before.matching (under owner) :=
    ⟨trivial, matching_eq same known⟩
  unfold experiments
  refine Program.Safe.pages experimentPage stable (fun token shared _ _ => ?_)
    (fun shared _ => hang_looks shared) rounds none clean trivial
  apply asked
  · intro later reply after found
    cases found
    exact ⟨rfl, rfl⟩
  · intro code reply found
    cases found
    exact ⟨_, rfl⟩
  · intro first later _ kept
    exact congrArg (pageOf · experimentPage token) (matching_eq kept known)

theorem registeredModels_looks (rounds : Nat) {store : Store}
    (clean : Clean company store) :
    Looks company (fun later => later.modelsUnder (namePrefix company))
      (registeredModels rounds (namePrefix company)) store := by
  have stable {before after : Store} (_ : True)
      (same : after.view company = before.view company) :=
    And.intro trivial (registered_eq same)
  unfold registeredModels
  refine Program.Safe.pages modelPage stable (fun token shared _ _ => ?_)
    (fun shared _ => hang_looks shared) rounds none clean trivial
  apply asked
  · intro later reply after found
    cases found
    exact ⟨rfl, rfl⟩
  · intro code reply found
    cases found
    exact ⟨_, rfl⟩
  · intro first later _ kept
    exact congrArg (pageOf · modelPage token) (registered_eq kept)

/-- The logged models of an experiment of the tenant. -/
theorem loggedModels_looks (rounds : Nat) {store : Store} {id : String}
    (clean : Clean company store) (ours : OursId company store id) :
    Looks company (fun later => (later.activeLogged id).map Entry.id)
      (loggedModels rounds id) store := by
  have stable {before after : Store} (seen : OursId company before id)
      (same : after.view company = before.view company) :=
    And.intro ((oursId_iff same).mpr seen) (activeLogged_eq same seen)
  unfold loggedModels
  refine (Program.Safe.pages loggedModelPage stable
    (fun token shared _ seen => ?_) (fun shared _ => hang_looks shared)
    rounds none clean ours).mono ?_
  · apply asked
    · intro later reply after found
      cases found
      exact ⟨rfl, rfl⟩
    · intro code reply found
      cases found
      exact ⟨_, rfl⟩
    · intro first later same kept
      exact congrArg (pageOf · loggedModelPage token)
        (activeLogged_eq kept ((oursId_iff same).mpr seen))
  · intro result later _ ⟨same, found⟩
    refine ⟨same, fun answer equal => ?_⟩
    rw [found answer equal]
    exact congrFun List.filterMap_eq_map' (later.activeLogged id)

theorem listKeys_looks {root : Text}
    (known : root = artifactPrefix company ∨ root = stagingArea company)
    (store : Store) :
    Looks company (fun later => later.keysUnder root) (listKeys root)
      store := by
  apply asked
  · intro later reply after found
    cases found
    exact ⟨rfl, rfl⟩
  · intro code reply found
    cases found
    exact ⟨_, rfl⟩
  · intro first later _ kept
    exact keysUnder_eq kept known

/-- The keys under both prefixes of the tenant. -/
def Store.artifactKeys (store : Store) (company : Company) : List Text :=
  store.keysUnder (artifactPrefix company) ++
    store.keysUnder (stagingArea company)

theorem artifactKeys_looks {store : Store} (clean : Clean company store) :
    Looks company (fun later => later.artifactKeys company)
      (artifactKeys company) store := by
  apply (listKeys_looks (.inl rfl) store).bind clean
  · intro later kept same
    apply (listKeys_looks (.inr rfl) later).bind kept
    · intro last _ between last' _ after
      refine ⟨after.trans (between.trans same), fun answer equal => ?_⟩
      cases equal
      dsimp only [Store.artifactKeys]
      rw [keysUnder_eq after (.inl rfl), keysUnder_eq between (.inl rfl),
        keysUnder_eq after (.inr rfl)]
    · intro failure last between
      exact ⟨between.trans same, nofun⟩
  · intro failure later same
    exact ⟨same, nofun⟩

/-- A name under a prefix is one that the search finds. -/
theorem like_of_owned {owner name : Text} (nonempty : owner ≠ [])
    (owned : (ownedName owner name).isSome = true) :
    like (under owner) name = true := by
  obtain ⟨rest, rfl⟩ := (ownedName_isSome nonempty).mp owned
  exact like_under owner rest

theorem experimentsUnder_eq {store : Store} {owner : Text}
    (nonempty : owner ≠ []) : store.experimentsUnder owner =
      store.experiments.filter fun experiment =>
        (ownedName owner experiment.name).isSome := by
  have guards : ownedExperiment owner = Option.guard fun experiment =>
      (ownedName owner experiment.name).isSome := rfl
  rw [Store.experimentsUnder, Store.matching, guards,
    List.filterMap_eq_filter, List.filter_filter]
  apply List.filter_congr
  intro experiment _
  cases owned : (ownedName owner experiment.name).isSome with
  | false => rfl
  | true => exact like_of_owned nonempty owned

theorem modelsUnder_eq {store : Store} {owner : Text}
    (nonempty : owner ≠ []) : store.modelsUnder owner =
      store.registered.filter fun name => (ownedName owner name).isSome := by
  have guards : ownedModel owner =
      Option.guard fun name => (ownedName owner name).isSome := rfl
  rw [Store.modelsUnder, guards, List.filterMap_eq_filter, List.filter_filter]
  apply List.filter_congr
  intro name _
  cases owned : (ownedName owner name).isSome with
  | false => rfl
  | true => exact like_of_owned nonempty owned

theorem mem_experimentsUnder {store : Store} {owner : Text}
    (nonempty : owner ≠ []) {experiment : Experiment} :
    experiment ∈ store.experimentsUnder owner ↔
      experiment ∈ store.experiments ∧ owner <+: experiment.name := by
  rw [experimentsUnder_eq nonempty, List.mem_filter,
    ownedName_isSome nonempty]

theorem mem_modelsUnder {store : Store} {owner : Text}
    (nonempty : owner ≠ []) {name : Text} :
    name ∈ store.modelsUnder owner ↔
      name ∈ store.registered ∧ owner <+: name := by
  rw [modelsUnder_eq nonempty, List.mem_filter, ownedName_isSome nonempty]

theorem mem_artifactKeys {store : Store} {key : Text} :
    key ∈ store.artifactKeys company ↔
      key ∈ store.objects ∧ OursKey company key := by
  simp only [Store.artifactKeys, Store.keysUnder, List.mem_append,
    List.mem_filter, List.isPrefixOf_iff_prefix, OursKey]
  exact and_or_left.symm

theorem mem_activeLogged {store : Store} {id : String} {model : Entry} :
    model ∈ store.activeLogged id ↔ model ∈ store.loggedModels ∧
      model.experiment = id ∧ model.stage = .active := by
  simp [Store.activeLogged, List.mem_filter]

theorem experimentsUnder_nodup {store : Store} {owner : Text}
    (nonempty : owner ≠ []) :
    ((store.experimentsUnder owner).map Experiment.id).Nodup := by
  rw [experimentsUnder_eq nonempty]
  exact (List.filter_sublist.map _).nodup store.experimentIds

/-! ## What is left to do -/

variable (company)

def NoRegistered (store : Store) : Prop :=
  ∀ name ∈ store.registered, ¬Named company name

def NoObjects (store : Store) : Prop :=
  ∀ key ∈ store.objects, ¬OursKey company key

structure ModelsLeft (names : List Text) (store : Store) : Prop where
  known : ∀ name ∈ names, Named company name
  left : ∀ name ∈ store.registered, Named company name → name ∈ names

structure KeysLeft (keys : List Text) (store : Store) : Prop where
  registered : NoRegistered company store
  known : ∀ key ∈ keys, OursKey company key
  left : ∀ key ∈ store.objects, OursKey company key → key ∈ keys

structure NamedLeft (rest : List Experiment) (store : Store) : Prop where
  registered : NoRegistered company store
  objects : NoObjects company store
  nodup : (rest.map Experiment.id).Nodup
  known : ∀ experiment ∈ rest, experiment ∈ store.experiments ∧
    Named company experiment.name
  left : ∀ experiment ∈ store.experiments, Named company experiment.name →
    experiment ∈ rest

/-- The experiment is being moved away. -/
structure Moving (id : String) (rest : List Experiment) (store : Store) :
    Prop where
  registered : NoRegistered company store
  objects : NoObjects company store
  nodup : (rest.map Experiment.id).Nodup
  other : ∀ experiment ∈ rest, experiment.id ≠ id
  moved : ∃ experiment ∈ store.experiments,
    experiment.id = id ∧ Named company experiment.name
  known : ∀ experiment ∈ rest, experiment ∈ store.experiments ∧
    Named company experiment.name
  left : ∀ experiment ∈ store.experiments, Named company experiment.name →
    experiment.id = id ∨ experiment ∈ rest

structure TrashLeft (rest : List Experiment) (store : Store) : Prop where
  registered : NoRegistered company store
  objects : NoObjects company store
  named : ∀ experiment ∈ store.experiments, ¬Named company experiment.name
  nodup : (rest.map Experiment.id).Nodup
  known : ∀ experiment ∈ rest, experiment ∈ store.experiments ∧
    Trashed company experiment.name
  left : ∀ experiment ∈ store.experiments, Trashed company experiment.name →
    experiment.stage = .deleted ∨ experiment ∈ rest

structure LoggedLeft (experiment : Experiment) (rest : List Experiment)
    (models : List String) (store : Store) : Prop
    extends TrashLeft company (experiment :: rest) store where
  active : experiment.stage = .active
  seen : ∀ id ∈ models, ∃ model ∈ store.loggedModels,
    model.id = id ∧ model.experiment = experiment.id
  last : ∀ model ∈ store.loggedModels, model.experiment = experiment.id →
    model.stage = .active → model.id ∈ models

variable {company}

section Stable

variable {before after : Store}

theorem NoRegistered.stable (none : NoRegistered company before)
    (same : after.view company = before.view company) :
    NoRegistered company after := fun name member named =>
  none name ((mem_registered same named).mp member) named

theorem NoObjects.stable (none : NoObjects company before)
    (same : after.view company = before.view company) :
    NoObjects company after := fun key member ours =>
  none key ((mem_objects same ours).mp member) ours

theorem ModelsLeft.stable {names : List Text}
    (models : ModelsLeft company names before)
    (same : after.view company = before.view company) :
    ModelsLeft company names after where
  known := models.known
  left name member named :=
    models.left name ((mem_registered same named).mp member) named

theorem KeysLeft.stable {keys : List Text}
    (left : KeysLeft company keys before)
    (same : after.view company = before.view company) :
    KeysLeft company keys after where
  registered := left.registered.stable same
  known := left.known
  left key member ours :=
    left.left key ((mem_objects same ours).mp member) ours

theorem NamedLeft.stable {rest : List Experiment}
    (left : NamedLeft company rest before)
    (same : after.view company = before.view company) :
    NamedLeft company rest after where
  registered := left.registered.stable same
  objects := left.objects.stable same
  nodup := left.nodup
  known experiment member := by
    obtain ⟨inside, named⟩ := left.known experiment member
    exact ⟨(mem_experiments same (.inl named)).mpr inside, named⟩
  left experiment member named :=
    left.left experiment ((mem_experiments same (.inl named)).mp member) named

theorem Moving.stable {id : String} {rest : List Experiment}
    (moving : Moving company id rest before)
    (same : after.view company = before.view company) :
    Moving company id rest after where
  registered := moving.registered.stable same
  objects := moving.objects.stable same
  nodup := moving.nodup
  other := moving.other
  moved := by
    obtain ⟨experiment, member, own, named⟩ := moving.moved
    exact ⟨experiment, (mem_experiments same (.inl named)).mpr member, own,
      named⟩
  known experiment member := by
    obtain ⟨inside, named⟩ := moving.known experiment member
    exact ⟨(mem_experiments same (.inl named)).mpr inside, named⟩
  left experiment member named := moving.left experiment
    ((mem_experiments same (.inl named)).mp member) named

theorem TrashLeft.stable {rest : List Experiment}
    (left : TrashLeft company rest before)
    (same : after.view company = before.view company) :
    TrashLeft company rest after where
  registered := left.registered.stable same
  objects := left.objects.stable same
  named experiment member named := left.named experiment
    ((mem_experiments same (.inl named)).mp member) named
  nodup := left.nodup
  known experiment member := by
    obtain ⟨inside, trashed⟩ := left.known experiment member
    exact ⟨(mem_experiments same (.inr trashed)).mpr inside, trashed⟩
  left experiment member trashed := left.left experiment
    ((mem_experiments same (.inr trashed)).mp member) trashed

theorem TrashLeft.ours {experiment : Experiment} {rest : List Experiment}
    (left : TrashLeft company (experiment :: rest) before) :
    OursId company before experiment.id := by
  obtain ⟨member, trashed⟩ := left.known experiment List.mem_cons_self
  exact ⟨experiment, member, rfl, .inr trashed⟩

theorem LoggedLeft.stable {experiment : Experiment} {rest : List Experiment}
    {models : List String}
    (left : LoggedLeft company experiment rest models before)
    (same : after.view company = before.view company) :
    LoggedLeft company experiment rest models after where
  toTrashLeft := left.toTrashLeft.stable same
  active := left.active
  seen id member := by
    obtain ⟨model, listed, named, own⟩ := left.seen id member
    refine ⟨model, (mem_loggedModels same ?_).mpr listed, named, own⟩
    exact own ▸ left.ours
  last model listed own := by
    refine left.last model ((mem_loggedModels same ?_).mp listed) own
    exact own ▸ left.ours

end Stable

/-! ## Calls that change something -/

/-- What holds behind an answer. -/
abbrev Ends (holds : Store → Prop) :
    Except Failure Unit → Store → Prop :=
  fun result later => result = .ok () → holds later

theorem done_safe {holds : Store → Prop} {store : Store}
    (stable : ∀ later, later.view company = store.view company →
      holds store → holds later) (now : holds store) :
    Safely company (Ends holds) (.done ()) store :=
  fun later _ same _ => stable later same now

/-- A call is refused, and the program ends, or it is served. -/
theorem acts {op : Op} {Answer : Type} {next : Reply op → Gateway Answer}
    {post : Except Failure Answer → Store → Prop} {store : Store}
    (refused : ∀ code reply, code ≠ notFound → refuse code op = some reply →
      ∃ failure, next reply = .fail failure)
    (fails : ∀ failure later, post (.error failure) later)
    (served : ∀ later reply after, Clean company later →
      later.view company = store.view company →
      serve later op = some (reply, after) → Clean company after ∧
        (terms company).guarantee later after ∧
          Safely company post (next reply) after) :
    Safely company post (.call op next) store := by
  intro later clean same choice reply after _ executed
  rcases exec_cases executed with ⟨rfl, code, -, other, found⟩ | found
  · refine ⟨clean, still _, ?_⟩
    obtain ⟨failure, ends⟩ := refused code reply other found
    rw [ends]
    exact fails_safe fun last _ => fails failure last
  · exact served later reply after clean same found

/-- A call that is refused in this state. -/
theorem refused_safe {Answer : Type} {program : Gateway Answer}
    {post : Except Failure Answer → Store → Prop} {store : Store}
    {failure : Failure} (clean : Clean company store)
    (ends : program = .fail failure)
    (fails : ∀ failure later, post (.error failure) later) :
    Clean company store ∧ (terms company).guarantee store store ∧
      Safely company post program store := by
  refine ⟨clean, still store, ?_⟩
  rw [ends]
  exact fails_safe fun last _ => fails failure last

theorem deleteRegistered_safe {name : Text} {names : List Text}
    {store : Store} (models : ModelsLeft company (name :: names) store) :
    Safely company (Ends (ModelsLeft company names)) (deleteRegistered name)
      store := by
  have named := models.known name List.mem_cons_self
  have rest (other : Text) (member : other ∈ names) : Named company other :=
    models.known other (List.mem_cons_of_mem _ member)
  apply acts
  · intro code reply other found
    cases found
    exact ⟨_, if_neg other⟩
  · exact fun _ _ => nofun
  · intro later reply after clean same found
    have left := (models.stable same).left
    rw [serve] at found
    split at found
    · rename_i present
      cases found
      refine ⟨clean, ⟨untouched_deleteRegistered named, fun emptied => ?_⟩,
        done_safe (fun _ same left => left.stable same) ⟨rest, ?_⟩⟩
      · exact absurd named (emptied.registered name present)
      · intro other member owned
        obtain ⟨inside, different⟩ := List.mem_filter.mp member
        rcases List.mem_cons.mp (left other inside owned) with rfl | listed
        · simp at different
        · exact listed
    · rename_i absent
      cases found
      refine ⟨clean, still _,
        done_safe (fun _ same left => left.stable same) ⟨rest, ?_⟩⟩
      intro other member owned
      rcases List.mem_cons.mp (left other member owned) with rfl | listed
      · exact absurd member absent
      · exact listed

theorem deleteArtifact_safe {key : Text} {keys : List Text} {store : Store}
    (left : KeysLeft company (key :: keys) store) :
    Safely company (Ends (KeysLeft company keys)) (deleteArtifact key)
      store := by
  have ours := left.known key List.mem_cons_self
  apply acts
  · intro code reply other found
    cases found
    exact ⟨_, rfl⟩
  · exact fun _ _ => nofun
  · intro later reply after clean same found
    cases found
    have now := left.stable same
    refine ⟨clean, ⟨untouched_deleteObject ours, fun emptied => ?_⟩,
      done_safe (fun _ same left => left.stable same) ⟨now.registered,
        fun other member => now.known other (List.mem_cons_of_mem _ member),
        ?_⟩⟩
    · have same : later.objects.filter (· ≠ key) = later.objects := by
        apply List.filter_eq_self.mpr
        intro other member
        apply decide_eq_true
        rintro rfl
        exact emptied.objects other member ours
      rw [Store.deleteObject, same]
    · intro other member owned
      obtain ⟨inside, different⟩ := List.mem_filter.mp member
      rcases List.mem_cons.mp (now.left other inside owned) with rfl | listed
      · simp at different
      · exact listed

/-- The experiment that a call names. -/
theorem found_experiment {store : Store} {id : String}
    {experiment : Experiment}
    (found : store.findExperiment id = some experiment) :
    experiment ∈ store.experiments ∧ experiment.id = id := by
  refine ⟨List.mem_of_find?_eq_some found, ?_⟩
  simpa using List.find?_some found

theorem restore_safe {experiment : Experiment} {rest : List Experiment}
    {store : Store} (moving : Moving company experiment.id rest store) :
    Safely company (Ends (Moving company experiment.id rest))
      (Program.perform (Op.restoreExperiment experiment.id) >>=
        answer "POST" "experiments/restore") store := by
  apply acts
  · intro code reply other found
    cases found
    exact ⟨_, rfl⟩
  · exact fun _ _ => nofun
  · intro later reply after clean same found
    have now := moving.stable same
    rw [serve] at found
    split at found
    · cases found
      obtain ⟨named, member, own, owned⟩ := now.moved
      refine ⟨clean.restore _, ⟨untouched_setStage
        ⟨named, member, own, .inl owned⟩ _, fun emptied => ?_⟩,
        done_safe (fun _ same left => left.stable same) ?_⟩
      · exact absurd owned (emptied.named named member)
      · refine ⟨now.registered, now.objects, now.nodup, now.other, ?_, ?_, ?_⟩
        · exact ⟨{ named with stage := .active },
            mem_amendAt.mpr (.inl ⟨named, member, own, rfl⟩), own, owned⟩
        · intro other listed
          obtain ⟨inside, owned⟩ := now.known other listed
          exact ⟨mem_amendAt.mpr (.inr ⟨inside, now.other other listed⟩),
            owned⟩
        · intro other listed owned
          rcases mem_amendAt.mp listed with ⟨old, inside, own, rfl⟩ | inside
          · exact .inl own
          · exact now.left other inside.1 owned
    · cases found
      exact refused_safe clean rfl fun _ _ => nofun

theorem deleted_trashed (company : Company) (rest : Text) :
    Trashed company (deletedNamePrefix company ++ rest) :=
  List.prefix_append _ _

theorem update_safe {experiment : Experiment} {rest : List Experiment}
    {store : Store} (moving : Moving company experiment.id rest store) :
    Safely company (Ends (NamedLeft company rest))
      (Program.perform (Op.updateExperiment experiment.id
        (deletedNamePrefix company ++ experiment.id.toList)) >>=
          answer "POST" "experiments/update") store := by
  apply acts
  · intro code reply other found
    cases found
    exact ⟨_, rfl⟩
  · exact fun _ _ => nofun
  · intro later reply after clean same found
    have now := moving.stable same
    have away := deleted_trashed company experiment.id.toList
    obtain ⟨named, member, own, owned⟩ := now.moved
    rw [serve] at found
    split at found
    · rename_i id name looked
      split at found
      · cases found
        exact refused_safe clean rfl fun _ _ => nofun
      · cases found
        obtain ⟨inside, same⟩ := found_experiment looked
        cases same
        refine ⟨clean.rename inside rfl _, ⟨untouched_rename
          ⟨named, member, own, .inl owned⟩ (.inr away), fun emptied => ?_⟩,
          done_safe (fun _ same left => left.stable same) ?_⟩
        · exact absurd owned (emptied.named named member)
        · refine ⟨now.registered, now.objects, now.nodup, ?_, ?_⟩
          · intro other listed
            obtain ⟨present, owned⟩ := now.known other listed
            exact ⟨mem_amendAt.mpr
              (.inr ⟨present, now.other other listed⟩), owned⟩
          · intro other listed owned
            rcases mem_amendAt.mp listed with ⟨old, -, -, rfl⟩ | ⟨old, other'⟩
            · exact absurd owned away.not_named
            · exact (now.left other old owned).resolve_left other'
    · cases found
      exact refused_safe clean rfl fun _ _ => nofun
    · cases found
      exact refused_safe clean rfl fun _ _ => nofun

theorem moveAway_safe {experiment : Experiment} {rest : List Experiment}
    {store : Store} (clean : Clean company store)
    (left : NamedLeft company (experiment :: rest) store) :
    Safely company (Ends (NamedLeft company rest))
      (moveAway company experiment) store := by
  have moving : Moving company experiment.id rest store := by
    obtain ⟨member, named⟩ := left.known experiment List.mem_cons_self
    have apart := List.nodup_cons.mp left.nodup
    refine ⟨left.registered, left.objects, apart.2, ?_, ?_, ?_, ?_⟩
    · intro other listed same
      exact apart.1 (same ▸ List.mem_map_of_mem listed)
    · exact ⟨experiment, member, rfl, named⟩
    · exact fun other listed => left.known other (List.mem_cons_of_mem _ listed)
    · intro other listed owned
      rcases List.mem_cons.mp (left.left other listed owned) with rfl | inside
      · exact .inl rfl
      · exact .inr inside
  unfold moveAway
  split
  · apply (restore_safe moving).bind clean
    · intro answer later kept moved
      exact update_safe (moved rfl)
    · exact fun _ _ _ => nofun
  · exact update_safe moving

theorem deleteLogged_safe {experiment : Experiment} {rest : List Experiment}
    {id : String} {models : List String} {store : Store}
    (left : LoggedLeft company experiment rest (id :: models) store) :
    Safely company (Ends (LoggedLeft company experiment rest models))
      (deleteLogged id) store := by
  apply acts
  · intro code reply other found
    cases found
    exact ⟨_, if_neg other⟩
  · exact fun _ _ => nofun
  · intro later reply after clean same found
    have now := left.stable same
    obtain ⟨model, listed, rfl, own⟩ := now.seen id List.mem_cons_self
    rw [serve] at found
    split at found
    · cases found
      refine ⟨clean.deleteLogged _, ⟨untouched_deleteLogged listed
        (own ▸ now.ours), fun emptied => ?_⟩,
        done_safe (fun _ same left => left.stable same) ?_⟩
      · obtain ⟨member, trashed⟩ := now.known experiment List.mem_cons_self
        have deleted := (emptied.trashed experiment member trashed).1
        exact absurd (now.active.symm.trans deleted) (by decide)
      · refine ⟨⟨now.registered, now.objects, now.named, now.nodup, now.known,
          now.left⟩, now.active, ?_, ?_⟩
        · intro other member
          obtain ⟨old, inside, named, own⟩ :=
            now.seen other (List.mem_cons_of_mem _ member)
          by_cases gone : old.id = model.id
          · exact ⟨{ old with stage := .deleted },
              mem_amendAt.mpr (.inl ⟨old, inside, gone, rfl⟩), named, own⟩
          · exact ⟨old, mem_amendAt.mpr (.inr ⟨inside, gone⟩), named, own⟩
        · intro other member own active
          rcases mem_amendAt.mp member with ⟨old, -, -, rfl⟩ | ⟨old, different⟩
          · cases active
          · exact (List.mem_cons.mp (now.last other old own active)).resolve_left
              different
    · rename_i absent
      cases found
      refine ⟨clean, still _,
        done_safe (fun _ same left => left.stable same) ?_⟩
      refine ⟨now.toTrashLeft, now.active, fun other member =>
        now.seen other (List.mem_cons_of_mem _ member), ?_⟩
      intro other member own active
      rcases List.mem_cons.mp (now.last other member own active) with gone | in_
      · refine absurd (List.any_eq_true.mpr ⟨other, member, ?_⟩) absent
        simp [gone, active]
      · exact in_

theorem deleteExperiment_safe {experiment : Experiment}
    {rest : List Experiment} {store : Store}
    (left : LoggedLeft company experiment rest [] store) :
    Safely company (Ends (TrashLeft company rest))
      (Program.perform (Op.deleteExperiment experiment.id) >>=
        answer "POST" "experiments/delete") store := by
  apply acts
  · intro code reply other found
    cases found
    exact ⟨_, rfl⟩
  · exact fun _ _ => nofun
  · intro later reply after clean same found
    have now := left.stable same
    have none : ∀ model ∈ later.loggedModels,
        model.experiment = experiment.id → model.stage = .deleted := by
      intro model listed own
      cases stage : model.stage with
      | deleted => rfl
      | active => exact absurd (now.last model listed own stage) nofun
    have apart := List.nodup_cons.mp now.nodup
    have other (member : Experiment) (listed : member ∈ rest) :
        member.id ≠ experiment.id := fun same =>
      apart.1 (same ▸ List.mem_map_of_mem listed)
    rw [serve] at found
    split at found
    · cases found
      refine ⟨clean.delete none, ⟨untouched_setStage now.ours _,
        fun emptied => ?_⟩, done_safe (fun _ same left => left.stable same) ?_⟩
      · obtain ⟨member, trashed⟩ := now.known experiment List.mem_cons_self
        have deleted := (emptied.trashed experiment member trashed).1
        exact absurd (now.active.symm.trans deleted) (by decide)
      · refine ⟨now.registered, now.objects, ?_, apart.2, ?_, ?_⟩
        · intro member listed named
          rcases mem_amendAt.mp listed with ⟨old, inside, -, rfl⟩ | ⟨inside, -⟩
          · exact now.named old inside named
          · exact now.named member inside named
        · intro member listed
          obtain ⟨inside, trashed⟩ :=
            now.known member (List.mem_cons_of_mem _ listed)
          exact ⟨mem_amendAt.mpr (.inr ⟨inside, other member listed⟩), trashed⟩
        · intro member listed trashed
          rcases mem_amendAt.mp listed with ⟨old, -, -, rfl⟩ | ⟨inside, apart⟩
          · exact .inl rfl
          · rcases now.left member inside trashed with deleted | among
            · exact .inl deleted
            · rcases List.mem_cons.mp among with rfl | later
              · exact absurd rfl apart
              · exact .inr later
    · cases found
      exact refused_safe clean rfl fun _ _ => nofun

theorem each_bind {Item Answer : Type} {body : Item → Gateway Unit}
    (left : List Item → Store → Prop)
    (one : ∀ item items store, Clean company store →
      left (item :: items) store →
        Safely company (Ends (left items)) (body item) store)
    (stable : ∀ {before after}, after.view company = before.view company →
      left [] before → left [] after)
    {items : List Item} {continuation : Unit → Gateway Answer}
    {post : Except Failure Answer → Store → Prop} {store : Store}
    (clean : Clean company store) (starts : left items store)
    (continues : ∀ later, Clean company later → left [] later →
      Safely company post (continuation ()) later)
    (fails : ∀ failure later, post (.error failure) later) :
    Safely company post (Program.each body items >>= continuation) store := by
  apply (Program.Safe.each one clean starts stable).bind clean
  · exact fun answer later kept done => continues later kept (done rfl)
  · exact fun failure later _ => fails failure later

theorem trash_safe (rounds : Nat) {experiment : Experiment}
    {rest : List Experiment} {store : Store} (clean : Clean company store)
    (left : TrashLeft company (experiment :: rest) store) :
    Safely company (Ends (TrashLeft company rest)) (trash rounds experiment)
      store := by
  unfold trash
  split
  · rename_i deleted
    refine done_safe (fun _ same left => left.stable same) ⟨left.registered,
      left.objects, left.named, (List.nodup_cons.mp left.nodup).2,
      fun other member => left.known other (List.mem_cons_of_mem _ member),
      ?_⟩
    intro other member trashed
    rcases left.left other member trashed with gone | among
    · exact .inl gone
    · rcases List.mem_cons.mp among with rfl | later
      · exact .inl deleted
      · exact .inr later
  · rename_i present
    have active : experiment.stage = .active := by
      cases stage : experiment.stage with
      | active => rfl
      | deleted => exact absurd stage present
    apply (loggedModels_looks rounds clean left.ours).bind clean
    · intro later kept same
      have starts : LoggedLeft company experiment rest
          ((later.activeLogged experiment.id).map Entry.id) later := by
        refine ⟨left.stable same, active, ?_, ?_⟩
        · intro id member
          obtain ⟨model, listed, rfl⟩ := List.mem_map.mp member
          obtain ⟨inside, own, -⟩ := mem_activeLogged.mp listed
          exact ⟨model, inside, rfl, own⟩
        · intro model listed own stage
          exact List.mem_map_of_mem (mem_activeLogged.mpr ⟨listed, own, stage⟩)
      apply each_bind (LoggedLeft company experiment rest)
        (fun _ _ _ _ left => deleteLogged_safe left)
        (fun same left => left.stable same) kept starts
      · exact fun last _ done => deleteExperiment_safe done
      · exact fun _ _ => nofun
    · exact fun _ _ _ => nofun

/-- An answer says that the tenant is out. -/
abbrev Out (company : Company) :
    Except Failure Remaining → Store → Prop :=
  fun result later => ∀ answer, result = .ok answer → Emptied company later

/-- Behind searches the tenant is as it was. -/
theorem remaining_safe (rounds : Nat) {store : Store}
    (clean : Clean company store) (emptied : Emptied company store) :
    Safely company (Out company) (remaining rounds company) store := by
  apply (experiments_looks (.inl rfl) rounds clean).bind clean
  · intro first clean one
    apply (experiments_looks (.inr rfl) rounds clean).bind clean
    · intro second clean two
      apply (registeredModels_looks rounds clean).bind clean
      · intro third clean three
        apply (artifactKeys_looks clean).bind clean
        · intro fourth clean four last _ five answer _
          exact ((((emptied.stable one).stable two).stable three).stable
            four).stable five
        · exact fun _ _ _ _ => nofun
      · exact fun _ _ _ _ => nofun
    · exact fun _ _ _ _ => nofun
  · exact fun _ _ _ _ => nofun

theorem trashAll_safe (rounds : Nat) {store : Store}
    (clean : Clean company store) (registered : NoRegistered company store)
    (objects : NoObjects company store)
    (named : ∀ experiment ∈ store.experiments,
      ¬Named company experiment.name) :
    Safely company (Out company) (do
      let deleted ← experiments rounds (deletedNamePrefix company)
      Program.each (trash rounds) deleted
      remaining rounds company) store := by
  apply (experiments_looks (.inr rfl) rounds clean).bind clean
  · intro found clean same
    have starts : TrashLeft company
        (found.experimentsUnder (deletedNamePrefix company)) found := by
      refine ⟨registered.stable same, objects.stable same, ?_,
        experimentsUnder_nodup deletedNamePrefix_ne_nil, ?_, ?_⟩
      · intro experiment member owned
        exact named experiment ((mem_experiments same (.inl owned)).mp member)
          owned
      · exact fun experiment member =>
          (mem_experimentsUnder deletedNamePrefix_ne_nil).mp member
      · exact fun experiment member trashed => .inr
          ((mem_experimentsUnder deletedNamePrefix_ne_nil).mpr
            ⟨member, trashed⟩)
    apply each_bind (TrashLeft company)
      (fun _ _ _ clean left => trash_safe rounds clean left)
      (fun same left => left.stable same) clean starts
    · intro last clean done
      apply remaining_safe rounds clean
      refine ⟨done.registered, done.objects, done.named, ?_⟩
      intro experiment member trashed
      have deleted := (done.left experiment member trashed).resolve_right nofun
      exact ⟨deleted, clean experiment member trashed deleted⟩
    · exact fun _ _ _ => nofun
  · exact fun _ _ _ _ => nofun

theorem moveAll_safe (rounds : Nat) {store : Store}
    (clean : Clean company store) (registered : NoRegistered company store)
    (objects : NoObjects company store) :
    Safely company (Out company) (do
      let named ← experiments rounds (namePrefix company)
      Program.each (moveAway company) named
      let deleted ← experiments rounds (deletedNamePrefix company)
      Program.each (trash rounds) deleted
      remaining rounds company) store := by
  apply (experiments_looks (.inl rfl) rounds clean).bind clean
  · intro found clean same
    have starts : NamedLeft company
        (found.experimentsUnder (namePrefix company)) found := by
      refine ⟨registered.stable same, objects.stable same,
        experimentsUnder_nodup namePrefix_ne_nil, ?_, ?_⟩
      · exact fun experiment member =>
          (mem_experimentsUnder namePrefix_ne_nil).mp member
      · exact fun experiment member owned =>
          (mem_experimentsUnder namePrefix_ne_nil).mpr ⟨member, owned⟩
    apply each_bind (NamedLeft company)
      (fun _ _ _ clean left => moveAway_safe clean left)
      (fun same left => left.stable same) clean starts
    · intro last clean done
      exact trashAll_safe rounds clean done.registered done.objects
        fun experiment member named => nomatch done.left _ member named
    · exact fun _ _ _ => nofun
  · exact fun _ _ _ _ => nofun

theorem deleteArtifacts_safe (rounds : Nat) {store : Store}
    (clean : Clean company store) (registered : NoRegistered company store) :
    Safely company (Out company) (do
      let keys ← artifactKeys company
      Program.each deleteArtifact keys
      let named ← experiments rounds (namePrefix company)
      Program.each (moveAway company) named
      let deleted ← experiments rounds (deletedNamePrefix company)
      Program.each (trash rounds) deleted
      remaining rounds company) store := by
  apply (artifactKeys_looks clean).bind clean
  · intro listed clean same
    have starts : KeysLeft company (listed.artifactKeys company) listed := by
      refine ⟨registered.stable same, ?_, ?_⟩
      · exact fun key member => (mem_artifactKeys.mp member).2
      · exact fun key member ours => mem_artifactKeys.mpr ⟨member, ours⟩
    apply each_bind (KeysLeft company)
      (fun _ _ _ _ left => deleteArtifact_safe left)
      (fun same left => left.stable same) clean starts
    · intro last clean done
      exact moveAll_safe rounds clean done.registered
        fun key member ours => nomatch done.left key member ours
    · exact fun _ _ _ => nofun
  · exact fun _ _ _ _ => nofun

/-- A call is confined to the tenant, changes nothing where the tenant is out
already, and leaves it out. -/
theorem emptyTenant_safe (rounds : Nat) {store : Store}
    (clean : Clean company store) :
    Safely company (Out company) (emptyTenant rounds company) store := by
  apply (registeredModels_looks rounds clean).bind clean
  · intro searched clean _
    have starts : ModelsLeft company
        (searched.modelsUnder (namePrefix company)) searched := by
      constructor
      · exact fun name member =>
          ((mem_modelsUnder namePrefix_ne_nil).mp member).2
      · exact fun name member named =>
          (mem_modelsUnder namePrefix_ne_nil).mpr ⟨member, named⟩
    apply each_bind (ModelsLeft company)
      (fun _ _ _ _ left => deleteRegistered_safe left)
      (fun same left => left.stable same) clean starts
    · intro last clean done
      exact deleteArtifacts_safe rounds clean
        fun name member named => nomatch done.left name member named
    · exact fun _ _ _ => nofun
  · exact fun _ _ _ _ => nofun

/-! ## Runs -/

abbrev State := Solo Store Op Reply Failure Remaining

abbrev Event := SoloEvent Choice Store

/-- The event is one of the calls for the tenant, not of the others. -/
def Own (event : Event) : Prop :=
  ∀ after, event ≠ .environment after

abbrev Steps (rounds : Nat) (company : Company) :
    State → Event → Option State :=
  Solo.step (offboarding rounds company)

/-- The calls for the tenant leave what is another's. -/
def Confined (rounds : Nat) (company : Company) (state : State)
    (event : Event) : Prop :=
  ∀ next, Own event → Steps rounds company state event = some next →
    Untouched company state.shared next.shared

/-- The calls for the tenant change nothing at all. -/
def Unchanging (rounds : Nat) (company : Company) (state : State)
    (event : Event) : Prop :=
  ∀ next, Own event → Steps rounds company state event = some next →
    next.shared = state.shared

abbrev Goes (rounds : Nat) (company : Company) (state : State) : Prop :=
  Solo.Fulfils (offboarding rounds company) (terms company) (Out company)
    state

theorem goes_step (rounds : Nat) {state next : State} {event : Event}
    (goes : Goes rounds company state)
    (stepped : Steps rounds company state event = some next) :
    Goes rounds company next ∧
      (Own event → (terms company).guarantee state.shared next.shared) ∧
      (¬Own event → next.shared.view company = state.shared.view company) := by
  obtain ⟨kept, own, others⟩ := Solo.step_fulfils
    (fun _ clean => emptyTenant_safe rounds clean) (fun _ _ => nofun)
    (fun change after _ changed => by
      have changed : Offboarding.change company state.shared change =
          some after := changed
      rw [Offboarding.change] at changed
      split at changed
      · rename_i same
        cases changed
        exact ⟨goes.holds.stable same, same⟩
      · cases changed)
    goes (fun _ _ _ => trivial) stepped
  refine ⟨kept, fun ours => ?_, fun theirs => ?_⟩
  · rcases own ours with given | same
    · exact given
    · rw [same]
      exact still _
  · obtain ⟨after, same⟩ := not_forall_not.mp theirs
    exact others after same

theorem goes_run (rounds : Nat) {state final : State} {events : List Event}
    (goes : Goes rounds company state)
    (ran : run (Steps rounds company) state events = some final) :
    Goes rounds company final :=
  run_preserves (Goes rounds company)
    (fun _ _ _ goes stepped => (goes_step rounds goes stepped).1) goes ran

theorem idle_goes (rounds : Nat) {store : Store}
    (clean : Clean company store) : Goes rounds company (idle store) :=
  ⟨clean, fun _ _ _ => nofun⟩

/-- Calls for a tenant that may be cut off anywhere and repeated, beside what
the other tenants do: none changes anything of another tenant, one that comes
to its end leaves the tenant out of the tracking store but for its trash, and
from then on none changes anything. -/
theorem tenant_emptied (rounds : Nat) (company : Company) {store : Store}
    (clean : Clean company store) {events : List Event} {final : State}
    (ran : run (Steps rounds company) (idle store) events = some final) :
    Along (Steps rounds company) (Confined rounds company) (idle store)
        events ∧
      ∀ answer, final.running = .done answer →
        Emptied company final.shared ∧
          ∀ later, Along (Steps rounds company) (Unchanging rounds company)
            final later := by
  refine ⟨?_, fun answer answered => ?_⟩
  · have along : Along (Steps rounds company)
        (fun state _ => Goes rounds company state) (idle store) events :=
      Along.of_invariant
        (fun _ _ _ goes stepped => (goes_step rounds goes stepped).1)
        (idle_goes rounds clean) events
    apply along.mono
    intro state event goes next own stepped
    exact ((goes_step rounds goes stepped).2.1 own).1
  · have goes := goes_run rounds (idle_goes rounds clean) ran
    have emptied : Emptied company final.shared := by
      have safe := goes.safe
      rw [answered] at safe
      exact safe _ goes.holds rfl answer rfl
    refine ⟨emptied, fun later => ?_⟩
    have along : Along (Steps rounds company) (fun state _ =>
        Goes rounds company state ∧ Emptied company state.shared) final
          later := by
      apply Along.of_invariant _ ⟨goes, emptied⟩
      intro state event next ⟨goes, out⟩ stepped
      obtain ⟨kept, own, others⟩ := goes_step rounds goes stepped
      refine ⟨kept, ?_⟩
      by_cases ours : Own event
      · rw [(own ours).2 out]
        exact out
      · exact out.stable (others ours)
    apply along.mono
    intro state event ⟨goes, out⟩ next own stepped
    exact ((goes_step rounds goes stepped).2.1 own).2 out

def acme : Company := Company.uniform 'a' (by decide)

/-- The second experiment is in the tenant's own trash; the third is another's
and matches the pattern of the tenant's names. -/
def suspended : Store where
  experiments := [⟨"1", namePrefix acme ++ ['e'], .active⟩,
    ⟨"2", namePrefix acme ++ ['t'], .deleted⟩,
    ⟨"3", ['t', 'e', 'n', 'a', 'n', 't', 'X'] ++ (namePrefix acme).drop 7,
      .active⟩]
  runs := [⟨"r", "1", .active⟩]
  loggedModels := [⟨"m", "1", .active⟩, ⟨"o", "3", .active⟩]
  registered := [namePrefix acme ++ ['m']]
  objects := [artifactPrefix acme ++ ['k'], stagingArea acme ++ ['u']]
  experimentIds := by decide
  loggedModelIds := by decide

def goesOn (calls : Nat) : List Event :=
  List.replicate calls (.step .succeeds)

/-- The first call is cut off when it has renamed both experiments. -/
theorem tenant_emptied_acme :
    ∃ final, run (Steps 2 acme) (idle suspended)
        ((.start :: goesOn 10 : List Event) ++
          ([.crash, .start] : List Event) ++ goesOn 15) = some final ∧
      final.running.answer? = some ⟨2, 0, 0⟩ ∧
        Emptied acme final.shared := by
  have ran : ((run (Steps 2 acme) (idle suspended)
      ((.start :: goesOn 10 : List Event) ++
        ([.crash, .start] : List Event) ++ goesOn 15)).map
        fun final => final.running.answer?) = some (some ⟨2, 0, 0⟩) := by
    decide +kernel
  obtain ⟨final, reached, answered⟩ := Option.map_eq_some_iff.mp ran
  have clean : Clean acme suspended := by
    unfold Clean Trashed
    decide
  have result := tenant_emptied 2 acme clean reached
  exact ⟨final, reached, answered,
    (result.2 _ (Program.answer?_eq_some answered)).1⟩

end IndustryFlow.Tracking.Offboarding
