import IndustryFlow.Models.Registry
import Mathlib.Data.List.Induction
import Mathlib.Data.List.Nodup

/-!
# What the deployment gate protects

A deployment puts a model in a serving path only past every check of the gate.
A registration writes the status its request carries, and that may be a served
one.  So the models that are served are those the gate let through exactly
when every registration that asks for a served status is refused.
-/

namespace IndustryFlow.Models

/-! ## Past the gate -/

structure Admitted (deployment : Deployment) (world : World)
    (address : Address) : Prop where
  accepted : checkAddress deployment address = none
  owned : ∀ runId, given? address.runId = some runId →
    world.runOwned runId = some true

/-- The checks of a deployment, for the record of a model. -/
structure Passed (deployment : Deployment) (world : World) (model : Model) :
    Prop where
  address : Admitted deployment world model.address
  detector : ∃ name, given? model.detector = some name ∧
    ∃ detector ∈ world.detectors, detector.name = name
  no_author_code : world.authorCode model.address = some none
  compatible : ∃ compatibility, world.compatibility model.address =
    some compatibility ∧ compatibility.servable = true
  probed : provenanceOf model.address = .uploaded →
    (world.probe (model.address.artifactUri.getD "")).ok = true

theorem admitted_of_ok {deployment : Deployment} {world : World}
    {address : Address} {onRefused : Nat}
    (admits : admitAddressOrRefuse deployment world address onRefused =
      .ok ()) :
    Admitted deployment world address := by
  unfold admitAddressOrRefuse at admits
  split at admits
  · cases admits
  · rename_i accepted
    refine ⟨accepted, ?_⟩
    intro runId given
    rw [given] at admits
    simp only at admits
    split at admits
    · cases admits
    · cases admits
    · assumption

/-- An address without a run and without an artifact is not accepted. -/
theorem addressed_of_accepted {deployment : Deployment} {address : Address}
    (accepted : checkAddress deployment address = none) :
    ¬(given? address.runId = none ∧ given? address.artifactUri = none) := by
  rintro ⟨no_run, no_artifact⟩
  simp [checkAddress, no_run, no_artifact, admittedArtifactRefusal]
    at accepted

theorem compatible_of_ok {deployment : Deployment} {world : World}
    {address : Address} {onIncompatible : Nat}
    {verdict : Option Compatibility}
    (accepted : checkAddress deployment address = none)
    (evaluated : evaluateOrReject world address onIncompatible =
      .ok verdict) :
    ∃ compatibility, world.compatibility address = some compatibility ∧
      compatibility.servable = true := by
  unfold evaluateOrReject at evaluated
  rw [if_neg (addressed_of_accepted accepted)] at evaluated
  split at evaluated
  · cases evaluated
  · rename_i compatibility judged
    refine ⟨compatibility, judged, ?_⟩
    by_cases servable : compatibility.servable = true
    · exact servable
    · rw [if_neg servable] at evaluated
      cases evaluated

theorem detector_of_ok {world : World} {model : Model}
    (loaded : detectorOrRefuse world model = .ok ()) :
    ∃ name, given? model.detector = some name ∧
      ∃ detector ∈ world.detectors, detector.name = name := by
  unfold detectorOrRefuse at loaded
  split at loaded
  · cases loaded
  · rename_i name named
    by_cases found : ∃ detector ∈ world.detectors, detector.name = name
    · exact ⟨name, named, found⟩
    · rw [if_neg found] at loaded
      cases loaded

theorem author_code_of_ok {world : World} {address : Address}
    {onRefused : Nat}
    (refused : refuseAuthorCodeOrReject world address onRefused = .ok ()) :
    world.authorCode address = some none := by
  unfold refuseAuthorCodeOrReject at refused
  split at refused
  · cases refused
  · cases refused
  · assumption

theorem probed_of_ok {world : World} {model : Model}
    (scored : loadAndScore world model = .ok ())
    (uploaded : provenanceOf model.address = .uploaded) :
    (world.probe (model.address.artifactUri.getD "")).ok = true := by
  unfold loadAndScore at scored
  rw [uploaded] at scored
  simp only at scored
  split at scored
  · assumption
  · cases scored

theorem passed_of_gate {deployment : Deployment} {world : World}
    {model : Model} {verdict : Option Compatibility}
    (gate : deploymentGate deployment world model = .ok verdict) :
    Passed deployment world model := by
  simp only [deploymentGate, bind_ok_iff] at gate
  obtain ⟨_, admits, _, loaded, _, refused, compatibility, evaluated, _,
    scored, _⟩ := gate
  have address := admitted_of_ok admits
  exact {
    address
    detector := detector_of_ok loaded
    no_author_code := author_code_of_ok refused
    compatible := compatible_of_ok address.accepted evaluated
    probed := probed_of_ok scored }

/-! ## The rows -/

namespace Db

variable {db : Db} {modelId : String} {change : Model → Model}

theorem mem_update {model : Model} :
    model ∈ (db.update modelId change).models ↔
      ∃ old ∈ db.models,
        (if old.modelId = modelId then change old else old) = model := by
  simp [update]

/-- The models have ids of their own. -/
def Keyed (db : Db) : Prop :=
  (db.models.map Model.modelId).Nodup

theorem model?_eq_some {model : Model} (found : db.model? modelId =
      some model) :
    model ∈ db.models ∧ model.modelId = modelId := by
  refine ⟨List.mem_of_find?_eq_some found, ?_⟩
  simpa using List.find?_some found

/-- A row with the id is the one that is found. -/
theorem Keyed.eq_of_found {model old : Model} (keyed : db.Keyed)
    (found : db.model? modelId = some model) (member : old ∈ db.models)
    (same : old.modelId = modelId) : old = model := by
  obtain ⟨inside, named⟩ := model?_eq_some found
  exact List.inj_on_of_nodup_map keyed member inside (same.trans named.symm)

theorem Keyed.update (keyed : db.Keyed)
    (keeps : ∀ model, (change model).modelId = model.modelId) :
    (db.update modelId change).Keyed := by
  have same : ((db.update modelId change).models.map Model.modelId) =
      db.models.map Model.modelId := by
    simp only [Db.update, List.map_map]
    apply List.map_congr_left
    intro model _
    by_cases named : model.modelId = modelId <;>
      simp [named, keeps]
  rw [Keyed, same]
  exact keyed

end Db

/-! ## Registrations -/

/-- The request carries a status that is served. -/
def ModelCreateRequest.AsksServed (request : ModelCreateRequest) : Prop :=
  ∃ status, Status.ofText? request.status = some status ∧ status.Served

/-- The row an insert adds. -/
theorem inserted_row {world : World} {db next : Db}
    {request : ModelCreateRequest} {detector : String}
    {sensorIds : Option (List String)} {verdict : Option Compatibility}
    (inserted : insert db world request detector sensorIds verdict =
      .ok next) :
    ∃ row : Model, next.models = db.models ++ [row] ∧
      Status.ofText? request.status = some row.status ∧
      row.origin = .registration ∧
      ∀ model ∈ db.models, model.modelId ≠ row.modelId := by
  unfold insert at inserted
  split at inserted
  · cases inserted
  · rename_i status asked
    split at inserted
    · cases inserted
    · split at inserted
      · rename_i fresh
        cases inserted
        refine ⟨_, rfl, asked, rfl, ?_⟩
        intro model member
        exact (fresh model member).1
      · cases inserted

/-- A registration that is accepted ends in its insert. -/
theorem registered_row {deployment : Deployment} {world : World}
    {db next : Db} {request : ModelCreateRequest}
    (accepted : registerModel deployment world db request = .ok next) :
    ∃ row : Model, next.models = db.models ++ [row] ∧
      Status.ofText? request.status = some row.status ∧
      row.origin = .registration ∧
      ∀ model ∈ db.models, model.modelId ≠ row.modelId := by
  obtain ⟨judged, _, inserted⟩ := bind_ok_iff.mp accepted
  exact inserted_row inserted

/-- A registration with a status that the column takes is accepted when it
passes its checks and the insert goes through. -/
theorem registers {deployment : Deployment} {world : World} {db : Db}
    {request : ModelCreateRequest} {status : Status}
    (asked : Status.ofText? request.status = some status)
    (passes : (registrationGate deployment world db request).isOk = true)
    (inserts : world.insertFails = false) (fresh : db.Fresh world request) :
    ∃ next, registerModel deployment world db request = .ok next := by
  obtain ⟨judged, done⟩ := exists_ok passes
  simp only [registerModel, bind_ok_iff, done, Except.ok.injEq,
    exists_eq_left', insert, asked, inserts, fresh, if_true,
    Bool.false_eq_true, if_false]
  exact ⟨_, rfl⟩

/-- And only then. -/
theorem registration_passes {deployment : Deployment} {world : World}
    {db next : Db} {request : ModelCreateRequest}
    (accepted : registerModel deployment world db request = .ok next) :
    (registrationGate deployment world db request).isOk = true ∧
      world.insertFails = false ∧ db.Fresh world request := by
  obtain ⟨judged, done, inserted⟩ := bind_ok_iff.mp accepted
  rw [done]
  refine ⟨rfl, ?_⟩
  unfold insert at inserted
  split at inserted
  · cases inserted
  · split at inserted
    · cases inserted
    · rename_i inserts
      split at inserted
      · rename_i fresh
        exact ⟨Bool.eq_false_iff.mpr inserts, fresh⟩
      · cases inserted

theorem promotion_not_served {promotion : Promotion}
    {request : ModelCreateRequest}
    (promoted : promotion.request = .ok request) : ¬request.AsksServed := by
  have training : request.status = "training" := by
    unfold Promotion.request at promoted
    split at promoted
    · cases promoted
    · split at promoted
      · cases promoted
      · cases promoted
        rfl
  rintro ⟨status, asked, served⟩
  rw [training] at asked
  cases asked
  exact absurd served (by decide)

/-! ## Runs -/

/-- The model got its status from a deployment among the requests, past every
check of the gate. -/
structure GatedBy (deployment : Deployment) (requests : List (World × Request))
    (model : Model) (world : World) : Prop where
  origin : model.origin = .deployment world
  requested : (world, .deploy model.modelId model.status.text) ∈ requests
  passed : Passed deployment world model

/-- The models that are served after the requests have passed the gate. -/
def Gated (deployment : Deployment) (requests : List (World × Request))
    (db : Db) : Prop :=
  ∀ model ∈ db.models, model.status.Served →
    ∃ world, GatedBy deployment requests model world

/-- The request is a registration that asks for a served status and passes
the checks of a registration. -/
def Slips (deployment : Deployment) (db : Db) (step : World × Request) :
    Prop :=
  ∃ request, step.2 = .register request ∧ request.AsksServed ∧
    (registrationGate deployment step.1 db request).isOk = true ∧
    step.1.insertFails = false ∧ db.Fresh step.1 request

section Steps

variable {deployment : Deployment} {requests : List (World × Request)}
  {db : Db} {world : World}

theorem GatedBy.mono {model : Model} {step : World × Request}
    (gated : GatedBy deployment requests model world) :
    GatedBy deployment (requests ++ [step]) model world :=
  { gated with requested := List.mem_append_left _ gated.requested }

theorem Gated.mono (gated : Gated deployment requests db)
    (step : World × Request) : Gated deployment (requests ++ [step]) db := by
  intro model member served
  obtain ⟨world, passed⟩ := gated model member served
  exact ⟨world, passed.mono⟩

theorem validStatus?_text {environment : String} {status : Status}
    (valid : validStatus? environment = some status) :
    status.text = environment := by
  simpa using List.find?_some valid

/-- The other rows, and what a refused deployment leaves, are as gated as
before. -/
theorem Gated.update {step : World × Request} {modelId : String}
    {change : Model → Model} (gated : Gated deployment requests db)
    (changed : ∀ old ∈ db.models, old.modelId = modelId →
      (change old).status.Served →
        ∃ world, GatedBy deployment (requests ++ [step]) (change old)
          world) :
    Gated deployment (requests ++ [step]) (db.update modelId change) := by
  intro model member served
  obtain ⟨old, inside, rfl⟩ := Db.mem_update.mp member
  by_cases named : old.modelId = modelId
  · rw [if_pos named] at served ⊢
    exact changed old inside named served
  · rw [if_neg named] at served ⊢
    exact gated.mono step old inside served

theorem registered_gated {request : ModelCreateRequest}
    {step : World × Request} (keyed : db.Keyed)
    (gated : Gated deployment requests db)
    (sound : request.AsksServed →
      ¬∃ next, registerModel deployment world db request = .ok next) :
    (registered deployment world db request).2.Keyed ∧
      Gated deployment (requests ++ [step])
        (registered deployment world db request).2 := by
  unfold registered
  cases accepted : registerModel deployment world db request with
  | error refusal => exact ⟨keyed, gated.mono step⟩
  | ok next =>
      obtain ⟨row, inserted, asked, _, fresh⟩ := registered_row accepted
      constructor
      · rw [Db.Keyed, inserted, List.map_append, List.nodup_append]
        refine ⟨keyed, by simp, ?_⟩
        intro modelId member other single same
        obtain ⟨model, inside, rfl⟩ := List.mem_map.mp member
        rw [List.map_singleton, List.mem_singleton] at single
        exact fresh model inside (same.trans single)
      · intro model member served
        rw [inserted] at member
        rcases List.mem_append.mp member with old | new
        · exact gated.mono step model old served
        · rw [List.mem_singleton] at new
          subst new
          exact absurd ⟨next, accepted⟩ (sound ⟨model.status, asked, served⟩)

theorem deployed_gated {modelId environment : String} (keyed : db.Keyed)
    (gated : Gated deployment requests db) :
    (deployModel deployment world db modelId environment).2.Keyed ∧
      Gated deployment (requests ++ [(world, .deploy modelId environment)])
        (deployModel deployment world db modelId environment).2 := by
  unfold deployModel
  split
  · exact ⟨keyed, gated.mono _⟩
  · rename_i status valid
    split
    · exact ⟨keyed, gated.mono _⟩
    · rename_i model found
      split
      · split
        · refine ⟨keyed.update fun _ => rfl, gated.update ?_⟩
          -- Only the verdict is recorded: the row stays as gated as it was.
          intro old inside _ served
          obtain ⟨earlier, by_⟩ := gated old inside served
          exact ⟨earlier, by_.origin, List.mem_append_left _ by_.requested,
            ⟨by_.passed.address, by_.passed.detector,
              by_.passed.no_author_code, by_.passed.compatible,
              by_.passed.probed⟩⟩
        · rename_i verdict gate
          refine ⟨keyed.update fun _ => rfl, gated.update ?_⟩
          intro old inside named _
          have same : old = model := keyed.eq_of_found found inside named
          have passed := passed_of_gate gate
          rw [← same] at passed
          refine ⟨world, rfl, ?_, ⟨passed.address, passed.detector,
            passed.no_author_code, passed.compatible, passed.probed⟩⟩
          apply List.mem_append_right
          rw [List.mem_singleton, validStatus?_text valid]
          simp only [named]
      · rename_i unserved
        refine ⟨keyed.update fun _ => rfl, gated.update ?_⟩
        intro old inside _ served
        exact absurd served unserved

theorem deprecated_not_served : ¬Status.deprecated.Served := by
  decide

theorem deleted_gated {modelId : String} {step : World × Request}
    (keyed : db.Keyed) (gated : Gated deployment requests db) :
    (deleteModel db modelId).2.Keyed ∧
      Gated deployment (requests ++ [step]) (deleteModel db modelId).2 := by
  unfold deleteModel
  split
  · exact ⟨keyed, gated.mono _⟩
  · refine ⟨keyed.update fun _ => rfl, gated.update ?_⟩
    intro old _ _ served
    exact absurd served deprecated_not_served

/-- A step that does not slip keeps what is served behind the gate. -/
theorem serve_gated (step : World × Request) (keyed : db.Keyed)
    (gated : Gated deployment requests db)
    (sound : ¬Slips deployment db step) :
    (serve deployment step.1 db step.2).2.Keyed ∧
      Gated deployment (requests ++ [step])
        (serve deployment step.1 db step.2).2 := by
  obtain ⟨world, request⟩ := step
  cases request with
  | register request =>
      apply registered_gated keyed gated
      rintro asks ⟨next, accepted⟩
      exact sound ⟨request, rfl, asks, registration_passes accepted⟩
  | promote promotion =>
      simp only [serve]
      split
      · exact ⟨keyed, gated.mono _⟩
      · rename_i request promoted
        apply registered_gated keyed gated
        intro asks
        exact absurd asks (promotion_not_served promoted)
  | deploy modelId environment => exact deployed_gated keyed gated
  | delete modelId => exact deleted_gated keyed gated

/-- A slip puts a model in a serving path that no deployment let through. -/
theorem slip_not_gated {step : World × Request}
    (slips : Slips deployment db step) :
    ¬Gated deployment requests (serve deployment step.1 db step.2).2 := by
  obtain ⟨world, request⟩ := step
  obtain ⟨request, rfl, ⟨status, asked, served⟩, passes, inserts, fresh⟩ :=
    slips
  intro gated
  obtain ⟨next, done⟩ := registers asked passes inserts fresh
  obtain ⟨row, inserted, carries, registration, _⟩ := registered_row done
  have same : status = row.status := Option.some.inj (asked.symm.trans carries)
  have after_ : (serve deployment world db (.register request)).2 = next := by
    simp only [serve, registered, done]
  rw [after_] at gated
  have member : row ∈ next.models := by
    rw [inserted]
    exact List.mem_append_right _ List.mem_cons_self
  obtain ⟨deployed, passed⟩ := gated row member (same ▸ served)
  have origin := passed.origin
  rw [registration] at origin
  cases origin

theorem after_append (first second : List (World × Request)) :
    after deployment db (first ++ second) =
      after deployment (after deployment db first) second :=
  List.foldl_append

theorem after_gated {featureConfigs : List (String × List String)}
    (requests : List (World × Request))
    (sound : ∀ before step later, requests = before ++ step :: later →
      ¬Slips deployment (after deployment ⟨featureConfigs, []⟩ before)
        step) :
    (after deployment ⟨featureConfigs, []⟩ requests).Keyed ∧
      Gated deployment requests
        (after deployment ⟨featureConfigs, []⟩ requests) := by
  induction requests using List.reverseRecOn with
  | nil =>
      constructor
      · exact List.nodup_nil
      · intro model member
        cases member
  | append_singleton requests step induction =>
      have earlier := induction (by
        intro before other later split
        apply sound before other (later ++ [step])
        rw [split, List.append_assoc]
        rfl)
      rw [after_append]
      exact serve_gated step earlier.1 earlier.2 (sound requests step [] rfl)

end Steps

/-- Every model that is served got its status from a deployment past the gate,
in every state the requests reach, exactly when every registration among them
that asks for a served status is refused. -/
theorem served_only_gated (deployment : Deployment)
    (featureConfigs : List (String × List String))
    (requests : List (World × Request)) :
    (∀ before, before <+: requests →
      Gated deployment before
        (after deployment ⟨featureConfigs, []⟩ before)) ↔
      ∀ before step later, requests = before ++ step :: later →
        ¬Slips deployment (after deployment ⟨featureConfigs, []⟩ before)
          step := by
  constructor
  · intro gated before step later split slips
    have reached := gated (before ++ [step]) ⟨later, by
      rw [split, List.append_assoc]
      rfl⟩
    rw [after_append] at reached
    exact slip_not_gated slips reached
  · rintro sound before ⟨rest, rfl⟩
    refine (after_gated before ?_).2
    intro earlier step later split
    apply sound earlier step (later ++ rest)
    rw [split, List.append_assoc]
    rfl

/-- A deployment that admits uploads into a bucket. -/
def oneDeployment : Deployment where
  bucket := "artifacts"
  artifactPrefix := some "company_acme/"
  semantics := ["anomaly_score"]

/-- A run of the tenant that the registration accepts and that does not load
in the serving process. -/
def kernelRun : World where
  runOwned := fun _ => some true
  authorCode := fun _ => some none
  compatibility := fun _ => some ⟨.compatible, [], some "sklearn"⟩
  detectors := [⟨"sklearn", none, []⟩]
  sensorIds := fun _ _ => none
  plan := fun _ => some ⟨none⟩
  load := fun _ => .failed "ValueError"
  probe := fun _ => ⟨false, "load", "ValueError"⟩
  insertFails := false
  newId := "m1"

/-- The registration of a run, as a model that is in production. -/
def registerAsProduction : ModelCreateRequest where
  modelName := "bearing"
  modelVersion := 1
  mlflowRunId := some "0123456789abcdef"
  artifactUri := none
  scoreSemantics := none
  detector := none
  status := "production"
  featureConfigId := none
  equipmentId := none
  sensorIds := none

/-- The run could not be deployed, and it is served as soon as it is
registered. -/
theorem production_without_a_gate :
    (serve oneDeployment kernelRun
        (after oneDeployment ⟨[], []⟩
          [(kernelRun, .register registerAsProduction)])
        (.deploy "m1" "production")).1 = .error .doesNotLoad ∧
      ¬Gated oneDeployment [(kernelRun, .register registerAsProduction)]
        (after oneDeployment ⟨[], []⟩
          [(kernelRun, .register registerAsProduction)]) := by
  constructor
  · rfl
  · intro gated
    obtain ⟨world, passed⟩ := gated _ List.mem_cons_self (.inl rfl)
    have origin := passed.origin
    cases origin

end IndustryFlow.Models
