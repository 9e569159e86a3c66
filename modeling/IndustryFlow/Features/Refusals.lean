import IndustryFlow.Features.Definitions

/-!
# Definitions that no transform can interpret

A complete reading is not scored with such a definition, unless the kill-switch
fills its slot without looking at it.  It is refused, or something else fails
before it comes to that.
-/

namespace IndustryFlow.FeatureEngine

variable {Value : Type}

/-! ## Definitions -/

namespace Definition

/-- The `stat_type`, if there is one. -/
def statType (definition : Definition) : Json :=
  match definition.params with
  | .obj fields => Json.get fields "stat_type"
  | _ => .null

def operation (definition : Definition) : Json :=
  match definition.params with
  | .obj fields => (fields.lookup "operation").getD (.str "product")
  | _ => .str "product"

/-- The sensors of an interaction. -/
def names (definition : Definition) : List Json :=
  match elements definition.sensors with
  | .ok names => names
  | .error _ => []

/-- The parameters are an object, or are left out. -/
def HasParams (definition : Definition) : Prop :=
  ∃ fields, definition.params = .obj fields

end Definition

def operations : List String :=
  ["ratio", "difference", "product", "sum"]

/-- The types that read one sensor. -/
def singleSensorTypes : List String :=
  ["identity", "polynomial", "deviation", "statistical"]

/-- The transform of its type cannot compute the definition for any reading. -/
inductive Uninterpretable (definition : Definition) : Prop where
  | noSensor {type : String} (is : Json.get definition "type" = .str type)
      (single : type ∈ singleSensorTypes)
      (unnamed : (Json.get definition "sensor").truthy = false)
  | statType (is : Json.get definition "type" = .str "statistical")
      (unknown : knownStat? definition.statType = none)
  | operation (is : Json.get definition "type" = .str "interaction")
      (unknown : ∀ known ∈ operations, definition.operation ≠ .str known)
  | fewSensors (is : Json.get definition "type" = .str "interaction")
      (few : definition.names.length < 2)
  | rollingStat (is : Json.get definition "type" = .str "rolling_stat")

/-- Python can read what the transform of the type looks at. -/
def Readable (definition : Definition) : Prop :=
  match Json.get definition "type" with
  | .str "polynomial" | .str "deviation" => definition.HasParams
  | .str "interaction" => definition.HasParams ∧
      ∃ names, elements definition.sensors = .ok names ∧
        (2 ≤ names.length → ∃ first second : String,
          item definition.sensors 0 = .ok (.str first) ∧
            item definition.sensors 1 = .ok (.str second))
  | .str "statistical" =>
      (Json.get definition "sensor").truthy = true →
        definition.HasParams ∧ hashable definition.statType = true
  | _ => True

/-- Every sensor that the configuration reads has a finite value. -/
def Complete (config : FeatureConfig) (reading : Features.Reading Value) :
    Prop :=
  ∀ required, requiredSensors config = .ok required →
    ∀ sensor ∈ required, carried reading sensor = true

/-- The kill-switch fills the slot. -/
def Neutralized (deployment : Deployment Value) (services : Services Value)
    (definition : Definition) : Prop :=
  services.killSwitch = some false ∧ ∃ registered,
    deployment.getTransform (Json.get definition "type") =
      .ok (some registered) ∧ registered.stateful = true

/-- It raises, not for an aggregate that is not there, and a definition that
can be read is refused. -/
def Refuses (definition : Definition) (answer : Except Raised Value) : Prop :=
  ∃ raised, answer = .error raised ∧
    (∀ reason, raised ≠ .unavailable reason) ∧
    (Readable definition → ∃ refusal, raised = .refused refusal)

/-! ## The transforms -/

section Transforms

variable {python : Python Value} {definition : Definition}
variable {reading : Features.Reading Value} {context : TransformContext Value}

theorem Refuses.of_refusal {answer : Except Raised Value} {refusal : Refusal}
    (refused : answer = .error (.refused refusal)) :
    Refuses definition answer :=
  ⟨_, refused, nofun, fun _ => ⟨refusal, rfl⟩⟩

theorem getOr_params (has : definition.HasParams) (key : String)
    (other : Json) :
    ∃ fields, definition.params = .obj fields ∧
      getOr definition.params key other =
        .ok ((fields.lookup key).getD other) := by
  obtain ⟨fields, is⟩ := has
  exact ⟨fields, is, by rw [is]; rfl⟩

theorem getOr_error {key : String} {other : Json}
    (without : ¬definition.HasParams) :
    getOr definition.params key other = .error (.failed .attributeError) := by
  unfold getOr
  split
  · rename_i fields is
    exact absurd ⟨fields, is⟩ without
  · rfl

theorem namedSensor_refuses
    (unnamed : (Json.get definition "sensor").truthy = false) :
    namedSensor definition =
      .error (invalidFeature definition "it names no sensor") := by
  simp [namedSensor, unnamed]

theorem elements_error {value : Json} {raised : Raised}
    (fails : elements value = .error raised) : raised = .failed .typeError := by
  cases value <;> cases fails <;> rfl

theorem item_error {value : Json} {index : Nat} {raised : Raised}
    (fails : item value index = .error raised) :
    ∃ failure, raised = .failed failure := by
  unfold item at fails
  split at fails
  · cases fails
    exact ⟨.keyError, rfl⟩
  · rcases bind_error_iff.mp fails with listing | ⟨items, -, missing⟩
    · exact ⟨.typeError, elements_error listing⟩
    · split at missing
      · cases missing
      · cases missing
        exact ⟨.keyError, rfl⟩

theorem sensorValue_error {sensor : Json} {raised : Raised}
    (fails : sensorValue reading sensor = .error raised) :
    ∀ reason, raised ≠ .unavailable reason := by
  rintro reason rfl
  unfold sensorValue at fails
  split at fails
  · split at fails
    · cases fails
    · cases fails
  · cases fails

theorem identity_refuses
    (unnamed : (Json.get definition "sensor").truthy = false) :
    Refuses definition (identity definition reading) := by
  apply Refuses.of_refusal
  rw [identity, namedSensor_refuses unnamed]
  rfl

/-- A transform that reads a parameter and then asks for the sensor. -/
theorem param_sensor_refuses {key : String} {other : Json}
    {rest : Json → Json → Except Raised Value}
    (needs : Readable definition → definition.HasParams)
    (unnamed : (Json.get definition "sensor").truthy = false) :
    Refuses definition (do
      let given ← getOr definition.params key other
      let sensor ← namedSensor definition
      rest given sensor) := by
  by_cases has : definition.HasParams
  · apply Refuses.of_refusal
    obtain ⟨fields, -, given⟩ := getOr_params has key other
    rw [given, namedSensor_refuses unnamed]
    rfl
  · refine ⟨.failed .attributeError, ?_, nofun, fun readable => ?_⟩
    · rw [getOr_error has]
      rfl
    · exact absurd (needs readable) has

theorem polynomial_refuses
    (is : Json.get definition "type" = .str "polynomial")
    (unnamed : (Json.get definition "sensor").truthy = false) :
    Refuses definition (polynomial python definition reading) := by
  refine param_sensor_refuses (fun readable => ?_) unnamed
  rw [Readable, is] at readable
  exact readable

theorem deviation_refuses
    (is : Json.get definition "type" = .str "deviation")
    (unnamed : (Json.get definition "sensor").truthy = false) :
    Refuses definition (deviation python definition reading) := by
  refine param_sensor_refuses (fun readable => ?_) unnamed
  rw [Readable, is] at readable
  exact readable

theorem getOr_operation (has : definition.HasParams) :
    getOr definition.params "operation" (.str "product") =
      .ok definition.operation := by
  obtain ⟨fields, is⟩ := has
  rw [Definition.operation, is]
  rfl

/-- The value of a sensor that is named by a string, or a refusal. -/
theorem sensorValue_str (reading : Features.Reading Value)
    (sensor : String) :
    (∃ value, sensorValue reading (.str sensor) = .ok value) ∨
      ∃ refusal, sensorValue reading (.str sensor) =
        .error (.refused refusal) := by
  cases found : reading sensor with
  | none => exact .inr ⟨.missingSensors [sensor], by rw [sensorValue, found]⟩
  | some value => exact .inl ⟨value, by rw [sensorValue, found]⟩

/-- With an operation that is none of the four, the sensors are read and the
definition is refused. -/
theorem interaction_unknown {names : List Json} (has : definition.HasParams)
    (listed : elements definition.sensors = .ok names)
    (many : ¬names.length < 2)
    (unknown : ∀ known ∈ operations, definition.operation ≠ .str known) :
    interaction python definition reading = (do
      let first ← item definition.sensors 0
      let _ ← sensorValue reading first
      let second ← item definition.sensors 1
      let _ ← sensorValue reading second
      .error (invalidFeature definition
        ("unknown interaction operation " ++
          python.repr definition.operation))) := by
  rw [interaction, getOr_operation has, listed]
  simp only [bind, Except.bind, if_neg many]
  cases item definition.sensors 0 with
  | error raised => rfl
  | ok first =>
      dsimp only
      cases sensorValue reading first with
      | error raised => rfl
      | ok a =>
          dsimp only
          cases item definition.sensors 1 with
          | error raised => rfl
          | ok second =>
              dsimp only
              cases sensorValue reading second with
              | error raised => rfl
              | ok b =>
                  dsimp only
                  split
                  · rename_i is
                    exact absurd is (unknown "ratio" (by decide))
                  · rename_i is
                    exact absurd is (unknown "difference" (by decide))
                  · rename_i is
                    exact absurd is (unknown "product" (by decide))
                  · rename_i is
                    exact absurd is (unknown "sum" (by decide))
                  · rfl

/-- A sensor that is read before the definition is refused. -/
theorem Refuses.after_sensor {index : Nat} {rest : Except Raised Value}
    (named : Readable definition → ∃ name : String,
      item definition.sensors index = .ok (.str name))
    (refuses : Refuses definition rest) :
    Refuses definition (do
      let sensor ← item definition.sensors index
      let _ ← sensorValue reading sensor
      rest) := by
  cases found : item definition.sensors index with
  | error raised =>
      obtain ⟨failure, rfl⟩ := item_error found
      refine ⟨.failed failure, rfl, nofun, fun readable => ?_⟩
      obtain ⟨name, is⟩ := named readable
      rw [found] at is
      cases is
  | ok sensor =>
      cases value : sensorValue reading sensor with
      | error raised =>
          refine ⟨raised, ?_, sensorValue_error value, fun readable => ?_⟩
          · simp only [bind, Except.bind, value]
          · obtain ⟨name, is⟩ := named readable
            cases found.symm.trans is
            rcases sensorValue_str reading name with
              ⟨number, answered⟩ | ⟨refusal, answered⟩
            · rw [answered] at value
              cases value
            · rw [answered] at value
              exact ⟨refusal, (Except.error.inj value).symm⟩
      | ok number =>
          simpa only [bind, Except.bind, value] using refuses

theorem interaction_refuses
    (is : Json.get definition "type" = .str "interaction")
    (bad : (∀ known ∈ operations, definition.operation ≠ .str known) ∨
      definition.names.length < 2) :
    Refuses definition (interaction python definition reading) := by
  by_cases has : definition.HasParams
  · cases listed : elements definition.sensors with
    | error raised =>
        have error := elements_error listed
        subst error
        refine ⟨.failed .typeError, ?_, nofun, fun readable => ?_⟩
        · rw [interaction, getOr_operation has, listed]
          rfl
        · rw [Readable, is] at readable
          obtain ⟨-, names, found, -⟩ := readable
          rw [listed] at found
          cases found
    | ok names =>
        have same : definition.names = names := by
          rw [Definition.names, listed]
        by_cases few : names.length < 2
        · apply Refuses.of_refusal
          rw [interaction, getOr_operation has, listed]
          simp only [bind, Except.bind, few, if_true]
          rfl
        · have unknown := bad.resolve_right (by rwa [same])
          have pair (readable : Readable definition) :
              ∃ first second : String,
                item definition.sensors 0 = .ok (.str first) ∧
                  item definition.sensors 1 = .ok (.str second) := by
            rw [Readable, is] at readable
            obtain ⟨-, found, again, both⟩ := readable
            cases listed.symm.trans again
            exact both (by omega)
          rw [interaction_unknown has listed few unknown]
          apply Refuses.after_sensor
          · intro readable
            obtain ⟨first, -, head, -⟩ := pair readable
            exact ⟨first, head⟩
          · apply Refuses.after_sensor
            · intro readable
              obtain ⟨-, second, -, next⟩ := pair readable
              exact ⟨second, next⟩
            · exact Refuses.of_refusal rfl
  · refine ⟨.failed .attributeError, ?_, nofun, fun readable => ?_⟩
    · rw [interaction, getOr_error has]
      rfl
    · rw [Readable, is] at readable
      exact absurd readable.1 has

theorem getOr_statType (has : definition.HasParams) :
    getOr definition.params "stat_type" .null = .ok definition.statType := by
  obtain ⟨fields, is⟩ := has
  rw [Definition.statType, is]
  rfl

theorem statistical_refuses
    (is : Json.get definition "type" = .str "statistical")
    (bad : (Json.get definition "sensor").truthy = false ∨
      knownStat? definition.statType = none) :
    Refuses definition (statistical python definition reading context) := by
  cases named : (Json.get definition "sensor").truthy with
  | false =>
      apply Refuses.of_refusal
      rw [statistical, namedSensor_refuses named]
      rfl
  | true =>
      have unknown := bad.resolve_left (by simp [named])
      have sensor : namedSensor definition =
          .ok (Json.get definition "sensor") := by
        simp [namedSensor, named]
      by_cases has : definition.HasParams
      · rw [statistical, sensor, getOr_statType has]
        cases scalar : hashable definition.statType with
        | false =>
            refine ⟨.failed .typeError, ?_, nofun, fun readable => ?_⟩
            · simp only [bind, Except.bind, scalar, if_true]
              rfl
            · rw [Readable, is] at readable
              have also := (readable named).2
              rw [scalar] at also
              cases also
        | true =>
            apply Refuses.of_refusal
            simp only [bind, Except.bind, scalar, unknown]
            rfl
      · refine ⟨.failed .attributeError, ?_, nofun, fun readable => ?_⟩
        · rw [statistical, sensor, getOr_error has]
          rfl
        · rw [Readable, is] at readable
          exact absurd (readable named).1 has

end Transforms

/-! ## The engine -/

section Engine

variable {deployment : Deployment Value} {services : Services Value}
variable {reading : Features.Reading Value} {definition : Definition}

theorem getTransform_builtin {name : String} {registered : Registered Value}
    (found : (builtins deployment.python).lookup name = some registered) :
    deployment.getTransform (.str name) = .ok (some registered) := by
  rw [Deployment.getTransform, Deployment.transforms, List.lookup_append,
    found]
  rfl

/-- The slot of a definition that is looked at. -/
theorem slot_refuses {registered : Registered Value}
    (found : deployment.getTransform (Json.get definition "type") =
      .ok (some registered))
    (looked : ¬Neutralized deployment services definition)
    (refuses : Refuses definition
      (registered.fn definition reading services.context)) :
    Refuses definition (slot deployment services reading definition) := by
  obtain ⟨raised, answer, settled, refusal⟩ := refuses
  refine ⟨raised, ?_, settled, refusal⟩
  have on : ¬(services.killSwitch = some false ∧
      registered.stateful = true) :=
    fun off => looked ⟨off.1, registered, found, off.2⟩
  rw [slot, found]
  simp only [bind, Except.bind, if_neg on, answer]
  cases raised with
  | refused refusal => rfl
  | unavailable reason => exact absurd rfl (settled reason)
  | failed failure => rfl

/-- A definition that its transform cannot interpret raises in its slot. -/
theorem Uninterpretable.slot_refuses (bad : Uninterpretable definition)
    (looked : ¬Neutralized deployment services definition)
    (reading : Features.Reading Value) :
    Refuses definition (slot deployment services reading definition) := by
  cases bad with
  | @noSensor type is single unnamed =>
      simp only [singleSensorTypes, List.mem_cons, List.not_mem_nil,
        or_false] at single
      rcases single with rfl | rfl | rfl | rfl
      · exact FeatureEngine.slot_refuses
          (by rw [is]; exact getTransform_builtin rfl) looked
          (identity_refuses unnamed)
      · exact FeatureEngine.slot_refuses
          (by rw [is]; exact getTransform_builtin rfl) looked
          (polynomial_refuses is unnamed)
      · exact FeatureEngine.slot_refuses
          (by rw [is]; exact getTransform_builtin rfl) looked
          (deviation_refuses is unnamed)
      · exact FeatureEngine.slot_refuses
          (by rw [is]; exact getTransform_builtin rfl) looked
          (statistical_refuses is (.inl unnamed))
  | statType is unknown =>
      exact FeatureEngine.slot_refuses
        (by rw [is]; exact getTransform_builtin rfl) looked
        (statistical_refuses is (.inr unknown))
  | operation is unknown =>
      exact FeatureEngine.slot_refuses
        (by rw [is]; exact getTransform_builtin rfl) looked
        (interaction_refuses is (.inl unknown))
  | fewSensors is few =>
      exact FeatureEngine.slot_refuses
        (by rw [is]; exact getTransform_builtin rfl) looked
        (interaction_refuses is (.inr few))
  | rollingStat is =>
      exact FeatureEngine.slot_refuses
        (by rw [is]; exact getTransform_builtin rfl) looked
        (Refuses.of_refusal rfl)

/-- The check of the API leaves only types that are registered. -/
theorem knownTransforms_registered {definitions : List Definition}
    (accepted : knownTransforms deployment definitions = .ok ())
    (member : definition ∈ definitions) :
    ∃ registered, deployment.getTransform (Json.get definition "type") =
      .ok (some registered) := by
  induction definitions with
  | nil => cases member
  | cons first definitions induction =>
      have both : knownTransform deployment first >>= (fun _ =>
          knownTransforms deployment definitions) = .ok () := accepted
      obtain ⟨_, head, tail⟩ := bind_ok_iff.mp both
      rcases List.mem_cons.mp member with rfl | later
      · unfold knownTransform at head
        split at head
        · cases head
        · split at head
          · rename_i registered found
            exact ⟨registered, found⟩
          · cases head
          · cases head
        · cases head
      · exact induction tail later

/-- A configuration that the API took is built, where its sensors can be
listed. -/
theorem create_eq {config : FeatureConfig}
    (accepted : knownTransforms deployment config.transformations = .ok ()) :
    create deployment config =
      (requiredSensors config).map fun required => ⟨config, required⟩ := by
  rw [create]
  cases requiredSensors config with
  | error raised => rfl
  | ok required =>
      have found : config.transformations.mapM (readType deployment) =
          .ok (config.transformations.map fun definition =>
            (Json.get definition "type", true)) := by
        refine mapM_ok fun definition member => ?_
        obtain ⟨registered, known⟩ :=
          knownTransforms_registered accepted member
        rw [readType, known]
        rfl
      have none : (config.transformations.map fun definition =>
          (Json.get definition "type", true)).filter
            (fun entry => !entry.2) = [] := by
        simp [List.filter_eq_nil_iff]
      simp only [found, bind, Except.bind, none]
      rfl

/-- With a complete reading, the score is what the slots answer. -/
theorem score_eq {config : FeatureConfig}
    (accepted : knownTransforms deployment config.transformations = .ok ())
    (complete : Complete config reading) :
    score deployment services config reading =
      requiredSensors config >>= fun _ =>
        config.transformations.mapM (slot deployment services reading) := by
  rw [score, create_eq accepted]
  cases listed : requiredSensors config with
  | error raised => rfl
  | ok required =>
      have none : required.filter (fun sensor => !carried reading sensor) =
          [] := by
        refine List.filter_eq_nil_iff.mpr fun sensor member => ?_
        simp [complete required listed sensor member]
      simp only [Except.map, bind, Except.bind, transform, none, if_true]

/-- A complete reading is not scored with a definition that its transform
cannot interpret, unless the switch fills its slot.  What is raised is a
refusal, if nothing else fails before. -/
theorem uninterpretable_not_scored {config : FeatureConfig}
    {before after : List Definition}
    (accepted : knownTransforms deployment config.transformations = .ok ())
    (complete : Complete config reading)
    (split : config.transformations = before ++ definition :: after)
    (bad : Uninterpretable definition)
    (looked : ¬Neutralized deployment services definition) :
    ∃ raised, score deployment services config reading = .error raised ∧
      ((∃ refusal, raised = .refused refusal) ∨
        requiredSensors config = .error raised ∨ ¬Readable definition ∨
        ∃ earlier ∈ before,
          slot deployment services reading earlier = .error raised) := by
  rw [score_eq accepted complete]
  cases listed : requiredSensors config with
  | error raised => exact ⟨raised, rfl, .inr (.inl rfl)⟩
  | ok required =>
      obtain ⟨raised, answer, -, refusal⟩ :=
        bad.slot_refuses looked reading
      obtain ⟨error, mapped, origin⟩ := mapM_error before after answer
      refine ⟨error, ?_, ?_⟩
      · rw [split]
        exact mapped
      · rcases origin with rfl | earlier
        · by_cases readable : Readable definition
          · exact .inl (refusal readable)
          · exact .inr (.inr (.inl readable))
        · exact .inr (.inr (.inr earlier))

end Engine

/-! ## Statistics of a definition that is well formed -/

section Typed

end Typed

/-! ## A slot that is filled without a look -/

def wholeNumbers : Python Int where
  zero := 0
  power _ _ := none
  minus _ _ := none
  ratio _ _ := none
  difference a b := a - b
  product a b := a * b
  sum a b := a + b
  repr _ := ""

def plainDeployment : Deployment Int :=
  ⟨wholeNumbers, []⟩

def rollingDefinition : Definition :=
  [("name", .str "spread"), ("type", .str "rolling_stat"),
    ("sensor", .str "temperature")]

def rollingConfig : FeatureConfig :=
  ⟨["temperature"], [rollingDefinition]⟩

def warmReading : Features.Reading Int := fun _ => some 20

theorem rollingConfig_accepted :
    knownTransforms plainDeployment rollingConfig.transformations = .ok () :=
  rfl

theorem rollingConfig_complete : Complete rollingConfig warmReading := by
  intro required listed sensor member
  have is : required = [.str "temperature", .str "temperature"] :=
    (Except.ok.inj listed).symm
  subst is
  rcases List.mem_pair.mp member with rfl | rfl
  · rfl
  · rfl

/-- With the switch on, the definition is refused. -/
theorem rolling_not_scored :
    ∃ raised, score plainDeployment ⟨⟨none, none, none⟩, some true⟩
      rollingConfig warmReading = .error raised ∧
      ((∃ refusal, raised = .refused refusal) ∨
        requiredSensors rollingConfig = .error raised ∨
        ¬Readable rollingDefinition ∨
        ∃ earlier ∈ [], slot plainDeployment
          ⟨⟨none, none, none⟩, some true⟩ warmReading earlier =
            .error raised) :=
  uninterpretable_not_scored rollingConfig_accepted rollingConfig_complete
    (show rollingConfig.transformations = [] ++ rollingDefinition :: [] from
      rfl) (.rollingStat rfl) fun off => nomatch off.1

/-- With the switch off, it is scored. -/
theorem rolling_neutralized :
    ¬∀ (deployment : Deployment Int) (services : Services Int)
      (config : FeatureConfig) (reading : Features.Reading Int),
      knownTransforms deployment config.transformations = .ok () →
      Complete config reading →
      (∃ definition ∈ config.transformations, Uninterpretable definition) →
      ∃ refusal, score deployment services config reading =
        .error (.refused refusal) := by
  intro always
  obtain ⟨refusal, refused⟩ := always plainDeployment
    ⟨⟨none, none, none⟩, some false⟩ rollingConfig warmReading
    rollingConfig_accepted rollingConfig_complete
    ⟨rollingDefinition, List.mem_cons_self, .rollingStat rfl⟩
  have scored : score plainDeployment ⟨⟨none, none, none⟩, some false⟩
      rollingConfig warmReading = .ok [0] := rfl
  rw [scored] at refused
  cases refused

end IndustryFlow.FeatureEngine
