import IndustryFlow.Features.Definitions
import IndustryFlow.JsonValue

/-!
# The vector that a model is given

`transform` with what it reports: the slots that hold a neutral value, because
of the kill-switch or because an aggregate was not there, and the transforms it
called.  A transform is any function of the definition, the reading and the
context.
-/

namespace IndustryFlow.FeatureVector

open FeatureEngine (Definition FeatureConfig Raised Services TransformContext
  elements hashable requiredSensors sensorsOf)
open Features (inOrder)

variable {Value : Type}

/-- The reading of a request. -/
abbrev SensorData : Type :=
  List (String × JsonValue)

/-- A registered transform with its tags. -/
structure Registered (Value : Type) where
  fn : Definition → SensorData → TransformContext Value →
    Except Raised Value
  stateful : Bool
  neutral : Value

structure Registry (Value : Type) where
  transforms : List (String × Registered Value)
  repr : Json → String

/-- `get_transform`. -/
def Registry.getTransform (registry : Registry Value) :
    Json → Except Raised (Option (Registered Value))
  | .str name => .ok (registry.transforms.lookup name)
  | other =>
      if hashable other then .ok none else .error (.failed .typeError)

structure Engine where
  transformations : List Definition
  required : List Json
  neutralizedFeatures : List Json
  unavailableFeatures : List Json

/-- `transformation["name"]`. -/
def featureName (definition : Definition) : Except Raised Json :=
  match definition.lookup "name" with
  | some name => .ok name
  | none => .error (.failed .keyError)

section Engine

variable (registry : Registry Value)

/-- The type of a transformation, and whether it is registered. -/
def readType (definition : Definition) : Except Raised (Json × Bool) := do
  let registered ← registry.getTransform (Json.get definition "type")
  pure (Json.get definition "type", registered.isSome)

/-- The constructor. -/
def create (config : FeatureConfig) : Except Raised Engine := do
  let _ ← config.transformations.mapM featureName
  let required ← requiredSensors config
  let found ← config.transformations.mapM (readType registry)
  let unknown := (found.filter fun entry => !entry.2).map fun entry =>
    entry.1.pyStr registry.repr
  if unknown ≠ [] then
    throw (.refused (.unknownTransform (inOrder unknown)))
  pure ⟨config.transformations, required, [], []⟩

/-- What the loop over the transformations has gathered. -/
structure Slots (Value : Type) where
  features : List Value
  neutralized : List Json
  unavailable : List Json
  called : List Definition

variable (services : Services Value) (data : SensorData)

/-- One round of the loop, and what it raises. -/
def fillSlot (slots : Slots Value) (definition : Definition) :
    Slots Value × Option Raised :=
  match registry.getTransform (Json.get definition "type") with
  | .error raised => (slots, some raised)
  | .ok none => (slots, some (.failed .typeError))
  | .ok (some registered) =>
      if services.killSwitch = some false ∧ registered.stateful = true then
        ({ slots with
            features := slots.features ++ [registered.neutral]
            neutralized := slots.neutralized ++
              [Json.get definition "name"] }, none)
      else
        let slots := { slots with called := slots.called ++ [definition] }
        match registered.fn definition data services.context with
        | .ok value =>
            ({ slots with features := slots.features ++ [value] }, none)
        | .error (.unavailable reason) =>
            if registered.stateful then
              ({ slots with
                  features := slots.features ++ [registered.neutral]
                  unavailable := slots.unavailable ++
                    [Json.get definition "name"] }, none)
            else (slots, some (.unavailable reason))
        | .error raised => (slots, some raised)

def fillSlots (slots : Slots Value) :
    List Definition → Slots Value × Option Raised
  | [] => (slots, none)
  | definition :: definitions =>
      match fillSlot registry services data slots definition with
      | (slots, none) => fillSlots slots definitions
      | stopped => stopped

/-- `sensor_data.get(sensor)`. -/
def valueOf (data : SensorData) : Json → JsonValue
  | .str sensor => JsonValue.get data sensor
  | _ => .null

structure Outcome (Value : Type) where
  answer : Except Raised (List Value)
  engine : Engine
  called : List Definition

/-- `transform`. -/
def transform (engine : Engine) : Outcome Value :=
  match JsonValue.missingSensors (valueOf data) engine.required with
  | .error .overflow => ⟨.error (.failed .arithmetic), engine, []⟩
  | .ok (sensor :: missing) =>
      ⟨FeatureEngine.missingSensors (sensor :: missing), engine, []⟩
  | .ok [] =>
      match fillSlots registry services data ⟨[], [], [], []⟩
          engine.transformations with
      | (slots, some raised) => ⟨.error raised, engine, slots.called⟩
      | (slots, none) =>
          ⟨.ok slots.features,
            { engine with
              neutralizedFeatures := slots.neutralized
              unavailableFeatures := slots.unavailable },
            slots.called⟩

/-- An engine is built for one reading. -/
def inputFeatures (config : FeatureConfig) :
    Except Raised (Outcome Value) := do
  let engine ← create registry config
  pure (transform registry services data engine)

end Engine

/-! ## Configurations of named, registered transforms -/

/-- A sensor that is named by a text. -/
def named? : Json → Option String
  | .str text => if text = "" then none else some text
  | _ => none

/-- The sensors that a transformation names. -/
def sensorNames (definition : Definition) : List String :=
  (named? (Json.get definition "sensor")).toList ++
    match Json.get definition "sensors" with
    | .arr items => items.filterMap named?
    | _ => []

/-- Every sensor that the configuration names. -/
def sensorsRead (config : FeatureConfig) : List String :=
  config.baseSensors ++ config.transformations.flatMap sensorNames

/-- Those without a finite number. -/
def absent (config : FeatureConfig) (data : SensorData) : List String :=
  (sensorsRead config).filter fun sensor =>
    !decide (JsonValue.get data sensor).IsFinite

section Slots

variable (registry : Registry Value) (services : Services Value)
variable (data : SensorData) (definition : Definition)

def registered? : Option (Registered Value) :=
  match Json.get definition "type" with
  | .str name => registry.transforms.lookup name
  | _ => none

/-- A name, a registered type, and sensors that are named by strings. -/
structure WellFormed : Prop where
  name : ∃ text, definition.lookup "name" = some (.str text)
  type : ∃ registered, registered? registry definition = some registered
  sensor : Json.get definition "sensor" = .null ∨
    ∃ text, Json.get definition "sensor" = .str text
  sensors : Json.get definition "sensors" = .null ∨
    ∃ texts : List String,
      Json.get definition "sensors" = .arr (texts.map .str)

def stateful : Bool :=
  match registered? registry definition with
  | some registered => registered.stateful
  | none => false

/-- The switch is off and the type is stateful. -/
def switchedOff : Bool :=
  decide (services.killSwitch = some false) && stateful registry definition

/-- The transform is called and says that its aggregate is not there. -/
def unavailable : Bool :=
  !switchedOff registry services definition &&
    match registered? registry definition with
    | some registered =>
        match registered.fn definition data services.context with
        | .error (.unavailable _) => true
        | _ => false
    | none => false

/-- What stands in the slot of a transformation. -/
inductive Filled : Value → Prop where
  | computed {registered : Registered Value} {value : Value}
      (found : registered? registry definition = some registered)
      (on : switchedOff registry services definition = false)
      (answer : registered.fn definition data services.context = .ok value) :
      Filled value
  | switchedOff {registered : Registered Value}
      (found : registered? registry definition = some registered)
      (stateful : registered.stateful = true)
      (off : FeatureVector.switchedOff registry services definition = true) :
      Filled registered.neutral
  | unavailable {registered : Registered Value}
      (found : registered? registry definition = some registered)
      (stateful : registered.stateful = true)
      (out : FeatureVector.unavailable registry services data definition =
        true) :
      Filled registered.neutral

end Slots

section Reported

variable (registry : Registry Value) (services : Services Value)
variable (config : FeatureConfig) (data : SensorData)

/-- The outcome says what stands in the vector, and what was called. -/
structure Reported (outcome : Outcome Value) : Prop where
  filled : ∀ vector, outcome.answer = .ok vector →
    List.Forall₂ (fun definition value =>
      Filled registry services data definition value)
        config.transformations vector ∧
      outcome.engine.neutralizedFeatures =
        (config.transformations.filter (switchedOff registry services)).map
          (Json.get · "name") ∧
      outcome.engine.unavailableFeatures =
        (config.transformations.filter
          (unavailable registry services data)).map (Json.get · "name")
  refused : absent config data ≠ [] →
    outcome.answer = .error (.refused
      (.missingSensors (absent config data).eraseDups)) ∧
      outcome.called = []
  spared : services.killSwitch = some false →
    ∀ definition ∈ outcome.called, stateful registry definition = false

end Reported

/-! ## What the constructor reads -/

section Create

theorem named?_truthy (text : String) :
    (Json.str text).truthy = decide (text ≠ "") := rfl

theorem filterMap_named? (texts : List String) :
    (texts.map Json.str).filterMap named? =
      texts.filter fun text => decide (text ≠ "") := by
  induction texts with
  | nil => rfl
  | cons text texts induction =>
      rw [List.map_cons, List.filterMap_cons, induction]
      by_cases empty : text = ""
      · simp [named?, empty]
      · simp [named?, empty]

theorem filter_truthy (texts : List String) :
    (texts.map Json.str).filter Json.truthy =
      (texts.filter fun text => decide (text ≠ "")).map Json.str := by
  rw [List.filter_map]
  rfl

variable {registry : Registry Value} {definition : Definition}

theorem elements_wellFormed (formed : WellFormed registry definition) :
    ∃ texts : List String,
      elements definition.sensors = .ok (texts.map .str) ∧
        (match Json.get definition "sensors" with
          | .arr items => items.filterMap named?
          | _ => []) = texts.filter fun text => decide (text ≠ "") := by
  unfold Definition.sensors
  rcases formed.sensors with none | ⟨texts, listed⟩
  · rw [none]
    exact ⟨[], rfl, rfl⟩
  · rw [listed]
    refine ⟨texts, ?_, filterMap_named? texts⟩
    cases texts with
    | nil => rfl
    | cons text texts => rfl

theorem sensorsOf_wellFormed (formed : WellFormed registry definition) :
    sensorsOf definition = .ok ((sensorNames definition).map .str) := by
  obtain ⟨texts, listed, named⟩ := elements_wellFormed formed
  rw [sensorsOf, listed, sensorNames, named]
  simp only [bind, Except.bind, pure, Except.pure, filter_truthy,
    List.map_append]
  rcases formed.sensor with none | ⟨text, is⟩
  · rw [none]
    rfl
  · rw [is, named?_truthy]
    by_cases empty : text = ""
    · simp [named?, empty]
    · simp [named?, empty]

theorem requiredSensors_wellFormed {config : FeatureConfig}
    (formed : ∀ definition ∈ config.transformations,
      WellFormed registry definition) :
    requiredSensors config = .ok ((sensorsRead config).map .str) := by
  have named : config.transformations.mapM sensorsOf =
      .ok (config.transformations.map fun definition =>
        (sensorNames definition).map .str) :=
    mapM_ok fun definition member =>
      sensorsOf_wellFormed (formed definition member)
  have together : config.baseSensors.map Json.str ++
      (config.transformations.map fun definition =>
        (sensorNames definition).map Json.str).flatten =
      (sensorsRead config).map Json.str := by
    rw [sensorsRead, List.map_append, List.map_flatMap, List.flatMap]
  have scalar : ((sensorsRead config).map Json.str).all hashable = true := by
    rw [List.all_map]
    exact List.all_eq_true.mpr fun sensor _ => rfl
  rw [requiredSensors, named]
  simp only [bind, Except.bind, together, scalar]
  rfl

theorem getTransform_wellFormed (formed : WellFormed registry definition) :
    ∃ registered, registered? registry definition = some registered ∧
      registry.getTransform (Json.get definition "type") =
        .ok (some registered) := by
  obtain ⟨registered, found⟩ := formed.type
  refine ⟨registered, found, ?_⟩
  unfold registered? at found
  split at found
  · rename_i name is
    rw [is, Registry.getTransform, found]
  · cases found

/-- The constructor accepts such a configuration. -/
theorem create_wellFormed {config : FeatureConfig}
    (formed : ∀ definition ∈ config.transformations,
      WellFormed registry definition) :
    create registry config = .ok
      ⟨config.transformations, (sensorsRead config).map .str, [], []⟩ := by
  have names : config.transformations.mapM featureName =
      .ok (config.transformations.map (Json.get · "name")) := by
    refine mapM_ok fun definition member => ?_
    obtain ⟨text, is⟩ := (formed definition member).name
    rw [featureName, Json.get, is]
    rfl
  have types : config.transformations.mapM (readType registry) =
      .ok (config.transformations.map fun definition =>
        (Json.get definition "type", true)) := by
    refine mapM_ok fun definition member => ?_
    obtain ⟨registered, -, got⟩ :=
      getTransform_wellFormed (formed definition member)
    rw [readType, got]
    rfl
  have none : (config.transformations.map fun definition =>
      (Json.get definition "type", true)).filter (fun entry => !entry.2) =
        [] := by
    rw [List.filter_map]
    simp
  rw [create, names, requiredSensors_wellFormed formed, types]
  simp only [bind, Except.bind, none]
  rfl

end Create

/-! ## The loop -/

section Loop

variable {registry : Registry Value} {services : Services Value}
variable {data : SensorData} {definition : Definition}

/-- What a round that does not raise adds. -/
theorem fillSlot_filled {slots next : Slots Value}
    (formed : WellFormed registry definition)
    (filled : fillSlot registry services data slots definition =
      (next, none)) :
    ∃ value, Filled registry services data definition value ∧
      next.features = slots.features ++ [value] ∧
      next.neutralized = slots.neutralized ++
        ([definition].filter (switchedOff registry services)).map
          (Json.get · "name") ∧
      next.unavailable = slots.unavailable ++
        ([definition].filter (unavailable registry services data)).map
          (Json.get · "name") := by
  obtain ⟨registered, found, got⟩ := getTransform_wellFormed formed
  have tag : stateful registry definition = registered.stateful := by
    rw [stateful, found]
  simp only [fillSlot, got] at filled
  by_cases off : services.killSwitch = some false ∧ registered.stateful = true
  · rw [if_pos off] at filled
    cases filled
    have switched : switchedOff registry services definition = true := by
      simp [switchedOff, tag, off.1, off.2]
    refine ⟨_, .switchedOff found off.2 switched, rfl, ?_, ?_⟩
    · simp [switched]
    · simp [unavailable, switched]
  · rw [if_neg off] at filled
    have switched : switchedOff registry services definition = false := by
      rw [switchedOff, tag, Bool.and_eq_false_iff, decide_eq_false_iff_not,
        ← Bool.not_eq_true]
      exact not_and_or.mp off
    cases called : registered.fn definition data services.context with
    | ok value =>
        rw [called] at filled
        cases filled
        refine ⟨value, .computed found switched called, rfl, ?_, ?_⟩
        · simp [switched]
        · simp [unavailable, found, called]
    | error raised =>
        rw [called] at filled
        cases raised with
        | refused refusal => cases filled
        | failed failure => cases filled
        | unavailable reason =>
            have out : unavailable registry services data definition =
                true := by
              simp [unavailable, switched, found, called]
            by_cases held : registered.stateful = true
            · simp only [held, if_true] at filled
              cases filled
              refine ⟨_, .unavailable found held out, rfl, ?_, ?_⟩
              · simp [switched]
              · simp [out]
            · simp only [held] at filled
              cases filled

/-- A round calls nothing that the switch is to spare. -/
theorem fillSlot_called {slots : Slots Value}
    (off : services.killSwitch = some false) :
    ∀ called ∈ (fillSlot registry services data slots definition).1.called,
      called ∈ slots.called ∨ stateful registry called = false := by
  intro called member
  unfold fillSlot at member
  split at member
  · exact .inl member
  · exact .inl member
  · rename_i registered got
    by_cases held : registered.stateful = true
    · rw [if_pos ⟨off, held⟩] at member
      exact .inl member
    · have spared : stateful registry definition = false := by
        unfold stateful registered?
        unfold Registry.getTransform at got
        split at got
        · rw [Except.ok.inj got]
          exact Bool.eq_false_iff.mpr held
        · split at got
          · cases got
          · cases got
      rw [if_neg fun both => held both.2] at member
      have among : called ∈ slots.called ++ [definition] := by
        dsimp only at member
        split at member
        · exact member
        · split at member
          · exact member
          · exact member
        · exact member
      rcases List.mem_append.mp among with before | own
      · exact .inl before
      · cases List.mem_singleton.mp own
        exact .inr spared

theorem fillSlots_filled {definitions : List Definition}
    {slots final : Slots Value}
    (formed : ∀ definition ∈ definitions, WellFormed registry definition)
    (filled : fillSlots registry services data slots definitions =
      (final, none)) :
    ∃ values, List.Forall₂ (fun definition value =>
        Filled registry services data definition value) definitions values ∧
      final.features = slots.features ++ values ∧
      final.neutralized = slots.neutralized ++
        (definitions.filter (switchedOff registry services)).map
          (Json.get · "name") ∧
      final.unavailable = slots.unavailable ++
        (definitions.filter (unavailable registry services data)).map
          (Json.get · "name") := by
  induction definitions generalizing slots with
  | nil =>
      cases filled
      exact ⟨[], .nil, by simp, by simp, by simp⟩
  | cons definition definitions induction =>
      obtain ⟨first, others⟩ := List.forall_mem_cons.mp formed
      unfold fillSlots at filled
      split at filled
      · rename_i next round
        obtain ⟨value, fills, features, neutralized, out⟩ :=
          fillSlot_filled first round
        obtain ⟨values, rest, listed, more, others⟩ :=
          induction others filled
        refine ⟨value :: values, .cons fills rest, ?_, ?_, ?_⟩
        · rw [listed, features, List.append_assoc, List.singleton_append]
        · rw [more, neutralized, List.append_assoc, ← List.map_append,
            ← List.filter_append, List.singleton_append]
        · rw [others, out, List.append_assoc, ← List.map_append,
            ← List.filter_append, List.singleton_append]
      · rename_i stopped
        exact absurd filled (stopped final)

theorem fillSlots_called {definitions : List Definition}
    (off : services.killSwitch = some false) {slots : Slots Value} :
    ∀ called ∈
        (fillSlots registry services data slots definitions).1.called,
      called ∈ slots.called ∨ stateful registry called = false := by
  induction definitions generalizing slots with
  | nil => exact fun called member => .inl member
  | cons definition definitions induction =>
      intro called member
      have round : ∀ called ∈ (fillSlot registry services data slots
          definition).1.called,
          called ∈ slots.called ∨ stateful registry called = false :=
        fillSlot_called off
      unfold fillSlots at member
      split at member
      · rename_i next is
        rw [is] at round
        rcases induction called member with before | spared
        · exact round called before
        · exact .inr spared
      · exact round called member

end Loop

/-! ## One inference -/

section Inference

variable {registry : Registry Value} {config : FeatureConfig}
variable {data : SensorData}

/-- No integer of the reading is past the doubles. -/
def InRange (data : SensorData) : Prop :=
  ∀ field ∈ data, ¬field.2.Overflows

theorem InRange.get (ranged : InRange data) (sensor : String) :
    ¬(JsonValue.get data sensor).Overflows := by
  intro large
  unfold JsonValue.get at large
  cases found : data.lookup sensor with
  | none =>
      rw [found] at large
      exact large
  | some value =>
      rw [found] at large
      obtain ⟨before, after, rfl, -⟩ := List.lookup_eq_some_iff.mp found
      exact ranged (sensor, value) (by simp) large

theorem missing_eq (ranged : InRange data) :
    JsonValue.missingSensors (valueOf data)
      ((sensorsRead config).map .str) =
        .ok ((absent config data).map .str) := by
  rw [JsonValue.missingSensors_ok, List.filter_map]
  · rfl
  · intro sensor member
    obtain ⟨name, -, rfl⟩ := List.mem_map.mp member
    exact ranged.get name

theorem mapM_texts {action : Json → Except Raised String}
    (reads : ∀ text, action (.str text) = .ok text) (texts : List String) :
    (texts.map Json.str).mapM action = .ok texts := by
  rw [List.mapM_map]
  exact (mapM_ok fun text _ => reads text).trans
    (congrArg Except.ok (List.map_id texts))

theorem missingSensors_texts {Answer : Type} (sensors : List String) :
    (FeatureEngine.missingSensors (sensors.map .str) : Except Raised Answer) =
      .error (.refused (.missingSensors sensors.eraseDups)) := by
  rw [FeatureEngine.missingSensors, mapM_texts fun _ => rfl]
  rfl

/-- What comes out of `transform` says what stands in each slot; a reading
that lacks a sensor is refused with all that it lacks, before any call. -/
theorem inputFeatures_reported (services : Services Value)
    (formed : ∀ definition ∈ config.transformations,
      WellFormed registry definition)
    (ranged : InRange data) :
    ∃ outcome, inputFeatures registry services data config = .ok outcome ∧
      Reported registry services config data outcome := by
  refine ⟨_, by rw [inputFeatures, create_wellFormed formed]; rfl, ?_⟩
  rw [transform, missing_eq ranged]
  cases lacks : absent config data with
  | cons sensor missing =>
      refine ⟨fun vector answered => ?_, fun _ => ?_, fun _ => nofun⟩
      · have refused := @missingSensors_texts (List Value)
          (sensor :: missing)
        cases refused.symm.trans answered
      · rw [lacks]
        exact ⟨missingSensors_texts (sensor :: missing), rfl⟩
  | nil =>
      dsimp only [List.map_nil]
      cases ran : fillSlots registry services data ⟨[], [], [], []⟩
          config.transformations with
      | mk slots stopped =>
          have called (off : services.killSwitch = some false) :
              ∀ definition ∈ slots.called,
                stateful registry definition = false := by
            intro definition member
            have spared : definition ∈ [] ∨
                stateful registry definition = false :=
              fillSlots_called off definition (by rw [ran]; exact member)
            exact spared.resolve_left List.not_mem_nil
          cases stopped with
          | some raised =>
              exact ⟨nofun, fun none => absurd lacks none, called⟩
          | none =>
              obtain ⟨values, filled, features, neutralized, out⟩ :=
                fillSlots_filled formed ran
              refine ⟨fun vector answered => ?_,
                fun none => absurd lacks none, called⟩
              cases answered
              exact ⟨features ▸ filled, neutralized, out⟩

end Inference

/-! ## The engine without its reports -/

section Engine

variable (number : UInt64 → Value)

variable {number} {deployment : FeatureEngine.Deployment Value}
variable {services : Services Value} {data : SensorData}

variable (number deployment services data)

variable {number deployment services data}

end Engine

/-! ## A vector with a neutral slot -/

/-- One transform that reads the temperature, and one whose aggregate is not
there. -/
def sampleRegistry : Registry Int where
  transforms :=
    [("whole", ⟨fun _ data _ =>
      match JsonValue.get data "temperature" with
      | .int number => .ok number
      | _ => .error (.refused (.missingSensors ["temperature"])),
      false, 0⟩),
    ("mean", ⟨fun _ _ _ => .error (.unavailable "no baseline source"),
      true, -1⟩)]
  repr _ := ""

def wholeDefinition : Definition :=
  [("name", .str "now"), ("type", .str "whole"),
    ("sensor", .str "temperature")]

def meanDefinition : Definition :=
  [("name", .str "usual"), ("type", .str "mean"),
    ("sensors", .arr [.str "temperature"])]

def sampleConfig : FeatureConfig :=
  ⟨["temperature"], [meanDefinition, wholeDefinition]⟩

def noServices : Services Int :=
  ⟨⟨none, none, none⟩, none⟩

theorem inputFeatures_reported_sample :
    ∃ outcome, inputFeatures sampleRegistry noServices
        [("temperature", .int 20)] sampleConfig = .ok outcome ∧
      Reported sampleRegistry noServices sampleConfig
        [("temperature", .int 20)] outcome := by
  apply inputFeatures_reported
  · intro definition member
    rcases List.mem_pair.mp member with rfl | rfl
    · exact ⟨⟨_, rfl⟩, ⟨_, rfl⟩, .inl rfl, .inr ⟨["temperature"], rfl⟩⟩
    · exact ⟨⟨_, rfl⟩, ⟨_, rfl⟩, .inr ⟨_, rfl⟩, .inl rfl⟩
  · intro field member large
    cases List.mem_singleton.mp member
    exact absurd large (by decide)

example : (inputFeatures sampleRegistry noServices
    [("temperature", .int 20)] sampleConfig).toOption.map
      (fun outcome => outcome.answer.toOption) = some (some [-1, 20]) := rfl

end IndustryFlow.FeatureVector
