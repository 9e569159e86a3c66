import IndustryFlow.Features.Vector

/-!
# Slots at a time

The vector of a reading, slot by slot, under services that change: what the
aggregates and the kill-switch answer is a function of the time.
-/

namespace IndustryFlow.FeatureVector

open FeatureEngine (Definition FeatureConfig Provider Raised Services
  TransformContext)

variable {Time Value : Type}

/-- What the aggregates and the kill-switch answer at each time. -/
structure History (Time Value : Type) where
  baselineProvider : Time → Option (Provider Value)
  killSwitch : Time → Option Bool

def History.servicesAt (history : History Time Value) (time : Time)
    (equipmentId companyId : Option String) : Services Value :=
  ⟨⟨history.baselineProvider time, equipmentId, companyId⟩,
    history.killSwitch time⟩

section Slot

variable (registry : Registry Value) (services : Services Value)
variable (data : SensorData)

/-- The value of one slot. -/
def slotValue (definition : Definition) : Except Raised Value :=
  match registry.getTransform (Json.get definition "type") with
  | .error raised => .error raised
  | .ok none => .error (.failed .typeError)
  | .ok (some registered) =>
      if services.killSwitch = some false ∧ registered.stateful = true then
        .ok registered.neutral
      else
        match registered.fn definition data services.context with
        | .error (.unavailable reason) =>
            if registered.stateful then .ok registered.neutral
            else .error (.unavailable reason)
        | result => result

/-- The slot holds a neutral value. -/
def Neutralized (definition : Definition) : Prop :=
  switchedOff registry services definition = true ∨
    unavailable registry services data definition = true

/-- The vector that the engine answers. -/
def vectorOf (config : FeatureConfig) : Except Raised (List Value) := do
  let outcome ← inputFeatures registry services data config
  outcome.answer

variable {registry services data}

theorem fillSlot_slotValue (slots : Slots Value) (definition : Definition) :
    match slotValue registry services data definition with
    | .ok value => ∃ next, fillSlot registry services data slots definition =
        (next, none) ∧ next.features = slots.features ++ [value]
    | .error raised => ∃ next, fillSlot registry services data slots
        definition = (next, some raised) := by
  unfold slotValue fillSlot
  cases registry.getTransform (Json.get definition "type") with
  | error raised => exact ⟨_, rfl⟩
  | ok found =>
      cases found with
      | none => exact ⟨_, rfl⟩
      | some registered =>
          dsimp only
          by_cases off : services.killSwitch = some false ∧
              registered.stateful = true
          · rw [if_pos off, if_pos off]
            exact ⟨_, rfl, rfl⟩
          · rw [if_neg off, if_neg off]
            cases registered.fn definition data services.context with
            | ok value => exact ⟨_, rfl, rfl⟩
            | error raised =>
                cases raised with
                | refused refusal => exact ⟨_, rfl⟩
                | failed failure => exact ⟨_, rfl⟩
                | unavailable reason =>
                    dsimp only
                    cases registered.stateful with
                    | true => exact ⟨_, rfl, rfl⟩
                    | false => exact ⟨_, rfl⟩

theorem fillSlots_slotValues (slots : Slots Value)
    (definitions : List Definition) :
    match definitions.mapM (slotValue registry services data) with
    | .ok values => ∃ final, fillSlots registry services data slots
        definitions = (final, none) ∧
          final.features = slots.features ++ values
    | .error raised => ∃ final, fillSlots registry services data slots
        definitions = (final, some raised) := by
  induction definitions generalizing slots with
  | nil => exact ⟨slots, rfl, (List.append_nil _).symm⟩
  | cons definition definitions induction =>
      have round := @fillSlot_slotValue _ registry services data slots
        definition
      rw [List.mapM_cons]
      unfold fillSlots
      cases first : slotValue registry services data definition with
      | error raised =>
          rw [first] at round
          obtain ⟨next, is⟩ := round
          rw [is]
          exact ⟨next, rfl⟩
      | ok value =>
          rw [first] at round
          obtain ⟨next, is, features⟩ := round
          have rest := induction next
          rw [is]
          simp only [bind, Except.bind]
          cases others : definitions.mapM
              (slotValue registry services data) with
          | error raised =>
              rw [others] at rest
              exact rest
          | ok values =>
              rw [others] at rest
              obtain ⟨final, ran, listed⟩ := rest
              refine ⟨final, ran, ?_⟩
              rw [listed, features, List.append_assoc, List.singleton_append]

/-- The engine answers the values of the slots, of a reading that carries
what is required. -/
theorem transform_ok_iff {engine : Engine} {vector : List Value} :
    (transform registry services data engine).answer = .ok vector ↔
      (∀ sensor ∈ engine.required,
        (valueOf data sensor).isfinite = .ok true) ∧
        engine.transformations.mapM (slotValue registry services data) =
          .ok vector := by
  rw [← JsonValue.missingSensors_nil_iff, transform]
  cases JsonValue.missingSensors (valueOf data) engine.required with
  | error large =>
      cases large
      refine iff_of_false (fun answered => ?_) fun both => ?_
      · cases answered
      · cases both.1
  | ok missing =>
      cases missing with
      | cons sensor missing =>
          refine iff_of_false (fun answered => ?_) fun both => ?_
          · unfold FeatureEngine.missingSensors at answered
            obtain ⟨names, -, refused⟩ := bind_ok_iff.mp answered
            cases refused
          · cases both.1
      | nil =>
          have slots := @fillSlots_slotValues _ registry services data
            ⟨[], [], [], []⟩ engine.transformations
          dsimp only
          cases filled : engine.transformations.mapM
              (slotValue registry services data) with
          | error raised =>
              rw [filled] at slots
              obtain ⟨final, ran⟩ := slots
              rw [ran]
              refine iff_of_false (fun answered => ?_) fun both => ?_
              · cases answered
              · cases both.2
          | ok values =>
              rw [filled] at slots
              obtain ⟨final, ran, features⟩ := slots
              rw [ran]
              simp only [features, List.nil_append, true_and]

theorem vectorOf_ok_iff {config : FeatureConfig} {vector : List Value} :
    vectorOf registry services data config = .ok vector ↔
      ∃ engine, create registry config = .ok engine ∧
        (transform registry services data engine).answer = .ok vector := by
  rw [vectorOf, bind_ok_iff]
  constructor
  · rintro ⟨outcome, given, answered⟩
    obtain ⟨engine, created, is⟩ := bind_ok_iff.mp given
    cases is
    exact ⟨engine, created, answered⟩
  · rintro ⟨engine, created, answered⟩
    refine ⟨_, ?_, answered⟩
    rw [inputFeatures, created]
    rfl

theorem create_transformations {config : FeatureConfig} {engine : Engine}
    (created : create registry config = .ok engine) :
    engine.transformations = config.transformations := by
  obtain ⟨names, -, rest⟩ := bind_ok_iff.mp created
  obtain ⟨required, -, rest⟩ := bind_ok_iff.mp rest
  obtain ⟨found, -, rest⟩ := bind_ok_iff.mp rest
  obtain ⟨-, is⟩ := check_ok_iff.mp rest
  cases is
  rfl

end Slot

/-! ## Two times -/

section Same

variable {registry : Registry Value} {now old : Services Value}
variable {row data : SensorData} {config : FeatureConfig}

/-- Where a reading gives the finite numbers of a row, it has the row's vector
exactly if it has its slots. -/
theorem vectorOf_same_iff {vector : List Value}
    (given : ∀ sensor, (valueOf row sensor).isfinite = .ok true →
      valueOf data sensor = valueOf row sensor)
    (made : vectorOf registry now row config = .ok vector) :
    vectorOf registry old data config = .ok vector ↔
      ∀ definition ∈ config.transformations,
        slotValue registry old data definition =
          slotValue registry now row definition := by
  obtain ⟨engine, created, answered⟩ := vectorOf_ok_iff.mp made
  obtain ⟨carried, filled⟩ := transform_ok_iff.mp answered
  have same := create_transformations created
  rw [← same, ← mapM_same_iff filled, vectorOf_ok_iff]
  constructor
  · rintro ⟨other, again, answered⟩
    cases created.symm.trans again
    exact (transform_ok_iff.mp answered).2
  · intro filled
    refine ⟨engine, created, transform_ok_iff.mpr ⟨?_, filled⟩⟩
    intro sensor member
    rw [given sensor (carried sensor member)]
    exact carried sensor member

end Same

end IndustryFlow.FeatureVector
