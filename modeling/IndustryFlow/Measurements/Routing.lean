import IndustryFlow.Measurements.Totality
import IndustryFlow.Upsert

/-!
# How a micro-batch is routed

`process_batch` with the lookup, the dead-letter topic and the upsert that are
injected into it, each of which may raise.  What it leaves is the sequence of
the calls that it made.  The readings of a batch that returns are dealt out:
each is in a dead letter or in an upsert, as often as it is in the batch, and
in the upsert of its own tenant only.  An upsert is never called before the
dead letters of the batch are published.
-/

namespace IndustryFlow.Measurements.Routing

/-- Why a call raised. -/
inductive Failure where
  | exception (raised : Raised)
  /-- The database or the broker does not answer. -/
  | unavailable
deriving DecidableEq

/-- What the lookup returns: `tenant_refusal`, `known_sensors` and
`known_equipment`. -/
structure Answer where
  tenantRefusal : String → Option (Option Reason)
  knownSensors : String → Option (List String)
  knownEquipment : String → Option (List String)

/-- What is injected.  An upsert is called once for a company. -/
structure Environment where
  lookup : List Key → Except Failure Answer
  deadLetter : List (Reading × Reason) → Option Failure
  upsert : String → List Measurement → Option Failure

/-- A call of what is injected, with what it is given. -/
inductive Call where
  | deadLetter (rows : List (Reading × Reason))
  | upsert (schema : String) (rows : List Measurement)

/-- The calls of one batch with what each raised, and how the batch ended. -/
structure Outcome where
  calls : List (Call × Option Failure)
  raised : Option Failure

/-- The loop body of `classify_references`. -/
def classifyKey (runtime : Runtime) (answer : Answer) (key : Key) :
    Except Raised (Option Reason) :=
  match (answer.tenantRefusal key.companyId).getD (some .unknownTenant) with
  | some reason => pure (some reason)
  | none => do
      let sensorId ← canonicalUuid runtime.otherInt key.sensorId
      if sensorId ∉ (answer.knownSensors key.companyId).getD [] then
        pure (some .unknownSensor)
      else do
        let equipmentId ← canonicalUuid runtime.otherInt key.equipmentId
        if equipmentId ∉ (answer.knownEquipment key.companyId).getD [] then
          pure (some .unknownEquipment)
        else pure none

/-- `classify_references`. -/
def classifyReferences (runtime : Runtime) (answer : Answer) :
    List Key → Except Raised (List (Key × Reason))
  | [] => pure []
  | key :: keys => do
      let reason ← classifyKey runtime answer key
      let rest ← classifyReferences runtime answer keys
      match reason with
      | some reason => pure ((key, reason) :: rest)
      | none => pure rest

/-- `classify_references(keys, *lookup(keys)) if keys else []`. -/
def refusedKeys (runtime : Runtime) (environment : Environment)
    (keys : List Key) : Except Failure (List (Key × Reason)) :=
  if keys.isEmpty then pure []
  else do
    let answer ← environment.lookup keys
    (classifyReferences runtime answer keys).mapError .exception

/-- The left join of the rows with the refused keys. -/
def leftJoin (refused : List (Key × Reason)) (rows : List Measurement) :
    List (Measurement × Option Reason) :=
  rows.flatMap fun row =>
    match refused.filter (·.1 = row.key) with
    | [] => [(row, none)]
    | found => found.map fun entry => (row, some entry.2)

/-- The reading that a row was parsed from. -/
def reading (row : Measurement) : Reading where
  source := row.source
  time := some row.time
  sensorId := some row.sensorId
  equipmentId := some row.equipmentId
  siteId := some row.siteId
  companyId := some row.companyId
  value := some row.value
  unit := row.unit
  qualityCode := row.qualityCode

/-- The loop over the tenants. -/
def upsertTenants (runtime : Runtime) (environment : Environment)
    (rows : List Measurement) : List String → Outcome
  | [] => ⟨[], none⟩
  | company :: companies =>
      match schemaName runtime.otherInt company with
      | .error raised => ⟨[], some (.exception raised)⟩
      | .ok schema =>
          let own := rows.filter (·.companyId = company)
          let call := Call.upsert schema own
          match environment.upsert company own with
          | some failure => ⟨[(call, some failure)], some failure⟩
          | none =>
              let rest := upsertTenants runtime environment rows companies
              ⟨(call, none) :: rest.calls, rest.raised⟩

/-- The companies that are written, in order. -/
def companies (keys : List Key) (refused : List (Key × Reason)) :
    List String :=
  let refusedTenants := (refused.filter fun entry =>
    entry.2 = .unknownTenant ∨ entry.2 = .suspendedTenant).map
      fun entry => entry.1.companyId
  ((keys.map Key.companyId).eraseDups.filter
    (· ∉ refusedTenants)).insertionSort (· ≤ ·)

/-- The readings that the guard rejected. -/
def rejectedReadings (runtime : Runtime) (batch : List Reading) :
    List (Reading × Reason) :=
  batch.filterMap fun reading =>
    (rejectionReason runtime reading).map fun reason => (reading, reason)

/-- The rejected readings and the rows that are left, after the join. -/
def deal (rejected : List (Reading × Reason)) (valid : List Measurement)
    (refused : List (Key × Reason)) :
    List (Reading × Reason) × List Measurement :=
  if refused.isEmpty then (rejected, valid)
  else
    let tagged := leftJoin refused valid
    (rejected ++ tagged.filterMap fun row =>
        row.2.map fun reason => (reading row.1, reason),
      tagged.filterMap fun row => if row.2.isNone then some row.1 else none)

/-- The batch once its refused keys are known. -/
def dealt (runtime : Runtime) (batch : List Reading)
    (refused : List (Key × Reason)) :
    List (Reading × Reason) × List Measurement :=
  deal (rejectedReadings runtime batch) (validRows runtime batch) refused

/-- The writes of the batch. -/
def written (runtime : Runtime) (environment : Environment)
    (batch : List Reading) (refused : List (Key × Reason)) : Outcome :=
  upsertTenants runtime environment (dealt runtime batch refused).2
    (companies (keysOf (validRows runtime batch)) refused)

/-- `process_batch`. -/
def processBatch (runtime : Runtime) (environment : Environment)
    (batch : List Reading) : Outcome :=
  match refusedKeys runtime environment
      (keysOf (validRows runtime batch)) with
  | .error failure => ⟨[], some failure⟩
  | .ok refused =>
      let letters := (dealt runtime batch refused).1
      let written := written runtime environment batch refused
      if letters.isEmpty then written
      else
        match environment.deadLetter letters with
        | some failure => ⟨[(.deadLetter letters, some failure)], some failure⟩
        | none => ⟨(.deadLetter letters, none) :: written.calls,
            written.raised⟩

/-! ## The lookup -/

/-- What `lookup_references` returns, as three maps. -/
def Answer.ofReferences (references : List (String × References)) :
    Answer where
  tenantRefusal company :=
    (references.lookup company).map References.refusal
  knownSensors company :=
    (references.lookup company).map References.knownSensors
  knownEquipment company :=
    (references.lookup company).map References.knownEquipment

/-- The lookup of the environment reads a database. -/
def Environment.ReadsFrom (runtime : Runtime) (database : Database)
    (environment : Environment) : Prop :=
  ∀ keys answer, environment.lookup keys = .ok answer →
    ∃ references, lookupReferences runtime database keys = .ok references ∧
      answer = .ofReferences references

/-! ## What the calls carry -/

def Call.letters : Call → List (Reading × Reason)
  | .deadLetter rows => rows
  | .upsert _ _ => []

def Call.deadLettered (call : Call) : List Reading :=
  call.letters.map Prod.fst

def Call.upserted : Call → List Reading
  | .deadLetter _ => []
  | .upsert _ rows => rows.map reading

/-- The readings given to the dead-letter topic. -/
def Outcome.deadLettered (outcome : Outcome) : List Reading :=
  outcome.calls.flatMap fun call => call.1.deadLettered

/-- The readings given to an upsert. -/
def Outcome.upserted (outcome : Outcome) : List Reading :=
  outcome.calls.flatMap fun call => call.1.upserted

/-- A row is in the schema of its own company, the company may be written,
and its sensor and equipment are known there. -/
structure AtHome (runtime : Runtime) (answer : Answer) (schema : String)
    (row : Measurement) : Prop where
  own : schemaName runtime.otherInt row.companyId = .ok schema
  active : answer.tenantRefusal row.companyId = some none
  sensor : ∃ sensorId sensors,
    canonicalUuid runtime.otherInt row.sensorId = .ok sensorId ∧
      answer.knownSensors row.companyId = some sensors ∧
      sensorId ∈ sensors
  equipment : ∃ equipmentId equipment,
    canonicalUuid runtime.otherInt row.equipmentId = .ok equipmentId ∧
      answer.knownEquipment row.companyId = some equipment ∧
      equipmentId ∈ equipment

/-- A row is in the schema of its own company, the registry holds the company
as active, and its sensor and equipment are in the tenant's tables. -/
structure InPlace (runtime : Runtime) (database : Database)
    (schema : String) (row : Measurement) : Prop where
  own : schemaName runtime.otherInt row.companyId = .ok schema
  registered : database.registry schema = some true
  sensor : ∃ sensorId,
    canonicalUuid runtime.otherInt row.sensorId = .ok sensorId ∧
      database.hasSensor schema sensorId = true
  equipment : ∃ equipmentId,
    canonicalUuid runtime.otherInt row.equipmentId = .ok equipmentId ∧
      database.hasEquipment schema equipmentId = true

/-- The guard rejects the reading, or the answer of the lookup refuses it. -/
def Rejected (runtime : Runtime) (environment : Environment)
    (batch : List Reading) (reading : Reading) : Prop :=
  rejectionReason runtime reading ≠ none ∨
    ∃ answer row reason,
      environment.lookup (keysOf (validRows runtime batch)) = .ok answer ∧
        passing runtime reading = some row ∧
        classifyKey runtime answer row.key = .ok (some reason)

/-- How the calls of a batch treat its readings. -/
structure Routed (runtime : Runtime) (environment : Environment)
    (batch : List Reading) (outcome : Outcome) : Prop where
  /-- Each reading is given once for each time that it is in the batch. -/
  dealt : outcome.raised = none →
    (outcome.deadLettered ++ outcome.upserted).Perm batch
  exclusive : ∀ reading ∈ outcome.deadLettered, reading ∉ outcome.upserted
  home : ∀ schema rows result,
    (Call.upsert schema rows, result) ∈ outcome.calls → ∀ row ∈ rows,
      ∃ answer,
        environment.lookup (keysOf (validRows runtime batch)) = .ok answer ∧
          AtHome runtime answer schema row
  /-- An upsert comes after the dead letters. -/
  lettersFirst : ∀ before schema rows result after,
    outcome.calls = before ++ (Call.upsert schema rows, result) :: after →
      ∀ reading ∈ batch, Rejected runtime environment batch reading →
        ∃ letters, (Call.deadLetter letters, none) ∈ before ∧
          reading ∈ letters.map Prod.fst

/-! ## Readings and rows -/

theorem reading_of_passing {runtime : Runtime} {parsed : Reading}
    {row : Measurement} (passes : passing runtime parsed = some row) :
    reading row = parsed := by
  unfold passing at passes
  split at passes
  · obtain ⟨source, time, sensorId, equipmentId, siteId, companyId, value,
      unit, qualityCode⟩ := parsed
    simp only [Reading.measurement?, Option.bind_eq_bind,
      Option.bind_eq_some_iff, Option.pure_def, Option.some.injEq] at passes
    obtain ⟨_, rfl, _, rfl, _, rfl, _, rfl, _, rfl, _, rfl, rfl⟩ := passes
    rfl
  · cases passes

theorem reading_injective {row other : Measurement}
    (same : reading row = reading other) : row = other := by
  cases row
  cases other
  simpa [reading] using same

/-- A reading passes the guard or has a reason. -/
theorem passing_or_rejected (runtime : Runtime) (parsed : Reading) :
    (∃ row, passing runtime parsed = some row ∧
        rejectionReason runtime parsed = none) ∨
      ∃ reason, passing runtime parsed = none ∧
        rejectionReason runtime parsed = some reason := by
  cases rejected : rejectionReason runtime parsed with
  | some reason => exact .inr ⟨reason, by simp [passing, rejected], rfl⟩
  | none =>
      left
      simp only [passing, rejected, if_true, and_true]
      cases found : parsed.measurement? with
      | some row => exact ⟨row, rfl⟩
      | none => simp [rejectionReason, found] at rejected

/-- The guard splits the batch. -/
theorem guard_perm (runtime : Runtime) (batch : List Reading) :
    ((rejectedReadings runtime batch).map Prod.fst ++
      (validRows runtime batch).map reading).Perm batch := by
  induction batch with
  | nil => exact .nil
  | cons parsed batch induction =>
      rcases passing_or_rejected runtime parsed with
        ⟨row, passes, accepted⟩ | ⟨reason, stopped, rejected⟩
      · have same := reading_of_passing passes
        simp only [rejectedReadings, validRows, List.filterMap_cons, passes,
          accepted, Option.map_none, List.map_cons, same]
        exact List.perm_middle.trans (induction.cons parsed)
      · simp only [rejectedReadings, validRows, List.filterMap_cons, stopped,
          rejected, Option.map_some, List.map_cons, List.cons_append]
        exact induction.cons parsed

/-! ## The refused keys -/

theorem classifyReferences_mem_iff {runtime : Runtime} {answer : Answer}
    {keys : List Key} {refused : List (Key × Reason)}
    (classified : classifyReferences runtime answer keys = .ok refused)
    {key : Key} {reason : Reason} :
    (key, reason) ∈ refused ↔
      key ∈ keys ∧ classifyKey runtime answer key = .ok (some reason) := by
  induction keys generalizing refused with
  | nil =>
      cases classified
      simp
  | cons first keys induction =>
      obtain ⟨decision, decided, later⟩ := bind_ok_iff.mp classified
      obtain ⟨rest, done, last⟩ := bind_ok_iff.mp later
      cases decision with
      | none =>
          cases last
          rw [induction done, List.mem_cons]
          constructor
          · exact fun ⟨member, holds⟩ => ⟨.inr member, holds⟩
          · rintro ⟨rfl | member, holds⟩
            · rw [decided] at holds
              cases holds
            · exact ⟨member, holds⟩
      | some found =>
          cases last
          rw [List.mem_cons, induction done, List.mem_cons, Prod.mk.injEq]
          constructor
          · rintro (⟨rfl, rfl⟩ | ⟨member, holds⟩)
            · exact ⟨.inl rfl, decided⟩
            · exact ⟨.inr member, holds⟩
          · rintro ⟨rfl | member, holds⟩
            · rw [decided] at holds
              cases holds
              exact .inl ⟨rfl, rfl⟩
            · exact .inr ⟨member, holds⟩

/-- Every key was classified. -/
theorem classifyReferences_decided {runtime : Runtime} {answer : Answer}
    {keys : List Key} {refused : List (Key × Reason)}
    (classified : classifyReferences runtime answer keys = .ok refused)
    {key : Key} (member : key ∈ keys) :
    ∃ decision, classifyKey runtime answer key = .ok decision := by
  induction keys generalizing refused with
  | nil => cases member
  | cons first keys induction =>
      obtain ⟨decision, decided, later⟩ := bind_ok_iff.mp classified
      obtain ⟨rest, done, -⟩ := bind_ok_iff.mp later
      rcases List.mem_cons.mp member with rfl | inside
      · exact ⟨decision, decided⟩
      · exact induction done inside

theorem classifyReferences_nodup {runtime : Runtime} {answer : Answer}
    {keys : List Key} {refused : List (Key × Reason)}
    (classified : classifyReferences runtime answer keys = .ok refused)
    (distinct : keys.Nodup) : (refused.map Prod.fst).Nodup := by
  induction keys generalizing refused with
  | nil =>
      cases classified
      exact List.nodup_nil
  | cons first keys induction =>
      obtain ⟨decision, decided, later⟩ := bind_ok_iff.mp classified
      obtain ⟨rest, done, last⟩ := bind_ok_iff.mp later
      have below := induction done (List.nodup_cons.mp distinct).2
      cases decision with
      | none =>
          cases last
          exact below
      | some found =>
          cases last
          refine List.nodup_cons.mpr ⟨?_, below⟩
          intro member
          obtain ⟨⟨key, reason⟩, inside, rfl⟩ := List.mem_map.mp member
          exact (List.nodup_cons.mp distinct).1
            ((classifyReferences_mem_iff done).mp inside).1

/-- The keys that a batch may not write. -/
structure Judged (runtime : Runtime) (environment : Environment)
    (keys : List Key) (refused : List (Key × Reason)) : Prop where
  distinct : (refused.map Prod.fst).Nodup
  mem_iff : ∀ key reason, (key, reason) ∈ refused ↔
    key ∈ keys ∧ ∃ answer, environment.lookup keys = .ok answer ∧
      classifyKey runtime answer key = .ok (some reason)
  decided : ∀ key ∈ keys, ∃ answer decision,
    environment.lookup keys = .ok answer ∧
      classifyKey runtime answer key = .ok decision

theorem refusedKeys_judged {runtime : Runtime} {environment : Environment}
    {keys : List Key} {refused : List (Key × Reason)}
    (distinct : keys.Nodup)
    (done : refusedKeys runtime environment keys = .ok refused) :
    Judged runtime environment keys refused := by
  unfold refusedKeys at done
  split at done
  · rename_i empty
    cases List.isEmpty_iff.mp empty
    cases done
    exact ⟨List.nodup_nil, by simp, by simp⟩
  · obtain ⟨answer, looked, mapped⟩ := bind_ok_iff.mp done
    have classified : classifyReferences runtime answer keys =
        .ok refused := by
      cases found : classifyReferences runtime answer keys with
      | error raised =>
          rw [found] at mapped
          cases mapped
      | ok entries =>
          rw [found] at mapped
          cases mapped
          rfl
    refine ⟨classifyReferences_nodup classified distinct, ?_, ?_⟩
    · intro key reason
      rw [classifyReferences_mem_iff classified, looked]
      simp
    · intro key member
      obtain ⟨decision, decided⟩ :=
        classifyReferences_decided classified member
      exact ⟨answer, decision, looked, decided⟩

/-- A reason that refuses a tenant refuses each of its keys. -/
theorem classifyKey_tenant {runtime : Runtime} {answer : Answer}
    {key other : Key} {reason : Reason}
    (same : key.companyId = other.companyId)
    (tenant : reason = .unknownTenant ∨ reason = .suspendedTenant)
    (decided : classifyKey runtime answer key = .ok (some reason)) :
    classifyKey runtime answer other = .ok (some reason) := by
  unfold classifyKey at decided ⊢
  rw [← same]
  cases refusal :
      (answer.tenantRefusal key.companyId).getD (some .unknownTenant) with
  | some found =>
      simp only [refusal] at decided
      exact decided
  | none =>
      simp only [refusal] at decided
      obtain ⟨sensor, -, later⟩ := bind_ok_iff.mp decided
      split at later
      · cases later
        rcases tenant with never | never
        · cases never
        · cases never
      · obtain ⟨equipment, -, last⟩ := bind_ok_iff.mp later
        split at last
        · cases last
          rcases tenant with never | never
          · cases never
          · cases never
        · cases last

private theorem mem_getD {found : Option (List String)} {id : String}
    (member : id ∈ found.getD []) : ∃ ids, found = some ids ∧ id ∈ ids := by
  cases found with
  | none => cases member
  | some ids => exact ⟨ids, rfl, member⟩

/-- A key that may be written. -/
theorem classifyKey_none {runtime : Runtime} {answer : Answer}
    {row : Measurement} {schema : String}
    (own : schemaName runtime.otherInt row.companyId = .ok schema)
    (decided : classifyKey runtime answer row.key = .ok none) :
    AtHome runtime answer schema row := by
  unfold classifyKey at decided
  split at decided
  · cases decided
  · rename_i refusal
    obtain ⟨sensorId, sensor, later⟩ := bind_ok_iff.mp decided
    split at later
    · cases later
    · rename_i known
      obtain ⟨equipmentId, equipment, last⟩ := bind_ok_iff.mp later
      split at last
      · cases last
      · rename_i placed
        refine ⟨own, ?_, ?_, ?_⟩
        · simpa [Option.getD_eq_iff, Measurement.key] using refusal
        · obtain ⟨sensors, found, member⟩ := mem_getD (not_not.mp known)
          exact ⟨sensorId, sensors, sensor, found, member⟩
        · obtain ⟨machines, found, member⟩ := mem_getD (not_not.mp placed)
          exact ⟨equipmentId, machines, equipment, found, member⟩

/-! ## Dealing the rows out -/

theorem leftJoin_eq {refused : List (Key × Reason)}
    (distinct : (refused.map Prod.fst).Nodup) (rows : List Measurement) :
    leftJoin refused rows =
      rows.map fun row => (row, refused.lookup row.key) := by
  have single : ∀ key : Key,
      refused.filter (·.1 = key) =
        ((refused.lookup key).map fun reason => (key, reason)).toList := by
    intro key
    induction refused with
    | nil => rfl
    | cons entry refused induction =>
        obtain ⟨first, reason⟩ := entry
        have below := induction (List.nodup_cons.mp distinct).2
        by_cases own : first = key
        · subst own
          have absent : refused.lookup first = none := by
            rw [List.lookup_eq_none_iff]
            intro entry member
            have other : first ≠ entry.1 := by
              rintro rfl
              exact (List.nodup_cons.mp distinct).1
                (List.mem_map.mpr ⟨entry, member, rfl⟩)
            simpa using other
          rw [absent] at below
          simp [below]
        · have other : (key == first) = false := by
            simpa using fun same : key = first => own same.symm
          simp [own, List.lookup_cons, other, below]
  unfold leftJoin
  induction rows with
  | nil => rfl
  | cons row rows induction =>
      rw [List.flatMap_cons, induction, List.map_cons]
      simp only [single]
      cases refused.lookup row.key with
      | none => rfl
      | some reason => rfl

theorem deal_eq {refused : List (Key × Reason)}
    (distinct : (refused.map Prod.fst).Nodup)
    (rejected : List (Reading × Reason)) (valid : List Measurement) :
    deal rejected valid refused =
      (rejected ++ valid.filterMap fun row =>
          (refused.lookup row.key).map fun reason => (reading row, reason),
        valid.filter fun row => (refused.lookup row.key).isNone) := by
  unfold deal
  split
  · rename_i empty
    cases List.isEmpty_iff.mp empty
    simp
  · rw [leftJoin_eq distinct]
    simp only [List.filterMap_map, Prod.mk.injEq]
    refine ⟨rfl, ?_⟩
    rw [← List.filterMap_eq_filter]
    rfl

/-- The join splits the rows. -/
theorem deal_perm {refused : List (Key × Reason)}
    (distinct : (refused.map Prod.fst).Nodup)
    (rejected : List (Reading × Reason)) (valid : List Measurement) :
    ((deal rejected valid refused).1.map Prod.fst ++
        (deal rejected valid refused).2.map reading).Perm
      (rejected.map Prod.fst ++ valid.map reading) := by
  rw [deal_eq distinct, List.map_append, List.append_assoc]
  refine .append_left _ ?_
  induction valid with
  | nil => exact .nil
  | cons row valid induction =>
      cases found : refused.lookup row.key with
      | none =>
          simp only [List.filterMap_cons, List.filter_cons, found,
            Option.map_none, Option.isNone_none, if_true, List.map_cons]
          exact List.perm_middle.trans (induction.cons _)
      | some reason =>
          simp only [List.filterMap_cons, List.filter_cons, found,
            Option.map_some, Option.isNone_some, List.map_cons]
          exact induction.cons _

/-! ## The upserts -/

theorem upsertTenants_call {runtime : Runtime} {environment : Environment}
    {rows : List Measurement} {companies : List String} {call : Call}
    {result : Option Failure}
    (member : (call, result) ∈
      (upsertTenants runtime environment rows companies).calls) :
    ∃ company ∈ companies, ∃ schema,
      schemaName runtime.otherInt company = .ok schema ∧
        call = .upsert schema (rows.filter (·.companyId = company)) := by
  induction companies with
  | nil => cases member
  | cons company companies induction =>
      unfold upsertTenants at member
      split at member
      · cases member
      · rename_i schema named
        dsimp only at member
        split at member
        · rename_i failure raised
          cases List.mem_singleton.mp member
          exact ⟨company, List.mem_cons_self, schema, named, rfl⟩
        · rcases List.mem_cons.mp member with same | later
          · cases same
            exact ⟨company, List.mem_cons_self, schema, named, rfl⟩
          · obtain ⟨other, inside, found⟩ := induction later
            exact ⟨other, List.mem_cons_of_mem _ inside, found⟩

theorem upsertTenants_deadLettered (runtime : Runtime)
    (environment : Environment) (rows : List Measurement)
    (companies : List String) :
    (upsertTenants runtime environment rows companies).deadLettered = [] := by
  refine List.flatMap_eq_nil_iff.mpr ?_
  rintro ⟨call, result⟩ member
  obtain ⟨company, -, schema, -, rfl⟩ := upsertTenants_call member
  rfl

/-- A loop that ends has called the upsert of every company. -/
theorem upsertTenants_upserted {runtime : Runtime}
    {environment : Environment} {rows : List Measurement}
    {companies : List String}
    (returned : (upsertTenants runtime environment rows companies).raised =
      none) :
    (upsertTenants runtime environment rows companies).upserted =
      (companies.flatMap fun company =>
        rows.filter (·.companyId = company)).map reading := by
  induction companies with
  | nil => rfl
  | cons company companies induction =>
      unfold upsertTenants at returned ⊢
      split at returned
      · cases returned
      · rename_i schema named
        dsimp only at returned ⊢
        split at returned
        · cases returned
        · rename_i written
          have below := induction returned
          rw [List.flatMap_cons, List.map_append, ← below]
          rfl

theorem upsertTenants_mem {runtime : Runtime} {environment : Environment}
    {rows : List Measurement} {companies : List String} {parsed : Reading}
    (member : parsed ∈
      (upsertTenants runtime environment rows companies).upserted) :
    ∃ row ∈ rows, reading row = parsed := by
  obtain ⟨⟨call, result⟩, made, inside⟩ := List.mem_flatMap.mp member
  obtain ⟨company, -, schema, -, rfl⟩ := upsertTenants_call made
  obtain ⟨row, found, same⟩ := List.mem_map.mp inside
  exact ⟨row, (List.mem_filter.mp found).1, same⟩

/-! ## The companies -/

theorem companies_nodup (keys : List Key) (refused : List (Key × Reason)) :
    (companies keys refused).Nodup := by
  unfold companies
  refine (List.perm_insertionSort _ _).nodup_iff.mpr ?_
  exact List.Nodup.filter _ (nodup_eraseDups _)

theorem mem_companies {keys : List Key} {refused : List (Key × Reason)}
    {company : String} :
    company ∈ companies keys refused ↔
      (∃ key ∈ keys, key.companyId = company) ∧
        ∀ entry ∈ refused, entry.2 = .unknownTenant ∨
          entry.2 = .suspendedTenant → entry.1.companyId ≠ company := by
  unfold companies
  rw [List.mem_insertionSort, List.mem_filter, List.mem_eraseDups,
    List.mem_map]
  refine and_congr_right fun _ => ?_
  simp only [List.mem_map, List.mem_filter, decide_eq_true_eq, not_exists,
    not_and]
  constructor
  · exact fun none entry member tenant => none entry ⟨member, tenant⟩
  · exact fun none entry found => none entry found.1 found.2

/-- A row that is left belongs to a company that is written. -/
theorem Judged.company_mem {runtime : Runtime} {environment : Environment}
    {keys : List Key} {refused : List (Key × Reason)}
    (judged : Judged runtime environment keys refused) {row : Measurement}
    (member : row.key ∈ keys) (kept : refused.lookup row.key = none) :
    row.companyId ∈ companies keys refused := by
  refine mem_companies.mpr ⟨⟨row.key, member, rfl⟩, ?_⟩
  rintro ⟨key, reason⟩ inside tenant same
  obtain ⟨-, answer, looked, decided⟩ := (judged.mem_iff key reason).mp inside
  have own : classifyKey runtime answer row.key = .ok (some reason) :=
    classifyKey_tenant same tenant decided
  have refusedToo : (row.key, reason) ∈ refused :=
    (judged.mem_iff row.key reason).mpr ⟨member, answer, looked, own⟩
  have absent := List.lookup_eq_none_iff.mp kept _ refusedToo
  simp at absent

/-- A row that is left may be written. -/
theorem Judged.atHome {runtime : Runtime} {environment : Environment}
    {keys : List Key} {refused : List (Key × Reason)}
    (judged : Judged runtime environment keys refused) {row : Measurement}
    {schema : String} (member : row.key ∈ keys)
    (kept : refused.lookup row.key = none)
    (own : schemaName runtime.otherInt row.companyId = .ok schema) :
    ∃ answer, environment.lookup keys = .ok answer ∧
      AtHome runtime answer schema row := by
  obtain ⟨answer, decision, looked, decided⟩ := judged.decided _ member
  cases decision with
  | none => exact ⟨answer, looked, classifyKey_none own decided⟩
  | some reason =>
      have refusedToo : (row.key, reason) ∈ refused :=
        (judged.mem_iff row.key reason).mpr
          ⟨member, answer, looked, decided⟩
      have absent := List.lookup_eq_none_iff.mp kept _ refusedToo
      simp at absent

/-! ## The batch -/

theorem mem_validRows {runtime : Runtime} {batch : List Reading}
    {row : Measurement} (member : row ∈ validRows runtime batch) :
    passing runtime (reading row) = some row ∧
      row.key ∈ keysOf (validRows runtime batch) := by
  obtain ⟨parsed, -, passes⟩ := List.mem_filterMap.mp member
  refine ⟨?_, List.mem_eraseDups.mpr (List.mem_map_of_mem member)⟩
  rw [reading_of_passing passes]
  exact passes

theorem keysOf_nodup (rows : List Measurement) : (keysOf rows).Nodup :=
  nodup_eraseDups _

section

variable {runtime : Runtime} {environment : Environment}
  {batch : List Reading} {refused : List (Key × Reason)}

theorem dealt_perm (distinct : (refused.map Prod.fst).Nodup) :
    ((dealt runtime batch refused).1.map Prod.fst ++
      (dealt runtime batch refused).2.map reading).Perm batch :=
  (deal_perm distinct _ _).trans (guard_perm runtime batch)

/-- A row that is left is valid, and its key is not refused. -/
theorem mem_kept (distinct : (refused.map Prod.fst).Nodup)
    {row : Measurement} (member : row ∈ (dealt runtime batch refused).2) :
    row ∈ validRows runtime batch ∧ refused.lookup row.key = none := by
  rw [dealt, deal_eq distinct] at member
  obtain ⟨valid, unrefused⟩ := List.mem_filter.mp member
  exact ⟨valid, Option.isNone_iff_eq_none.mp unrefused⟩

/-- A rejected reading is dealt to the dead letters. -/
theorem mem_letters
    (judged : Judged runtime environment
      (keysOf (validRows runtime batch)) refused) {parsed : Reading}
    (member : parsed ∈ batch)
    (rejected : Rejected runtime environment batch parsed) :
    parsed ∈ (dealt runtime batch refused).1.map Prod.fst := by
  rw [dealt, deal_eq judged.distinct, List.map_append, List.mem_append]
  rcases rejected with stopped | ⟨answer, row, reason, looked, passes, decided⟩
  · left
    obtain ⟨reason, found⟩ := Option.ne_none_iff_exists'.mp stopped
    exact List.mem_map.mpr ⟨(parsed, reason),
      List.mem_filterMap.mpr ⟨parsed, member, by simp [found]⟩, rfl⟩
  · right
    have valid : row ∈ validRows runtime batch :=
      List.mem_filterMap.mpr ⟨parsed, member, passes⟩
    have entry : (row.key, reason) ∈ refused :=
      (judged.mem_iff row.key reason).mpr
        ⟨(mem_validRows valid).2, answer, looked, decided⟩
    obtain ⟨found, looked⟩ : ∃ found, refused.lookup row.key = some found := by
      cases absent : refused.lookup row.key with
      | some found => exact ⟨found, rfl⟩
      | none =>
          have never := List.lookup_eq_none_iff.mp absent _ entry
          simp at never
    refine List.mem_map.mpr ⟨(reading row, found),
      List.mem_filterMap.mpr ⟨row, valid, by simp [looked]⟩, ?_⟩
    exact reading_of_passing passes

/-- No reading is dealt out twice. -/
theorem dealt_exclusive (distinct : (refused.map Prod.fst).Nodup)
    {row : Measurement} (kept : row ∈ (dealt runtime batch refused).2) :
    reading row ∉ (dealt runtime batch refused).1.map Prod.fst := by
  intro letter
  obtain ⟨valid, unrefused⟩ := mem_kept distinct kept
  have passes := (mem_validRows valid).1
  rw [dealt, deal_eq distinct, List.map_append, List.mem_append] at letter
  rcases letter with stopped | tagged
  · obtain ⟨⟨parsed, reason⟩, found, same⟩ := List.mem_map.mp stopped
    obtain ⟨_, -, rejected⟩ := List.mem_filterMap.mp found
    obtain ⟨_, stops, pair⟩ := Option.map_eq_some_iff.mp rejected
    cases pair
    change parsed = reading row at same
    rw [← same] at passes
    simp [passing, stops] at passes
  · obtain ⟨⟨parsed, reason⟩, found, same⟩ := List.mem_map.mp tagged
    obtain ⟨twin, -, looked⟩ := List.mem_filterMap.mp found
    obtain ⟨_, refusedToo, pair⟩ := Option.map_eq_some_iff.mp looked
    cases pair
    cases reading_injective same
    rw [refusedToo] at unrefused
    cases unrefused

theorem written_home
    (judged : Judged runtime environment
      (keysOf (validRows runtime batch)) refused)
    {schema : String} {rows : List Measurement} {result : Option Failure}
    (made : (Call.upsert schema rows, result) ∈
      (written runtime environment batch refused).calls)
    {row : Measurement} (member : row ∈ rows) :
    ∃ answer,
      environment.lookup (keysOf (validRows runtime batch)) = .ok answer ∧
        AtHome runtime answer schema row := by
  obtain ⟨company, -, found, named, same⟩ := upsertTenants_call made
  cases same
  obtain ⟨kept, own⟩ := List.mem_filter.mp member
  obtain ⟨valid, unrefused⟩ := mem_kept judged.distinct kept
  have home : row.companyId = company := of_decide_eq_true own
  refine judged.atHome (mem_validRows valid).2 unrefused ?_
  rw [home]
  exact named

/-- Writes that return carry the rows that are left. -/
theorem written_perm
    (judged : Judged runtime environment
      (keysOf (validRows runtime batch)) refused)
    (returned : (written runtime environment batch refused).raised = none) :
    (written runtime environment batch refused).upserted.Perm
      ((dealt runtime batch refused).2.map reading) := by
  unfold written
  rw [upsertTenants_upserted returned]
  refine List.Perm.map _ ((flatMap_filter_perm Measurement.companyId
    (companies_nodup _ _) _).trans ?_)
  rw [List.filter_eq_self.mpr]
  intro row member
  obtain ⟨valid, unrefused⟩ := mem_kept judged.distinct member
  exact decide_eq_true (judged.company_mem (mem_validRows valid).2 unrefused)

/-- The four ways in which a batch ends. -/
theorem processBatch_cases (runtime : Runtime) (environment : Environment)
    (batch : List Reading) :
    (∃ failure, processBatch runtime environment batch =
        ⟨[], some failure⟩) ∨
      ∃ refused,
        Judged runtime environment (keysOf (validRows runtime batch))
            refused ∧
          ((dealt runtime batch refused).1 = [] ∧
              processBatch runtime environment batch =
                written runtime environment batch refused ∨
            (∃ failure, processBatch runtime environment batch =
              ⟨[(.deadLetter (dealt runtime batch refused).1, some failure)],
                some failure⟩) ∨
            processBatch runtime environment batch =
              ⟨(.deadLetter (dealt runtime batch refused).1, none) ::
                  (written runtime environment batch refused).calls,
                (written runtime environment batch refused).raised⟩) := by
  cases done : refusedKeys runtime environment
      (keysOf (validRows runtime batch)) with
  | error failure =>
      left
      exact ⟨failure, by simp [processBatch, done]⟩
  | ok refused =>
      right
      refine ⟨refused, refusedKeys_judged (keysOf_nodup _) done, ?_⟩
      by_cases empty : (dealt runtime batch refused).1 = []
      · left
        exact ⟨empty, by simp [processBatch, done, empty]⟩
      · right
        cases published :
            environment.deadLetter (dealt runtime batch refused).1 with
        | some failure =>
            left
            exact ⟨failure, by simp [processBatch, done, empty, published]⟩
        | none =>
            right
            simp [processBatch, done, empty, published]

/-- Nothing that was dealt to the dead letters is written. -/
theorem written_exclusive (distinct : (refused.map Prod.fst).Nodup)
    {parsed : Reading}
    (letter : parsed ∈ (dealt runtime batch refused).1.map Prod.fst) :
    parsed ∉ (written runtime environment batch refused).upserted := by
  intro member
  obtain ⟨row, kept, rfl⟩ := upsertTenants_mem member
  exact dealt_exclusive distinct kept letter

theorem written_routed
    (judged : Judged runtime environment
      (keysOf (validRows runtime batch)) refused)
    (empty : (dealt runtime batch refused).1 = []) :
    Routed runtime environment batch
      (written runtime environment batch refused) where
  dealt := by
    intro returned
    rw [written, upsertTenants_deadLettered, ← written, List.nil_append]
    have all : ((dealt runtime batch refused).1.map Prod.fst ++
        (dealt runtime batch refused).2.map reading).Perm batch :=
      dealt_perm judged.distinct
    rw [empty, List.map_nil, List.nil_append] at all
    exact (written_perm judged returned).trans all
  exclusive := by
    intro parsed letter
    rw [written, upsertTenants_deadLettered] at letter
    cases letter
  home := fun _ _ _ made _ member => written_home judged made member
  lettersFirst := by
    intro _ _ _ _ _ _ parsed member rejected
    have letter := mem_letters judged member rejected
    rw [empty] at letter
    cases letter

theorem published_deadLettered (letters : List (Reading × Reason))
    (raised : Option Failure) :
    Outcome.deadLettered ⟨(.deadLetter letters, none) ::
      (written runtime environment batch refused).calls, raised⟩ =
        letters.map Prod.fst := by
  have none : (written runtime environment batch refused).deadLettered = [] :=
    upsertTenants_deadLettered _ _ _ _
  change letters.map Prod.fst ++ Outcome.deadLettered _ = _
  rw [none, List.append_nil]

theorem published_routed
    (judged : Judged runtime environment
      (keysOf (validRows runtime batch)) refused) :
    Routed runtime environment batch
      ⟨(.deadLetter (dealt runtime batch refused).1, none) ::
          (written runtime environment batch refused).calls,
        (written runtime environment batch refused).raised⟩ where
  dealt := by
    intro returned
    rw [published_deadLettered]
    exact ((written_perm judged returned).append_left _).trans
      (dealt_perm judged.distinct)
  exclusive := by
    intro parsed letter
    rw [published_deadLettered] at letter
    exact written_exclusive judged.distinct letter
  home := by
    intro schema rows result made row member
    rcases List.mem_cons.mp made with never | later
    · cases never
    · exact written_home judged later member
  lettersFirst := by
    intro before schema rows result after split parsed member rejected
    have letter := mem_letters judged member rejected
    cases before with
    | nil => cases split
    | cons first before =>
        obtain ⟨rfl, -⟩ := List.cons.inj split
        exact ⟨_, List.mem_cons_self, letter⟩

theorem unpublished_routed {failure : Failure}
    {letters : List (Reading × Reason)} :
    Routed runtime environment batch
      ⟨[(.deadLetter letters, some failure)], some failure⟩ where
  dealt := nofun
  exclusive := by
    intro parsed _ member
    cases member
  home := by
    intro schema rows result made
    cases List.mem_singleton.mp made
  lettersFirst := by
    intro before schema rows result after split
    cases before with
    | nil => cases split
    | cons first before => simp at split

end

/-! ## The database -/

/-- What the lookup says of a company, it read in the company's schema. -/
theorem lookupReferences_read {runtime : Runtime} {database : Database}
    {keys : List Key} {references : List (String × References)}
    (looked : lookupReferences runtime database keys = .ok references)
    {company : String} {tenant : References}
    (found : references.lookup company = some tenant) :
    ∃ schema sensorIds equipmentIds,
      schemaName runtime.otherInt company = .ok schema ∧
        tenant = readTenantReferences database schema sensorIds
          equipmentIds := by
  obtain ⟨canonical, -, mapped⟩ := bind_ok_iff.mp looked
  obtain ⟨before, after, rfl, -⟩ := List.lookup_eq_some_iff.mp found
  obtain ⟨item, -, done⟩ := mapM_answer mapped
    (List.mem_append_right before List.mem_cons_self)
  obtain ⟨schema, named, pair⟩ := bind_ok_iff.mp done
  cases pair
  exact ⟨schema, _, _, named, rfl⟩

/-- A row that may be written is in place in the database. -/
theorem AtHome.inPlace {runtime : Runtime} {database : Database}
    {keys : List Key} {references : List (String × References)}
    (looked : lookupReferences runtime database keys = .ok references)
    {schema : String} {row : Measurement}
    (home : AtHome runtime (.ofReferences references) schema row) :
    InPlace runtime database schema row := by
  obtain ⟨tenant, entry, unrefused⟩ := Option.map_eq_some_iff.mp home.active
  obtain ⟨found, sensorIds, equipmentIds, named, rfl⟩ :=
    lookupReferences_read looked entry
  have same : found = schema :=
    Except.ok.inj (named.symm.trans home.own)
  subst same
  obtain ⟨sensorId, sensors, sensor, knownSensors, sensorKnown⟩ := home.sensor
  obtain ⟨equipmentId, machines, equipment, knownEquipment,
    equipmentKnown⟩ := home.equipment
  simp only [Answer.ofReferences, entry, Option.map_some,
    Option.some.injEq] at knownSensors knownEquipment
  unfold readTenantReferences at unrefused knownSensors knownEquipment
  cases registered : database.registry found with
  | none => simp [registered] at unrefused
  | some flag =>
      cases flag with
      | false => simp [registered] at unrefused
      | true =>
          simp only [registered] at unrefused knownSensors knownEquipment
          split at unrefused
          · rename_i held
            simp only [held, if_true] at knownSensors knownEquipment
            subst knownSensors
            subst knownEquipment
            exact ⟨home.own, registered,
              ⟨sensorId, sensor, (List.mem_filter.mp sensorKnown).2⟩,
              ⟨equipmentId, equipment,
                (List.mem_filter.mp equipmentKnown).2⟩⟩
          · cases unrefused

theorem processBatch_routed (runtime : Runtime) (environment : Environment)
    (batch : List Reading) :
    Routed runtime environment batch
      (processBatch runtime environment batch) := by
  rcases processBatch_cases runtime environment batch with
    ⟨failure, ended⟩ |
      ⟨refused, judged, ⟨empty, ended⟩ | ⟨failure, ended⟩ | ended⟩
  · rw [ended]
    exact ⟨by simp, by simp [Outcome.deadLettered], by simp, by simp⟩
  · rw [ended]
    exact written_routed judged empty
  · rw [ended]
    exact unpublished_routed
  · rw [ended]
    exact published_routed judged

/-! ## The batch over a database -/

/-- The calls of the job: the database answers, and the broker does. -/
def Environment.ofDatabase (runtime : Runtime) (database : Database) :
    Environment where
  lookup keys :=
    match lookupReferences runtime database keys with
    | .ok references => .ok (.ofReferences references)
    | .error raised => .error (.exception raised)
  deadLetter _ := none
  upsert _ rows :=
    match rows.mapM (insertRow runtime) with
    | .ok _ => none
    | .error raised => some (.exception raised)

/-- The readings of a batch are dealt out, and what is written from a
database's answers is in place in it. -/
theorem batch_dealt_out (runtime : Runtime) (environment : Environment)
    (batch : List Reading) :
    Routed runtime environment batch
        (processBatch runtime environment batch) ∧
      ∀ database, environment.ReadsFrom runtime database →
        ∀ schema rows result, (Call.upsert schema rows, result) ∈
            (processBatch runtime environment batch).calls →
          ∀ row ∈ rows, InPlace runtime database schema row := by
  have routed := processBatch_routed runtime environment batch
  refine ⟨routed, ?_⟩
  intro database reads schema rows result made row member
  obtain ⟨answer, looked, home⟩ := routed.home schema rows result made row
    member
  obtain ⟨references, read, rfl⟩ := reads _ _ looked
  exact home.inPlace read

def goodReading : Reading :=
  { newlineReading with
    sensorId := some "22222222-2222-4222-8222-222222222222" }

/-- A reading that is written, and one without a time. -/
theorem batch_dealt_out_pair :
    let batch := [goodReading, { goodReading with time := none }]
    let outcome := processBatch epoch (.ofDatabase epoch everything) batch
    outcome.raised = none ∧
      (outcome.deadLettered ++ outcome.upserted).Perm batch := by
  have returned : (processBatch epoch (.ofDatabase epoch everything)
      [goodReading, { goodReading with time := none }]).raised = none := by
    decide +kernel
  exact ⟨returned, (batch_dealt_out epoch (.ofDatabase epoch everything)
    [goodReading, { goodReading with time := none }]).1.dealt returned⟩

end IndustryFlow.Measurements.Routing
