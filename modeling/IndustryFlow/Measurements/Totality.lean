import IndustryFlow.Fallible
import IndustryFlow.Measurements.Batch

/-!
# What can stop the measurement writer

Of the readings that pass the guard, the batch path is total on the `Clean`
ones and on no others: an identifier may still end in a line terminator, a
text may hold a NUL, and a time may lie before the first that Python has.
-/

namespace IndustryFlow.Measurements

/-! ## Actions that do not raise -/

section Returns

variable {First Second : Type}

def Returns (action : Except Raised First) : Prop :=
  ∃ answer, action = .ok answer

@[simp] theorem returns_pure (answer : First) :
    Returns (pure answer : Except Raised First) :=
  ⟨answer, rfl⟩

theorem returns_bind_iff {action : Except Raised First}
    {continuation : First → Except Raised Second} :
    Returns (action >>= continuation) ↔
      ∃ answer, action = .ok answer ∧ Returns (continuation answer) := by
  unfold Returns
  constructor
  · rintro ⟨result, done⟩
    obtain ⟨answer, first, second⟩ := bind_ok_iff.mp done
    exact ⟨answer, first, result, second⟩
  · rintro ⟨answer, first, result, second⟩
    exact ⟨result, bind_ok_iff.mpr ⟨answer, first, second⟩⟩

theorem returns_mapM_iff {action : First → Except Raised Second}
    {items : List First} :
    Returns (items.mapM action) ↔ ∀ item ∈ items, Returns (action item) := by
  induction items with
  | nil => simp
  | cons item items induction =>
      simp only [List.forall_mem_cons, ← induction]
      constructor
      · rintro ⟨answers, mapped⟩
        obtain ⟨answer, rest, head, tail, -⟩ := mapM_cons_ok_iff.mp mapped
        exact ⟨⟨answer, head⟩, ⟨rest, tail⟩⟩
      · rintro ⟨⟨answer, head⟩, ⟨rest, tail⟩⟩
        exact ⟨answer :: rest,
          mapM_cons_ok_iff.mpr ⟨answer, rest, head, tail, rfl⟩⟩

end Returns

/-! ## Identifiers -/

theorem canonicalUuid_returns_iff {text : String}
    (matched : rlikeUuid text = true) (other : List Char → Option Int) :
    Returns (canonicalUuid other text) ↔ ¬EndsInLineTerminator text := by
  obtain ⟨groups, tail, uuid, spelled, known⟩ := rlikeUuid_cases matched
  rw [uuid.endsInLineTerminator_iff spelled known, not_not,
    ← uuid.uuidInt_ok_iff spelled known other]
  unfold canonicalUuid Returns
  cases uuidInt other text with
  | error raised => simp [Except.map]
  | ok value => simp [Except.map]

theorem schemaName_returns_iff {text : String}
    (matched : rlikeUuid text = true) (other : List Char → Option Int) :
    Returns (schemaName other text) ↔ ¬EndsInLineTerminator text := by
  rw [← canonicalUuid_returns_iff matched other]
  unfold schemaName
  rw [returns_bind_iff]
  constructor
  · rintro ⟨canonical, done, -⟩
    exact ⟨canonical, done⟩
  · rintro ⟨canonical, done⟩
    exact ⟨canonical, done, returns_pure _⟩

theorem quoted_returns_iff {text : String} :
    Returns (quoted text) ↔ '\x00' ∉ text.toList := by
  unfold quoted
  split
  · rename_i present
    constructor
    · rintro ⟨answer, done⟩
      cases done
    · exact fun absent => absurd present absent
  · rename_i absent
    exact ⟨fun _ => absent, fun _ => ⟨text, rfl⟩⟩

theorem uuidColumn_returns {text : String}
    (matched : rlikeUuid text = true)
    (clean : ¬EndsInLineTerminator text) : Returns (uuidColumn text) := by
  obtain ⟨groups, tail, uuid, spelled, known⟩ := rlikeUuid_cases matched
  rw [uuid.endsInLineTerminator_iff spelled known, not_not] at clean
  subst clean
  rw [List.append_nil] at spelled
  have noNul : '\x00' ∉ text.toList := by
    rw [spelled]
    intro member
    rcases uuid.mem member with hyphen | digit
    · exact absurd hyphen (by decide)
    · exact absurd digit (by decide)
  unfold uuidColumn
  rw [returns_bind_iff]
  refine ⟨text, if_neg noNul, ?_⟩
  rw [spelled, uuid.uuidIn_ok]
  exact ⟨text, rfl⟩

/-! ## Rows that pass the guard -/

/-- The driver takes the row's identifiers, its tenant has a schema, and each
of its columns fits the table. -/
structure Writable (runtime : Runtime) (row : Measurement) : Prop where
  company : Returns (canonicalUuid runtime.otherInt row.companyId)
  sensor : Returns (canonicalUuid runtime.otherInt row.sensorId)
  equipment : Returns (canonicalUuid runtime.otherInt row.equipmentId)
  tenant : Returns (schemaName runtime.otherInt row.companyId)
  columns : Returns (insertRow runtime row)

structure Clean (runtime : Runtime) (row : Measurement) : Prop where
  company : ¬EndsInLineTerminator row.companyId
  sensor : ¬EndsInLineTerminator row.sensorId
  equipment : ¬EndsInLineTerminator row.equipmentId
  site : '\x00' ∉ row.siteId.toList
  unit : ∀ unit ∈ row.unit, '\x00' ∉ unit.toList
  time : runtime.earliest ≤ row.time

theorem passing_cases {runtime : Runtime} {reading : Reading}
    {row : Measurement} (passes : passing runtime reading = some row) :
    rlikeUuid row.companyId = true ∧ rlikeUuid row.sensorId = true ∧
      rlikeUuid row.equipmentId = true ∧
      row.time ≤ runtime.now + maxFutureSkew := by
  unfold passing at passes
  split at passes
  · rename_i unrejected
    unfold rejectionReason at unrejected
    rw [passes] at unrejected
    simp only at unrejected
    split at unrejected
    · cases unrejected
    · rename_i company
      split at unrejected
      · cases unrejected
      · rename_i device
        split at unrejected
        · cases unrejected
        · rename_i time
          simp only [Bool.not_eq_eq_eq_not, Bool.not_true,
            Bool.or_eq_true, not_or, Bool.not_eq_false] at company device
          exact ⟨company, device.1, device.2, not_lt.mp time⟩
  · cases passes

private theorem insertRow_returns_iff {runtime : Runtime}
    {row : Measurement}
    (sensor : Returns (uuidColumn row.sensorId))
    (equipment : Returns (uuidColumn row.equipmentId))
    (past : row.time ≤ runtime.now + maxFutureSkew) :
    Returns (insertRow runtime row) ↔ runtime.earliest ≤ row.time ∧
      '\x00' ∉ row.siteId.toList ∧
      ∀ unit ∈ row.unit, '\x00' ∉ unit.toList := by
  obtain ⟨sensorId, sensorDone⟩ := sensor
  obtain ⟨equipmentId, equipmentDone⟩ := equipment
  have units : Returns (row.unit.mapM quoted) ↔
      ∀ unit ∈ row.unit, '\x00' ∉ unit.toList := by
    cases row.unit with
    | none => simp
    | some unit =>
        rw [Option.mapM_some]
        simp only [Option.mem_def, Option.some.injEq, forall_eq']
        rw [← quoted_returns_iff]
        cases quoted unit with
        | error raised =>
            simp [Returns, Functor.map, Except.map]
        | ok text => simp [Returns, Functor.map, Except.map]
  have times : Returns (fromInternal runtime row.time) ↔
      runtime.earliest ≤ row.time := by
    have bound := runtime.current
    unfold fromInternal
    split
    · rename_i outside
      constructor
      · rintro ⟨answer, done⟩
        cases done
      · intro inside
        omega
    · rename_i inside
      exact ⟨fun _ => by omega, fun _ => ⟨row.time, rfl⟩⟩
  rw [← times, ← units, ← quoted_returns_iff]
  unfold insertRow
  simp only [returns_bind_iff, sensorDone, equipmentDone, Except.ok.injEq,
    exists_eq_left', returns_pure, and_true]
  constructor
  · rintro ⟨time, timeDone, site, siteDone, unit, unitDone⟩
    exact ⟨⟨time, timeDone⟩, ⟨site, siteDone⟩, ⟨unit, unitDone⟩⟩
  · rintro ⟨⟨time, timeDone⟩, ⟨site, siteDone⟩, ⟨unit, unitDone⟩⟩
    exact ⟨time, timeDone, site, siteDone, unit, unitDone⟩

/-- A row that passes the guard can be written if and only if it is clean. -/
theorem writable_iff_clean {runtime : Runtime} {reading : Reading}
    {row : Measurement} (passes : passing runtime reading = some row) :
    Writable runtime row ↔ Clean runtime row := by
  obtain ⟨company, sensor, equipment, past⟩ := passing_cases passes
  have columns (cleanSensor : ¬EndsInLineTerminator row.sensorId)
      (cleanEquipment : ¬EndsInLineTerminator row.equipmentId) :=
    insertRow_returns_iff (uuidColumn_returns sensor cleanSensor)
      (uuidColumn_returns equipment cleanEquipment) past
  constructor
  · intro writable
    have cleanSensor :=
      (canonicalUuid_returns_iff sensor _).mp writable.sensor
    have cleanEquipment :=
      (canonicalUuid_returns_iff equipment _).mp writable.equipment
    obtain ⟨time, site, unit⟩ :=
      (columns cleanSensor cleanEquipment).mp writable.columns
    exact ⟨(canonicalUuid_returns_iff company _).mp writable.company,
      cleanSensor, cleanEquipment, site, unit, time⟩
  · intro clean
    exact ⟨(canonicalUuid_returns_iff company _).mpr clean.company,
      (canonicalUuid_returns_iff sensor _).mpr clean.sensor,
      (canonicalUuid_returns_iff equipment _).mpr clean.equipment,
      (schemaName_returns_iff company _).mpr clean.company,
      (columns clean.sensor clean.equipment).mpr
        ⟨clean.time, clean.site, clean.unit⟩⟩

/-! ## The batch -/

/-- The rows of the batch that pass the guard. -/
def validRows (runtime : Runtime) (batch : List Reading) :
    List Measurement :=
  batch.filterMap (passing runtime)

private theorem canonicalKey_returns_iff {runtime : Runtime} {key : Key} :
    Returns (canonicalKey runtime key) ↔
      Returns (canonicalUuid runtime.otherInt key.sensorId) ∧
      Returns (canonicalUuid runtime.otherInt key.equipmentId) := by
  unfold canonicalKey
  simp only [returns_bind_iff, returns_pure, and_true]
  constructor
  · rintro ⟨sensor, sensorDone, equipment, equipmentDone⟩
    exact ⟨⟨sensor, sensorDone⟩, ⟨equipment, equipmentDone⟩⟩
  · rintro ⟨⟨sensor, sensorDone⟩, ⟨equipment, equipmentDone⟩⟩
    exact ⟨sensor, sensorDone, equipment, equipmentDone⟩

/-- The lookup raises on identifiers only. -/
private theorem lookupReferences_returns_iff {runtime : Runtime}
    {database : Database} {keys : List Key} :
    Returns (lookupReferences runtime database keys) ↔
      ∀ key ∈ keys, Returns (canonicalKey runtime key) ∧
        Returns (schemaName runtime.otherInt key.companyId) := by
  unfold lookupReferences
  rw [returns_bind_iff]
  simp only [returns_mapM_iff, returns_bind_iff, returns_pure, and_true,
    List.mem_eraseDups]
  constructor
  · rintro ⟨canonical, mapped, schemas⟩ key member
    obtain ⟨answer, -, done⟩ := mapM_mem mapped member
    exact ⟨⟨answer, done⟩, schemas _ (List.mem_map_of_mem member)⟩
  · intro all
    obtain ⟨canonical, mapped⟩ := returns_mapM_iff.mpr
      fun key member => (all key member).1
    refine ⟨canonical, mapped, ?_⟩
    intro company member
    obtain ⟨key, found, rfl⟩ := List.mem_map.mp member
    exact (all key found).2

private theorem classifyKey_returns {runtime : Runtime}
    {references : List (String × References)} {key : Key}
    (canonical : Returns (canonicalKey runtime key)) :
    Returns (classifyKey runtime references key) := by
  obtain ⟨⟨sensor, sensorDone⟩, ⟨equipment, equipmentDone⟩⟩ :=
    canonicalKey_returns_iff.mp canonical
  unfold classifyKey
  split
  · exact returns_pure _
  · split
    · exact returns_pure _
    · rw [sensorDone, equipmentDone]
      simp only [returns_bind_iff, Except.ok.injEq, exists_eq_left']
      split
      · exact returns_pure _
      · refine returns_bind_iff.mpr ⟨equipment, rfl, ?_⟩
        split
        · exact returns_pure _
        · exact returns_pure _

private theorem writeTenants_raised_iff {runtime : Runtime}
    {rows : List Measurement} {companies : List String} :
    (writeTenants runtime rows companies).2 = none ↔
      ∀ company ∈ companies, Returns (writeTenant runtime rows company) := by
  induction companies with
  | nil => simp [writeTenants]
  | cons company companies induction =>
      simp only [writeTenants, List.forall_mem_cons, ← induction]
      cases written : writeTenant runtime rows company with
      | error raised => simp [Returns]
      | ok tenant => simp [Returns]

private theorem writeTenant_returns_iff {runtime : Runtime}
    {rows : List Measurement} {company : String} :
    Returns (writeTenant runtime rows company) ↔
      Returns (schemaName runtime.otherInt company) ∧
      ∀ row ∈ rows, row.companyId = company →
        Returns (insertRow runtime row) := by
  unfold writeTenant
  simp only [returns_bind_iff, returns_pure, and_true]
  have rowsReturn : Returns ((rows.filter fun row =>
      decide (row.companyId = company)).mapM (insertRow runtime)) ↔
      ∀ row ∈ rows, row.companyId = company →
        Returns (insertRow runtime row) := by
    simp only [returns_mapM_iff, List.mem_filter, decide_eq_true_eq,
      and_imp]
  rw [← rowsReturn]
  constructor
  · rintro ⟨schema, named, stored, done⟩
    exact ⟨⟨schema, named⟩, ⟨stored, done⟩⟩
  · rintro ⟨⟨schema, named⟩, ⟨stored, done⟩⟩
    exact ⟨schema, named, stored, done⟩

/-- The keys of the rows. -/
def keysOf (rows : List Measurement) : List Key :=
  (rows.map Measurement.key).eraseDups

private theorem key_mem {rows : List Measurement} {row : Measurement}
    (member : row ∈ rows) : row.key ∈ keysOf rows :=
  List.mem_eraseDups.mpr (List.mem_map_of_mem member)

private theorem refusedKeys_returns_iff {runtime : Runtime}
    {database : Database} {rows : List Measurement} :
    Returns (refusedKeys runtime database (keysOf rows)) ↔
      ∀ row ∈ rows, Returns (canonicalKey runtime row.key) ∧
        Returns (schemaName runtime.otherInt row.companyId) := by
  have same : (∀ row ∈ rows, Returns (canonicalKey runtime row.key) ∧
        Returns (schemaName runtime.otherInt row.companyId)) ↔
      ∀ key ∈ keysOf rows, Returns (canonicalKey runtime key) ∧
        Returns (schemaName runtime.otherInt key.companyId) := by
    constructor
    · intro all key member
      obtain ⟨row, found, rfl⟩ :=
        List.mem_map.mp (List.mem_eraseDups.mp member)
      exact all row found
    · exact fun all row member => all row.key (key_mem member)
  rw [same]
  unfold refusedKeys
  split
  · rename_i empty
    rw [List.isEmpty_iff.mp empty]
    simp
  · rw [returns_bind_iff]
    constructor
    · rintro ⟨references, looked, -⟩
      exact lookupReferences_returns_iff.mp ⟨references, looked⟩
    · intro all
      obtain ⟨references, looked⟩ :=
        lookupReferences_returns_iff.mpr all
      refine ⟨references, looked, ?_⟩
      obtain ⟨reasons, classified⟩ := returns_mapM_iff.mpr
        fun key member => classifyKey_returns (all key member).1
      exact returns_bind_iff.mpr ⟨reasons, classified, returns_pure _⟩

private theorem processBatch_unraised {runtime : Runtime}
    {batch : List Reading}
    (clean : ∀ row ∈ validRows runtime batch, Writable runtime row)
    (database : Database) :
    (processBatch runtime database batch).raised = none := by
  obtain ⟨refused, done⟩ : Returns (refusedKeys runtime database
      (keysOf (validRows runtime batch))) := by
    refine refusedKeys_returns_iff.mpr fun row member => ?_
    have writable := clean row member
    exact ⟨canonicalKey_returns_iff.mpr
      ⟨writable.sensor, writable.equipment⟩, writable.tenant⟩
  unfold keysOf validRows at done
  simp only [processBatch, done]
  rw [writeTenants_raised_iff]
  intro company member
  rw [List.mem_insertionSort, List.mem_filter, List.mem_eraseDups] at member
  obtain ⟨key, found, rfl⟩ := List.mem_map.mp member.1
  obtain ⟨row, inBatch, rfl⟩ :=
    List.mem_map.mp (List.mem_eraseDups.mp found)
  refine writeTenant_returns_iff.mpr ⟨(clean row inBatch).tenant, ?_⟩
  exact fun other kept _ => (clean other (List.mem_filter.mp kept).1).columns

/-- A database in which every tenant, sensor and equipment exists. -/
def everything : Database :=
  ⟨fun _ => some true, fun _ => true, fun _ _ => true, fun _ _ => true⟩

private theorem classifyKey_everything {runtime : Runtime}
    {keys : List Key} {references : List (String × References)}
    (looked : lookupReferences runtime everything keys = .ok references)
    {key : Key} (member : key ∈ keys) :
    classifyKey runtime references key = .ok none := by
  unfold lookupReferences at looked
  obtain ⟨canonical, mapped, tenants⟩ := bind_ok_iff.mp looked
  have company : key.companyId ∈ (keys.map Key.companyId).eraseDups :=
    List.mem_eraseDups.mpr (List.mem_map_of_mem member)
  obtain ⟨tenant, found, done⟩ := mapM_lookup (by
    intro item answer paired
    obtain ⟨schema, -, same⟩ := bind_ok_iff.mp paired
    cases same
    rfl) tenants company
  obtain ⟨schema, -, same⟩ := bind_ok_iff.mp done
  obtain ⟨own, listed, canonicalised⟩ := mapM_mem mapped member
  unfold canonicalKey at canonicalised
  obtain ⟨sensor, sensorDone, rest⟩ := bind_ok_iff.mp canonicalised
  obtain ⟨equipment, equipmentDone, spelled⟩ := bind_ok_iff.mp rest
  cases spelled
  simp only [readTenantReferences, everything, pure, Except.pure,
    Except.ok.injEq, Prod.mk.injEq, true_and, ↓reduceIte] at same
  have own : (⟨key.companyId, sensor, equipment⟩ : Key) ∈
      canonical.filter (·.companyId = key.companyId) :=
    List.mem_filter.mpr ⟨listed, by simp⟩
  have knownSensor : sensor ∈ tenant.knownSensors := by
    rw [← same]
    exact List.mem_filter.mpr ⟨List.mem_map.mpr ⟨_, own, rfl⟩, rfl⟩
  have knownEquipment : equipment ∈ tenant.knownEquipment := by
    rw [← same]
    exact List.mem_filter.mpr ⟨List.mem_map.mpr ⟨_, own, rfl⟩, rfl⟩
  have unrefused : tenant.refusal = none := by
    rw [← same]
  simp only [classifyKey, found, unrefused, sensorDone, equipmentDone]
  simp [bind, Except.bind, pure, Except.pure, knownSensor, knownEquipment]

private theorem refusedKeys_everything {runtime : Runtime}
    {keys : List Key} {refused : List (Key × Reason)}
    (done : refusedKeys runtime everything keys = .ok refused) :
    refused = [] := by
  unfold refusedKeys at done
  split at done
  · cases done
    rfl
  · obtain ⟨references, looked, classified⟩ := bind_ok_iff.mp done
    unfold classifyReferences at classified
    obtain ⟨reasons, mapped, same⟩ := bind_ok_iff.mp classified
    have noReason : ∀ reason ∈ reasons, reason = none := by
      intro reason member
      obtain ⟨key, inside, done⟩ := mapM_answer mapped member
      rw [classifyKey_everything looked inside] at done
      cases done
      rfl
    cases same
    rw [List.filterMap_eq_nil_iff]
    rintro ⟨key, reason⟩ member
    rw [noReason reason (List.of_mem_zip member).2]
    rfl

/-- The identifiers of the rows raise in every database, the columns in one
that has everything. -/
private theorem writable_of_unraised {runtime : Runtime}
    {batch : List Reading}
    (unraised : (processBatch runtime everything batch).raised = none)
    {row : Measurement} (member : row ∈ validRows runtime batch) :
    Writable runtime row := by
  cases done : refusedKeys runtime everything
      (keysOf (validRows runtime batch)) with
  | error raised =>
      unfold keysOf validRows at done
      simp [processBatch, done] at unraised
  | ok refused =>
      obtain ⟨canonical, tenant⟩ :=
        refusedKeys_returns_iff.mp ⟨refused, done⟩ row member
      obtain ⟨sensor, equipment⟩ := canonicalKey_returns_iff.mp canonical
      cases refusedKeys_everything done
      unfold keysOf validRows at done
      simp only [processBatch, done] at unraised
      rw [writeTenants_raised_iff] at unraised
      have listed := key_mem member
      have written := unraised row.companyId (by
        rw [List.mem_insertionSort, List.mem_filter, List.mem_eraseDups]
        exact ⟨List.mem_map.mpr ⟨row.key, listed, rfl⟩, by simp⟩)
      obtain ⟨-, columns⟩ := writeTenant_returns_iff.mp written
      refine ⟨?_, sensor, equipment, tenant,
        columns row (List.mem_filter.mpr ⟨member, by simp⟩) rfl⟩
      unfold schemaName at tenant
      obtain ⟨canonical, done, -⟩ := returns_bind_iff.mp tenant
      exact ⟨canonical, done⟩

/-- The batch path is total on the readings that pass the guard, and no set
of contents makes it raise, if and only if those readings are clean. -/
theorem processBatch_total_iff (runtime : Runtime) (batch : List Reading) :
    ((∀ row ∈ validRows runtime batch, Writable runtime row) ↔
      ∀ row ∈ validRows runtime batch, Clean runtime row) ∧
    ((∀ database, (processBatch runtime database batch).raised = none) ↔
      ∀ row ∈ validRows runtime batch, Clean runtime row) := by
  have rows : (∀ row ∈ validRows runtime batch, Writable runtime row) ↔
      ∀ row ∈ validRows runtime batch, Clean runtime row := by
    refine forall₂_congr fun row member => ?_
    obtain ⟨reading, -, passes⟩ := List.mem_filterMap.mp member
    exact writable_iff_clean passes
  refine ⟨rows, ?_⟩
  rw [← rows]
  constructor
  · exact fun unraised row member =>
      writable_of_unraised (unraised everything) member
  · exact fun writable database => processBatch_unraised writable database

/-- A reading whose sensor identifier ends in a newline. -/
def newlineReading : Reading where
  source := ⟨"", "sensor-data-raw", 0, 0⟩
  time := some 0
  sensorId := some "22222222-2222-4222-8222-222222222222\n"
  equipmentId := some "33333333-3333-4333-8333-333333333333"
  siteId := some "site"
  companyId := some "11111111-1111-4111-8111-111111111111"
  value := some 0
  unit := none
  qualityCode := none

/-- The job at the beginning of 1970, on machines that keep UTC. -/
def epoch : Runtime where
  otherInt _ := none
  now := 0
  earliest := -62135510400000000
  latest := 253402300799999999
  current := by decide

/-- The guard accepts it and the driver raises. -/
theorem newline_raises :
    ¬∀ (runtime : Runtime) (batch : List Reading),
      (∀ row ∈ validRows runtime batch, Writable runtime row) ∧
      ∀ database, (processBatch runtime database batch).raised = none := by
  intro always
  have unraised := (always epoch [newlineReading]).2 everything
  have raises : (processBatch epoch everything [newlineReading]).raised =
      some .badlyFormed := by
    decide +kernel
  rw [raises] at unraised
  cases unraised

end IndustryFlow.Measurements
