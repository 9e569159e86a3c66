import IndustryFlow.Words
import IndustryFlow.Fallible
import IndustryFlow.Tenancy.Keys

/-!
# The kernel artifact plane

`artifact_object` and `artifact_list`: the object-store calls a kernel's
artifact request leads to, and where the keys of these calls can lie.
-/

namespace IndustryFlow.Tracking

open Tenancy

inductive Method where
  | get
  | put
  | delete
  | other (name : String)
  deriving DecidableEq

structure Refusal where
  status : Nat
  detail : String
  deriving DecidableEq

/-- A call of the object store. -/
inductive StoreCall where
  | presign (verb : Method) (key : Text)
  | delete (key : Text)
  | listFiles (owner : Text)
  deriving DecidableEq

/-- `staging.STAGING_ROOT`. -/
def stagingRoot : Text :=
  ['_', 'u', 'p', 'l', 'o', 'a', 'd', '-',
    's', 't', 'a', 'g', 'i', 'n', 'g', '/']

/-- `staging.ADMITTED_ROOT`. -/
def admittedRoot : Text :=
  ['u', 'p', 'l', 'o', 'a', 'd', 's', '/']

/-- `text.split("/", 1)[0]`. -/
def firstSegment (text : Text) : Text :=
  text.takeWhile (· ≠ '/')

attribute [local instance] Words.lawful_list in
/-- `is_upload_reserved`. -/
def isUploadReserved (company : Company) (scopedKey : Text) : Bool :=
  let key := stripLeft scopedKey
  let relative :=
    match ownedName (artifactPrefix company) key with
    | some [] | none => key
    | some name => name
  firstSegment relative ∈ [stripRight admittedRoot, stripRight stagingRoot]

/-- `scope_artifact_key`. -/
def scopeArtifactKey (company : Company) (key : Text) : Option Text :=
  scopeKey (artifactPrefix company) key

/-- `_artifact_key`. -/
def artifactKey (company : Company) (path : Text) : Except Refusal Text :=
  match scopeArtifactKey company path with
  | none => .error ⟨400, "path is not a plain key"⟩
  | some key => .ok key

/-- `artifact_object`, with the methods its route admits. -/
def artifactObject (company : Company) (method : Method)
    (artifactPath : Text) : Except Refusal StoreCall := do
  if method ∉ [.get, .put, .delete] then
    throw ⟨405, "Method Not Allowed"⟩
  let key ← artifactKey company artifactPath
  if method ∈ [.put, .delete] && isUploadReserved company key then
    throw ⟨403, "uploaded artifacts are written only by the upload plane"⟩
  if method = .delete then
    return .delete key
  return .presign (if method = .put then .put else .get) key

/-- `artifact_list`, with the method its route admits. -/
def artifactList (company : Company) (method : Method) (path : Text) :
    Except Refusal StoreCall := do
  if method ≠ .get then
    throw ⟨405, "Method Not Allowed"⟩
  let key ← artifactKey company path
  return .listFiles key

/-- The `Prefix` of the listing `list_files` asks for. -/
def listPrefix (key : Text) : Text :=
  if key.isEmpty then [] else stripRight key ++ ['/']

/-- The keys and listing prefixes a call names. -/
def StoreCall.keys : StoreCall → List Text
  | .presign _ key => [key]
  | .delete key => [key]
  | .listFiles key => [key, listPrefix key]

/-- Where a key lies that a tenant may address. -/
structure Confined (company : Company) (key : Text) : Prop where
  owned : artifactPrefix company <+: key
  normal : normalize key = stripRight key
  foreign : ∀ other : Company, other ≠ company → ¬artifactPrefix other <+: key
  unstaged : ¬stagingRoot <+: key

/-- What `scope_artifact_key` gives: a key of the tenant, plain up to slashes
at its end. -/
def Placed (company : Company) (key : Text) : Prop :=
  artifactPrefix company <+: key ∧ isPlainKey (stripRight key) = true

theorem artifactKey_placed {company : Company} {path key : Text}
    (placed : artifactKey company path = .ok key) : Placed company key := by
  simp only [artifactKey, scopeArtifactKey] at placed
  split at placed
  · cases placed
  · rename_i found
    cases placed
    exact scopeKey_spec (tenantToken_plain company)
      (tenantToken_no_slash company) found

theorem Placed.confined {company : Company} {key : Text}
    (placed : Placed company key) : Confined company key where
  owned := placed.1
  normal := normalize_of_plain placed.2
  foreign := by
    intro other different ofOther
    exact different (artifactPrefix_disjoint ofOther placed.1)
  unstaged := by
    intro staged
    obtain ⟨rest, joined⟩ := placed.1
    obtain ⟨below, same⟩ := staged
    rw [← joined, artifactPrefix, tenantToken, stagingRoot] at same
    cases same

/-- The listing prefix of a tenant's key is one of the tenant's keys. -/
theorem Placed.listPrefix {company : Company} {key : Text}
    (placed : Placed company key) : Placed company (listPrefix key) := by
  obtain ⟨⟨rest, joined⟩, plain⟩ := placed
  have slashless := tenantToken_no_slash company
  have nonempty : key.isEmpty = false := by
    rw [← joined, artifactPrefix]
    simp
  have shape : Tracking.listPrefix key = stripRight key ++ ['/'] := by
    simp [Tracking.listPrefix, nonempty]
  have stripped : stripRight (stripRight key ++ ['/']) = stripRight key := by
    have once := stripRight_append_slashes (stripRight key) 1
    rw [List.replicate_one] at once
    rw [once]
    exact List.rdropWhile_idempotent _ key
  rw [shape, Placed, stripped]
  refine ⟨?_, plain⟩
  rw [artifactPrefix, List.append_assoc, List.singleton_append] at joined
  rcases stripRight_below slashless rest with bare | below
  · rw [← joined, bare]
    exact List.prefix_refl _
  · rw [← joined]
    exact below.trans (List.prefix_append _ _)

/-- A key in the admitted area is reserved. -/
theorem isUploadReserved_admitted (company : Company) (rest : Text) :
    isUploadReserved company (artifactPrefix company ++ admittedRoot ++ rest) =
      true := by
  have stripped :
      stripLeft (artifactPrefix company ++ (admittedRoot ++ rest)) =
        artifactPrefix company ++ (admittedRoot ++ rest) := by
    rw [artifactPrefix, tenantToken]
    rfl
  have owned : ownedName (artifactPrefix company)
      (artifactPrefix company ++ (admittedRoot ++ rest)) =
        some (admittedRoot ++ rest) :=
    ownedName_append (by simp [artifactPrefix])
  have first : firstSegment (admittedRoot ++ rest) =
      stripRight admittedRoot := rfl
  simp only [isUploadReserved, List.append_assoc, stripped, owned]
  exact decide_eq_true (List.mem_cons.mpr (.inl first))

/-- What an accepted artifact request does: the call it makes, and for a
change the test that its key is not reserved. -/
theorem artifactObject_spec {company : Company} {method : Method}
    {path : Text} {call : StoreCall}
    (acts : artifactObject company method path = .ok call) :
    ∃ key, artifactKey company path = .ok key ∧
      ((∃ verb, call = .presign verb key) ∨ call = .delete key) ∧
      (method = .put ∨ method = .delete →
        isUploadReserved company key = false) := by
  simp only [artifactObject, check_ok_iff, bind_ok_iff] at acts
  obtain ⟨-, key, placed, free, made⟩ := acts
  refine ⟨key, placed, ?_, ?_⟩
  · split at made
    · cases made
      exact .inr rfl
    · cases made
      exact .inl ⟨_, rfl⟩
  · intro changes
    simpa [changes] using free

theorem artifactList_spec {company : Company} {method : Method}
    {path : Text} {call : StoreCall}
    (acts : artifactList company method path = .ok call) :
    method = .get ∧
      ∃ key, artifactKey company path = .ok key ∧ call = .listFiles key := by
  simp only [artifactList, check_ok_iff, bind_ok_iff, not_not] at acts
  obtain ⟨reads, key, placed, made⟩ := acts
  cases made
  exact ⟨reads, key, placed, rfl⟩

/-- The artifact plane is confined to the caller's prefix, and what it changes
is outside the admitted area. -/
theorem artifact_plane_confined (company : Company) (method : Method)
    (path : Text) (call : StoreCall)
    (acts : artifactObject company method path = .ok call ∨
      artifactList company method path = .ok call) :
    ∀ key ∈ call.keys, Confined company key ∧
      (method = .put ∨ method = .delete →
        ¬artifactPrefix company ++ admittedRoot <+: key) := by
  intro named member
  rcases acts with object | list
  · obtain ⟨key, placed, made, free⟩ := artifactObject_spec object
    have same : named = key := by
      rcases made with ⟨verb, rfl⟩ | rfl
      · exact List.mem_singleton.mp member
      · exact List.mem_singleton.mp member
    subst same
    refine ⟨(artifactKey_placed placed).confined, ?_⟩
    intro changes admitted
    obtain ⟨rest, joined⟩ := admitted
    have reserved := isUploadReserved_admitted company rest
    rw [joined, free changes] at reserved
    cases reserved
  · obtain ⟨reads, key, placed, rfl⟩ := artifactList_spec list
    have own := artifactKey_placed placed
    refine ⟨?_, ?_⟩
    · rcases List.mem_cons.mp member with rfl | listed
      · exact own.confined
      · rw [List.mem_singleton.mp listed]
        exact own.listPrefix.confined
    · intro changes
      rcases changes with put | delete
      · cases put.symm.trans reads
      · cases delete.symm.trans reads

/-- Deleting an artifact named with the tenant's own prefix. -/
theorem artifact_plane_confined_delete :
    let company := Company.uniform 'a' (by decide)
    let key := artifactPrefix company ++ ['m', '/', 'f']
    Confined company key ∧ ¬artifactPrefix company ++ admittedRoot <+: key := by
  intro company key
  have acts : artifactObject company .delete key = .ok (.delete key) := by
    decide +kernel
  have kept := artifact_plane_confined company .delete key _ (.inl acts) key
    (List.mem_singleton.mpr rfl)
  exact ⟨kept.1, kept.2 (.inr rfl)⟩

end IndustryFlow.Tracking
