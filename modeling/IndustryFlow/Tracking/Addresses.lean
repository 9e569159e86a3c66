import IndustryFlow.Models.Registry
import IndustryFlow.Tracking.UploadKeys

/-!
# The address of an upload

What a commit answers for an upload is what the serving side loads, for the
tenant of the upload and no other.  An id that ends with a newline is one for
the gateway alone, and a deployment that names no bucket serves no upload.
-/

namespace IndustryFlow.Tracking

open Concurrent Models Tenancy

/-- The filter that `resolve_model_uri` asks the tracking store with. -/
def filterString (runId : Text) : Text :=
  "source_run_id = ".toList ++ '\'' :: (runId ++ ['\''])

/-- The serving side for a tenant. -/
def serving (bucket : Text) (company : Company) : Deployment where
  bucket := String.ofList bucket
  artifactPrefix := some (String.ofList (artifactPrefix company))
  semantics := []

/-- The address of what was uploaded. -/
def uploadAt (uri : Text) : Address :=
  ⟨none, some (String.ofList uri)⟩

/-- The address of what was logged. -/
def runAt (runId : Text) : Address :=
  ⟨some (String.ofList runId), none⟩

def Accepts (bucket : Text) (company : Company) (address : Address) : Prop :=
  checkAddress (serving bucket company) address = none

/-- Between its quotes is the whole text, which neither ends nor escapes
them. -/
structure OneLiteral (filter value : Text) : Prop where
  quoted : filter.splitOn '\'' =
    ["source_run_id = ".toList, value, []]
  plain : '\\' ∉ value

/-- The gateway and the serving side agree on a text, read as the id of an
upload, as an address and as the id of a run. -/
structure Agree (bucket : Text) (company : Company) (value : Text) :
    Prop where
  admitted : isUploadId value = true → Accepts bucket company
    (uploadAt (admittedUri bucket (artifactPrefix company) value))
  addressed : Accepts bucket company (uploadAt value) →
    ∃ uploadId, isUploadId uploadId = true ∧
      (value = admittedUri bucket (artifactPrefix company) uploadId ∨
        value =
          admittedUri bucket (artifactPrefix company) uploadId ++ ['/'])
  own : ∀ other, Accepts bucket company (uploadAt value) →
    Accepts bucket other (uploadAt value) → other = company
  one : ∀ address, (given? address.runId).isSome =
    (given? address.artifactUri).isSome → ¬Accepts bucket company address
  literal : Accepts bucket company (runAt value) →
    OneLiteral (filterString value) value

/-! ## Ids -/

theorem isIdChar_eq (char : Char) :
    Models.isIdChar char = Tracking.isIdChar char := by
  have letter : char.isAlpha = (char.isUpper || char.isLower) := rfl
  have upper : char.isUpper = ('A' ≤ char && char ≤ 'Z') :=
    Bool.decide_and _ _
  have lower : char.isLower = ('a' ≤ char && char ≤ 'z') := rfl
  have digit : char.isDigit = ('0' ≤ char && char ≤ '9') := by
    rw [Char.isDigit]
    rfl
  rw [Models.isIdChar, Tracking.isIdChar, Char.isAlphanum, letter, upper,
    lower, digit]

/-- A body of some characters, with one other character after it or not. -/
theorem optional_end_iff {check : Text → Bool} {last : Char}
    (absent : ∀ body, check body = true → last ∉ body) {value : Text} :
    check (if value.getLast? = some last then value.dropLast else value) =
        true ↔
      ∃ body, check body = true ∧ (value = body ∨ value = body ++ [last]) := by
  by_cases ends : value.getLast? = some last
  · obtain ⟨front, rfl⟩ := List.getLast?_eq_some_iff.mp ends
    rw [if_pos ends, List.dropLast_concat]
    constructor
    · exact fun checked => ⟨front, checked, .inr rfl⟩
    · rintro ⟨body, checked, same | same⟩
      · exact absurd (same ▸ checked) fun checked =>
          absent _ checked (by simp)
      · rw [List.append_left_injective _ same]
        exact checked
  · rw [if_neg ends]
    constructor
    · exact fun checked => ⟨value, checked, .inl rfl⟩
    · rintro ⟨body, checked, rfl | rfl⟩
      · exact checked
      · exact absurd (List.getLast?_concat) ends

/-- Characters of an id, so many. -/
def isBody (least : Nat) (body : Text) : Bool :=
  least ≤ body.length && body.length ≤ 64 && body.all isIdChar

theorem isIdChar_of_isBody {least : Nat} {body : Text}
    (checked : isBody least body = true) {char : Char}
    (member : char ∈ body) : isIdChar char = true := by
  simp only [isBody, Bool.and_eq_true] at checked
  exact List.all_eq_true.mp checked.2 char member

theorem not_mem_of_isBody {least : Nat} {other : Char}
    (outside : isIdChar other = false) (body : Text)
    (checked : isBody least body = true) : other ∉ body := by
  intro member
  rw [isIdChar_of_isBody checked member] at outside
  cases outside

theorem isUploadId_iff {value : Text} :
    isUploadId value = true ↔
      ∃ body, isBody 16 body = true ∧ (value = body ∨ value = body ++ ['\n']) :=
  optional_end_iff (not_mem_of_isBody (by decide))

theorem isUpload_iff {rest : Text} :
    isUpload rest = true ↔
      ∃ body, isBody 16 body = true ∧ (rest = body ∨ rest = body ++ ['/']) := by
  rw [← optional_end_iff (not_mem_of_isBody (by decide)), isUpload, isBody]
  simp only [funext isIdChar_eq]

theorem isRunId_iff {value : Text} :
    isRunId (String.ofList value) = true ↔
      ∃ body, isBody 1 body = true ∧
        (value = body ∨ value = body ++ ['\n']) := by
  rw [← optional_end_iff (not_mem_of_isBody (by decide)), isRunId, isBody,
    String.toList_ofList]
  simp only [funext isIdChar_eq]

/-! ## What the serving side accepts -/

variable {bucket value uri : Text} {company other : Company}

/-- Before the id. -/
def uploadRoot (bucket : Text) (company : Company) : Text :=
  admittedUri bucket (artifactPrefix company) []

theorem admittedUri_eq (uploadId : Text) :
    admittedUri bucket (artifactPrefix company) uploadId =
      uploadRoot bucket company ++ uploadId := by
  rw [uploadRoot, admittedUri, admittedUri, List.append_nil]

theorem admittedRoot_eq : admittedRoot = "uploads/".toList := by
  decide

theorem root_toList : ("s3://" ++ String.ofList bucket ++ "/" ++
    String.ofList (artifactPrefix company) ++ "uploads/").toList =
      uploadRoot bucket company := by
  rw [uploadRoot, admittedUri, List.append_nil, admittedRoot_eq]
  simp only [String.toList_append, String.toList_ofList]
  rfl

theorem ofList_ne_empty {text : Text} (present : text ≠ []) :
    String.ofList text ≠ "" := by
  intro empty
  have same := congrArg String.toList empty
  rw [String.toList_ofList] at same
  exact present same

theorem given?_ofList {text : Text} (present : text ≠ []) :
    given? (some (String.ofList text)) = some (String.ofList text) :=
  given?_some (ofList_ne_empty present)

theorem admittedArtifactRefusal_none_iff {deployment : Deployment}
    {tenant artifactUri : String} (given : artifactUri ≠ "")
    (valid : deployment.artifactPrefix = some tenant) :
    admittedArtifactRefusal deployment (some artifactUri) = none ↔
      deployment.bucket ≠ "" ∧
        ∃ rest, artifactUri.toList = ("s3://" ++ deployment.bucket ++ "/" ++
          tenant ++ "uploads/").toList ++ rest ∧ isUpload rest = true := by
  rw [admittedArtifactRefusal, given?_some given, valid]
  dsimp only
  by_cases unnamed : deployment.bucket = ""
  · rw [if_pos unnamed]
    exact iff_of_false nofun fun accepted => accepted.1 unnamed
  · rw [if_neg unnamed]
    constructor
    · intro accepted
      refine ⟨unnamed, ?_⟩
      split at accepted
      · rename_i both
        obtain ⟨under, upload⟩ := Bool.and_eq_true_iff.mp both
        obtain ⟨rest, parts⟩ := List.isPrefixOf_iff_prefix.mp under
        rw [← parts, List.drop_left] at upload
        exact ⟨rest, parts.symm, upload⟩
      · cases accepted
    · rintro ⟨-, rest, parts, upload⟩
      rw [parts, List.drop_left, upload, Bool.and_true, if_pos]
      exact List.isPrefixOf_iff_prefix.mpr (List.prefix_append _ _)

theorem accepts_uploadAt_iff :
    Accepts bucket company (uploadAt uri) ↔
      bucket ≠ [] ∧ ∃ rest, uri = uploadRoot bucket company ++ rest ∧
        isUpload rest = true := by
  have address : Accepts bucket company (uploadAt uri) ↔
      admittedArtifactRefusal (serving bucket company)
        (some (String.ofList uri)) = none := Iff.rfl
  rw [address]
  by_cases empty : uri = []
  · subst empty
    constructor
    · intro accepted
      cases accepted
    · rintro ⟨-, rest, never, -⟩
      exact absurd never.symm (by simp [uploadRoot, admittedUri])
  · have root := @root_toList bucket company
    have named : String.ofList bucket ≠ "" ↔ bucket ≠ [] :=
      ⟨fun some empty => some (by rw [empty]), ofList_ne_empty⟩
    rw [admittedArtifactRefusal_none_iff (ofList_ne_empty empty) rfl]
    dsimp only [serving]
    rw [root, String.toList_ofList, named]

theorem accepts_runAt_iff (present : value ≠ []) :
    Accepts bucket company (runAt value) ↔
      isRunId (String.ofList value) = true := by
  rw [Accepts, runAt, checkAddress, given?_ofList present]
  dsimp only [given?]
  by_cases run : isRunId (String.ofList value) = true
  · simp [run]
  · simp [run]

/-- The two tenants' roots part at the token. -/
theorem root_unique {rest otherRest : Text}
    (same : uploadRoot bucket company ++ rest =
      uploadRoot bucket other ++ otherRest) : company = other := by
  simp only [uploadRoot, admittedUri, artifactPrefix, List.append_assoc,
    List.append_cancel_left_eq] at same
  exact tenantToken_injective (List.append_inj_left same
    (by rw [tenantToken_length, tenantToken_length]))

/-! ## What the two sides agree on -/

theorem isUpload_of_id {uploadId : Text} (valid : isUploadId uploadId = true)
    (ends : uploadId.getLast? ≠ some '\n') : isUpload uploadId = true := by
  obtain ⟨body, checked, rfl | rfl⟩ := isUploadId_iff.mp valid
  · exact isUpload_iff.mpr ⟨uploadId, checked, .inl rfl⟩
  · exact absurd List.getLast?_concat ends

theorem not_newline_of_isUpload {rest : Text}
    (upload : isUpload rest = true) : '\n' ∉ rest := by
  obtain ⟨body, checked, rfl | rfl⟩ := isUpload_iff.mp upload
  · exact not_mem_of_isBody (by decide) _ checked
  · intro member
    rcases List.mem_append.mp member with inside | last
    · exact not_mem_of_isBody (by decide) _ checked inside
    · cases List.mem_singleton.mp last

theorem accepts_admittedUri_iff {uploadId : Text}
    (valid : isUploadId uploadId = true) :
    Accepts bucket company
        (uploadAt (admittedUri bucket (artifactPrefix company) uploadId)) ↔
      bucket ≠ [] ∧ uploadId.getLast? ≠ some '\n' := by
  rw [accepts_uploadAt_iff, admittedUri_eq]
  constructor
  · rintro ⟨named, rest, same, upload⟩
    rw [List.append_cancel_left_eq] at same
    subst same
    refine ⟨named, fun newline => ?_⟩
    exact not_newline_of_isUpload upload (List.mem_of_getLast? newline)
  · rintro ⟨named, ends⟩
    exact ⟨named, uploadId, rfl, isUpload_of_id valid ends⟩

theorem accepted_addressed
    (accepted : Accepts bucket company (uploadAt value)) :
    ∃ uploadId, isUploadId uploadId = true ∧
      (value = admittedUri bucket (artifactPrefix company) uploadId ∨
        value =
          admittedUri bucket (artifactPrefix company) uploadId ++ ['/']) := by
  obtain ⟨-, rest, rfl, upload⟩ := accepts_uploadAt_iff.mp accepted
  obtain ⟨body, checked, same⟩ := isUpload_iff.mp upload
  refine ⟨body, isUploadId_iff.mpr ⟨body, checked, .inl rfl⟩, ?_⟩
  rw [admittedUri_eq]
  rcases same with rfl | rfl
  · exact .inl rfl
  · exact .inr (List.append_assoc _ _ _).symm

theorem accepted_own (accepted : Accepts bucket company (uploadAt value))
    (also : Accepts bucket other (uploadAt value)) : other = company := by
  obtain ⟨-, rest, rfl, -⟩ := accepts_uploadAt_iff.mp accepted
  obtain ⟨-, otherRest, same, -⟩ := accepts_uploadAt_iff.mp also
  exact (root_unique same).symm

/-- Both a run and an artifact, or neither. -/
theorem one_address {address : Address}
    (alike : (given? address.runId).isSome =
      (given? address.artifactUri).isSome) :
    ¬Accepts bucket company address := by
  unfold Accepts checkAddress
  cases run : given? address.runId with
  | some runId =>
      cases artifact : given? address.artifactUri with
      | some uri => nofun
      | none =>
          rw [run, artifact] at alike
          cases alike
  | none =>
      cases artifact : given? address.artifactUri with
      | some uri =>
          rw [run, artifact] at alike
          cases alike
      | none =>
          rw [admittedArtifactRefusal, artifact]
          nofun

theorem splitOn_quoted {quote : Char} {front quoted : Text}
    (before : quote ∉ front) (inside : quote ∉ quoted) :
    (front ++ quote :: (quoted ++ quote :: [])).splitOn quote =
      [front, quoted, []] := by
  rw [List.splitOn_append_cons_self, List.splitOn_append_cons_self,
    List.splitOn_eq_singleton before, List.splitOn_eq_singleton inside]
  rfl

theorem filterString_literal (run : isRunId (String.ofList value) = true) :
    OneLiteral (filterString value) value := by
  obtain ⟨body, checked, parts⟩ := isRunId_iff.mp run
  have plain {char : Char} (outside : isIdChar char = false)
      (other : char ≠ '\n') : char ∉ value := by
    rcases parts with rfl | rfl
    · exact not_mem_of_isBody outside _ checked
    · intro member
      rcases List.mem_append.mp member with inside | last
      · exact not_mem_of_isBody outside _ checked inside
      · exact other (List.mem_singleton.mp last)
  have quoteless : '\'' ∉ value := plain (by decide) (by decide)
  refine ⟨?_, plain (by decide) (by decide)⟩
  have start : '\'' ∉ "source_run_id = ".toList := by
    decide +kernel
  exact splitOn_quoted start quoteless

theorem accepted_literal (accepted : Accepts bucket company (runAt value)) :
    OneLiteral (filterString value) value := by
  by_cases empty : value = []
  · subst empty
    cases accepted
  · exact filterString_literal ((accepts_runAt_iff empty).mp accepted)

/-! ## What a commit answers -/

section Commit

variable {Version Answer Result : Type} (config : UploadConfig Version)

/-- A handle resolves to its tenant. -/
def Resolves : (op : UploadOp Version) → UploadReply op → Prop
  | .resolve handle, some company => company = config.company handle
  | _, _ => True

/-- The address that is answered is the one the serving side accepts for the
tenant, but for a newline or a bucket without a name. -/
def Served (handle : Text) :
    Except UploadFailed (UploadAnswer Version) → Prop
  | .ok (.committed answer) => isUploadId answer.uploadId = true ∧
      (Accepts config.bucket (config.company handle)
          (uploadAt answer.artifactUri) ↔
        config.bucket ≠ [] ∧ answer.uploadId.getLast? ≠ some '\n')
  | _ => True

variable {config} {handle : Text}

theorem served_after {program : Uploading Version Answer}
    {continuation : Answer → Uploading Version (UploadAnswer Version)}
    (rest : ∀ answer, (continuation answer).Always (Resolves config)
      (fun _ => True) (Served config handle)) :
    (program >>= continuation).Always (Resolves config) (fun _ => True)
      (Served config handle) :=
  (Program.always_any program).bind (fun answer _ => rest answer)
    fun _ _ => trivial

theorem judgeAndPromote_served {uploadId : Text}
    (valid : isUploadId uploadId = true) (keys : List Text) :
    (judgeAndPromote config (config.company handle) uploadId keys).Always
      (Resolves config) (fun _ => True) (Served config handle) := by
  refine served_after fun reads => ?_
  dsimp only
  split
  · exact served_after fun _ => trivial
  · split
    · trivial
    · exact served_after fun _ => trivial
    · refine served_after fun held => served_after fun _ => ?_
      exact ⟨valid, accepts_admittedUri_iff valid⟩

theorem uploadCommit_served (body : Body) :
    (uploadCommit config handle body).Always (Resolves config)
      (fun _ => True) (Served config handle) := by
  refine ⟨trivial, fun resolved known => ?_⟩
  cases resolved with
  | none => trivial
  | some company =>
      subst known
      change Program.Always _ _ _ (readBody body >>= _)
      refine served_after fun fields => ?_
      split
      · dsimp only
        split
        · rename_i valid
          refine served_after fun listed => ?_
          split
          · trivial
          · refine served_after fun claimed => ?_
            split
            · exact judgeAndPromote_served valid _
            · trivial
        · trivial
      · trivial

end Commit

/-- The two sides agree, unless a text is an id for the gateway by its newline
or no bucket is named; so too for what a commit answers. -/
theorem agree_iff (bucket : Text) (company : Company) (value : Text) :
    (Agree bucket company value ↔
      (isUploadId value = true →
        bucket ≠ [] ∧ value.getLast? ≠ some '\n')) ∧
      ∀ (Version : Type) (config : UploadConfig Version) (handle : Text)
        (body : Body), (uploadCommit config handle body).Always
          (Resolves config) (fun _ => True) (Served config handle) := by
  refine ⟨?_, fun _ _ _ body => uploadCommit_served body⟩
  constructor
  · intro agree valid
    exact (accepts_admittedUri_iff valid).mp (agree.admitted valid)
  · intro served
    exact ⟨fun valid => (accepts_admittedUri_iff valid).mpr (served valid),
      accepted_addressed, fun other => accepted_own,
      fun address => one_address, accepted_literal⟩

/-- An id with a newline is committed and then not served. -/
theorem newline_strands_upload :
    ¬∀ bucket company value, Agree bucket company value := by
  intro always
  have valid : isUploadId (plainId ++ ['\n']) = true := by
    decide
  exact ((accepts_admittedUri_iff valid).mp
    ((always ['m'] sampleCompany (plainId ++ ['\n'])).admitted valid)).2
      List.getLast?_concat

end IndustryFlow.Tracking
