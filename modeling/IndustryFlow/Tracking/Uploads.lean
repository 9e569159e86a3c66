import IndustryFlow.Words
import IndustryFlow.Concurrent.Pool
import IndustryFlow.Tracking.Requests
import Mathlib.Data.Char
import Mathlib.Data.List.Lex
import Mathlib.Data.List.Sort

/-!
# The upload plane

`upload_stage` hands out one URL per member to put it into the staging area;
`upload_commit` judges what was put there and copies it into the tenant's
area, or refuses and discards it.  A store call that fails raises, which no
code here catches: the request dies, before or after the call took effect.
An object is known by its version, which its ETag names.
-/

namespace IndustryFlow.Tracking

open Concurrent Tenancy

attribute [local instance] Words.lawful_list

/-! ## Keys -/

/-- `MAX_MEMBERS`. -/
def maxMembers : Nat := 64

/-- `MANIFEST_NAME`. -/
def manifestName : Text :=
  ['M', 'L', 'm', 'o', 'd', 'e', 'l']

/-- `_HEAD_BYTES`. -/
def headBytes : Nat := 16

/-- `_MANIFEST_MAX_BYTES`. -/
def manifestMaxBytes : Nat := 256 * 1024

def isIdChar (char : Char) : Bool :=
  ('A' ≤ char && char ≤ 'Z') || ('a' ≤ char && char ≤ 'z') ||
    ('0' ≤ char && char ≤ '9') || char = '_' || char = '-'

/-- `is_upload_id`; the pattern's end also matches before a last newline. -/
def isUploadId (value : Text) : Bool :=
  let body := if value.getLast? = some '\n' then value.dropLast else value
  16 ≤ body.length && body.length ≤ 64 && body.all isIdChar

/-- `safe_member_path`. -/
def safeMemberPath (name : Text) : Option Text :=
  if name.isEmpty then none
  else if 512 < name.length then none
  else if name.head? = some '/' || name.head? = some '\\' then none
  else if '\\' ∈ name then none
  else if name.any (fun char => char.toNat < 0x20 || char.toNat = 0x7F) then
    none
  else if (name.splitOn '/').any (· ∈ [[], ['.'], ['.', '.']]) then none
  else some (['/'].intercalate (name.splitOn '/'))

/-- `staging_prefix`. -/
def stagingPrefix (token uploadId : Text) : Text :=
  stagingRoot ++ token ++ ['/'] ++ uploadId ++ ['/']

/-- `staging_key`. -/
def stagingKey (token uploadId member : Text) : Text :=
  stagingRoot ++ token ++ ['/'] ++ uploadId ++ ['/'] ++ member

/-- `admitted_key`. -/
def admittedKey (owner uploadId member : Text) : Text :=
  owner ++ admittedRoot ++ uploadId ++ ['/'] ++ member

/-- `admitted_uri`. -/
def admittedUri (bucket owner uploadId : Text) : Text :=
  ['s', '3', ':', '/', '/'] ++ bucket ++ ['/'] ++ owner ++ admittedRoot ++
    uploadId

/-- Everything admitted for one upload. -/
def admittedArea (owner uploadId : Text) : Text :=
  owner ++ admittedRoot ++ uploadId ++ ['/']

/-! ## Stores -/

abbrev Bytes := List UInt8

/-- What `admission.evaluate` comes to. -/
inductive Judgement where
  | admitted
  | refused (reason : String)
  | raised
deriving DecidableEq

/-- `company` is the tenant that a handle was minted for, `contents` the bytes
of a version, `decode` is `bytes.decode("utf-8", "replace")`. -/
structure UploadConfig (Version : Type) where
  bucket : Text
  company : Text → Company
  contents : Version → Bytes
  decode : Bytes → Text
  evaluate : Option Text → List (Text × Bytes) → Judgement
  /-- `repr` of a JSON value. -/
  repr : Json → String

/-- The upload handles that resolve, the objects, and the keys that a URL was
signed for. -/
structure UploadStore (Version : Type) where
  live : List Text
  objects : List (Text × Version)
  signed : List Text

section

variable {Version : Type}

namespace UploadStore

def get (store : UploadStore Version) (key : Text) : Option Version :=
  store.objects.lookup key

def put (store : UploadStore Version) (key : Text) (version : Version) :
    UploadStore Version :=
  { store with
    objects := (key, version) :: store.objects.filter (·.1 ≠ key) }

def remove (store : UploadStore Version) (key : Text) :
    UploadStore Version :=
  { store with objects := store.objects.filter (·.1 ≠ key) }

/-- The keys that begin with `owner`, in order. -/
def list (store : UploadStore Version) (owner : Text) : List Text :=
  let keys := (store.objects.map Prod.fst).filter (owner.isPrefixOf ·)
  keys.dedup.insertionSort (· ≤ ·)

end UploadStore

/-! ## Calls -/

/-- Where a commit copies to, and the objects it has copied there and not
removed again.  No call carries it. -/
structure Progress (Version : Type) where
  area : Text
  held : List (Text × Version)
deriving DecidableEq

inductive UploadOp (Version : Type) where
  | resolve (handle : Text)
  | newUploadId
  | presign (key : Text)
  | listKeys (owner : Text)
  | consume (handle : Text)
  | head (key : Text) (length : Nat)
  | copy (source target : Text) (ifMatch : Version)
      (progress : Progress Version)
  | delete (key : Text) (progress : Progress Version)

abbrev UploadReply {Version : Type} : UploadOp Version → Type
  | .resolve _ => Option Company
  | .newUploadId => Text
  | .presign _ => Unit
  | .listKeys _ => List Text
  | .consume _ => Bool
  | .head _ _ => Option (Bytes × Version)
  | .copy _ _ _ _ => Bool
  | .delete _ _ => Unit

/-- `fresh` is the upload id that `new_upload_id` draws. -/
inductive UploadChoice where
  | plain
  | fresh (uploadId : Text)
deriving DecidableEq

/-- A ranged read of an empty object is refused and answers as if there were
no object. -/
def UploadStore.head (config : UploadConfig Version)
    (store : UploadStore Version) (key : Text) (length : Nat) :
    Option (Bytes × Version) :=
  match store.get key with
  | some version =>
      if (config.contents version).isEmpty then none
      else some ((config.contents version).take length, version)
  | none => none

def uploadExec [DecidableEq Version] (config : UploadConfig Version)
    (store : UploadStore Version) :
    (op : UploadOp Version) → UploadChoice →
      Option (UploadReply op × UploadStore Version)
  | .resolve handle, .plain =>
      some (if handle ∈ store.live then some (config.company handle)
        else none, store)
  | .newUploadId, .fresh uploadId =>
      if isUploadId uploadId then some (uploadId, store) else none
  | .presign key, .plain =>
      some ((), { store with signed := key :: store.signed })
  | .listKeys owner, .plain => some (store.list owner, store)
  | .consume handle, .plain =>
      some (decide (handle ∈ store.live),
        { store with live := store.live.filter (· ≠ handle) })
  | .head key length, .plain => some (store.head config key length, store)
  | .copy source target ifMatch _, .plain =>
      if store.get source = some ifMatch then
        some (true, store.put target ifMatch)
      else some (false, store)
  | .delete key _, .plain => some ((), store.remove key)
  | _, _ => none

/-! ## Requests -/

inductive UploadFailed where
  | http (status : Nat) (detail : String)
  /-- An exception, here or in a store call. -/
  | dead
deriving DecidableEq

/-- The answer of a commit; the response does not carry `progress`. -/
structure Committed (Version : Type) where
  uploadId : Text
  artifactUri : Text
  files : List Text
  progress : Progress Version
deriving DecidableEq

inductive UploadAnswer (Version : Type) where
  | staged (uploadId : Text) (urls : List (Text × Text))
  | committed (answer : Committed Version)

abbrev Uploading (Version Answer : Type) :=
  Program (UploadOp Version) UploadReply UploadFailed Answer

/-- `await _json_body(request) or {}`. -/
def readBody (body : Body) : Uploading Version Message :=
  match jsonBody body with
  | .ok message => pure message
  | .error refusal => .fail (.http refusal.status refusal.detail)

/-- `uploader`. -/
def uploader (handle : Text) : Uploading Version Company := do
  match ← Program.perform (UploadOp.resolve handle) with
  | some company => pure company
  | none => .fail (.http 401 "upload capability refused")

/-- The loop of `upload_stage` over the names: the members in the order they
first came. -/
def safeMembers (config : UploadConfig Version) :
    List Json → List Text → Except UploadFailed (List Text)
  | [], safe => pure safe
  | raw :: members, safe =>
      let name := match raw with
        | .str text => text.toList
        | _ => []
      match safeMemberPath name with
      | none => .error
          (.http 400 ("unusable file path: " ++ config.repr raw))
      | some member => safeMembers config members
          (if member ∈ safe then safe else safe ++ [member])

def presignAll (token uploadId : Text) :
    List Text → Uploading Version (List (Text × Text))
  | [] => pure []
  | member :: members => do
      let key := stagingKey token uploadId member
      Program.perform (UploadOp.presign key)
      let urls ← presignAll token uploadId members
      pure ((member, key) :: urls)

/-- `upload_stage`. -/
def uploadStage (config : UploadConfig Version) (handle : Text)
    (body : Body) : Uploading Version (UploadAnswer Version) := do
  let company ← uploader handle
  let body ← readBody body
  match Json.get body "files" with
  | .arr members =>
      if members.isEmpty then
        .fail (.http 400 "an upload must name its files")
      else if maxMembers < members.length then
        .fail (.http 400 "an artifact may carry at most 64 files")
      else match safeMembers config members [] with
        | .error error => .fail error
        | .ok safe =>
            if manifestName ∈ safe then do
              let token := tenantToken company
              let uploadId ← Program.perform UploadOp.newUploadId
              let urls ← presignAll token uploadId safe
              pure (.staged uploadId urls)
            else
              .fail (.http 400 "an artifact must carry its MLmodel manifest")
  | _ => .fail (.http 400 "an upload must name its files")

/-- `discard`: the objects that are held become fewer as they are deleted. -/
def discard (area : Text) :
    List (Text × Version) → List Text → Uploading Version Unit
  | _, [] => pure ()
  | held, key :: keys => do
      Program.perform (UploadOp.delete key ⟨area, held⟩)
      discard area (held.filter (·.1 ≠ key)) keys

/-- One read per member. -/
def readMembers (manifestKey : Text) :
    List Text → Uploading Version (List (Text × Option (Bytes × Version)))
  | [] => pure []
  | key :: keys => do
      let read ← Program.perform (UploadOp.head key
        (if key = manifestKey then manifestMaxBytes + 1 else headBytes))
      let reads ← readMembers manifestKey keys
      pure ((key, read) :: reads)

/-- The member that a key under the prefix names. -/
def memberOf (owner key : Text) : Text :=
  (ownedName owner key).getD []

/-- Nothing of the upload is admitted. -/
def abandon (area : Text) (held : List (Text × Version))
    (keys : List Text) {Answer : Type} : Uploading Version Answer := do
  discard area held (held.map Prod.fst ++ keys)
  .fail (.http 409 "the upload changed while it was being judged")

/-- The copies, in turn. -/
def promote (owner uploadId staging : Text) (keys : List Text) :
    List (Text × Option (Bytes × Version)) → List (Text × Version) →
      Uploading Version (List (Text × Version))
  | [], held => pure held
  | (key, read) :: reads, held =>
      let area := admittedArea owner uploadId
      let target := admittedKey owner uploadId (memberOf staging key)
      match read with
      | none => abandon area held keys
      | some (_, version) => do
          let copied ← Program.perform
            (UploadOp.copy key target version ⟨area, held⟩)
          if copied then
            promote owner uploadId staging keys reads
              (held ++ [(target, version)])
          else abandon area held keys

def memberHeads (staging : Text)
    (reads : List (Text × Option (Bytes × Version))) : List (Text × Bytes) :=
  reads.map fun (key, read) => (memberOf staging key,
    match read with
    | some (opening, _) => opening.take headBytes
    | none => [])

/-- The second half of `upload_commit`, once the handle is spent. -/
def judgeAndPromote (config : UploadConfig Version) (company : Company)
    (uploadId : Text) (keys : List Text) :
    Uploading Version (UploadAnswer Version) := do
  let staging := stagingPrefix (tenantToken company) uploadId
  let owner := artifactPrefix company
  let area := admittedArea owner uploadId
  let reads ← readMembers (staging ++ manifestName) keys
  let manifest := ((reads.lookup (staging ++ manifestName)).join).map Prod.fst
  if (manifest.getD []).length > manifestMaxBytes then do
    discard area [] keys
    .fail (.http 422 "the MLmodel manifest is larger than 262144 bytes")
  else
    let heads := memberHeads staging reads
    match config.evaluate (manifest.map config.decode) heads with
    | .raised => .fail .dead
    | .refused reason => do
        discard area [] keys
        .fail (.http 422 reason)
    | .admitted => do
        let held ← promote owner uploadId staging keys reads []
        discard area held keys
        pure (.committed {
          uploadId
          artifactUri := admittedUri config.bucket owner uploadId
          files := (heads.map Prod.fst).insertionSort (· ≤ ·)
          progress := ⟨area, held⟩ })

/-- `upload_commit`. -/
def uploadCommit (config : UploadConfig Version) (handle : Text)
    (body : Body) : Uploading Version (UploadAnswer Version) := do
  let company ← uploader handle
  let body ← readBody body
  match Json.get body "upload_id" with
  | .str text =>
      let uploadId := text.toList
      if isUploadId uploadId then do
        let staging := stagingPrefix (tenantToken company) uploadId
        let listed ← Program.perform (UploadOp.listKeys staging)
        let keys := listed.filter fun key => !(memberOf staging key).isEmpty
        if keys.isEmpty then
          .fail (.http 404 "nothing staged for this upload")
        else do
          let claimed ← Program.perform (UploadOp.consume handle)
          if claimed then judgeAndPromote config company uploadId keys
          else .fail (.http 401 "upload capability refused")
      else .fail (.http 400 "unknown upload")
  | _ => .fail (.http 400 "unknown upload")

inductive UploadRequest where
  | stage (handle : Text) (body : Body)
  | commit (handle : Text) (body : Body)

inductive UploadChange (Version : Type) where
  /-- A member is put through a URL that was handed out. -/
  | put (key : Text) (version : Version)
  | mint (handle : Text)
  /-- The handle expires, is revoked or its tenant is suspended. -/
  | retire (handle : Text)
deriving DecidableEq

def uploadPlane [DecidableEq Version] (config : UploadConfig Version) :
    Pool.System (UploadStore Version) UploadRequest (UploadOp Version)
      UploadReply UploadFailed (UploadAnswer Version) UploadChoice
      (UploadChange Version) where
  code
    | .stage handle body => uploadStage config handle body
    | .commit handle body => uploadCommit config handle body
  dead := .dead
  exec := uploadExec config
  change store
    | .put key version =>
        if key ∈ store.signed then some (store.put key version) else none
    | .mint handle => some { store with live := handle :: store.live }
    | .retire handle => some { store with
        live := store.live.filter (· ≠ handle) }

end

end IndustryFlow.Tracking
