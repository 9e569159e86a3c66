import IndustryFlow.Tracking.Artifacts
import IndustryFlow.Tracking.Commit

/-!
# Admitted uploads

A staged member can be put again through its URL as long as the URL lives, and
an upload can be committed again under another handle: nothing records that it
was admitted.  As long as a commit copies only where no other commit of the
upload has objects, the objects of an upload that was admitted never change.
-/

namespace IndustryFlow.Tracking

open Concurrent Tenancy

variable {Version : Type}

/-! ## The gateway -/

/-- What happens beside the requests of the upload plane. -/
inductive GatewayChange (Version : Type) where
  | upload (change : UploadChange Version)
  /-- A kernel of the tenant sends an artifact request. -/
  | artifact (company : Company) (method : Method) (path : Text)
  /-- The URLs that were signed for the key expire. -/
  | expire (key : Text)
deriving DecidableEq

/-- The object store's side of a call; only a URL for `PUT` writes. -/
def UploadStore.call (store : UploadStore Version) :
    StoreCall → UploadStore Version
  | .presign .put key => { store with signed := key :: store.signed }
  | .presign _ _ => store
  | .delete key => store.remove key
  | .listFiles _ => store

abbrev GatewayEvent (Version : Type) :=
  PoolEvent UploadRequest UploadChoice (GatewayChange Version)

/-- The upload plane beside the kernels' artifact plane. -/
def gateway [DecidableEq Version] (config : UploadConfig Version) :
    Pool.System (UploadStore Version) UploadRequest (UploadOp Version)
      UploadReply UploadFailed (UploadAnswer Version) UploadChoice
      (GatewayChange Version) where
  code := (uploadPlane config).code
  dead := .dead
  exec := uploadExec config
  change store
    | .upload change => (uploadPlane config).change store change
    | .artifact company method path =>
        match artifactObject company method path with
        | .ok call => some (store.call call)
        | .error _ => some store
    | .expire key => some { store with
        signed := store.signed.filter (· ≠ key) }

/-- A member that is still the one read is copied only where no other commit
of the upload has objects. -/
def CopiesApart (pool : Uploads Version) (index : Nat) :
    UploadOp Version → Prop
  | .copy source _ version progress =>
      pool.shared.get source = some version →
        ∀ thread ∈ pool.threads.eraseIdx index,
          (progressOf thread.program).held ≠ [] →
            (progressOf thread.program).area ≠ progress.area
  | _ => True

/-- No two commits of an upload have objects in its area. -/
def OneCommit (pool : Uploads Version) : GatewayEvent Version → Prop
  | .step index _ => ∀ op ∈ nextCall pool index, CopiesApart pool index op
  | .lose index _ => ∀ op ∈ nextCall pool index, CopiesApart pool index op
  | _ => True

section

variable [DecidableEq Version]

instance (pool : Uploads Version) (index : Nat) (op : UploadOp Version) :
    Decidable (CopiesApart pool index op) :=
  match op with
  | .copy _ _ _ _ => inferInstanceAs (Decidable (_ → _))
  | .resolve _ | .newUploadId | .presign _ | .listKeys _ | .consume _
  | .head _ _ | .delete _ _ => .isTrue trivial

instance (pool : Uploads Version) (event : GatewayEvent Version) :
    Decidable (OneCommit pool event) :=
  match event with
  | .step _ _ => inferInstanceAs (Decidable (∀ _ ∈ _, _))
  | .lose _ _ => inferInstanceAs (Decidable (∀ _ ∈ _, _))
  | .spawn _ => .isTrue trivial
  | .abort _ => .isTrue trivial
  | .environment _ => .isTrue trivial

end

/-! ## Keys that are written -/

/-- Nothing that was admitted is at the key. -/
def Unadmitted (key : Text) : Prop :=
  ∀ area, IsArea area → ¬area <+: key

theorem unadmitted_staged {key : Text} (staged : stagingRoot <+: key) :
    Unadmitted key :=
  fun _ isArea inside => isArea.not_staging inside staged

theorem artifactObject_put {company : Company} {method : Method}
    {path key : Text} (acts : artifactObject company method path =
      .ok (.presign .put key)) : method = .put := by
  simp only [artifactObject, check_ok_iff, bind_ok_iff] at acts
  obtain ⟨-, _, -, -, made⟩ := acts
  split at made
  · cases made
  · by_contra other
    rw [if_neg other] at made
    cases made

theorem artifactObject_delete {company : Company} {method : Method}
    {path key : Text} (acts : artifactObject company method path =
      .ok (.delete key)) : method = .delete := by
  simp only [artifactObject, check_ok_iff, bind_ok_iff] at acts
  obtain ⟨-, _, -, -, made⟩ := acts
  by_contra other
  rw [if_neg other] at made
  cases made

/-- A kernel writes nothing that was admitted, to any tenant. -/
theorem unadmitted_artifact {company : Company} {path key : Text}
    (placed : artifactKey company path = .ok key)
    (free : isUploadReserved company key = false) : Unadmitted key := by
  rintro area ⟨owner, uploadId, -, rfl⟩ inside
  have confined := (artifactKey_placed placed).confined
  simp only [admittedArea, List.append_assoc] at inside
  have same : owner = company := by
    by_contra different
    exact confined.foreign owner different
      ((List.prefix_append _ _).trans inside)
  subst same
  obtain ⟨rest, joined⟩ := inside
  have reserved := isUploadReserved_admitted owner
    (uploadId ++ (['/'] ++ rest))
  simp only [List.append_assoc] at reserved joined
  rw [joined, free] at reserved
  cases reserved

/-! ## Calls -/

section

variable [DecidableEq Version] {config : UploadConfig Version}
variable {Answer : Type}
variable {post : Text → List (Text × Version) → Answer → Prop}

/-- The call copies a member. -/
def Copies (store : UploadStore Version) : UploadOp Version → Prop
  | .copy source _ version _ => store.get source = some version
  | _ => False

/-- An admitted object is written only by a request that has objects in the
area, or that copies its first. -/
theorem call_elsewhere {op : UploadOp Version}
    {next : UploadReply op → Uploading Version Answer} {area : Text}
    {held : List (Text × Version)} {store after : UploadStore Version}
    {choice : UploadChoice} {reply : UploadReply op}
    (tracked : Tracked config post (.call op next) area held)
    (holding : held ≠ [] → Holding area held)
    (executed : uploadExec config store op choice = some (reply, after))
    {key : Text} (outside : ¬stagingRoot <+: key)
    (changed : after.get key ≠ store.get key) :
    IsArea area ∧ area <+: key ∧ (held = [] → Copies store op) := by
  by_cases copies : ∃ source target version progress,
      op = .copy source target version progress
  · obtain ⟨source, target, version, progress, rfl⟩ := copies
    obtain ⟨rfl, isArea, inside, -⟩ := tracked
    rcases exec_copy executed with ⟨-, same, rfl⟩ | ⟨-, -, rfl⟩
    · have here : key = target := by
        by_contra different
        exact changed (UploadStore.get_put_of_ne different)
      subst here
      exact ⟨isArea, inside, fun _ => same⟩
    · exact absurd rfl changed
  · by_cases deletes : ∃ key progress, op = .delete key progress
    · obtain ⟨gone, progress, rfl⟩ := deletes
      obtain ⟨rfl, own, -⟩ := tracked
      cases exec_delete executed
      have here : key = gone := by
        by_contra different
        exact changed (UploadStore.get_remove_of_ne different)
      subst here
      have member := own.resolve_right outside
      have some : held ≠ [] := by
        rintro rfl
        cases member
      obtain ⟨object, found, rfl⟩ := List.mem_map.mp member
      have placed := holding some
      exact ⟨placed.isArea, placed.inside object found,
        fun empty => absurd empty some⟩
    · obtain ⟨objects, -⟩ := exec_reads executed
        (fun source target version progress same =>
          copies ⟨source, target, version, progress, same⟩)
        (fun key progress same => deletes ⟨key, progress, same⟩)
      refine absurd ?_ changed
      rw [UploadStore.get, objects]
      rfl

/-- What a request has once a call is answered. -/
theorem call_continues {op : UploadOp Version}
    {next : UploadReply op → Uploading Version Answer} {area : Text}
    {held : List (Text × Version)} {store after : UploadStore Version}
    {choice : UploadChoice} {reply : UploadReply op}
    (tracked : Tracked config post (.call op next) area held)
    (holding : held ≠ [] → Holding area held)
    (executed : uploadExec config store op choice = some (reply, after)) :
    ∃ left rest, Tracked config post (next reply) left rest ∧
      (rest ≠ [] → left = area ∧ Holding area rest ∧
        (held = [] → Copies store op)) := by
  by_cases copies : ∃ source target version progress,
      op = .copy source target version progress
  · obtain ⟨source, target, version, progress, rfl⟩ := copies
    obtain ⟨rfl, isArea, ⟨member, rfl⟩, absent, copied, refused⟩ := tracked
    have placed : Holding area held := by
      by_cases some : held = []
      · subst some
        exact ⟨isArea, by simp, List.nodup_nil⟩
      · exact holding some
    rcases exec_copy executed with ⟨rfl, same, -⟩ | ⟨rfl, -, -⟩
    · exact ⟨area, _, copied, fun _ =>
        ⟨rfl, placed.add absent version, fun _ => same⟩⟩
    · exact ⟨area, held, refused, fun some =>
        ⟨rfl, placed, fun empty => absurd empty some⟩⟩
  · by_cases deletes : ∃ key progress, op = .delete key progress
    · obtain ⟨key, progress, rfl⟩ := deletes
      obtain ⟨rfl, -, further⟩ := tracked
      refine ⟨area, _, further, fun some => ?_⟩
      have held_some : held ≠ [] := by
        rintro rfl
        exact some rfl
      have placed := holding held_some
      refine ⟨rfl, ⟨placed.isArea, ?_, ?_⟩,
        fun empty => absurd empty held_some⟩
      · intro object found
        exact placed.inside object (List.mem_filter.mp found).1
      · exact placed.distinct.sublist (List.filter_sublist.map _)
    · have noCopy : ∀ source target version progress,
          op ≠ .copy source target version progress :=
        fun source target version progress same =>
          copies ⟨source, target, version, progress, same⟩
      have noDelete : ∀ key progress, op ≠ .delete key progress :=
        fun key progress same => deletes ⟨key, progress, same⟩
      obtain ⟨-, -, rest⟩ := tracked.reads noCopy noDelete
      obtain ⟨-, honest, -⟩ := exec_reads executed noCopy noDelete
      obtain ⟨left, further⟩ := rest reply honest
      exact ⟨left, [], further, fun some => absurd rfl some⟩

/-- A URL is signed for a staged key. -/
theorem call_signed {op : UploadOp Version}
    {next : UploadReply op → Uploading Version Answer} {area : Text}
    {held : List (Text × Version)} {store after : UploadStore Version}
    {choice : UploadChoice} {reply : UploadReply op}
    (tracked : Tracked config post (.call op next) area held)
    (executed : uploadExec config store op choice = some (reply, after)) :
    ∀ key ∈ after.signed, key ∈ store.signed ∨ stagingRoot <+: key := by
  intro key member
  cases op with
  | copy source target version progress =>
      rcases exec_copy executed with ⟨-, -, rfl⟩ | ⟨-, -, rfl⟩
      · exact .inl member
      · exact .inl member
  | delete gone progress =>
      cases exec_delete executed
      exact .inl member
  | _ =>
      obtain ⟨-, staged, -⟩ := tracked.reads nofun nofun
      obtain ⟨-, -, urls⟩ := exec_reads executed nofun nofun
      exact (urls key member).imp_right (staged key)

end

/-! ## Runs -/

/-- Every request is tracked, what it holds is in its area, no two requests
hold objects in one area, and no URL is for an admitted object. -/
structure SoundGateway (config : UploadConfig Version)
    (pool : Uploads Version) : Prop where
  tracked : ∀ thread ∈ pool.threads,
    Tracked config (Answers config thread.request) thread.program
      (progressOf thread.program).area (progressOf thread.program).held
  holding : ∀ thread ∈ pool.threads,
    (progressOf thread.program).held ≠ [] →
      Holding (progressOf thread.program).area
        (progressOf thread.program).held
  apart : ∀ (index other : Nat) (thread found : Upload Version),
    index ≠ other →
    pool.threads[index]? = some thread →
    pool.threads[other]? = some found →
    (progressOf thread.program).held ≠ [] →
    (progressOf found.program).held ≠ [] →
      (progressOf thread.program).area ≠ (progressOf found.program).area
  signed : ∀ key ∈ pool.shared.signed, Unadmitted key

variable {config : UploadConfig Version}

theorem mem_eraseIdx_of_getElem? {Item : Type} {items : List Item}
    {index other : Nat} {item : Item} (different : index ≠ other)
    (found : items[other]? = some item) : item ∈ items.eraseIdx index :=
  List.mem_eraseIdx_iff_getElem?.mpr ⟨other, different.symm, found⟩

/-- The request goes on; the others' areas are apart from what it has then. -/
theorem SoundGateway.replace {pool : Uploads Version}
    (sound : SoundGateway config pool) {index : Nat}
    {request : UploadRequest}
    {program next : Uploading Version (UploadAnswer Version)}
    (running : pool.threads[index]? = some ⟨request, program⟩)
    {after : UploadStore Version}
    {left : Text} {rest : List (Text × Version)}
    (tracked : Tracked config (Answers config request) next left rest)
    (holding : rest ≠ [] → Holding left rest)
    (others : rest ≠ [] → ∀ other found, index ≠ other →
      pool.threads[other]? = some found →
      (progressOf found.program).held ≠ [] →
        left ≠ (progressOf found.program).area)
    (signed : ∀ key ∈ after.signed, Unadmitted key) :
    SoundGateway config
      ⟨after, pool.threads.set index ⟨request, next⟩⟩ := by
  obtain ⟨same, whole⟩ := tracked.progress
  refine ⟨?_, ?_, ?_, signed⟩
  · intro thread member
    rcases List.mem_or_eq_of_mem_set member with before | rfl
    · exact sound.tracked thread before
    · exact tracked.anchored
  · intro thread member some
    rcases List.mem_or_eq_of_mem_set member with before | rfl
    · exact sound.holding thread before some
    · rw [same] at some
      rw [whole some]
      exact holding some
  · intro first second thread found different one two held alsoHeld
    rcases Pool.getElem?_set_cases one with ⟨rfl, rfl⟩ | ⟨apart, before⟩
    · rcases Pool.getElem?_set_cases two with ⟨rfl, -⟩ | ⟨-, present⟩
      · exact absurd rfl different
      · rw [same] at held
        rw [whole held]
        exact others held second found different present alsoHeld
    · rcases Pool.getElem?_set_cases two with ⟨rfl, rfl⟩ | ⟨-, present⟩
      · rw [same] at alsoHeld
        rw [whole alsoHeld]
        exact (others alsoHeld first thread (Ne.symm different) before
          held).symm
      · exact sound.apart _ _ _ _ different before present held alsoHeld

/-- A request that dies has nothing more. -/
theorem SoundGateway.died {pool : Uploads Version}
    (sound : SoundGateway config pool) {index : Nat}
    {request : UploadRequest}
    {program : Uploading Version (UploadAnswer Version)}
    (running : pool.threads[index]? = some ⟨request, program⟩)
    {after : UploadStore Version}
    (signed : ∀ key ∈ after.signed, Unadmitted key) :
    SoundGateway config
      ⟨after, pool.threads.set index ⟨request, .fail .dead⟩⟩ := by
  have nothing : Tracked config (Answers config request)
      (.fail .dead : Uploading Version (UploadAnswer Version)) [] [] := rfl
  exact sound.replace running nothing (fun some => absurd rfl some)
    (fun some => absurd rfl some) signed

theorem SoundGateway.spawn {pool : Uploads Version}
    (sound : SoundGateway config pool) {thread : Upload Version}
    {area : Text} (tracked : Tracked config (Answers config thread.request)
      thread.program area []) :
    SoundGateway config ⟨pool.shared, pool.threads ++ [thread]⟩ := by
  have nothing := tracked.progress.1
  refine ⟨?_, ?_, ?_, sound.signed⟩
  · intro other member
    rcases List.mem_append.mp member with before | last
    · exact sound.tracked other before
    · cases List.mem_singleton.mp last
      exact tracked.anchored
  · intro other member some
    rcases List.mem_append.mp member with before | last
    · exact sound.holding other before some
    · cases List.mem_singleton.mp last
      exact absurd nothing some
  · intro index other found more different one two held alsoHeld
    rcases Pool.getElem?_concat_cases one with before | ⟨-, rfl⟩
    · rcases Pool.getElem?_concat_cases two with present | ⟨-, rfl⟩
      · exact sound.apart _ _ _ _ different before present held alsoHeld
      · exact absurd nothing alsoHeld
    · exact absurd nothing held

/-- A request that has objects has an area of its own, also once it has its
next object. -/
theorem SoundGateway.others {pool : Uploads Version}
    (sound : SoundGateway config pool) {index : Nat}
    {request : UploadRequest} {op : UploadOp Version}
    {next : UploadReply op → Uploading Version (UploadAnswer Version)}
    (running : pool.threads[index]? = some ⟨request, .call op next⟩)
    (alone : CopiesApart pool index op)
    (copies : (progressOf (.call op next)).held = [] →
      Copies pool.shared op)
    {other : Nat} {found : Upload Version} (different : index ≠ other)
    (present : pool.threads[other]? = some found)
    (some : (progressOf found.program).held ≠ []) :
    (progressOf (.call op next)).area ≠ (progressOf found.program).area := by
  by_cases held : (progressOf (.call op next)).held = []
  · cases op with
    | copy source target version progress =>
        exact (alone (copies held) found
          (mem_eraseIdx_of_getElem? different present) some).symm
    | _ => exact (copies held).elim
  · exact sound.apart _ _ _ _ different running present held some

section

variable [DecidableEq Version]

/-- What the environment does is done outside what was admitted. -/
theorem change_unadmitted {store after : UploadStore Version}
    {change : GatewayChange Version}
    (signed : ∀ key ∈ store.signed, Unadmitted key)
    (changed : (gateway config).change store change = some after) :
    (∀ key, ¬Unadmitted key → after.get key = store.get key) ∧
      ∀ key ∈ after.signed, Unadmitted key := by
  cases change with
  | upload change =>
      cases change with
      | put key version =>
          simp only [gateway, uploadPlane] at changed
          split at changed
          · rename_i url
            cases changed
            refine ⟨fun other outside => ?_, signed⟩
            refine UploadStore.get_put_of_ne fun same => outside ?_
            rw [same]
            exact signed key url
          · cases changed
      | mint handle =>
          cases changed
          exact ⟨fun _ _ => rfl, signed⟩
      | retire handle =>
          cases changed
          exact ⟨fun _ _ => rfl, signed⟩
  | artifact company method path =>
      simp only [gateway] at changed
      split at changed
      · rename_i call acts
        cases changed
        obtain ⟨key, placed, made, free⟩ := artifactObject_spec acts
        have own : method = .put ∨ method = .delete → Unadmitted key :=
          fun writes => unadmitted_artifact placed (free writes)
        rcases made with ⟨verb, rfl⟩ | rfl
        · have putting : verb = .put → method = .put := by
            rintro rfl
            exact artifactObject_put acts
          cases verb with
          | put =>
              refine ⟨fun _ _ => rfl, fun other member => ?_⟩
              rcases List.mem_cons.mp member with rfl | before
              · exact own (.inl (putting rfl))
              · exact signed other before
          | _ => exact ⟨fun _ _ => rfl, signed⟩
        · refine ⟨fun other outside => ?_, signed⟩
          refine UploadStore.get_remove_of_ne fun same => outside ?_
          rw [same]
          exact own (.inr (artifactObject_delete acts))
      · cases changed
        exact ⟨fun _ _ => rfl, signed⟩
  | expire key =>
      cases changed
      exact ⟨fun _ _ => rfl, fun other member =>
        signed other (List.mem_filter.mp member).1⟩

/-- A step of a request that goes on or dies. -/
theorem SoundGateway.moved {pool : Uploads Version}
    (sound : SoundGateway config pool) {index : Nat}
    {request : UploadRequest} {op : UploadOp Version}
    {next : UploadReply op → Uploading Version (UploadAnswer Version)}
    {choice : UploadChoice} {reply : UploadReply op}
    {after : UploadStore Version}
    (running : pool.threads[index]? = some ⟨request, .call op next⟩)
    (alone : CopiesApart pool index op)
    (executed : uploadExec config pool.shared op choice =
      some (reply, after)) :
    SoundGateway config ⟨after, pool.threads.set index ⟨request, next reply⟩⟩ ∧
      SoundGateway config
        ⟨after, pool.threads.set index ⟨request, .fail .dead⟩⟩ := by
  have here := List.mem_of_getElem? running
  have tracked := sound.tracked _ here
  have holding := sound.holding _ here
  have signed : ∀ key ∈ after.signed, Unadmitted key := by
    intro key member
    rcases call_signed tracked executed key member with before | staged
    · exact sound.signed key before
    · exact unadmitted_staged staged
  obtain ⟨left, rest, further, kept⟩ :=
    call_continues tracked holding executed
  constructor
  · refine sound.replace running further ?_ ?_ signed
    · intro some
      obtain ⟨rfl, placed, -⟩ := kept some
      exact placed
    · intro some other found different present held
      obtain ⟨rfl, -, copies⟩ := kept some
      exact sound.others running alone copies different present held
  · exact sound.died running signed

theorem step_soundGateway {pool next : Uploads Version}
    {event : GatewayEvent Version} (sound : SoundGateway config pool)
    (apart : OneCommit pool event)
    (taken : Pool.step (gateway config) pool event = some next) :
    SoundGateway config next := by
  cases Pool.stepped taken with
  | spawn request =>
      obtain ⟨area, tracked⟩ := code_tracked config request
      exact sound.spawn tracked
  | step running executed =>
      exact (sound.moved running (apart _ (nextCall_eq running)) executed).1
  | abort running => exact sound.died running sound.signed
  | lose running executed =>
      exact (sound.moved running (apart _ (nextCall_eq running)) executed).2
  | environment changed =>
      exact ⟨sound.tracked, sound.holding, sound.apart,
        (change_unadmitted sound.signed changed).2⟩

/-- A call that is made leaves the area of every commit that has answered. -/
theorem SoundGateway.admitted {pool : Uploads Version}
    (sound : SoundGateway config pool) {index done : Nat}
    {request answered : UploadRequest} {op : UploadOp Version}
    {next : UploadReply op → Uploading Version (UploadAnswer Version)}
    {choice : UploadChoice} {reply : UploadReply op}
    {after : UploadStore Version} {answer : Committed Version}
    (running : pool.threads[index]? = some ⟨request, .call op next⟩)
    (alone : CopiesApart pool index op)
    (executed : uploadExec config pool.shared op choice =
      some (reply, after))
    (present : pool.threads[done]? =
      some ⟨answered, .done (.committed answer)⟩)
    (some : answer.progress.held ≠ []) (isArea : IsArea answer.progress.area)
    {key : Text} (inside : answer.progress.area <+: key) :
    after.get key = pool.shared.get key := by
  by_contra changed
  have here := List.mem_of_getElem? running
  obtain ⟨own, written, copies⟩ := call_elsewhere (sound.tracked _ here)
    (sound.holding _ here) executed (isArea.not_staging inside) changed
  have different : index ≠ done := by
    rintro rfl
    rw [running] at present
    cases present
  refine sound.others running alone copies different present some ?_
  exact own.unique isArea written inside

/-- One step leaves the area of every commit that has answered. -/
theorem step_admitted {pool next : Uploads Version}
    {event : GatewayEvent Version} (sound : SoundGateway config pool)
    (apart : OneCommit pool event)
    (taken : Pool.step (gateway config) pool event = some next)
    {handle : Text} {body : Body} {answer : Committed Version}
    (answered : ⟨.commit handle body, .done (.committed answer)⟩ ∈
      pool.threads) :
    ⟨.commit handle body, .done (.committed answer)⟩ ∈ next.threads ∧
      ∀ key, admittedArea (artifactPrefix (config.company handle))
          answer.uploadId <+: key →
        next.shared.get key = pool.shared.get key := by
  obtain ⟨-, some, holding, judged⟩ := sound.tracked _ answered
  obtain ⟨done, present⟩ := List.getElem?_of_mem answered
  have kept : ⟨.commit handle body, .done (.committed answer)⟩ ∈
      next.threads := by
    obtain ⟨thread, there, -, same⟩ := Pool.step_request present taken
    rw [same rfl] at there
    exact List.mem_of_getElem? there
  refine ⟨kept, fun key inside => ?_⟩
  rw [← judged.area] at inside
  cases Pool.stepped taken with
  | spawn request => rfl
  | abort running => rfl
  | step running executed =>
      exact sound.admitted running (apart _ (nextCall_eq running)) executed
        present some holding.isArea inside
  | lose running executed =>
      exact sound.admitted running (apart _ (nextCall_eq running)) executed
        present some holding.isArea inside
  | environment changed =>
      refine (change_unadmitted sound.signed changed).1 key ?_
      exact fun unadmitted => unadmitted _ holding.isArea inside

/-- In a run where no two commits of an upload have objects in its area, the
objects of an upload that a commit has admitted never change again. -/
theorem admitted_unchanged (config : UploadConfig Version)
    (live : List Text) (objects : List (Text × Version))
    (first second : List (GatewayEvent Version))
    (before final : Uploads Version)
    (reached : run (Pool.step (gateway config))
      (.start ⟨live, objects, []⟩) first = some before)
    (ran : run (Pool.step (gateway config)) before second = some final)
    (apart : Along (Pool.step (gateway config)) OneCommit
      (.start ⟨live, objects, []⟩) (first ++ second)) :
    ∀ handle body answer,
      ⟨.commit handle body, .done (.committed answer)⟩ ∈ before.threads →
        ∀ key, admittedArea (artifactPrefix (config.company handle))
            answer.uploadId <+: key →
          final.shared.get key = before.shared.get key := by
  intro handle body answer answered key inside
  obtain ⟨early, late⟩ := apart.append reached
  have start : SoundGateway config (.start ⟨live, objects, []⟩) :=
    ⟨nofun, nofun, nofun, nofun⟩
  have sound : SoundGateway config before :=
    run_preserves_along (SoundGateway config)
      (fun _ _ _ sound apart taken => step_soundGateway sound apart taken)
      start early reached
  have ends := run_preserves_along
    (fun pool => SoundGateway config pool ∧
      ⟨.commit handle body, .done (.committed answer)⟩ ∈ pool.threads ∧
      pool.shared.get key = before.shared.get key)
    (fun pool event next held apart taken => by
      obtain ⟨sound, answered, same⟩ := held
      obtain ⟨still, unchanged⟩ := step_admitted sound apart taken answered
      exact ⟨step_soundGateway sound apart taken, still,
        (unchanged key inside).trans same⟩)
    ⟨sound, answered, rfl⟩ late ran
  exact ends.2.2

end

/-! ## An upload that is committed again -/

def beside : UploadEvent Version → GatewayEvent Version
  | .spawn request => .spawn request
  | .step index choice => .step index choice
  | .abort index => .abort index
  | .lose index choice => .lose index choice
  | .environment change => .environment (.upload change)

/-- The answer of the request. -/
def committed? (pool : Uploads Nat) (index : Nat) : Option (Committed Nat) :=
  match pool.threads[index]? with
  | some ⟨.commit _ _, .done (.committed answer)⟩ => some answer
  | _ => none

theorem mem_of_committed? {pool : Uploads Nat} {index : Nat}
    {answer : Committed Nat} (found : committed? pool index = some answer) :
    ∃ handle body, ⟨.commit handle body, .done (.committed answer)⟩ ∈
      pool.threads := by
  simp only [committed?] at found
  split at found
  · rename_i handle body held present
    cases found
    exact ⟨handle, body, List.mem_of_getElem? present⟩
  · cases found

/-- Both members are put again through their URLs and committed under another
handle. -/
def uploadedAgain : List (GatewayEvent Nat) :=
  ([.environment (.upload (.put (sampleStaged manifestName) 1)),
    .environment (.upload (.put (sampleStaged ['m']) 3)),
    .spawn (.commit ['b'] (.value (.obj [("upload_id", .str sampleId)])))] :
      List (GatewayEvent Nat)) ++
    (List.replicate 9 (.step 2 .plain) : List (GatewayEvent Nat))

/-- A model that was admitted is replaced at its address. -/
theorem admitted_replaced :
    ¬∀ (config : UploadConfig Nat) (live : List Text)
      (objects : List (Text × Nat)) (first second : List (GatewayEvent Nat))
      (before final : Uploads Nat),
      run (Pool.step (gateway config)) (.start ⟨live, objects, []⟩)
        first = some before →
      run (Pool.step (gateway config)) before second = some final →
      ∀ handle body answer,
        ⟨.commit handle body, .done (.committed answer)⟩ ∈ before.threads →
          ∀ key, admittedArea (artifactPrefix (config.company handle))
              answer.uploadId <+: key →
            final.shared.get key = before.shared.get key := by
  intro always
  let step := Pool.step (gateway sampleUploads)
  let start : Uploads Nat := .start ⟨[['a'], ['b']], [], []⟩
  have ran : ((run step start (uploaded.map beside)).any fun before =>
      (run step before uploadedAgain).any fun final =>
        (committed? before 1).any fun answer =>
          answer.uploadId = sampleId.toList &&
            decide (final.shared.get (sampleAdmitted ['m']) ≠
              before.shared.get (sampleAdmitted ['m']))) = true := by
    decide +kernel
  obtain ⟨before, reached, ran⟩ := (Option.any_eq_true _ _).mp ran
  obtain ⟨final, ran, ended⟩ := (Option.any_eq_true _ _).mp ran
  obtain ⟨answer, found, ended⟩ := (Option.any_eq_true _ _).mp ended
  rw [Bool.and_eq_true, decide_eq_true_eq, decide_eq_true_eq] at ended
  obtain ⟨same, changed⟩ := ended
  obtain ⟨handle, body, answered⟩ := mem_of_committed? found
  refine changed (always sampleUploads _ _ _ _ before final reached ran
    handle body answer answered _ ?_)
  rw [same, sampleAdmitted, admittedKey_eq]
  exact List.prefix_append _ _

/-- The kernel is refused, and a commit of bytes that change before they are
copied leaves what was admitted. -/
theorem admitted_unchanged_refused : ∃ before final : Uploads Nat,
    run (Pool.step (gateway sampleUploads))
      (.start ⟨[['a'], ['b']], [], []⟩) (uploaded.map beside) =
        some before ∧
    (committed? before 1).isSome = true ∧
    final.shared.get (sampleAdmitted ['m']) =
      before.shared.get (sampleAdmitted ['m']) := by
  let step := Pool.step (gateway sampleUploads)
  let start : Uploads Nat := .start ⟨[['a'], ['b']], [], []⟩
  let second : List (GatewayEvent Nat) :=
    ([.environment (.artifact (sampleUploads.company []) .delete
      (sampleAdmitted ['m']))] : List (GatewayEvent Nat)) ++
    (committing 2 ['b']).map beside ++
    ([.environment (.upload (.put (sampleStaged manifestName) 3))] :
      List (GatewayEvent Nat)) ++
    (List.replicate 3 (.step 2 .plain) : List (GatewayEvent Nat))
  have apart : Along step OneCommit start (uploaded.map beside ++ second) := by
    decide +kernel
  have ran : ((run step start (uploaded.map beside)).any fun before =>
      (run step before second).any fun final =>
        (committed? before 1).any fun answer =>
          answer.uploadId = sampleId.toList) = true := by
    decide +kernel
  obtain ⟨before, reached, ran⟩ := (Option.any_eq_true _ _).mp ran
  obtain ⟨final, ran, ended⟩ := (Option.any_eq_true _ _).mp ran
  obtain ⟨answer, found, same⟩ := (Option.any_eq_true _ _).mp ended
  rw [decide_eq_true_eq] at same
  obtain ⟨handle, body, answered⟩ := mem_of_committed? found
  refine ⟨before, final, reached, by rw [found]; rfl, ?_⟩
  refine admitted_unchanged sampleUploads _ _ (uploaded.map beside) second
    before final reached ran apart handle body answer answered _ ?_
  rw [same, sampleAdmitted, admittedKey_eq]
  exact List.prefix_append _ _

end IndustryFlow.Tracking
