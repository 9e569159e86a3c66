import IndustryFlow.Concurrent.Beside
import IndustryFlow.Tracking.Promotion

/-!
# Commits, all or nothing

Commits of one upload share their destination, and a commit that gives up
deletes what it copied there.  As long as a commit copies only where nothing
is but its own copies, and no store call fails while it holds any, a commit
that answers leaves exactly what it judged, and any other leaves the admitted
objects as they would be without it.  The two conditions are `Clean`.
-/

namespace IndustryFlow.Tracking

open Concurrent Tenancy

variable {Version : Type}

/-- The upload plane with its requests. -/
abbrev Uploads (Version : Type) :=
  Pool (UploadStore Version) UploadRequest (UploadOp Version) UploadReply
    UploadFailed (UploadAnswer Version)

abbrev Upload (Version : Type) :=
  Thread UploadRequest (UploadOp Version) UploadReply UploadFailed
    (UploadAnswer Version)

abbrev UploadEvent (Version : Type) :=
  PoolEvent UploadRequest UploadChoice (UploadChange Version)

/-- What a request holds. -/
def progressOf : Uploading Version (UploadAnswer Version) → Progress Version
  | .call (.copy _ _ _ progress) _ => progress
  | .call (.delete _ progress) _ => progress
  | .done (.committed answer) => answer.progress
  | _ => ⟨[], []⟩

/-- The call that a request makes next. -/
def nextCall (pool : Uploads Version) (index : Nat) :
    Option (UploadOp Version) :=
  (pool.threads[index]?).bind fun thread => thread.program.next?

/-- A member that is still the one read is copied only while the upload's
area holds nothing but what the commit has copied. -/
def CopiesAlone (store : UploadStore Version) : UploadOp Version → Prop
  | .copy source _ version progress =>
      store.get source = some version →
        ∀ key ∈ store.list progress.area, key ∈ progress.held.map Prod.fst
  | _ => True

/-- The request holds nothing. -/
def HoldsNothing : UploadOp Version → Prop
  | .copy _ _ _ progress => progress.held = []
  | .delete _ progress => progress.held = []
  | _ => True

/-- The request holds nothing once the call has taken effect. -/
def LeavesNothing (store : UploadStore Version) : UploadOp Version → Prop
  | .copy source _ version progress =>
      progress.held = [] ∧ store.get source ≠ some version
  | .delete key progress => progress.held.filter (·.1 ≠ key) = []
  | _ => True

/-- Commits copy alone, and a store call fails only where the commit then holds
nothing. -/
def Clean (pool : Uploads Version) : UploadEvent Version → Prop
  | .step index _ => ∀ op ∈ nextCall pool index, CopiesAlone pool.shared op
  | .abort index => ∀ op ∈ nextCall pool index, HoldsNothing op
  | .lose index _ => ∀ op ∈ nextCall pool index, LeavesNothing pool.shared op
  | _ => True

section

variable [DecidableEq Version]

instance (store : UploadStore Version) (op : UploadOp Version) :
    Decidable (CopiesAlone store op) :=
  match op with
  | .copy _ _ _ _ => inferInstanceAs (Decidable (_ → _))
  | .resolve _ | .newUploadId | .presign _ | .listKeys _ | .consume _
  | .head _ _ | .delete _ _ => .isTrue trivial

instance (op : UploadOp Version) : Decidable (HoldsNothing op) :=
  match op with
  | .copy _ _ _ _ => inferInstanceAs (Decidable (_ = _))
  | .delete _ _ => inferInstanceAs (Decidable (_ = _))
  | .resolve _ | .newUploadId | .presign _ | .listKeys _ | .consume _
  | .head _ _ => .isTrue trivial

instance (store : UploadStore Version) (op : UploadOp Version) :
    Decidable (LeavesNothing store op) :=
  match op with
  | .copy _ _ _ _ => inferInstanceAs (Decidable (_ ∧ _))
  | .delete _ _ => inferInstanceAs (Decidable (_ = _))
  | .resolve _ | .newUploadId | .presign _ | .listKeys _ | .consume _
  | .head _ _ => .isTrue trivial

instance (pool : Uploads Version) (event : UploadEvent Version) :
    Decidable (Clean pool event) :=
  match event with
  | .step _ _ => inferInstanceAs (Decidable (∀ _ ∈ _, _))
  | .abort _ => inferInstanceAs (Decidable (∀ _ ∈ _, _))
  | .lose _ _ => inferInstanceAs (Decidable (∀ _ ∈ _, _))
  | .spawn _ => .isTrue trivial
  | .environment _ => .isTrue trivial

end

/-! ## What is held is what is there -/

/-- The area holds exactly the objects of the commit. -/
structure Holds (store : UploadStore Version) (progress : Progress Version) :
    Prop where
  holding : Holding progress.area progress.held
  exact : ∀ key, progress.area <+: key →
    store.get key = progress.held.lookup key

theorem Holds.present {store : UploadStore Version}
    {progress : Progress Version} (holds : Holds store progress)
    {key : Text} (member : key ∈ progress.held.map Prod.fst) :
    (store.get key).isSome = true := by
  obtain ⟨object, found, rfl⟩ := List.mem_map.mp member
  rw [holds.exact _ (holds.holding.inside object found)]
  rw [Option.isSome_iff_ne_none, ne_eq, List.lookup_eq_none_iff]
  intro absent
  exact absurd (absent object found) (by simp)

/-- Everything a call of a request does to the objects outside the staging
area and to what the request holds. -/
inductive Effect (before after : UploadStore Version) :
    Progress Version → Progress Version → Prop where
  | same {progress next : Progress Version}
      (objects : ∀ key, ¬stagingRoot <+: key →
        after.get key = before.get key)
      (kept : progress.held ≠ [] → next = progress)
      (none : progress.held = [] → next.held = []) :
      Effect before after progress next
  | copied {progress : Progress Version} {target : Text}
      {version : Version} (isArea : IsArea progress.area)
      (inside : progress.area <+: target)
      (new : target ∉ progress.held.map Prod.fst)
      (only : ∀ key ∈ before.list progress.area,
        key ∈ progress.held.map Prod.fst)
      (put : after = before.put target version) :
      Effect before after progress
        ⟨progress.area, progress.held ++ [(target, version)]⟩
  | removed {progress : Progress Version} {key : Text}
      (member : key ∈ progress.held.map Prod.fst)
      (removed : after = before.remove key) :
      Effect before after progress
        ⟨progress.area, progress.held.filter (·.1 ≠ key)⟩

/-- What the others hold is left alone. -/
theorem Effect.others {before after : UploadStore Version}
    {progress next other : Progress Version}
    (effect : Effect before after progress next)
    (own : progress.held ≠ [] → Holds before progress)
    (holds : Holds before other) (some : other.held ≠ [])
    (apart : progress.held ≠ [] → progress.area ≠ other.area) :
    Holds after other ∧ (next.held ≠ [] → next.area ≠ other.area) := by
  cases effect with
  | same objects kept none =>
      refine ⟨⟨holds.holding, ?_⟩, ?_⟩
      · intro key inside
        rw [objects key (holds.holding.isArea.not_staging inside)]
        exact holds.exact key inside
      · intro left
        have before : progress.held ≠ [] := fun empty => left (none empty)
        rw [kept before]
        exact apart before
  | @copied target version isArea inside new only put =>
      have different : progress.area ≠ other.area := by
        intro same
        obtain ⟨object, found⟩ := List.exists_mem_of_ne_nil _ some
        have present := holds.present (List.mem_map_of_mem found)
        have under := holds.holding.inside object found
        rw [← same] at under
        have held := only object.1 (UploadStore.mem_list.mpr ⟨under, present⟩)
        refine apart ?_ same
        intro empty
        rw [empty] at held
        cases held
      refine ⟨⟨holds.holding, ?_⟩, fun _ => different⟩
      intro key under
      rw [put, UploadStore.get_put_of_ne]
      · exact holds.exact key under
      · intro equal
        subst equal
        exact different (isArea.unique holds.holding.isArea inside under)
  | @removed key member gone =>
      have held : progress.held ≠ [] := by
        intro empty
        rw [empty] at member
        cases member
      refine ⟨⟨holds.holding, ?_⟩, fun _ => apart held⟩
      intro other under
      rw [gone, UploadStore.get_remove_of_ne]
      · exact holds.exact other under
      · intro equal
        subst equal
        have placed := (own held).holding
        obtain ⟨object, found, same⟩ := List.mem_map.mp member
        have inside := placed.inside object found
        rw [same] at inside
        exact apart held
          (placed.isArea.unique holds.holding.isArea inside under)

/-- The request's own objects stay what is there. -/
theorem Effect.own {before after : UploadStore Version}
    {progress next : Progress Version}
    (effect : Effect before after progress next)
    (own : progress.held ≠ [] → Holds before progress)
    (some : next.held ≠ []) : Holds after next := by
  cases effect with
  | same objects kept none =>
      have held : progress.held ≠ [] := fun empty => some (none empty)
      rw [kept held]
      refine ⟨(own held).holding, ?_⟩
      intro key inside
      rw [objects key ((own held).holding.isArea.not_staging inside)]
      exact (own held).exact key inside
  | @copied target version isArea inside new only put =>
      have holding : Holding progress.area progress.held := by
        by_cases held : progress.held = []
        · rw [held]
          exact ⟨isArea, by simp, List.nodup_nil⟩
        · exact (own held).holding
      obtain ⟨member, rfl⟩ := inside
      refine ⟨holding.add new version, ?_⟩
      intro key under
      by_cases same : key = progress.area ++ member
      · subst same
        rw [put, UploadStore.get_put_self, List.lookup_append,
          List.lookup_eq_none_iff.mpr]
        · simp
        · intro object found
          refine bne_iff_ne.mpr fun equal => new ?_
          rw [equal]
          exact List.mem_map_of_mem found
      · have before : before.get key = progress.held.lookup key := by
          by_cases held : progress.held = []
          · rw [held] at only ⊢
            rw [List.lookup_nil, ← Option.not_isSome_iff_eq_none]
            intro present
            cases only key (UploadStore.mem_list.mpr ⟨under, present⟩)
          · exact (own held).exact key under
        rw [put, UploadStore.get_put_of_ne same, before,
          List.lookup_append, List.lookup_cons,
          beq_eq_false_iff_ne.mpr same]
        simp
  | @removed key member gone =>
      have held : progress.held ≠ [] := by
        intro empty
        rw [empty] at member
        cases member
      have placed := (own held).holding
      refine ⟨⟨placed.isArea, ?_, ?_⟩, ?_⟩
      · intro object found
        exact placed.inside object (List.mem_filter.mp found).1
      · exact placed.distinct.sublist
          (List.filter_sublist.map _)
      · intro other under
        rw [gone]
        by_cases same : other = key
        · subst same
          rw [UploadStore.get_remove_self]
          exact (UploadStore.lookup_filter_self _ _).symm
        · rw [UploadStore.get_remove_of_ne same,
            (own held).exact other under]
          exact (UploadStore.lookup_filter_ne same).symm

/-! ## Calls -/

section

variable [DecidableEq Version] {config : UploadConfig Version}

theorem exec_copy {store after : UploadStore Version} {source target : Text}
    {version : Version} {progress : Progress Version} {choice : UploadChoice}
    {reply : Bool}
    (executed : uploadExec config store (.copy source target version progress)
      choice = some (reply, after)) :
    (reply = true ∧ store.get source = some version ∧
        after = store.put target version) ∨
      (reply = false ∧ store.get source ≠ some version ∧ after = store) := by
  cases choice with
  | fresh uploadId => cases executed
  | plain =>
      simp only [uploadExec] at executed
      split at executed
      · rename_i same
        cases executed
        exact .inl ⟨rfl, same, rfl⟩
      · rename_i changed
        cases executed
        exact .inr ⟨rfl, changed, rfl⟩

theorem exec_delete {store after : UploadStore Version} {key : Text}
    {progress : Progress Version} {choice : UploadChoice} {reply : Unit}
    (executed : uploadExec config store (.delete key progress) choice =
      some (reply, after)) : after = store.remove key := by
  cases choice with
  | fresh uploadId => cases executed
  | plain =>
      cases executed
      rfl

/-- A call that neither copies nor deletes leaves the objects. -/
theorem exec_reads {store after : UploadStore Version}
    {op : UploadOp Version} {choice : UploadChoice} {reply : UploadReply op}
    (executed : uploadExec config store op choice = some (reply, after))
    (copies : ∀ source target version progress,
      op ≠ .copy source target version progress)
    (deletes : ∀ key progress, op ≠ .delete key progress) :
    after.objects = store.objects ∧ Honest config op reply ∧
      ∀ key ∈ after.signed, key ∈ store.signed ∨ op = .presign key := by
  cases op with
  | copy source target version progress => exact absurd rfl (copies _ _ _ _)
  | delete key progress => exact absurd rfl (deletes _ _)
  | newUploadId =>
      cases choice with
      | plain => cases executed
      | fresh uploadId =>
          simp only [uploadExec] at executed
          split at executed
          · cases executed
            exact ⟨rfl, trivial, fun key member => .inl member⟩
          · cases executed
  | resolve handle =>
      cases choice with
      | fresh uploadId => cases executed
      | plain =>
          cases executed
          refine ⟨rfl, ?_, fun key member => .inl member⟩
          intro company found
          split at found
          · exact (Option.some.inj found).symm
          · cases found
  | presign key =>
      cases choice with
      | fresh uploadId => cases executed
      | plain =>
          cases executed
          refine ⟨rfl, trivial, fun other member => ?_⟩
          rcases List.mem_cons.mp member with rfl | before
          · exact .inr rfl
          · exact .inl before
  | listKeys owner =>
      cases choice with
      | fresh uploadId => cases executed
      | plain =>
          cases executed
          refine ⟨rfl, ⟨UploadStore.nodup_list _ _, ?_⟩,
            fun key member => .inl member⟩
          intro key member
          exact (UploadStore.mem_list.mp member).1
  | consume handle =>
      cases choice with
      | fresh uploadId => cases executed
      | plain =>
          cases executed
          exact ⟨rfl, trivial, fun key member => .inl member⟩
  | head key length =>
      cases choice with
      | fresh uploadId => cases executed
      | plain =>
          cases executed
          refine ⟨rfl, ?_, fun key member => .inl member⟩
          intro opening version found
          unfold UploadStore.head at found
          split at found
          · split at found
            · cases found
            · cases found
              rfl
          · cases found

variable {Answer : Type}
  {post : Text → List (Text × Version) → Answer → Prop}

omit [DecidableEq Version] in
/-- A request holds nothing at a call that neither copies nor deletes. -/
theorem Tracked.reads {op : UploadOp Version}
    {next : UploadReply op → Uploading Version Answer} {area : Text}
    {held : List (Text × Version)}
    (tracked : Tracked config post (.call op next) area held)
    (copies : ∀ source target version progress,
      op ≠ .copy source target version progress)
    (deletes : ∀ key progress, op ≠ .delete key progress) :
    held = [] ∧ (∀ key, op = .presign key → stagingRoot <+: key) ∧
      ∀ reply, Honest config op reply →
        ∃ left, Tracked config post (next reply) left [] := by
  cases op with
  | copy source target version progress => exact absurd rfl (copies _ _ _ _)
  | delete key progress => exact absurd rfl (deletes _ _)
  | presign key =>
      obtain ⟨empty, staged, after⟩ := tracked
      refine ⟨empty, ?_, fun _ _ => after⟩
      intro other same
      cases same
      exact staged
  | resolve handle => exact ⟨tracked.1, nofun, tracked.2⟩
  | newUploadId => exact ⟨tracked.1, nofun, tracked.2⟩
  | listKeys owner => exact ⟨tracked.1, nofun, tracked.2⟩
  | consume handle => exact ⟨tracked.1, nofun, tracked.2⟩
  | head key length => exact ⟨tracked.1, nofun, tracked.2⟩

omit [DecidableEq Version] in
/-- A deletion removes an object that is held, or one that is staged. -/
theorem delete_effect {store : UploadStore Version} {key area : Text}
    {held : List (Text × Version)}
    (own : key ∈ held.map Prod.fst ∨ stagingRoot <+: key) :
    Effect store (store.remove key) ⟨area, held⟩
      ⟨area, held.filter (·.1 ≠ key)⟩ := by
  by_cases member : key ∈ held.map Prod.fst
  · have gone : Effect store (store.remove key) ⟨area, held⟩ _ :=
      .removed member rfl
    exact gone
  · have staged := own.resolve_left member
    have kept : held.filter (·.1 ≠ key) = held := by
      refine List.filter_eq_self.mpr fun object found => ?_
      refine decide_eq_true fun same => member ?_
      rw [← same]
      exact List.mem_map_of_mem found
    rw [kept]
    refine .same ?_ (fun _ => rfl) id
    intro other outside
    refine UploadStore.get_remove_of_ne fun same => outside ?_
    rw [same]
    exact staged

omit [DecidableEq Version] in
theorem reads_effect {store after : UploadStore Version}
    {progress next : Progress Version}
    (objects : after.objects = store.objects)
    (before : progress.held = []) (left : next.held = []) :
    Effect store after progress next := by
  refine .same ?_ (fun held => absurd before held) (fun _ => left)
  intro key _
  rw [UploadStore.get, objects]
  rfl

/-- Everything that an answered call of a request can do. -/
theorem call_effect {op : UploadOp Version}
    {next : UploadReply op → Uploading Version Answer} {area : Text}
    {held : List (Text × Version)} {store after : UploadStore Version}
    {choice : UploadChoice} {reply : UploadReply op}
    (tracked : Tracked config post (.call op next) area held)
    (signed : ∀ key ∈ store.signed, stagingRoot <+: key)
    (alone : CopiesAlone store op)
    (executed : uploadExec config store op choice = some (reply, after)) :
    ∃ left rest, Tracked config post (next reply) left rest ∧
      Effect store after ⟨area, held⟩ ⟨left, rest⟩ ∧
      ∀ key ∈ after.signed, stagingRoot <+: key := by
  by_cases copies : ∃ source target version progress,
      op = .copy source target version progress
  · obtain ⟨source, target, version, progress, rfl⟩ := copies
    obtain ⟨rfl, isArea, inside, absent, copied, refused⟩ := tracked
    rcases exec_copy executed with ⟨rfl, same, rfl⟩ | ⟨rfl, -, rfl⟩
    · refine ⟨area, held ++ [(target, version)], copied, ?_, signed⟩
      have only := alone same
      have effect : Effect store (store.put target version) ⟨area, held⟩ _ :=
        .copied isArea inside absent only rfl
      exact effect
    · exact ⟨area, held, refused, .same (fun _ _ => rfl) (fun _ => rfl) id,
        signed⟩
  · by_cases deletes : ∃ key progress, op = .delete key progress
    · obtain ⟨key, progress, rfl⟩ := deletes
      obtain ⟨rfl, own, after⟩ := tracked
      cases exec_delete executed
      exact ⟨area, _, after, delete_effect own, signed⟩
    · have noCopy : ∀ source target version progress,
          op ≠ .copy source target version progress :=
        fun source target version progress same =>
          copies ⟨source, target, version, progress, same⟩
      have noDelete : ∀ key progress, op ≠ .delete key progress :=
        fun key progress same => deletes ⟨key, progress, same⟩
      obtain ⟨rfl, staged, rest⟩ := tracked.reads noCopy noDelete
      obtain ⟨objects, honest, urls⟩ := exec_reads executed noCopy noDelete
      obtain ⟨left, further⟩ := rest reply honest
      refine ⟨left, [], further, reads_effect objects rfl rfl, ?_⟩
      intro key member
      exact (urls key member).elim (signed key) (staged key)

/-- A call whose request dies holding nothing. -/
theorem lose_effect {op : UploadOp Version}
    {next : UploadReply op → Uploading Version Answer} {area : Text}
    {held : List (Text × Version)} {store after : UploadStore Version}
    {choice : UploadChoice} {reply : UploadReply op}
    (tracked : Tracked config post (.call op next) area held)
    (signed : ∀ key ∈ store.signed, stagingRoot <+: key)
    (nothing : LeavesNothing store op)
    (executed : uploadExec config store op choice = some (reply, after)) :
    Effect store after ⟨area, held⟩ ⟨area, []⟩ ∧
      ∀ key ∈ after.signed, stagingRoot <+: key := by
  cases op with
  | copy source target version progress =>
      obtain ⟨rfl, -⟩ := tracked
      obtain ⟨empty, changed⟩ := nothing
      cases empty
      rcases exec_copy executed with ⟨-, same, -⟩ | ⟨-, -, rfl⟩
      · exact absurd same changed
      · exact ⟨.same (fun _ _ => rfl) (fun _ => rfl) id, signed⟩
  | delete key progress =>
      obtain ⟨rfl, own, -⟩ := tracked
      cases exec_delete executed
      have effect : Effect store (store.remove key) ⟨area, held⟩
          ⟨area, held.filter (·.1 ≠ key)⟩ := delete_effect own
      rw [show held.filter (·.1 ≠ key) = [] from nothing] at effect
      exact ⟨effect, signed⟩
  | _ =>
      obtain ⟨rfl, staged, -⟩ := tracked.reads nofun nofun
      obtain ⟨objects, -, urls⟩ := exec_reads executed nofun nofun
      refine ⟨reads_effect objects rfl rfl, fun other member => ?_⟩
      exact (urls other member).elim (signed other) (staged other)

end

/-! ## Runs -/

theorem Tracked.progress {config : UploadConfig Version}
    {request : UploadRequest}
    {program : Uploading Version (UploadAnswer Version)} {area : Text}
    {held : List (Text × Version)}
    (tracked : Tracked config (Answers config request) program area held) :
    (progressOf program).held = held ∧
      (held ≠ [] → progressOf program = ⟨area, held⟩) := by
  cases program with
  | fail error =>
      cases tracked
      exact ⟨rfl, fun some => absurd rfl some⟩
  | done answer =>
      cases request with
      | stage handle body =>
          cases answer with
          | staged uploadId urls =>
              cases tracked
              exact ⟨rfl, fun some => absurd rfl some⟩
          | committed answer => exact tracked.elim
      | commit handle body =>
          cases answer with
          | staged uploadId urls => exact tracked.elim
          | committed answer =>
              have same := tracked.1
              exact ⟨congrArg Progress.held same, fun _ => same⟩
  | call op next =>
      cases op with
      | copy source target version progress =>
          obtain ⟨rfl, -⟩ := tracked
          exact ⟨rfl, fun _ => rfl⟩
      | delete key progress =>
          obtain ⟨rfl, -⟩ := tracked
          exact ⟨rfl, fun _ => rfl⟩
      | _ =>
          obtain ⟨rfl, -⟩ := tracked.reads nofun nofun
          exact ⟨rfl, fun some => absurd rfl some⟩

/-- A program is tracked with what its next call or its answer tells. -/
theorem Tracked.anchored {config : UploadConfig Version}
    {request : UploadRequest}
    {program : Uploading Version (UploadAnswer Version)} {area : Text}
    {held : List (Text × Version)}
    (tracked : Tracked config (Answers config request) program area held) :
    Tracked config (Answers config request) program
      (progressOf program).area (progressOf program).held := by
  obtain ⟨same, whole⟩ := tracked.progress
  by_cases some : held = []
  · subst some
    cases program with
    | fail error => rfl
    | done answer =>
        cases request with
        | stage handle body =>
            cases answer with
            | staged uploadId urls => rfl
            | committed answer => exact tracked.elim
        | commit handle body =>
            cases answer with
            | staged uploadId urls => exact tracked.elim
            | committed answer => exact absurd rfl tracked.2.1
    | call op next =>
        cases op with
        | copy source target version progress =>
            obtain ⟨rfl, rest⟩ := tracked
            exact ⟨rfl, rest⟩
        | delete key progress =>
            obtain ⟨rfl, rest⟩ := tracked
            exact ⟨rfl, rest⟩
        | _ => exact tracked
  · rw [whole some]
    exact tracked

/-- Every request is tracked, what it holds is what its area holds, and no two
requests hold objects in one area. -/
structure SoundUploads (config : UploadConfig Version)
    (pool : Uploads Version) : Prop where
  tracked : ∀ thread ∈ pool.threads,
    Tracked config (Answers config thread.request) thread.program
      (progressOf thread.program).area (progressOf thread.program).held
  holds : ∀ thread ∈ pool.threads, (progressOf thread.program).held ≠ [] →
    Holds pool.shared (progressOf thread.program)
  apart : ∀ (index other : Nat) (thread found : Upload Version),
    index ≠ other →
    pool.threads[index]? = some thread →
    pool.threads[other]? = some found →
    (progressOf thread.program).held ≠ [] →
    (progressOf found.program).held ≠ [] →
      (progressOf thread.program).area ≠ (progressOf found.program).area
  signed : ∀ key ∈ pool.shared.signed, stagingRoot <+: key

variable {config : UploadConfig Version}

/-- The request goes on and the others are left alone. -/
theorem SoundUploads.replace {pool : Uploads Version}
    (sound : SoundUploads config pool) {index : Nat}
    {request : UploadRequest}
    {program next : Uploading Version (UploadAnswer Version)}
    (running : pool.threads[index]? = some ⟨request, program⟩)
    {after : UploadStore Version}
    {left : Text} {rest : List (Text × Version)}
    (tracked : Tracked config (Answers config request) next left rest)
    (effect : Effect pool.shared after (progressOf program) ⟨left, rest⟩)
    (signed : ∀ key ∈ after.signed, stagingRoot <+: key) :
    SoundUploads config
      ⟨after, pool.threads.set index ⟨request, next⟩⟩ := by
  have here := List.mem_of_getElem? running
  have own := sound.holds _ here
  obtain ⟨same, whole⟩ := tracked.progress
  have others {other : Nat} {found : Upload Version} (different : index ≠ other)
      (present : pool.threads[other]? = some found)
      (some : (progressOf found.program).held ≠ []) :
      Holds after (progressOf found.program) ∧
        (rest ≠ [] → left ≠ (progressOf found.program).area) :=
    effect.others own (sound.holds _ (List.mem_of_getElem? present) some)
      some fun held => sound.apart _ _ _ _ different running present held some
  refine ⟨?_, ?_, ?_, signed⟩
  · intro thread member
    rcases List.mem_or_eq_of_mem_set member with before | rfl
    · exact sound.tracked thread before
    · exact tracked.anchored
  · intro thread member some
    obtain ⟨other, present⟩ := List.getElem?_of_mem member
    rcases Pool.getElem?_set_cases present with ⟨-, rfl⟩ | ⟨different, before⟩
    · rw [same] at some
      rw [whole some]
      exact effect.own own some
    · exact (others different before some).1
  · intro first second thread found different one two held alsoHeld
    rcases Pool.getElem?_set_cases one with ⟨rfl, rfl⟩ | ⟨apart, before⟩
    · rcases Pool.getElem?_set_cases two with ⟨rfl, -⟩ | ⟨-, present⟩
      · exact absurd rfl different
      · rw [same] at held
        rw [whole held]
        exact (others different present alsoHeld).2 held
    · rcases Pool.getElem?_set_cases two with ⟨rfl, rfl⟩ | ⟨-, present⟩
      · rw [same] at alsoHeld
        rw [whole alsoHeld]
        exact ((others (Ne.symm different) before held).2 alsoHeld).symm
      · exact sound.apart _ _ _ _ different before present held alsoHeld

section

variable [DecidableEq Version]

theorem code_tracked (config : UploadConfig Version)
    (request : UploadRequest) :
    ∃ area, Tracked config (Answers config request)
      ((uploadPlane config).code request) area [] := by
  cases request with
  | stage handle body => exact uploadStage_tracked config handle body
  | commit handle body => exact uploadCommit_tracked config handle body

omit [DecidableEq Version] in
/-- Objects of the staging area are nobody's. -/
theorem SoundUploads.elsewhere {pool : Uploads Version}
    (sound : SoundUploads config pool) {after : UploadStore Version}
    (objects : ∀ key, ¬stagingRoot <+: key →
      after.get key = pool.shared.get key)
    (signed : after.signed = pool.shared.signed) :
    SoundUploads config ⟨after, pool.threads⟩ where
  tracked := sound.tracked
  holds := by
    intro thread member some
    have holds := sound.holds thread member some
    refine ⟨holds.holding, fun key inside => ?_⟩
    rw [objects key (holds.holding.isArea.not_staging inside)]
    exact holds.exact key inside
  apart := sound.apart
  signed := by
    rw [signed]
    exact sound.signed

theorem change_elsewhere {store after : UploadStore Version}
    {change : UploadChange Version}
    (signed : ∀ key ∈ store.signed, stagingRoot <+: key)
    (changed : (uploadPlane config).change store change = some after) :
    (∀ key, ¬stagingRoot <+: key → after.get key = store.get key) ∧
      after.signed = store.signed := by
  cases change with
  | put key version =>
      simp only [uploadPlane] at changed
      split at changed
      · rename_i url
        cases changed
        refine ⟨fun other outside => ?_, rfl⟩
        refine UploadStore.get_put_of_ne fun same => outside ?_
        rw [same]
        exact signed key url
      · cases changed
  | mint handle =>
      cases changed
      exact ⟨fun _ _ => rfl, rfl⟩
  | retire handle =>
      cases changed
      exact ⟨fun _ _ => rfl, rfl⟩

omit [DecidableEq Version] in
theorem SoundUploads.spawn {pool : Uploads Version}
    (sound : SoundUploads config pool) {thread : Upload Version}
    {area : Text} (tracked : Tracked config (Answers config thread.request)
      thread.program area []) :
    SoundUploads config ⟨pool.shared, pool.threads ++ [thread]⟩ := by
  have nothing := tracked.progress.1
  refine ⟨?_, ?_, ?_, sound.signed⟩
  · intro other member
    rcases List.mem_append.mp member with before | last
    · exact sound.tracked other before
    · cases List.mem_singleton.mp last
      exact tracked.anchored
  · intro other member some
    rcases List.mem_append.mp member with before | last
    · exact sound.holds other before some
    · cases List.mem_singleton.mp last
      exact absurd nothing some
  · intro index other found more different one two held alsoHeld
    rcases Pool.getElem?_concat_cases one with before | ⟨-, rfl⟩
    · rcases Pool.getElem?_concat_cases two with present | ⟨-, rfl⟩
      · exact sound.apart _ _ _ _ different before present held alsoHeld
      · exact absurd nothing alsoHeld
    · exact absurd nothing held

omit [DecidableEq Version] in
theorem nextCall_eq {pool : Uploads Version} {index : Nat}
    {request : UploadRequest} {op : UploadOp Version}
    {rest : UploadReply op → Uploading Version (UploadAnswer Version)}
    (running : pool.threads[index]? = some ⟨request, .call op rest⟩) :
    nextCall pool index = some op := by
  rw [nextCall, running]
  rfl

/-- Everything a step of a request does, to its own objects and the others'. -/
theorem step_effect {pool next : Uploads Version} {index : Nat}
    {event : UploadEvent Version} {thread : Upload Version}
    (sound : SoundUploads config pool)
    (present : pool.threads[index]? = some thread)
    (own : Pool.own index event = true) (clean : Clean pool event)
    (taken : Pool.step (uploadPlane config) pool event = some next) :
    ∃ program left rest, next = ⟨next.shared, pool.threads.set index
        ⟨thread.request, program⟩⟩ ∧
      Tracked config (Answers config thread.request) program left rest ∧
      Effect pool.shared next.shared (progressOf thread.program)
        ⟨left, rest⟩ ∧
      ∀ key ∈ next.shared.signed, stagingRoot <+: key := by
  have tracked := sound.tracked thread (List.mem_of_getElem? present)
  cases Pool.stepped taken with
  | spawn request => cases own
  | environment changed => cases own
  | @step other choice request op rest reply after running executed =>
      cases of_decide_eq_true own
      rw [present] at running
      cases running
      have alone := clean op (nextCall_eq present)
      obtain ⟨left, held, further, effect, signed⟩ :=
        call_effect tracked sound.signed alone executed
      exact ⟨_, left, held, rfl, further, effect, signed⟩
  | @abort other request op rest running =>
      cases of_decide_eq_true own
      rw [present] at running
      cases running
      have nothing := clean op (nextCall_eq present)
      have empty : (progressOf (.call op rest)).held = [] := by
        cases op with
        | copy source target version progress => exact nothing
        | delete key progress => exact nothing
        | _ => rfl
      exact ⟨_, [], [], rfl, rfl, .same (fun _ _ => rfl)
        (fun some => absurd empty some) (fun _ => rfl), sound.signed⟩
  | @lose other choice request op rest reply after running executed =>
      cases of_decide_eq_true own
      rw [present] at running
      cases running
      have nothing := clean op (nextCall_eq present)
      obtain ⟨effect, signed⟩ :=
        lose_effect tracked sound.signed nothing executed
      exact ⟨_, _, [], rfl, rfl, effect, signed⟩

theorem step_soundUploads {pool next : Uploads Version}
    {event : UploadEvent Version} (sound : SoundUploads config pool)
    (clean : Clean pool event)
    (taken : Pool.step (uploadPlane config) pool event = some next) :
    SoundUploads config next := by
  have moved {index : Nat} {thread : Upload Version}
      (present : pool.threads[index]? = some thread)
      (own : Pool.own index event = true) : SoundUploads config next := by
    obtain ⟨program, left, rest, same, tracked, effect, signed⟩ :=
      step_effect sound present own clean taken
    rw [same]
    exact sound.replace present tracked effect signed
  cases Pool.stepped taken with
  | spawn request =>
      obtain ⟨area, tracked⟩ := code_tracked config request
      exact sound.spawn tracked
  | step running executed => exact moved running (decide_eq_true rfl)
  | abort running => exact moved running (decide_eq_true rfl)
  | lose running executed => exact moved running (decide_eq_true rfl)
  | environment changed =>
      obtain ⟨objects, signed⟩ := change_elsewhere sound.signed changed
      exact sound.elsewhere objects signed

/-! ## A request and what there would be without it -/

def heldKeys (pool : Uploads Version) (index : Nat) : List Text :=
  match pool.threads[index]? with
  | some thread => (progressOf thread.program).held.map Prod.fst
  | none => []

/-- What the request holds was not there, and nothing else is its doing. -/
def Restorable (index : Nat) (pool : Uploads Version)
    (seen : Text → Option Version) : Prop :=
  ∀ key, ¬stagingRoot <+: key →
    (key ∈ heldKeys pool index → seen key = none) ∧
    (key ∉ heldKeys pool index → seen key = pool.shared.get key)

omit [DecidableEq Version] in
theorem heldKeys_eq {pool : Uploads Version} {index : Nat}
    {thread : Upload Version} (present : pool.threads[index]? = some thread) :
    heldKeys pool index = (progressOf thread.program).held.map Prod.fst := by
  rw [heldKeys, present]

omit [DecidableEq Version] in
/-- What a request's own call does can be undone. -/
theorem Effect.restorable {before after : UploadStore Version}
    {progress next : Progress Version}
    (effect : Effect before after progress next)
    (seen : Text → Option Version) {key : Text}
    (outside : ¬stagingRoot <+: key)
    (restorable : (key ∈ progress.held.map Prod.fst → seen key = none) ∧
      (key ∉ progress.held.map Prod.fst → seen key = before.get key)) :
    (key ∈ next.held.map Prod.fst → seen key = none) ∧
      (key ∉ next.held.map Prod.fst → seen key = after.get key) := by
  cases effect with
  | same objects kept none =>
      have held : next.held = progress.held := by
        by_cases empty : progress.held = []
        · rw [empty, none empty]
        · rw [kept empty]
      rw [held, objects key outside]
      exact restorable
  | @copied target version isArea inside new only put =>
      have absent : before.get target = none := by
        rw [← Option.not_isSome_iff_eq_none]
        intro present
        exact new (only target (UploadStore.mem_list.mpr ⟨inside, present⟩))
      simp only [List.map_append, List.map_singleton, List.mem_append,
        List.mem_singleton, not_or]
      constructor
      · rintro (member | same)
        · exact restorable.1 member
        · subst same
          rw [restorable.2 new, absent]
      · rintro ⟨others, different⟩
        rw [put, UploadStore.get_put_of_ne different]
        exact restorable.2 others
  | @removed gone member removed =>
      have left : key ∈ (progress.held.filter (·.1 ≠ gone)).map Prod.fst ↔
          key ∈ progress.held.map Prod.fst ∧ key ≠ gone := by
        simp only [List.mem_map, List.mem_filter, decide_eq_true_eq]
        constructor
        · rintro ⟨object, ⟨found, different⟩, rfl⟩
          exact ⟨⟨object, found, rfl⟩, different⟩
        · rintro ⟨⟨object, found, rfl⟩, different⟩
          exact ⟨object, ⟨found, different⟩, rfl⟩
      rw [left, removed]
      constructor
      · exact fun held => restorable.1 held.1
      · intro outside
        by_cases same : key = gone
        · subst same
          rw [restorable.1 member, UploadStore.get_remove_self]
        · rw [UploadStore.get_remove_of_ne same]
          exact restorable.2 fun held => outside ⟨held, same⟩

omit [DecidableEq Version] in
/-- What a request holds is there, whatever the others have done. -/
theorem SoundUploads.holding_get {pool next : Uploads Version}
    (sound : SoundUploads config pool) (after : SoundUploads config next)
    {index : Nat} {thread : Upload Version}
    (present : pool.threads[index]? = some thread)
    (still : next.threads[index]? = some thread) {key : Text}
    (held : key ∈ (progressOf thread.program).held.map Prod.fst) :
    next.shared.get key = pool.shared.get key := by
  have some : (progressOf thread.program).held ≠ [] := by
    intro empty
    rw [empty] at held
    cases held
  have before := sound.holds _ (List.mem_of_getElem? present) some
  have later := after.holds _ (List.mem_of_getElem? still) some
  obtain ⟨object, found, rfl⟩ := List.mem_map.mp held
  have inside := before.holding.inside object found
  rw [before.exact _ inside, later.exact _ inside]

/-- The events of the others leave a request as it is. -/
theorem step_others {pool next : Uploads Version} {index : Nat}
    {event : UploadEvent Version} {thread : Upload Version}
    (foreign : Pool.own index event = false)
    (taken : Pool.step (uploadPlane config) pool event = some next)
    (present : pool.threads[index]? = some thread) :
    next.threads[index]? = some thread := by
  have apart {other : Nat} (different : decide (other = index) = false) :
      other ≠ index := of_decide_eq_false different
  cases Pool.stepped taken with
  | spawn request =>
      have inside := (List.getElem?_eq_some_iff.mp present).1
      exact (List.getElem?_append_left inside).trans present
  | environment changed => exact present
  | step running executed =>
      exact (List.getElem?_set_ne (apart foreign)).trans present
  | abort running =>
      exact (List.getElem?_set_ne (apart foreign)).trans present
  | lose running executed =>
      exact (List.getElem?_set_ne (apart foreign)).trans present

theorem own_present {index : Nat} {pool next : Uploads Version}
    {event : UploadEvent Version} (own : Pool.own index event = true)
    (taken : Pool.step (uploadPlane config) pool event = some next) :
    ∃ thread, pool.threads[index]? = some thread := by
  cases Pool.stepped taken with
  | spawn request => cases own
  | environment changed => cases own
  | step running executed =>
      cases of_decide_eq_true own
      exact ⟨_, running⟩
  | abort running =>
      cases of_decide_eq_true own
      exact ⟨_, running⟩
  | lose running executed =>
      cases of_decide_eq_true own
      exact ⟨_, running⟩

theorem heldKeys_others {index : Nat} {pool next : Uploads Version}
    {event : UploadEvent Version} (foreign : Pool.own index event = false)
    (taken : Pool.step (uploadPlane config) pool event = some next) :
    heldKeys next index = heldKeys pool index := by
  cases present : pool.threads[index]? with
  | some thread =>
      rw [heldKeys_eq present,
        heldKeys_eq (step_others foreign taken present)]
  | none =>
      have nothing : heldKeys pool index = [] := by
        rw [heldKeys, present]
      rw [nothing]
      have unset {other : Nat} {changed : Upload Version}
          {store : UploadStore Version} :
          heldKeys ⟨store, pool.threads.set other changed⟩ index = [] := by
        have absent : (pool.threads.set other changed)[index]? = none := by
          rw [List.getElem?_eq_none_iff] at present ⊢
          rwa [List.length_set]
        rw [heldKeys, absent]
      cases Pool.stepped taken with
      | spawn request =>
          cases found : (pool.threads ++ [⟨request,
            (uploadPlane config).code request⟩])[index]? with
          | none => rw [heldKeys, found]
          | some thread =>
              rcases Pool.getElem?_concat_cases found with before | ⟨-, rfl⟩
              · rw [before] at present
                cases present
              · obtain ⟨area, tracked⟩ := code_tracked config request
                rw [heldKeys_eq found, tracked.progress.1]
                rfl
      | environment changed => exact nothing
      | step running executed => exact unset
      | abort running => exact unset
      | lose running executed => exact unset

theorem step_restorable {index : Nat} {pool next : Uploads Version}
    {event : UploadEvent Version} {seen : Text → Option Version}
    (sound : SoundUploads config pool) (clean : Clean pool event)
    (restorable : Restorable index pool seen)
    (taken : Pool.step (uploadPlane config) pool event = some next) :
    Restorable index next
      (Pool.besideStep UploadStore.get index pool.shared event next.shared
        seen) := by
  intro key outside
  cases own : Pool.own index event with
  | true =>
      obtain ⟨thread, present⟩ := own_present own taken
      obtain ⟨program, left, rest, same, tracked, effect, -⟩ :=
        step_effect sound present own clean taken
      have bound := (List.getElem?_eq_some_iff.mp present).1
      have moved : next.threads[index]? = some ⟨thread.request, program⟩ := by
        rw [same]
        exact List.getElem?_set_self bound
      have before := restorable key outside
      rw [heldKeys_eq present] at before
      rw [heldKeys_eq moved, tracked.progress.1, Pool.besideStep, own]
      exact effect.restorable seen outside before
  | false =>
      have after := step_soundUploads sound clean taken
      rw [heldKeys_others own taken, Pool.besideStep, own]
      have before := restorable key outside
      simp only [Bool.false_eq_true, if_false]
      constructor
      · intro held
        cases present : pool.threads[index]? with
        | none =>
            rw [heldKeys, present] at held
            cases held
        | some thread =>
            have still := step_others own taken present
            rw [heldKeys_eq present] at held
            rw [if_pos (sound.holding_get after present still held)]
            rw [heldKeys_eq present] at before
            exact before.1 held
      · intro held
        split
        · rename_i same
          rw [same]
          exact before.2 held
        · rfl

/-- Every tenant's objects admitted by the upload plane. -/
def IsAdmitted (key : Text) : Prop :=
  ∃ company, artifactPrefix company ++ admittedRoot <+: key

/-- The tenant's area for the upload holds exactly the versions that the commit
judged. -/
def Admits (config : UploadConfig Version) (handle : Text)
    (answer : Committed Version) (store : UploadStore Version) : Prop :=
  Judged config (config.company handle) answer ∧
    ∀ member version,
      store.get (admittedKey (artifactPrefix (config.company handle))
          answer.uploadId member) = some version ↔
        (member, version) ∈ answer.members

omit [DecidableEq Version] in
theorem lookup_iff_mem {objects : List (Text × Version)}
    (distinct : (objects.map Prod.fst).Nodup) {key : Text}
    {version : Version} :
    objects.lookup key = some version ↔ (key, version) ∈ objects := by
  induction objects with
  | nil => simp
  | cons object objects induction =>
      obtain ⟨name, found⟩ := object
      obtain ⟨absent, later⟩ := List.nodup_cons.mp distinct
      rw [List.lookup_cons]
      by_cases same : key = name
      · subst same
        have gone : (key, version) ∉ objects :=
          fun member => absent (List.mem_map.mpr ⟨_, member, rfl⟩)
        simp [gone, eq_comm]
      · rw [beq_eq_false_iff_ne.mpr same]
        simp [same, induction later]

omit [DecidableEq Version] in
theorem SoundUploads.admits {pool : Uploads Version}
    (sound : SoundUploads config pool) {handle : Text} {body : Body}
    {answer : Committed Version}
    (answered : ⟨.commit handle body, .done (.committed answer)⟩ ∈
      pool.threads) : Admits config handle answer pool.shared := by
  obtain ⟨-, some, -, judged⟩ := sound.tracked _ answered
  have holds : Holds pool.shared answer.progress :=
    sound.holds _ answered some
  refine ⟨judged, fun member version => ?_⟩
  rw [admittedKey_eq, ← judged.area, holds.exact _ (List.prefix_append _ _),
    lookup_iff_mem holds.holding.distinct, Committed.members, List.mem_map]
  constructor
  · exact fun found => ⟨_, found, by simp⟩
  · rintro ⟨object, found, same⟩
    obtain ⟨name, under⟩ := holds.holding.inside object found
    rw [← under, List.drop_left] at same
    obtain ⟨rfl, rfl⟩ := Prod.mk.inj same
    rw [under]
    exact found

/-- In a run whose steps are all clean, a commit that answers leaves what it
judged, and a request that ends in an error leaves every admitted object as it
would be without the request. -/
theorem commit_all_or_nothing (config : UploadConfig Version)
    (live : List Text) (objects : List (Text × Version))
    (first second : List (UploadEvent Version))
    (before final : Uploads Version)
    (reached : run (Pool.step (uploadPlane config))
      (.start ⟨live, objects, []⟩) first = some before)
    (ran : run (Pool.step (uploadPlane config)) before second = some final)
    (clean : Along (Pool.step (uploadPlane config)) Clean
      (.start ⟨live, objects, []⟩) (first ++ second)) :
    (∀ handle body answer,
      ⟨.commit handle body, .done (.committed answer)⟩ ∈ final.threads →
        Admits config handle answer final.shared) ∧
    ∀ request error,
      final.threads[before.threads.length]? = some ⟨request, .fail error⟩ →
        ∀ key, IsAdmitted key →
          final.shared.get key =
            Pool.beside (uploadPlane config) UploadStore.get
              before.threads.length before second before.shared.get key := by
  obtain ⟨early, late⟩ := clean.append reached
  have start : SoundUploads config (.start ⟨live, objects, []⟩) :=
    ⟨nofun, nofun, nofun, nofun⟩
  have sound : SoundUploads config before :=
    run_preserves_along (SoundUploads config)
      (fun _ _ _ sound clean taken => step_soundUploads sound clean taken)
      start early reached
  have none : heldKeys before before.threads.length = [] := by
    rw [heldKeys, List.getElem?_length]
  have restorable : Restorable before.threads.length before
      before.shared.get := by
    intro key _
    rw [none]
    exact ⟨nofun, fun _ => rfl⟩
  have ends := Pool.run_beside
    (fun pool seen => SoundUploads config pool ∧
      Restorable before.threads.length pool seen)
    (fun pool event next seen kept clean taken =>
      ⟨step_soundUploads kept.1 clean taken,
        step_restorable kept.1 clean kept.2 taken⟩)
    ⟨sound, restorable⟩ late ran
  refine ⟨fun handle body answer answered => ends.1.admits answered, ?_⟩
  rintro request error failed key ⟨company, owned⟩
  have nothing : heldKeys final before.threads.length = [] :=
    heldKeys_eq failed
  have restored := ends.2 key (not_staging owned)
  rw [nothing] at restored
  exact (restored.2 List.not_mem_nil).symm

end

/-- One tenant, whose uploads are all admitted. -/
def sampleUploads : UploadConfig Nat where
  bucket := []
  company _ := .uniform 'a' isLowerHex_a
  contents version := [UInt8.ofNat version]
  decode _ := []
  evaluate _ _ := .admitted
  repr _ := ""

def sampleId : String := "AAAAAAAAAAAAAAAA"

def sampleStaged (member : Text) : Text :=
  stagingKey (tenantToken (sampleUploads.company [])) sampleId.toList member

def sampleAdmitted (member : Text) : Text :=
  admittedKey (artifactPrefix (sampleUploads.company [])) sampleId.toList
    member

/-- The members are put and a commit takes its first five calls. -/
def committing (index : Nat) (handle : Text) : List (UploadEvent Nat) :=
  ([.environment (.put (sampleStaged manifestName) 1),
    .environment (.put (sampleStaged ['m']) 2),
    .spawn (.commit handle (.value (.obj [("upload_id", .str sampleId)])))] :
      List (UploadEvent Nat)) ++
    (List.replicate 5 (.step index .plain) : List (UploadEvent Nat))

/-- An upload of two members is staged and committed. -/
def uploaded : List (UploadEvent Nat) :=
  ([.spawn (.stage ['a'] (.value
      (.obj [("files", .arr [.str "MLmodel", .str "m"])]))),
    .step 0 .plain, .step 0 (.fresh sampleId.toList), .step 0 .plain,
    .step 0 .plain] : List (UploadEvent Nat)) ++ committing 1 ['a'] ++
    (List.replicate 4 (.step 1 .plain) : List (UploadEvent Nat))

/-- The upload is committed again under another handle, and its first member
changes before it is copied. -/
theorem commit_all_or_nothing_again : ∃ before final : Uploads Nat,
    run (Pool.step (uploadPlane sampleUploads))
      (.start ⟨[['a'], ['b']], [], []⟩) uploaded = some before ∧
    final.shared.get (sampleAdmitted manifestName) = some 1 ∧
    ∀ key, IsAdmitted key → final.shared.get key =
      Pool.beside (uploadPlane sampleUploads) UploadStore.get
        before.threads.length before (committing 2 ['b'] ++
          ([.environment (.put (sampleStaged manifestName) 3)] :
            List (UploadEvent Nat)) ++
          (List.replicate 3 (.step 2 .plain) : List (UploadEvent Nat)))
        before.shared.get key := by
  let step := Pool.step (uploadPlane sampleUploads)
  let start : Uploads Nat := .start ⟨[['a'], ['b']], [], []⟩
  let second := committing 2 ['b'] ++
    ([.environment (.put (sampleStaged manifestName) 3)] :
      List (UploadEvent Nat)) ++
    (List.replicate 3 (.step 2 .plain) : List (UploadEvent Nat))
  have clean : Along step Clean start (uploaded ++ second) := by
    decide +kernel
  have ran : ((run step start uploaded).any fun before =>
      (run step before second).any fun final =>
        (final.threads[before.threads.length]?).any fun thread =>
          thread.program.error?.isSome &&
            final.shared.get (sampleAdmitted manifestName) = some 1) =
      true := by
    decide +kernel
  obtain ⟨before, reached, ran⟩ := (Option.any_eq_true _ _).mp ran
  obtain ⟨final, ran, ended⟩ := (Option.any_eq_true _ _).mp ran
  obtain ⟨⟨request, program⟩, present, ended⟩ :=
    (Option.any_eq_true _ _).mp ended
  rw [Bool.and_eq_true, decide_eq_true_eq] at ended
  obtain ⟨error, failed⟩ := Option.isSome_iff_exists.mp ended.1
  cases Program.error?_eq_some failed
  exact ⟨before, final, reached, ended.2,
    (commit_all_or_nothing sampleUploads _ _ uploaded second before final
      reached ran clean).2 request error present⟩

/-- Committed again, with its second member changed after the first is copied,
the upload loses the member that an earlier commit admitted. -/
theorem admitted_member_lost :
    ¬∀ (config : UploadConfig Nat) (live : List Text)
      (objects : List (Text × Nat)) (first second : List (UploadEvent Nat))
      (before final : Uploads Nat),
      run (Pool.step (uploadPlane config)) (.start ⟨live, objects, []⟩)
        first = some before →
      run (Pool.step (uploadPlane config)) before second = some final →
      (∀ handle body answer,
        ⟨.commit handle body, .done (.committed answer)⟩ ∈ final.threads →
          Admits config handle answer final.shared) ∧
      ∀ request error,
        final.threads[before.threads.length]? =
            some ⟨request, .fail error⟩ →
          ∀ key, IsAdmitted key →
            final.shared.get key =
              Pool.beside (uploadPlane config) UploadStore.get
                before.threads.length before second before.shared.get
                key := by
  intro always
  let step := Pool.step (uploadPlane sampleUploads)
  let start : Uploads Nat := .start ⟨[['a'], ['b']], [], []⟩
  let second := committing 2 ['b'] ++
    ([.environment (.put (sampleStaged ['m']) 3)] :
      List (UploadEvent Nat)) ++
    (List.replicate 5 (.step 2 .plain) : List (UploadEvent Nat))
  have ran : ((run step start uploaded).any fun before =>
      (run step before second).any fun final =>
        (final.threads[before.threads.length]?).any fun thread =>
          thread.program.error?.isSome && decide
            (final.shared.get (sampleAdmitted manifestName) ≠
              Pool.beside (uploadPlane sampleUploads) UploadStore.get
                before.threads.length before second before.shared.get
                (sampleAdmitted manifestName))) = true := by
    decide +kernel
  obtain ⟨before, reached, ran⟩ := (Option.any_eq_true _ _).mp ran
  obtain ⟨final, ran, ended⟩ := (Option.any_eq_true _ _).mp ran
  obtain ⟨⟨request, program⟩, present, ended⟩ :=
    (Option.any_eq_true _ _).mp ended
  rw [Bool.and_eq_true, decide_eq_true_eq] at ended
  obtain ⟨error, failed⟩ := Option.isSome_iff_exists.mp ended.1
  cases Program.error?_eq_some failed
  have admitted : IsAdmitted (sampleAdmitted manifestName) := by
    refine ⟨sampleUploads.company [], ?_⟩
    simp only [sampleAdmitted, admittedKey, List.append_assoc]
    exact List.prefix_append_right_inj _ |>.mpr (List.prefix_append _ _)
  exact ended.2 ((always sampleUploads _ _ uploaded second before final
    reached ran).2 request error present _ admitted)

end IndustryFlow.Tracking
