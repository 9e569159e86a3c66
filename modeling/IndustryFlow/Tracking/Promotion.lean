import Mathlib.Data.List.Dedup
import IndustryFlow.Tracking.Uploads

/-!
# What a commit holds in the tenant's area

`Tracked` follows a request's program with the objects that it has copied and
not removed again: a copy adds one, a deletion removes one, and the program
ends with an error only when it holds none.  Every request of the upload plane
is tracked, and one that answers tells the versions it judged.
-/

namespace IndustryFlow.Tracking

open Concurrent Tenancy

variable {Version : Type}

/-! ## Areas -/

/-- The tenant's area for one upload. -/
def IsArea (area : Text) : Prop :=
  ∃ company uploadId, isUploadId uploadId = true ∧
    area = admittedArea (artifactPrefix company) uploadId

theorem isUploadId_no_slash {uploadId : Text}
    (valid : isUploadId uploadId = true) : '/' ∉ uploadId := by
  have body {text : Text} (chars : text.all isIdChar = true) :
      '/' ∉ text := by
    intro member
    exact absurd (List.all_eq_true.mp chars '/' member) (by decide)
  simp only [isUploadId, Bool.and_eq_true] at valid
  by_cases newline : uploadId.getLast? = some '\n'
  · rw [if_pos newline] at valid
    intro member
    obtain ⟨front, rfl⟩ := List.getLast?_eq_some_iff.mp newline
    rw [List.dropLast_concat] at valid
    rcases List.mem_append.mp member with before | last
    · exact body valid.2 before
    · exact absurd (List.mem_singleton.mp last) (by decide)
  · rw [if_neg newline] at valid
    exact body valid.2

/-- Two areas that share a key are one. -/
theorem IsArea.unique {left right key : Text} (isLeft : IsArea left)
    (isRight : IsArea right) (inLeft : left <+: key)
    (inRight : right <+: key) : left = right := by
  obtain ⟨company, uploadId, valid, rfl⟩ := isLeft
  obtain ⟨other, otherId, otherValid, rfl⟩ := isRight
  obtain ⟨rest, rfl⟩ := inLeft
  obtain ⟨otherRest, same⟩ := inRight
  simp only [admittedArea, List.append_assoc] at same
  have companies : other = company := by
    refine artifactPrefix_disjoint ?_ (List.prefix_append
      (artifactPrefix company) (admittedRoot ++ (uploadId ++ (['/'] ++ rest))))
    rw [← same]
    exact List.prefix_append _ _
  subst companies
  rw [List.append_cancel_left_eq, List.append_cancel_left_eq] at same
  have cut {text tail : Text} (slashless : '/' ∉ text) :
      (text ++ (['/'] ++ tail)).takeWhile (· ≠ '/') = text := by
    have all : ∀ char ∈ text, decide (char ≠ '/') = true := by
      intro char member
      refine decide_eq_true fun slash => slashless (slash ▸ member)
    rw [List.takeWhile_append_of_pos all]
    simp
  have ids := congrArg (List.takeWhile (· ≠ '/')) same
  rw [cut (isUploadId_no_slash otherValid),
    cut (isUploadId_no_slash valid)] at ids
  rw [ids]

theorem artifactPrefix_head (company : Company) (rest : Text) :
    (artifactPrefix company ++ rest).head? = some 't' := rfl

/-- Nothing of a tenant is in the staging area. -/
theorem not_staging {company : Company} {rest key : Text}
    (owned : artifactPrefix company ++ rest <+: key) :
    ¬stagingRoot <+: key := by
  rintro ⟨tail, rfl⟩
  obtain ⟨more, same⟩ := owned
  have heads := congrArg List.head? same
  rw [List.append_assoc, artifactPrefix_head] at heads
  have roots : (stagingRoot ++ tail).head? = some '_' := rfl
  rw [roots] at heads
  exact absurd heads (by decide)

theorem IsArea.not_staging {area key : Text} (isArea : IsArea area)
    (inside : area <+: key) : ¬stagingRoot <+: key := by
  obtain ⟨company, uploadId, -, rfl⟩ := isArea
  simp only [admittedArea, List.append_assoc] at inside
  exact Tracking.not_staging inside

/-! ## Objects -/

namespace UploadStore

theorem lookup_filter_ne {objects : List (Text × Version)}
    {key other : Text} (different : other ≠ key) :
    (objects.filter (·.1 ≠ key)).lookup other = objects.lookup other := by
  induction objects with
  | nil => rfl
  | cons object objects induction =>
      obtain ⟨found, version⟩ := object
      by_cases here : found = key
      · subst here
        rw [List.filter_cons_of_neg (by simp), induction,
          List.lookup_cons, beq_eq_false_iff_ne.mpr different]
      · rw [List.filter_cons_of_pos (by simpa using here),
          List.lookup_cons, List.lookup_cons, induction]

theorem lookup_filter_self (objects : List (Text × Version)) (key : Text) :
    (objects.filter (·.1 ≠ key)).lookup key = none := by
  rw [List.lookup_eq_none_iff]
  intro object member
  have different := of_decide_eq_true (List.mem_filter.mp member).2
  exact bne_iff_ne.mpr different.symm

theorem get_put_self (store : UploadStore Version) (key : Text)
    (version : Version) : (store.put key version).get key = some version := by
  simp [get, put]

theorem get_put_of_ne {store : UploadStore Version} {key other : Text}
    {version : Version} (different : other ≠ key) :
    (store.put key version).get other = store.get other := by
  rw [get, put, List.lookup_cons, beq_eq_false_iff_ne.mpr different]
  exact lookup_filter_ne different

theorem get_remove_self (store : UploadStore Version) (key : Text) :
    (store.remove key).get key = none :=
  lookup_filter_self store.objects key

theorem get_remove_of_ne {store : UploadStore Version} {key other : Text}
    (different : other ≠ key) :
    (store.remove key).get other = store.get other :=
  lookup_filter_ne different

theorem mem_list {store : UploadStore Version} {owner key : Text} :
    key ∈ store.list owner ↔
      owner <+: key ∧ (store.get key).isSome = true := by
  have present : key ∈ store.objects.map Prod.fst ↔
      (store.get key).isSome = true := by
    rw [← not_iff_not, Option.not_isSome_iff_eq_none, get,
      List.lookup_eq_none_iff]
    simp only [List.mem_map, not_exists, not_and, bne_iff_ne, ne_eq,
      eq_comm (a := key)]
  simp only [list, List.mem_insertionSort, List.mem_dedup, List.mem_filter,
    List.isPrefixOf_iff_prefix, present, and_comm]

theorem nodup_list (store : UploadStore Version) (owner : Text) :
    (store.list owner).Nodup :=
  (List.perm_insertionSort _ _).nodup_iff.mpr (List.nodup_dedup _)

end UploadStore

/-! ## Programs -/

/-- What the replies of the stores tell. -/
def Honest (config : UploadConfig Version) :
    (op : UploadOp Version) → UploadReply op → Prop
  | .resolve handle, reply => ∀ company, reply = some company →
      company = config.company handle
  | .listKeys owner, keys => keys.Nodup ∧ ∀ key ∈ keys, owner <+: key
  | .head _ length, reply => ∀ opening version,
      reply = some (opening, version) →
        opening = (config.contents version).take length
  | _, _ => True

variable {Answer Result : Type}

/-- The program holds `held` in `area` and is followed to its end. -/
def Tracked (config : UploadConfig Version)
    (post : Text → List (Text × Version) → Answer → Prop) :
    Uploading Version Answer → Text → List (Text × Version) → Prop
  | .done answer, area, held => post area held answer
  | .fail _, _, held => held = []
  | .call (.copy _ target version progress) next, area, held =>
      progress = ⟨area, held⟩ ∧ IsArea area ∧ area <+: target ∧
        target ∉ held.map Prod.fst ∧
        Tracked config post (next true) area (held ++ [(target, version)]) ∧
        Tracked config post (next false) area held
  | .call (.delete key progress) next, area, held =>
      progress = ⟨area, held⟩ ∧
        (key ∈ held.map Prod.fst ∨ stagingRoot <+: key) ∧
        Tracked config post (next ()) area (held.filter (·.1 ≠ key))
  | .call (.presign key) next, _, held => held = [] ∧ stagingRoot <+: key ∧
      ∃ area, Tracked config post (next ()) area []
  | .call op next, _, held => held = [] ∧
      ∀ reply, Honest config op reply →
        ∃ area, Tracked config post (next reply) area []

variable {config : UploadConfig Version}

theorem Tracked.bind {middle : Text → List (Text × Version) → Answer → Prop}
    {post : Text → List (Text × Version) → Result → Prop}
    {program : Uploading Version Answer}
    {continuation : Answer → Uploading Version Result}
    {area : Text} {held : List (Text × Version)}
    (tracked : Tracked config middle program area held)
    (rest : ∀ answer area held, middle area held answer →
      Tracked config post (continuation answer) area held) :
    Tracked config post (program >>= continuation) area held := by
  induction program generalizing area held with
  | done answer => exact rest answer area held tracked
  | fail error => exact tracked
  | call op next induction =>
      cases op with
      | copy source target version progress =>
          obtain ⟨same, isArea, inside, absent, copied, refused⟩ := tracked
          exact ⟨same, isArea, inside, absent, induction true copied,
            induction false refused⟩
      | delete key progress =>
          obtain ⟨same, own, after⟩ := tracked
          exact ⟨same, own, induction () after⟩
      | presign key =>
          obtain ⟨empty, staged, next, after⟩ := tracked
          exact ⟨empty, staged, next, induction () after⟩
      | resolve handle =>
          refine ⟨tracked.1, fun reply honest => ?_⟩
          obtain ⟨next, after⟩ := tracked.2 reply honest
          exact ⟨next, induction reply after⟩
      | newUploadId =>
          refine ⟨tracked.1, fun reply honest => ?_⟩
          obtain ⟨next, after⟩ := tracked.2 reply honest
          exact ⟨next, induction reply after⟩
      | listKeys owner =>
          refine ⟨tracked.1, fun reply honest => ?_⟩
          obtain ⟨next, after⟩ := tracked.2 reply honest
          exact ⟨next, induction reply after⟩
      | consume handle =>
          refine ⟨tracked.1, fun reply honest => ?_⟩
          obtain ⟨next, after⟩ := tracked.2 reply honest
          exact ⟨next, induction reply after⟩
      | head key length =>
          refine ⟨tracked.1, fun reply honest => ?_⟩
          obtain ⟨next, after⟩ := tracked.2 reply honest
          exact ⟨next, induction reply after⟩

/-! ## Discarding and promoting -/

theorem discard_tracked (area : Text) {keys : List Text}
    {held : List (Text × Version)} (distinct : keys.Nodup)
    (own : ∀ key ∈ keys, key ∈ held.map Prod.fst ∨ stagingRoot <+: key) :
    Tracked config
      (fun left rest _ => left = area ∧ rest = held.filter (·.1 ∉ keys))
      (discard area held keys) area held := by
  induction keys generalizing held with
  | nil => exact ⟨rfl, by simp⟩
  | cons key keys induction =>
      obtain ⟨absent, later⟩ := List.nodup_cons.mp distinct
      obtain ⟨first, others⟩ := List.forall_mem_cons.mp own
      refine ⟨rfl, first, ?_⟩
      have remaining : ∀ other ∈ keys,
          other ∈ (held.filter (·.1 ≠ key)).map Prod.fst ∨
            stagingRoot <+: other := by
        intro other member
        rcases others other member with inside | staged
        · left
          obtain ⟨object, found, rfl⟩ := List.mem_map.mp inside
          refine List.mem_map_of_mem (List.mem_filter.mpr ⟨found, ?_⟩)
          exact decide_eq_true fun same => absent (same ▸ member)
        · exact .inr staged
      have tracked := induction later remaining
      simp only [List.filter_filter] at tracked
      have same : held.filter (·.1 ∉ key :: keys) = held.filter fun object =>
          decide (object.1 ∉ keys) && decide (object.1 ≠ key) := by
        refine List.filter_congr fun object _ => ?_
        simp [Bool.and_comm]
      rw [same]
      exact tracked

/-- Objects in an area, with different keys. -/
structure Holding (area : Text) (held : List (Text × Version)) : Prop where
  isArea : IsArea area
  inside : ∀ object ∈ held, area <+: object.1
  distinct : (held.map Prod.fst).Nodup

theorem Holding.not_staged {area : Text} {held : List (Text × Version)}
    (holding : Holding area held) {key : Text}
    (member : key ∈ held.map Prod.fst) : ¬stagingRoot <+: key := by
  obtain ⟨object, found, rfl⟩ := List.mem_map.mp member
  exact holding.isArea.not_staging (holding.inside object found)

theorem abandon_tracked {area : Text} {held : List (Text × Version)}
    (holding : Holding area held) {keys : List Text} (distinct : keys.Nodup)
    (staged : ∀ key ∈ keys, stagingRoot <+: key)
    (post : Text → List (Text × Version) → Answer → Prop) :
    Tracked config post (abandon area held keys) area held := by
  have apart : (held.map Prod.fst ++ keys).Nodup := by
    refine List.nodup_append.mpr ⟨holding.distinct, distinct, ?_⟩
    intro key member other found same
    subst same
    exact holding.not_staged member (staged key found)
  have own : ∀ key ∈ held.map Prod.fst ++ keys,
      key ∈ held.map Prod.fst ∨ stagingRoot <+: key := by
    intro key member
    exact (List.mem_append.mp member).imp_right (staged key)
  refine (discard_tracked area apart own).bind ?_
  rintro _ left rest ⟨rfl, rfl⟩
  refine List.filter_eq_nil_iff.mpr fun object member => ?_
  simp only [decide_eq_true_eq, not_not]
  exact List.mem_append_left _ (List.mem_map_of_mem member)

/-- The staged objects are discarded and what is held stays. -/
theorem discard_staged {area : Text} {held : List (Text × Version)}
    (holding : Holding area held) {keys : List Text} (distinct : keys.Nodup)
    (staged : ∀ key ∈ keys, stagingRoot <+: key) :
    Tracked config (fun left rest _ => left = area ∧ rest = held)
      (discard area held keys) area held := by
  have tracked : Tracked config (fun left rest _ => left = area ∧
      rest = held.filter (·.1 ∉ keys)) (discard area held keys) area held :=
    discard_tracked area distinct fun key member => .inr (staged key member)
  have kept : held.filter (·.1 ∉ keys) = held := by
    refine List.filter_eq_self.mpr fun object member => ?_
    refine decide_eq_true fun found => ?_
    exact holding.not_staged (List.mem_map_of_mem member)
      (staged object.1 found)
  rw [kept] at tracked
  exact tracked

/-- The opening bytes that are read of a member. -/
def openingOf (config : UploadConfig Version) (member : Text)
    (version : Version) : Bytes :=
  (config.contents version).take
    (if member = manifestName then manifestMaxBytes + 1 else headBytes)

/-- The member at a staged key, as it was read. -/
def ReadAs (config : UploadConfig Version) (staging : Text)
    (read : Text × Option (Bytes × Version)) : Prop :=
  ∃ member, read.1 = staging ++ member ∧
    ∀ opening version, read.2 = some (opening, version) →
      opening = openingOf config member version

theorem memberOf_append {staging : Text} (nonempty : staging ≠ [])
    (member : Text) : memberOf staging (staging ++ member) = member := by
  rw [memberOf, ownedName_append (by simp [nonempty])]
  rfl

theorem stagingPrefix_root (token uploadId member : Text) :
    stagingRoot <+: stagingPrefix token uploadId ++ member := by
  simp only [stagingPrefix, List.append_assoc]
  exact List.prefix_append _ _

theorem stagingPrefix_ne_nil (token uploadId : Text) :
    stagingPrefix token uploadId ≠ [] := by
  simp [stagingPrefix]

theorem admittedKey_eq (owner uploadId member : Text) :
    admittedKey owner uploadId member =
      admittedArea owner uploadId ++ member := by
  simp [admittedKey, admittedArea]

theorem Holding.add {area member : Text} {held : List (Text × Version)}
    (holding : Holding area held)
    (absent : area ++ member ∉ held.map Prod.fst) (version : Version) :
    Holding area (held ++ [(area ++ member, version)]) where
  isArea := holding.isArea
  inside := by
    intro object found
    rcases List.mem_append.mp found with before | last
    · exact holding.inside object before
    · cases List.mem_singleton.mp last
      exact List.prefix_append _ _
  distinct := by
    rw [List.map_append]
    refine List.nodup_append.mpr ⟨holding.distinct, by simp, ?_⟩
    intro key found other last same
    rw [List.map_singleton, List.mem_singleton] at last
    rw [last] at same
    subst same
    exact absent found

/-- A member as it was read, and as it is held. -/
def readOf (config : UploadConfig Version) (staging : Text)
    (found : Text × Version) : Text × Option (Bytes × Version) :=
  (staging ++ found.1, some (openingOf config found.1 found.2, found.2))

def heldOf (area : Text) (found : Text × Version) : Text × Version :=
  (area ++ found.1, found.2)

/-- All members are copied, each in the version read. -/
def PromotePost (config : UploadConfig Version) (area staging : Text)
    (reads : List (Text × Option (Bytes × Version))) (left : Text)
    (rest result : List (Text × Version)) : Prop :=
  left = area ∧ rest = result ∧ Holding area result ∧
    ∃ members : List (Text × Version),
      reads = members.map (readOf config staging) ∧
      result = members.map (heldOf area)

/-- Promotion, once the members `done` are copied. -/
theorem promote_tracked {owner uploadId staging : Text}
    (nonempty : staging ≠ []) {keys : List Text} (distinct : keys.Nodup)
    (staged : ∀ key ∈ keys, stagingRoot <+: key)
    {all reads : List (Text × Option (Bytes × Version))}
    (asRead : ∀ read ∈ reads, ReadAs config staging read)
    (different : (reads.map Prod.fst).Nodup)
    {done held : List (Text × Version)}
    (split : all = done.map (readOf config staging) ++ reads)
    (copied : held = done.map (heldOf (admittedArea owner uploadId)))
    (holding : Holding (admittedArea owner uploadId) held)
    (absent : ∀ member, staging ++ member ∈ reads.map Prod.fst →
      admittedArea owner uploadId ++ member ∉ held.map Prod.fst) :
    Tracked config
      (PromotePost config (admittedArea owner uploadId) staging all)
      (promote owner uploadId staging keys reads held)
      (admittedArea owner uploadId) held := by
  induction reads generalizing done held with
  | nil =>
      rw [List.append_nil] at split
      exact ⟨rfl, rfl, holding, done, split, copied⟩
  | cons read reads induction =>
      obtain ⟨key, read⟩ := read
      obtain ⟨⟨member, same, honest⟩, others⟩ :=
        List.forall_mem_cons.mp asRead
      rw [List.map_cons, List.nodup_cons] at different
      simp only at same
      subst same
      unfold promote
      cases read with
      | none => exact abandon_tracked holding distinct staged _
      | some found =>
          obtain ⟨opening, version⟩ := found
          have new : admittedArea owner uploadId ++ member ∉
              held.map Prod.fst := absent member List.mem_cons_self
          rw [memberOf_append nonempty, admittedKey_eq]
          refine ⟨rfl, holding.isArea, List.prefix_append _ _, new, ?_, ?_⟩
          · have later : ∀ other, staging ++ other ∈ reads.map Prod.fst →
                admittedArea owner uploadId ++ other ∉
                  (held ++ [(admittedArea owner uploadId ++ member,
                    version)]).map Prod.fst := by
              intro other inside
              rw [List.map_append, List.mem_append, not_or]
              refine ⟨absent other (List.mem_cons_of_mem _ inside), ?_⟩
              rw [List.map_singleton, List.mem_singleton,
                List.append_cancel_left_eq]
              intro equal
              subst equal
              exact different.1 inside
            have further : all =
                (done ++ [(member, version)]).map (readOf config staging) ++
                  reads := by
              rw [split, honest opening version rfl]
              simp [readOf]
            refine induction others different.2 further ?_
              (holding.add new version) later
            rw [copied]
            simp [heldOf]
          · exact abandon_tracked holding distinct staged _

/-! ## Requests -/

/-- The members are read in the order of their keys, and held until then. -/
theorem readMembers_tracked {staging : Text} {keys : List Text}
    (members : ∀ key ∈ keys, staging <+: key)
    {post : Text → List (Text × Version) → Result → Prop}
    {continuation : List (Text × Option (Bytes × Version)) →
      Uploading Version Result}
    (rest : ∀ reads, reads.map Prod.fst = keys →
      (∀ read ∈ reads, ReadAs config staging read) →
        ∃ area, Tracked config post (continuation reads) area []) :
    ∃ area, Tracked config post
      (readMembers (staging ++ manifestName) keys >>= continuation)
        area [] := by
  induction keys generalizing continuation with
  | nil => exact rest [] rfl (by simp)
  | cons key keys induction =>
      obtain ⟨⟨member, same⟩, others⟩ := List.forall_mem_cons.mp members
      refine ⟨[], rfl, fun read honest => ?_⟩
      have further : ∃ area, Tracked config post
          (readMembers (staging ++ manifestName) keys >>= fun reads =>
            continuation ((key, read) :: reads)) area [] := by
        refine induction others fun reads names asRead => ?_
        refine rest _ (by rw [List.map_cons, names]) ?_
        refine List.forall_mem_cons.mpr ⟨⟨member, same.symm, ?_⟩, asRead⟩
        intro opening version found
        have taken := honest opening version found
        rw [taken, openingOf, ← same]
        simp only [List.append_cancel_left_eq]
      obtain ⟨area, tracked⟩ := further
      refine ⟨area, ?_⟩
      change Tracked config post ((readMembers _ keys >>= fun reads =>
        pure ((key, read) :: reads)) >>= continuation) area []
      rw [Program.bind_assoc]
      exact tracked

/-- The members that an answered commit holds. -/
def Committed.members (answer : Committed Version) :
    List (Text × Version) :=
  answer.progress.held.map fun object =>
    (object.1.drop answer.progress.area.length, object.2)

/-- The answer names the tenant's area, and the versions held were judged: the
whole manifest and the opening bytes of every member. -/
structure Judged (config : UploadConfig Version) (company : Company)
    (answer : Committed Version) : Prop where
  area : answer.progress.area =
    admittedArea (artifactPrefix company) answer.uploadId
  uri : answer.artifactUri =
    admittedUri config.bucket (artifactPrefix company) answer.uploadId
  files : answer.files =
    (answer.members.map Prod.fst).insertionSort (· ≤ ·)
  manifest : ∀ version, answer.members.lookup manifestName = some version →
    (config.contents version).length ≤ manifestMaxBytes
  admitted : config.evaluate
    ((answer.members.lookup manifestName).map fun version =>
      config.decode (config.contents version))
    (answer.members.map fun member =>
      (member.1, (config.contents member.2).take headBytes)) = .admitted

/-- What a request's answer tells of what it holds. -/
def Answers (config : UploadConfig Version) :
    UploadRequest → Text → List (Text × Version) →
      UploadAnswer Version → Prop
  | .stage _ _, _, held, .staged _ _ => held = []
  | .commit handle _, area, held, .committed answer =>
      answer.progress = ⟨area, held⟩ ∧ held ≠ [] ∧ Holding area held ∧
        Judged config (config.company handle) answer
  | _, _, _, _ => False

theorem lookup_readOf {staging : Text}
    {members : List (Text × Version)} :
    (((members.map (readOf config staging)).lookup
        (staging ++ manifestName)).join).map Prod.fst =
      (members.lookup manifestName).map fun version =>
        (config.contents version).take (manifestMaxBytes + 1) := by
  induction members with
  | nil => rfl
  | cons found members induction =>
      obtain ⟨member, version⟩ := found
      rw [List.map_cons, readOf, List.lookup_cons, List.lookup_cons]
      by_cases same : member = manifestName
      · subst same
        simp [openingOf]
      · have apart : (manifestName == member) = false :=
          beq_eq_false_iff_ne.mpr fun equal => same equal.symm
        have other : (staging ++ manifestName == staging ++ member) =
            false := by
          refine beq_eq_false_iff_ne.mpr fun equal => same ?_
          exact (List.append_cancel_left equal).symm
        rw [other, apart]
        exact induction

theorem memberHeads_readOf {staging : Text} (nonempty : staging ≠ [])
    (members : List (Text × Version)) :
    memberHeads staging (members.map (readOf config staging)) =
      members.map fun found =>
        (found.1, (config.contents found.2).take headBytes) := by
  rw [memberHeads, List.map_map]
  refine List.map_congr_left fun found _ => ?_
  have short : min headBytes (if found.1 = manifestName then
      manifestMaxBytes + 1 else headBytes) = headBytes := by
    split
    · decide
    · exact Nat.min_self _
  simp only [Function.comp_apply, readOf, memberOf_append nonempty,
    openingOf, List.take_take, short]

theorem members_heldOf {answer : Committed Version} {area : Text}
    {members : List (Text × Version)}
    (held : answer.progress = ⟨area, members.map (heldOf area)⟩) :
    answer.members = members := by
  rw [Committed.members, held, List.map_map]
  refine (List.map_congr_left fun found _ => ?_).trans (List.map_id _)
  simp [heldOf]

theorem judgeAndPromote_tracked {handle : Text} {body : Body}
    {uploadId : Text} (valid : isUploadId uploadId = true)
    {keys : List Text} (distinct : keys.Nodup) (some : keys ≠ [])
    (members : ∀ key ∈ keys,
      stagingPrefix (tenantToken (config.company handle)) uploadId <+: key) :
    ∃ area, Tracked config (Answers config (.commit handle body))
      (judgeAndPromote config (config.company handle) uploadId keys)
        area [] := by
  let company := config.company handle
  let area := admittedArea (artifactPrefix company) uploadId
  let staging := stagingPrefix (tenantToken company) uploadId
  have nonempty : staging ≠ [] := stagingPrefix_ne_nil _ _
  have staged : ∀ key ∈ keys, stagingRoot <+: key := by
    intro key member
    obtain ⟨name, rfl⟩ := members key member
    exact stagingPrefix_root _ _ _
  have clear : Holding area ([] : List (Text × Version)) :=
    ⟨⟨company, uploadId, valid, rfl⟩, by simp, List.nodup_nil⟩
  have refused (detail : String) : Tracked config
      (Answers config (.commit handle body))
      (discard area [] keys >>= fun _ => .fail (.http 422 detail)) area [] :=
    (discard_staged clear distinct staged).bind fun _ _ _ post => post.2
  refine readMembers_tracked members ?_
  intro reads names asRead
  refine ⟨area, ?_⟩
  dsimp only
  split
  · exact refused _
  · rename_i short
    split
    · rfl
    · exact refused _
    · rename_i admitted
      have start : Tracked config (PromotePost config area staging reads)
          (promote (artifactPrefix company) uploadId staging keys reads [])
          area [] := by
        have split : reads = ([] : List (Text × Version)).map
            (readOf config staging) ++ reads := rfl
        refine promote_tracked nonempty distinct staged asRead ?_ split rfl
          clear (by simp)
        rw [names]
        exact distinct
      refine start.bind ?_
      rintro result _ _ ⟨rfl, rfl, holding, found, rfl, rfl⟩
      refine (discard_staged holding distinct staged).bind ?_
      rintro _ _ _ ⟨rfl, rfl⟩
      have held : found.map (heldOf area) ≠ [] := by
        intro empty
        apply some
        rw [← names, List.map_eq_nil_iff.mp empty]
        rfl
      have whole : ∀ version, found.lookup manifestName = .some version →
          (config.contents version).length ≤ manifestMaxBytes := by
        intro version manifest
        rw [lookup_readOf, manifest] at short
        simp only [Option.map_some, Option.getD_some, gt_iff_lt, not_lt,
          List.length_take] at short
        omega
      refine ⟨rfl, held, holding, rfl, rfl, ?_, ?_, ?_⟩
      · rw [members_heldOf rfl, memberHeads_readOf nonempty, List.map_map]
        rfl
      · rw [members_heldOf rfl]
        exact whole
      · rw [members_heldOf rfl]
        rw [lookup_readOf, memberHeads_readOf nonempty] at admitted
        cases manifest : found.lookup manifestName with
        | none =>
            rw [manifest] at admitted
            exact admitted
        | some version =>
            have short := whole version manifest
            rw [manifest, Option.map_some,
              List.take_of_length_le (by omega)] at admitted
            exact admitted

theorem uploader_tracked {handle : Text}
    {post : Text → List (Text × Version) → Result → Prop}
    {continuation : Company → Uploading Version Result}
    (rest : ∃ area, Tracked config post
      (continuation (config.company handle)) area []) :
    ∃ area, Tracked config post (uploader handle >>= continuation)
      area [] := by
  refine ⟨[], rfl, ?_⟩
  rintro (_ | company) honest
  · exact ⟨[], rfl⟩
  · cases honest company rfl
    exact rest

theorem readBody_tracked {body : Body}
    {post : Text → List (Text × Version) → Result → Prop}
    {continuation : Message → Uploading Version Result}
    (rest : ∀ fields, ∃ area,
      Tracked config post (continuation fields) area []) :
    ∃ area, Tracked config post (readBody body >>= continuation) area [] := by
  unfold readBody
  cases jsonBody body with
  | ok fields => exact rest fields
  | error refusal => exact ⟨[], rfl⟩

theorem uploadCommit_tracked (config : UploadConfig Version)
    (handle : Text) (body : Body) :
    ∃ area, Tracked config (Answers config (.commit handle body))
      (uploadCommit config handle body) area [] := by
  refine uploader_tracked (readBody_tracked fun fields => ?_)
  split
  · rename_i text _
    dsimp only
    split
    · rename_i valid
      rw [Program.perform_bind]
      refine ⟨[], rfl, fun listed honest => ?_⟩
      dsimp only
      split
      · exact ⟨[], rfl⟩
      · rename_i some
        refine ⟨[], rfl, fun claimed _ => ?_⟩
        cases claimed with
        | false => exact ⟨[], rfl⟩
        | true =>
            refine judgeAndPromote_tracked valid (honest.1.filter _)
              (by simpa using some) ?_
            intro key member
            exact honest.2 key (List.mem_filter.mp member).1
    · exact ⟨[], rfl⟩
  · exact ⟨[], rfl⟩

theorem presignAll_tracked {token uploadId : Text} {members : List Text}
    {post : Text → List (Text × Version) → Result → Prop}
    {continuation : List (Text × Text) → Uploading Version Result}
    (rest : ∀ urls, ∃ area,
      Tracked config post (continuation urls) area []) :
    ∃ area, Tracked config post
      (presignAll token uploadId members >>= continuation) area [] := by
  induction members generalizing continuation with
  | nil => exact rest []
  | cons member members induction =>
      refine ⟨[], rfl, ?_, ?_⟩
      · simp only [stagingKey, List.append_assoc]
        exact List.prefix_append _ _
      · have further : ∃ area, Tracked config post
            (presignAll token uploadId members >>= fun urls =>
              continuation
                ((member, stagingKey token uploadId member) :: urls))
            area [] := induction fun urls => rest _
        obtain ⟨area, tracked⟩ := further
        refine ⟨area, ?_⟩
        change Tracked config post ((presignAll token uploadId members >>=
          fun urls => pure ((member, stagingKey token uploadId member) ::
            urls)) >>= continuation) area []
        rw [Program.bind_assoc]
        exact tracked

theorem uploadStage_tracked (config : UploadConfig Version)
    (handle : Text) (body : Body) :
    ∃ area, Tracked config (Answers config (.stage handle body))
      (uploadStage config handle body) area [] := by
  refine uploader_tracked (readBody_tracked fun fields => ?_)
  split
  · split
    · exact ⟨[], rfl⟩
    · split
      · exact ⟨[], rfl⟩
      · split
        · exact ⟨[], rfl⟩
        · split
          · refine ⟨[], rfl, fun uploadId _ => ?_⟩
            exact presignAll_tracked fun urls => ⟨[], rfl⟩
          · exact ⟨[], rfl⟩
  · exact ⟨[], rfl⟩

end IndustryFlow.Tracking
