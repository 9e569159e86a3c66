import IndustryFlow.Capabilities.Handles

/-!
# Live handles stay revocable

A handle that is live and in no index outlives a logout.  That happens where a
handle is minted while a revocation of the user is between reading an index
and removing it, and where the hub's index runs out while `refresh_server` has
extended a handle and not yet the index.
-/

namespace IndustryFlow.Capabilities

open Concurrent

/-! ## What goes wrong -/

/-- Some handle of the hub outlives the hub's index. -/
def Store.lagging (store : Store) : Bool :=
  store.hubIndex.any fun index =>
    (List.range store.entries.length).any fun handle =>
      (store.get handle).any fun entry =>
        entry.bound ≠ .upload && index.expires < entry.expires

abbrev Running := Thread Request Op Reply Refusal Nat

/-- The request has read the hub's index and will remove it. -/
def sweepsHub (thread : Running) : Bool :=
  match thread.request with
  | .revokeUser | .revokeUserCapabilities =>
      thread.program.next?.any (· ≠ .indexItems)
  | _ => false

/-- The request has read the index of uploads and will remove it. -/
def sweepsUploads (thread : Running) : Bool :=
  match thread.request with
  | .revokeUserCapabilities =>
      thread.program.next?.any (· ∉ [.indexItems, .uploadMembers])
  | _ => false

def refreshes (thread : Running) : Bool :=
  match thread.request with
  | .refreshServer _ => true
  | _ => false

/-- A call does not mint into an index that a request will remove. -/
def Lands (pool : Session) : Op → Prop
  | .setRecorded _ => ∀ other ∈ pool.threads, sweepsHub other = false
  | .addRecorded => ∀ other ∈ pool.threads, sweepsUploads other = false
  | _ => True

/-- A refresh is not cut off here while a handle outlives the index. -/
def Leaves (store : Store) : Op → Prop
  | .expireEntry handle => store.lagging = false ∧ store.get handle = none
  | .expireIndex => True
  | _ => store.lagging = false

instance (pool : Session) (op : Op) : Decidable (Lands pool op) := by
  cases op with
  | setRecorded server => exact inferInstanceAs (Decidable (∀ _ ∈ _, _))
  | addRecorded => exact inferInstanceAs (Decidable (∀ _ ∈ _, _))
  | _ => exact inferInstanceAs (Decidable True)

instance (store : Store) (op : Op) : Decidable (Leaves store op) := by
  cases op with
  | expireEntry handle => exact inferInstanceAs (Decidable (_ ∧ _))
  | expireIndex => exact inferInstanceAs (Decidable True)
  | _ => exact inferInstanceAs (Decidable (_ = _))

/-- No handle is minted while a revocation of the user is between reading the
index that will name it and removing that index; and once `refresh_server` has
extended a handle beyond the hub's index, it gets to extend the index before
the index runs out. -/
def Steady (pool : Session) : Event → Prop
  | .step index _ => ∀ thread ∈ pool.threads[index]?,
      ∀ op ∈ thread.program.next?, Lands pool op
  | .lose index _ => ∀ thread ∈ pool.threads[index]?,
      ∀ op ∈ thread.program.next?, Lands pool op ∧
        (refreshes thread = true → Leaves pool.shared op)
  | .abort index => ∀ thread ∈ pool.threads[index]?,
      refreshes thread = true → pool.shared.lagging = false
  | .environment (.tick seconds) => pool.shared.lagging = true →
      ∀ index ∈ pool.shared.hubIndex,
        pool.shared.now + seconds < index.expires
  | _ => True

instance (pool : Session) (event : Event) :
    Decidable (Steady pool event) := by
  cases event with
  | step index choice =>
      exact inferInstanceAs (Decidable (∀ _ ∈ _, ∀ _ ∈ _, _))
  | lose index choice =>
      exact inferInstanceAs (Decidable (∀ _ ∈ _, ∀ _ ∈ _, _ ∧ (_ → _)))
  | abort index => exact inferInstanceAs (Decidable (∀ _ ∈ _, _ → _))
  | spawn request => exact inferInstanceAs (Decidable True)
  | environment change =>
      cases change with
      | tick seconds => exact inferInstanceAs (Decidable (_ → ∀ _ ∈ _, _))
      | suspend suspended => exact inferInstanceAs (Decidable True)

/-! ## The store -/

variable {ttl : Nat}

/-- A handle that was minted, and not for an upload. -/
def HubHandle (store : Store) (handle : Nat) : Prop :=
  handle < store.entries.length ∧
    ∀ entry, store.get handle = some entry → entry.bound ≠ .upload

/-- Every live handle is in its index, and no upload handle outlives it. -/
structure Good (ttl : Nat) (store : Store) : Prop where
  server : ∀ handle entry, store.get handle = some entry →
    entry.bound ≠ .upload → ∃ index, store.hubIndex = some index ∧
      handle ∈ index.servers.map Prod.fst
  upload : ∀ handle entry, store.get handle = some entry →
    entry.bound = .upload → ∃ index, store.uploadIndex = some index ∧
      handle ∈ index.handles ∧ entry.expires ≤ index.expires
  short : ∀ handle entry, store.get handle = some entry →
    entry.expires ≤ store.now + ttl
  fields : ∀ index ∈ store.hub, ∀ item ∈ index.servers,
    HubHandle store item.1

theorem get_eq_some {store : Store} {handle : Nat} {entry : Entry} :
    store.get handle = some entry ↔
      store.entries[handle]? = some (some entry) ∧
        store.now < entry.expires := by
  unfold Store.get
  rw [Option.filter_eq_some_iff, Option.join_eq_some_iff]
  simp

theorem get_bound {store : Store} {handle : Nat} {entry : Entry}
    (found : store.get handle = some entry) :
    handle < store.entries.length :=
  (List.getElem?_eq_some_iff.mp (get_eq_some.mp found).1).1

theorem hubIndex_eq_some {store : Store} {index : HubIndex} :
    store.hubIndex = some index ↔
      store.hub = some index ∧ store.now < index.expires := by
  unfold Store.hubIndex
  rw [Option.filter_eq_some_iff, decide_eq_true_eq]

theorem uploadIndex_eq_some {store : Store} {index : UploadIndex} :
    store.uploadIndex = some index ↔
      store.upload = some index ∧ store.now < index.expires := by
  unfold Store.uploadIndex
  rw [Option.filter_eq_some_iff, decide_eq_true_eq]

theorem lagging_iff {store : Store} :
    store.lagging = true ↔ ∃ index handle entry,
      store.hubIndex = some index ∧ store.get handle = some entry ∧
        entry.bound ≠ .upload ∧ index.expires < entry.expires := by
  simp only [Store.lagging, Option.any_eq_true, List.any_eq_true,
    List.mem_range, Bool.and_eq_true, decide_eq_true_eq]
  constructor
  · rintro ⟨index, found, handle, -, entry, live, bound, later⟩
    exact ⟨index, handle, entry, found, live, bound, later⟩
  · rintro ⟨index, handle, entry, found, live, bound, later⟩
    exact ⟨index, found, handle, get_bound live, entry, live, bound, later⟩

theorem Good.revocable {store : Store} (good : Good ttl store) :
    Revocable store where
  server handle entry name found bound := by
    obtain ⟨index, present, member⟩ :=
      good.server handle entry found (by rw [bound]; exact fun same => nomatch same)
    rw [Store.items, present]
    exact member
  upload handle entry found bound := by
    obtain ⟨index, present, member, -⟩ := good.upload handle entry found bound
    rw [Store.members, present]
    exact member

/-- A handle that outlives no index of it. -/
theorem Good.covered {store : Store} (good : Good ttl store)
    (current : store.lagging = false) {handle : Nat} {entry : Entry}
    (found : store.get handle = some entry) (bound : entry.bound ≠ .upload) :
    ∃ index, store.hubIndex = some index ∧
      handle ∈ index.servers.map Prod.fst ∧ entry.expires ≤ index.expires := by
  obtain ⟨index, present, member⟩ := good.server handle entry found bound
  refine ⟨index, present, member, ?_⟩
  by_contra later
  have lags := lagging_iff.mpr
    ⟨index, handle, entry, present, found, bound, by omega⟩
  rw [current] at lags
  cases lags

/-- What a call can mint. -/
def Mints : Op → Bound → Prop
  | .setRecorded server, bound => bound = .server server
  | .addRecorded, bound => bound = .upload
  | _, _ => False

/-- Live handles come from nowhere but minting. -/
structure Evolves (minted : Bound → Prop) (before after : Store) : Prop where
  length : before.entries.length ≤ after.entries.length
  get : ∀ handle entry, after.get handle = some entry →
    (∃ old, before.get handle = some old ∧ old.bound = entry.bound) ∨
      before.entries.length ≤ handle ∧ minted entry.bound

theorem HubHandle.evolves {minted : Bound → Prop} {before after : Store}
    {handle : Nat} (hub : HubHandle before handle)
    (evolves : Evolves minted before after) : HubHandle after handle := by
  refine ⟨Nat.lt_of_lt_of_le hub.1 evolves.length, ?_⟩
  intro entry found
  rcases evolves.get handle entry found with ⟨old, live, same⟩ | ⟨new, -⟩
  · rw [← same]
    exact hub.2 old live
  · exact absurd hub.1 (Nat.not_lt_of_le new)

/-- What a call must find to leave every live handle in its index. -/
def Admits (store : Store) : Op → Prop
  | .indexRemove handles => ∀ handle ∈ handles, store.get handle = none
  | .deleteIndex => ∀ handle entry, store.get handle = some entry →
      entry.bound = .upload
  | .deleteIndexes => ∀ handle, store.get handle = none
  | .expireEntry handle => HubHandle store handle
  | _ => True

/-- A refresh has extended a handle. -/
def Extends : (op : Op) → Reply op → Prop
  | .expireEntry _, extended => extended = true
  | _, _ => False

/-- What a call leaves. -/
structure Kept (ttl : Nat) (op : Op) (reply : Reply op)
    (before after : Store) : Prop where
  good : Good ttl after
  evolves : Evolves (Mints op) before after
  lags : after.lagging = true → before.lagging = true ∨ Extends op reply
  settles : op = .expireIndex → after.lagging = false

theorem Evolves.refl (minted : Bound → Prop) (store : Store) :
    Evolves minted store store :=
  ⟨Nat.le_refl _, fun _ entry found => .inl ⟨entry, found, rfl⟩⟩

theorem Kept.unchanged {op : Op} {reply : Reply op} {store : Store}
    (good : Good ttl store)
    (settles : op = .expireIndex → store.lagging = false) :
    Kept ttl op reply store store :=
  ⟨good, .refl _ _, .inl, settles⟩

private theorem get_append {store : Store} {new entry : Entry}
    {hub : Option HubIndex} {upload : Option UploadIndex} {handle : Nat}
    (found : Store.get { store with
      entries := store.entries ++ [some new], hub, upload } handle =
        some entry) :
    store.get handle = some entry ∨
      handle = store.entries.length ∧ entry = new := by
  obtain ⟨present, live⟩ := get_eq_some.mp found
  rcases Pool.getElem?_concat_cases present with before | ⟨last, same⟩
  · exact .inl (get_eq_some.mpr ⟨before, live⟩)
  · exact .inr ⟨last, Option.some.inj same⟩

theorem Good.listed {store : Store} (good : Good ttl store) {handle : Nat}
    {entry : Entry} (found : store.get handle = some entry)
    (bound : entry.bound ≠ .upload) :
    handle ∈ store.items.map Prod.fst := by
  obtain ⟨index, present, member⟩ := good.server handle entry found bound
  rw [Store.items, present]
  exact member

theorem Good.items_hub {store : Store} (good : Good ttl store)
    {item : Nat × String} (member : item ∈ store.items) :
    HubHandle store item.1 := by
  unfold Store.items at member
  cases present : store.hubIndex with
  | none =>
      rw [present] at member
      cases member
  | some index =>
      rw [present] at member
      exact good.fields index (hubIndex_eq_some.mp present).1 item member

theorem Kept.setRecorded {store : Store} (good : Good ttl store)
    (server : String) (reply : Nat) :
    Kept ttl (.setRecorded server) reply store { store with
      entries := store.entries ++ [some ⟨.server server, store.now + ttl⟩]
      hub := some ⟨(store.entries.length, server) :: store.items,
        store.now + ttl⟩ } := by
  have short {handle : Nat} {entry : Entry}
      (found : Store.get { store with
        entries := store.entries ++ [some ⟨.server server, store.now + ttl⟩]
        hub := some ⟨(store.entries.length, server) :: store.items,
          store.now + ttl⟩ } handle = some entry) :
      entry.expires ≤ store.now + ttl := by
    rcases get_append found with before | ⟨-, rfl⟩
    · exact good.short handle entry before
    · exact Nat.le_refl _
  have evolves : Evolves (Mints (.setRecorded server)) store { store with
      entries := store.entries ++ [some ⟨.server server, store.now + ttl⟩]
      hub := some ⟨(store.entries.length, server) :: store.items,
        store.now + ttl⟩ } := by
    refine ⟨by simp, ?_⟩
    intro handle entry found
    rcases get_append found with before | ⟨rfl, rfl⟩
    · exact .inl ⟨entry, before, rfl⟩
    · exact .inr ⟨Nat.le_refl _, rfl⟩
  refine ⟨⟨?_, ?_, fun _ _ => short, ?_⟩, evolves, ?_, ?_⟩
  · intro handle entry found bound
    have live := (get_eq_some.mp found).2
    refine ⟨_, hubIndex_eq_some.mpr ⟨rfl, ?_⟩, ?_⟩
    · exact Nat.lt_of_lt_of_le live (short found)
    · rcases get_append found with before | ⟨rfl, -⟩
      · exact List.mem_cons_of_mem _ (good.listed before bound)
      · exact List.mem_cons_self
  · intro handle entry found bound
    rcases get_append found with before | ⟨-, rfl⟩
    · exact good.upload handle entry before bound
    · cases bound
  · intro index present item member
    cases present
    rcases List.mem_cons.mp member with rfl | old
    · refine ⟨by simp, ?_⟩
      intro entry found
      rcases get_append found with before | ⟨-, rfl⟩
      · exact absurd (get_bound before) (Nat.lt_irrefl _)
      · exact fun never => nomatch never
    · exact (good.items_hub old).evolves evolves
  · intro lags
    obtain ⟨index, handle, entry, present, found, -, later⟩ :=
      lagging_iff.mp lags
    cases (hubIndex_eq_some.mp present).1
    exact absurd (short found) (Nat.not_le_of_lt later)
  · intro never
    cases never

theorem Kept.addRecorded {store : Store} (good : Good ttl store)
    (reply : Nat) :
    Kept ttl .addRecorded reply store { store with
      entries := store.entries ++ [some ⟨.upload, store.now + ttl⟩]
      upload := some ⟨store.entries.length :: store.members,
        store.now + ttl⟩ } := by
  have short {handle : Nat} {entry : Entry}
      (found : Store.get { store with
        entries := store.entries ++ [some ⟨.upload, store.now + ttl⟩]
        upload := some ⟨store.entries.length :: store.members,
          store.now + ttl⟩ } handle = some entry) :
      entry.expires ≤ store.now + ttl := by
    rcases get_append found with before | ⟨-, rfl⟩
    · exact good.short handle entry before
    · exact Nat.le_refl _
  have evolves : Evolves (Mints .addRecorded) store { store with
      entries := store.entries ++ [some ⟨.upload, store.now + ttl⟩]
      upload := some ⟨store.entries.length :: store.members,
        store.now + ttl⟩ } := by
    refine ⟨by simp, ?_⟩
    intro handle entry found
    rcases get_append found with before | ⟨rfl, rfl⟩
    · exact .inl ⟨entry, before, rfl⟩
    · exact .inr ⟨Nat.le_refl _, rfl⟩
  refine ⟨⟨?_, ?_, fun _ _ => short, ?_⟩, evolves, ?_, ?_⟩
  · intro handle entry found bound
    rcases get_append found with before | ⟨-, rfl⟩
    · exact good.server handle entry before bound
    · exact absurd rfl bound
  · intro handle entry found bound
    have live := (get_eq_some.mp found).2
    refine ⟨_, uploadIndex_eq_some.mpr ⟨rfl, ?_⟩, ?_, short found⟩
    · exact Nat.lt_of_lt_of_le live (short found)
    · rcases get_append found with before | ⟨rfl, -⟩
      · obtain ⟨index, present, member, -⟩ :=
          good.upload handle entry before bound
        refine List.mem_cons_of_mem _ ?_
        rw [Store.members, present]
        exact member
      · exact List.mem_cons_self
  · intro index present item member
    exact (good.fields index present item member).evolves evolves
  · intro lags
    obtain ⟨index, handle, entry, present, found, bound, later⟩ :=
      lagging_iff.mp lags
    rcases get_append found with before | ⟨-, rfl⟩
    · exact .inl (lagging_iff.mpr
        ⟨index, handle, entry, present, before, bound, later⟩)
    · exact absurd rfl bound
  · intro never
    cases never

private theorem get_set {store : Store} {handle other : Nat}
    {value : Option Entry} {entry : Entry}
    (found : Store.get { store with
      entries := store.entries.set handle value } other = some entry) :
    handle ≠ other ∧ store.get other = some entry ∨
      handle = other ∧ value = some entry := by
  obtain ⟨present, live⟩ := get_eq_some.mp found
  rcases Pool.getElem?_set_cases present with ⟨rfl, same⟩ | ⟨other, before⟩
  · exact .inr ⟨rfl, same.symm⟩
  · exact .inl ⟨other, get_eq_some.mpr ⟨before, live⟩⟩

theorem Kept.deleteRecorded {store : Store} (good : Good ttl store)
    (handle : Nat) (reply : Bool) :
    Kept ttl (.deleteRecorded handle) reply store
      { store with entries := store.entries.set handle none } := by
  have before {other : Nat} {entry : Entry}
      (found : Store.get { store with
        entries := store.entries.set handle none } other = some entry) :
      store.get other = some entry := by
    rcases get_set found with ⟨-, old⟩ | ⟨-, never⟩
    · exact old
    · cases never
  have evolves : Evolves (Mints (.deleteRecorded handle)) store
      { store with entries := store.entries.set handle none } :=
    ⟨by simp, fun _ entry found => .inl ⟨entry, before found, rfl⟩⟩
  refine ⟨⟨?_, ?_, ?_, ?_⟩, evolves, ?_, ?_⟩
  · exact fun other entry found => good.server other entry (before found)
  · exact fun other entry found => good.upload other entry (before found)
  · exact fun other entry found => good.short other entry (before found)
  · intro index present item member
    exact (good.fields index present item member).evolves evolves
  · intro lags
    obtain ⟨index, other, entry, present, found, bound, later⟩ :=
      lagging_iff.mp lags
    exact .inl (lagging_iff.mpr
      ⟨index, other, entry, present, before found, bound, later⟩)
  · intro never
    cases never

theorem Kept.indexRemove {store : Store} (good : Good ttl store)
    {handles : List Nat}
    (dead : ∀ handle ∈ handles, store.get handle = none) :
    Kept ttl (.indexRemove handles) () store { store with
      hub := (store.hubIndex.map fun index => index.without handles).filter
        fun index => !index.servers.isEmpty } := by
  refine ⟨⟨?_, good.upload, good.short, ?_⟩, ⟨Nat.le_refl _, ?_⟩, ?_, ?_⟩
  · intro handle entry found bound
    obtain ⟨index, present, member⟩ := good.server handle entry found bound
    have kept : handle ∈ (index.without handles).servers.map Prod.fst := by
      obtain ⟨item, listed, rfl⟩ := List.mem_map.mp member
      refine List.mem_map.mpr ⟨item, List.mem_filter.mpr ⟨listed, ?_⟩, rfl⟩
      simp only [decide_eq_true_eq]
      intro removed
      have gone : store.get item.1 = some entry := found
      rw [dead item.1 removed] at gone
      cases gone
    refine ⟨index.without handles, hubIndex_eq_some.mpr ⟨?_, ?_⟩, kept⟩
    · have nonempty : (index.without handles).servers.isEmpty = false := by
        rw [List.isEmpty_eq_false_iff_exists_mem]
        obtain ⟨item, listed, -⟩ := List.mem_map.mp kept
        exact ⟨item, listed⟩
      simp [present, Option.filter, nonempty]
    · exact (hubIndex_eq_some.mp present).2
  · intro index present item member
    obtain ⟨mapped, -⟩ := Option.filter_eq_some_iff.mp present
    obtain ⟨old, found, rfl⟩ := Option.map_eq_some_iff.mp mapped
    exact good.fields old (hubIndex_eq_some.mp found).1 item
      (List.mem_of_mem_filter member)
  · exact fun handle entry found => .inl ⟨entry, found, rfl⟩
  · intro lags
    obtain ⟨index, handle, entry, present, found, bound, later⟩ :=
      lagging_iff.mp lags
    obtain ⟨mapped, -⟩ :=
      Option.filter_eq_some_iff.mp (hubIndex_eq_some.mp present).1
    obtain ⟨old, before, rfl⟩ := Option.map_eq_some_iff.mp mapped
    exact .inl (lagging_iff.mpr
      ⟨old, handle, entry, before, found, bound, later⟩)
  · intro never
    cases never

theorem Kept.deleteIndex {store : Store} (good : Good ttl store)
    (dead : ∀ handle entry, store.get handle = some entry →
      entry.bound = .upload) :
    Kept ttl .deleteIndex () store { store with hub := none } := by
  refine ⟨⟨?_, good.upload, good.short, (fun _ never => nomatch never)⟩,
    ⟨Nat.le_refl _, ?_⟩, ?_, ?_⟩
  · intro handle entry found bound
    exact absurd (dead handle entry found) bound
  · exact fun handle entry found => .inl ⟨entry, found, rfl⟩
  · intro lags
    obtain ⟨index, -, -, present, -⟩ := lagging_iff.mp lags
    cases present
  · intro never
    cases never

theorem Kept.deleteIndexes {store : Store}
    (dead : ∀ handle, store.get handle = none) :
    Kept ttl .deleteIndexes () store
      { store with hub := none, upload := none } := by
  have nothing {handle : Nat} {entry : Entry} {goal : Prop}
      (found : Store.get { store with hub := none, upload := none } handle =
        some entry) : goal := by
    have gone : store.get handle = some entry := found
    rw [dead handle] at gone
    cases gone
  refine ⟨⟨fun _ _ found => nothing found, fun _ _ found => nothing found,
    fun _ _ found => nothing found, (fun _ never => nomatch never)⟩,
    ⟨Nat.le_refl _, fun _ _ found => nothing found⟩, ?_, ?_⟩
  · intro lags
    obtain ⟨index, -, -, present, -⟩ := lagging_iff.mp lags
    cases present
  · intro never
    cases never

theorem Kept.expireEntry {store : Store} (good : Good ttl store)
    {handle : Nat} {entry : Entry} (hub : HubHandle store handle)
    (live : store.get handle = some entry) :
    Kept ttl (.expireEntry handle) true store { store with
      entries := store.entries.set handle
        (some { entry with expires := store.now + ttl }) } := by
  have bound := hub.2 entry live
  have evolves : Evolves (Mints (.expireEntry handle)) store { store with
      entries := store.entries.set handle
        (some { entry with expires := store.now + ttl }) } := by
    refine ⟨by simp, ?_⟩
    intro other found present
    rcases get_set present with ⟨-, old⟩ | ⟨rfl, same⟩
    · exact .inl ⟨found, old, rfl⟩
    · cases same
      exact .inl ⟨entry, live, rfl⟩
  refine ⟨⟨?_, ?_, ?_, ?_⟩, evolves, fun _ => .inr rfl, ?_⟩
  · intro other found present serverBound
    rcases get_set present with ⟨-, old⟩ | ⟨rfl, -⟩
    · exact good.server other found old serverBound
    · exact good.server handle entry live bound
  · intro other found present uploadBound
    rcases get_set present with ⟨-, old⟩ | ⟨rfl, same⟩
    · exact good.upload other found old uploadBound
    · cases same
      exact absurd uploadBound bound
  · intro other found present
    rcases get_set present with ⟨-, old⟩ | ⟨rfl, same⟩
    · exact good.short other found old
    · cases same
      exact Nat.le_refl _
  · intro index present item member
    exact (good.fields index present item member).evolves evolves
  · intro never
    cases never

theorem Kept.expireIndex {store : Store} (good : Good ttl store)
    {index : HubIndex} (present : store.hubIndex = some index) :
    Kept ttl .expireIndex true store { store with
      hub := some { index with expires := store.now + ttl } } := by
  have current : Store.lagging { store with
      hub := some { index with expires := store.now + ttl } } = false := by
    rw [Bool.eq_false_iff]
    intro lags
    obtain ⟨other, handle, entry, found, live, -, later⟩ :=
      lagging_iff.mp lags
    cases (hubIndex_eq_some.mp found).1
    exact absurd (good.short handle entry live) (Nat.not_le_of_lt later)
  refine ⟨⟨?_, good.upload, good.short, ?_⟩, ⟨Nat.le_refl _, ?_⟩, ?_,
    fun _ => current⟩
  · intro handle entry live bound
    obtain ⟨other, found, member⟩ := good.server handle entry live bound
    rw [present] at found
    cases found
    refine ⟨_, hubIndex_eq_some.mpr ⟨rfl, ?_⟩, member⟩
    exact Nat.lt_of_lt_of_le (get_eq_some.mp live).2
      (good.short handle entry live)
  · intro other found item member
    cases found
    exact good.fields index (hubIndex_eq_some.mp present).1 item member
  · exact fun handle entry found => .inl ⟨entry, found, rfl⟩
  · intro lags
    rw [current] at lags
    cases lags

/-- What every call leaves. -/
theorem exec_keeps {before after : Store} {op : Op} {reply : Reply op}
    (good : Good ttl before) (admits : Admits before op)
    (executed : exec ttl before op () = some (reply, after)) :
    Kept ttl op reply before after := by
  cases op with
  | setRecorded server =>
      cases executed
      exact .setRecorded good server _
  | addRecorded =>
      cases executed
      exact .addRecorded good _
  | deleteRecorded handle =>
      cases executed
      exact .deleteRecorded good handle _
  | indexRemove handles =>
      cases executed
      exact .indexRemove good admits
  | deleteIndex =>
      cases executed
      exact .deleteIndex good admits
  | deleteIndexes =>
      cases executed
      exact .deleteIndexes admits
  | expireEntry handle =>
      simp only [exec] at executed
      split at executed
      · cases executed
        exact .unchanged good fun never => nomatch never
      · rename_i entry live
        cases executed
        exact .expireEntry good admits live
  | expireIndex =>
      simp only [exec] at executed
      split at executed
      · rename_i missing
        cases executed
        refine .unchanged good fun _ => ?_
        rw [Store.lagging, missing]
        rfl
      · rename_i index present
        cases executed
        exact .expireIndex good present
  | _ =>
      cases executed
      exact .unchanged good fun never => nomatch never

/-! ## Where a request is -/

/-- How a revocation ends, and the handles that must be dead by then. -/
inductive Sweep (store : Store) :
    Request → Handler Nat → (Nat → Bound → Prop) → Prop where
  | fields {server : String} {handles : List Nat} (count : Nat)
      (hub : ∀ handle ∈ handles, HubHandle store handle) :
      Sweep store (.revokeServer server) (removeFields handles count)
        fun handle _ => handle ∈ handles
  | hub (count : Nat) :
      Sweep store .revokeUser (dropIndex count) fun _ bound =>
        bound ≠ .upload
  | both (count : Nat) :
      Sweep store .revokeUserCapabilities (dropIndexes count) fun _ _ => True

/-- The live handles that must be dead are among those still to come. -/
def Covers (store : Store) (needs : Nat → Bound → Prop)
    (handles : List Nat) : Prop :=
  ∀ handle entry, store.get handle = some entry →
    needs handle entry.bound → handle ∈ handles

/-- A call that admits every store. -/
def Harmless : Op → Prop
  | .indexRemove _ | .deleteIndex | .deleteIndexes | .expireEntry _ => False
  | _ => True

/-- Where a request is, and what holds of the store there. -/
inductive Point (store : Store) : Request → Handler Nat → Prop where
  | idle {request : Request} {program : Handler Nat}
      (calls : program.Always (fun _ _ => True) Harmless fun _ => True) :
      Point store request program
  | begun (request : Request) : Point store request (handle request)
  | listed {handles : List Nat}
      (covers : Covers store (fun _ bound => bound ≠ .upload) handles) :
      Point store .revokeUserCapabilities (revokeListed handles)
  | sweeping {request : Request} {finish : Handler Nat}
      {needs : Nat → Bound → Prop} {handles : List Nat}
      (sweep : Sweep store request finish needs)
      (covers : Covers store needs handles) :
      Point store request (revokeEach finish handles)
  | deleting {request : Request} {finish : Handler Nat}
      {needs : Nat → Bound → Prop} {handle : Nat} {handles : List Nat}
      (sweep : Sweep store request finish needs)
      (covers : Covers store needs (handle :: handles)) :
      Point store request
        (.call (.deleteRecorded handle) fun _ => revokeEach finish handles)
  | refreshing {server : String} {live dead handles : List Nat}
      (hub : ∀ handle ∈ dead ++ handles, HubHandle store handle)
      (gone : ∀ handle ∈ dead, store.get handle = none) :
      Point store (.refreshServer server) (refreshEach live dead handles)

/-- Nothing lives again. -/
theorem Evolves.dead {minted : Bound → Prop} {before after : Store}
    (evolves : Evolves minted before after) {handle : Nat}
    (known : handle < before.entries.length)
    (gone : before.get handle = none) : after.get handle = none := by
  rw [Option.eq_none_iff_forall_ne_some]
  intro entry found
  rcases evolves.get handle entry found with ⟨old, live, -⟩ | ⟨new, -⟩
  · rw [gone] at live
    cases live
  · exact absurd known (Nat.not_lt_of_le new)

theorem Sweep.evolves {minted : Bound → Prop} {before after : Store}
    {request : Request} {finish : Handler Nat} {needs : Nat → Bound → Prop}
    (sweep : Sweep before request finish needs)
    (evolves : Evolves minted before after) :
    Sweep after request finish needs := by
  cases sweep with
  | fields count hub =>
      exact .fields count fun handle member =>
        (hub handle member).evolves evolves
  | hub count => exact .hub count
  | both count => exact .both count

/-- What needs to be dead is still covered, if nothing of the kind was
minted. -/
theorem Covers.evolves {minted : Bound → Prop} {before after : Store}
    {needs : Nat → Bound → Prop} {handles : List Nat}
    (covers : Covers before needs handles)
    (evolves : Evolves minted before after)
    (unminted : ∀ handle bound, before.entries.length ≤ handle →
      needs handle bound → ¬minted bound) :
    Covers after needs handles := by
  intro handle entry found needed
  rcases evolves.get handle entry found with ⟨old, live, same⟩ | ⟨new, made⟩
  · exact covers handle old live (same ▸ needed)
  · exact absurd made (unminted handle entry.bound new needed)

theorem Sweep.unminted {minted : Bound → Prop} {store : Store}
    {request : Request} {finish : Handler Nat} {needs : Nat → Bound → Prop}
    (sweep : Sweep store request finish needs)
    (hub : request = .revokeUser ∨ request = .revokeUserCapabilities →
      ∀ bound, bound ≠ .upload → ¬minted bound)
    (upload : request = .revokeUserCapabilities → ¬minted .upload) :
    ∀ handle bound, store.entries.length ≤ handle → needs handle bound →
      ¬minted bound := by
  intro handle bound new needed
  cases sweep with
  | fields count known =>
      exact absurd (known handle needed).1 (Nat.not_lt_of_le new)
  | hub count => exact hub (.inl rfl) bound needed
  | both count =>
      by_cases same : bound = .upload
      · rw [same]
        exact upload rfl
      · exact hub (.inr rfl) bound same

/-- A revocation of the user that is under way shows in its next call. -/
theorem Sweep.next {store : Store} {request : Request}
    {finish : Handler Nat} {needs : Nat → Bound → Prop}
    (sweep : Sweep store request finish needs) (handles : List Nat)
    (user : request = .revokeUser ∨ request = .revokeUserCapabilities) :
    ∃ op ∉ [Op.indexItems, .uploadMembers],
      (revokeEach finish handles).next? = some op := by
  cases handles with
  | cons handle handles => exact ⟨.get handle, by simp, rfl⟩
  | nil =>
      cases sweep with
      | fields count hub =>
          rcases user with never | never
          · cases never
          · cases never
      | hub count => exact ⟨.deleteIndex, by simp, rfl⟩
      | both count => exact ⟨.deleteIndexes, by simp, rfl⟩

theorem sweepsHub_of_next {request : Request} {program : Handler Nat}
    {op : Op} (user : request = .revokeUser ∨
      request = .revokeUserCapabilities)
    (next : program.next? = some op) (different : op ≠ .indexItems) :
    sweepsHub ⟨request, program⟩ = true := by
  rcases user with rfl | rfl
  · simp [sweepsHub, next, different]
  · simp [sweepsHub, next, different]

theorem sweepsUploads_of_next {program : Handler Nat} {op : Op}
    (next : program.next? = some op)
    (different : op ∉ [Op.indexItems, .uploadMembers]) :
    sweepsUploads ⟨.revokeUserCapabilities, program⟩ = true := by
  simpa [sweepsUploads, next] using different

/-- Another request's step. -/
theorem Point.evolves {minted : Bound → Prop} {before after : Store}
    {request : Request} {program : Handler Nat}
    (point : Point before request program)
    (evolves : Evolves minted before after)
    (hub : sweepsHub ⟨request, program⟩ = true →
      ∀ bound, bound ≠ .upload → ¬minted bound)
    (upload : sweepsUploads ⟨request, program⟩ = true → ¬minted .upload) :
    Point after request program := by
  cases point with
  | idle calls => exact .idle calls
  | begun => exact .begun request
  | listed covers =>
      refine .listed (covers.evolves evolves fun _ bound _ needed => ?_)
      exact hub (sweepsHub_of_next (.inr rfl) rfl (by simp)) bound needed
  | sweeping sweep covers =>
      rename_i finish needs handles
      refine .sweeping (sweep.evolves evolves)
        (covers.evolves evolves (sweep.unminted ?_ ?_))
      · intro user
        obtain ⟨op, different, next⟩ := sweep.next handles user
        simp only [List.mem_cons, not_or] at different
        exact hub (sweepsHub_of_next user next different.1)
      · intro user
        obtain ⟨op, different, next⟩ := sweep.next handles (.inr user)
        subst user
        exact upload (sweepsUploads_of_next next different)
  | deleting sweep covers =>
      refine .deleting (sweep.evolves evolves)
        (covers.evolves evolves (sweep.unminted ?_ ?_))
      · intro user
        exact hub (sweepsHub_of_next user rfl (by simp))
      · intro user
        subst user
        exact upload (sweepsUploads_of_next rfl (by simp))
  | refreshing known gone =>
      refine .refreshing (fun handle member =>
        (known handle member).evolves evolves) fun handle member => ?_
      exact evolves.dead
        (known handle (List.mem_append_left _ member)).1 (gone handle member)

/-! ## A request's own step -/

/-- The hub's index is going to be extended. -/
def Owing (program : Handler Nat) : Prop :=
  program.Owes (fun _ _ => True) (· = .expireIndex)

theorem extendIndex_owes {live : List Nat} (extended : live ≠ []) :
    Owing (extendIndex live) := by
  unfold extendIndex
  rw [if_neg (by simpa using extended)]
  exact .inl rfl

theorem refreshEach_owes {live : List Nat} (extended : live ≠ [])
    (dead handles : List Nat) : Owing (refreshEach live dead handles) := by
  induction handles generalizing live dead with
  | nil =>
      unfold refreshEach
      split
      · exact extendIndex_owes extended
      · exact .inr fun _ _ => extendIndex_owes extended
  | cons handle handles induction =>
      refine .inr fun reply _ => ?_
      cases reply with
      | true => exact induction (by simp) dead
      | false => exact induction extended (dead ++ [handle])

/-- What a request does next, and where it is then. -/
structure Steps (ttl : Nat) (request : Request) (before : Store) (op : Op)
    (reply : Reply op) (after : Store) (rest : Handler Nat) : Prop where
  kept : Kept ttl op reply before after
  point : Point after request rest
  owes : Extends op reply → Owing rest ∧ ∃ server, request = .refreshServer server

section Own

variable {before after : Store} {request : Request} {op : Op}
  {next : Reply op → Handler Nat} {reply : Reply op}

/-- A call that changes nothing and leads to another point. -/
theorem Steps.read (good : Good ttl before) {rest : Handler Nat}
    (settles : op ≠ .expireIndex) (extends_ : ¬Extends op reply)
    (point : Point before request rest) :
    Steps ttl request before op reply before rest :=
  ⟨.unchanged good fun same => absurd same settles, point,
    fun extended => absurd extended extends_⟩

theorem idle_steps (good : Good ttl before)
    (calls : Program.Always (fun _ _ => True) Harmless (fun _ => True)
      (.call op next))
    (executed : exec ttl before op () = some (reply, after)) :
    Steps ttl request before op reply after (next reply) := by
  have harmless := calls.1
  have admits : Admits before op := by
    cases op with
    | indexRemove handles => exact harmless.elim
    | deleteIndex => exact harmless.elim
    | deleteIndexes => exact harmless.elim
    | expireEntry handle => exact harmless.elim
    | _ => trivial
  refine ⟨exec_keeps good admits executed, .idle (calls.2 reply trivial), ?_⟩
  intro extended
  cases op with
  | expireEntry handle => exact harmless.elim
  | _ => exact extended.elim

theorem mint_harmless (server : String) :
    (mint server).Always (fun _ _ => True) Harmless fun _ => True := by
  refine ⟨trivial, fun suspended _ => ?_⟩
  cases suspended with
  | true => trivial
  | false => exact ⟨trivial, fun _ _ => trivial⟩

theorem mintUpload_harmless :
    mintUpload.Always (fun _ _ => True) Harmless fun _ => True := by
  refine ⟨trivial, fun suspended _ => ?_⟩
  cases suspended with
  | true => trivial
  | false => exact ⟨trivial, fun _ _ => trivial⟩

theorem extendIndex_harmless (live : List Nat) :
    (extendIndex live).Always (fun _ _ => True) Harmless fun _ => True := by
  unfold extendIndex
  split
  · trivial
  · exact ⟨trivial, fun _ _ => trivial⟩

theorem Good.serverHandles_hub (good : Good ttl before) (server : String) :
    ∀ handle ∈ serverHandles server before.items, HubHandle before handle := by
  intro handle member
  obtain ⟨item, listed, rfl⟩ := List.mem_map.mp member
  exact good.items_hub (List.mem_of_mem_filter listed)

theorem begun_steps (good : Good ttl before)
    (same : Program.call op next = handle request)
    (executed : exec ttl before op () = some (reply, after)) :
    Steps ttl request before op reply after (next reply) := by
  cases request with
  | mint server =>
      exact idle_steps good (same ▸ mint_harmless server) executed
  | mintUpload =>
      exact idle_steps good (same ▸ mintUpload_harmless) executed
  | revokeServer server =>
      cases same
      cases executed
      refine .read good (by simp) id ?_
      exact .sweeping (.fields _ (good.serverHandles_hub server))
        fun _ _ _ needed => needed
  | revokeUser =>
      cases same
      cases executed
      refine .read good (by simp) id ?_
      exact .sweeping (.hub _) fun _ _ found bound => good.listed found bound
  | revokeUserCapabilities =>
      cases same
      cases executed
      refine .read good (by simp) id ?_
      exact .listed fun _ _ found bound => good.listed found bound
  | refreshServer server =>
      cases same
      cases executed
      refine .read good (by simp) id ?_
      exact .refreshing (good.serverHandles_hub server) fun _ never =>
        nomatch never

theorem listed_steps {handles : List Nat} (good : Good ttl before)
    (covers : Covers before (fun _ bound => bound ≠ .upload) handles)
    (same : Program.call op next = revokeListed handles)
    (executed : exec ttl before op () = some (reply, after)) :
    Steps ttl .revokeUserCapabilities before op reply after (next reply) := by
  cases same
  cases executed
  refine .read good (by simp) id (.sweeping (.both _) ?_)
  intro handle entry found _
  by_cases bound : entry.bound = .upload
  · obtain ⟨index, present, member, -⟩ := good.upload handle entry found bound
    refine List.mem_append_right _ ?_
    rw [Store.members, present]
    exact member
  · exact List.mem_append_left _ (covers handle entry found bound)

theorem finish_steps {finish : Handler Nat} {needs : Nat → Bound → Prop}
    (good : Good ttl before) (sweep : Sweep before request finish needs)
    (covers : Covers before needs [])
    (same : Program.call op next = finish)
    (executed : exec ttl before op () = some (reply, after)) :
    Steps ttl request before op reply after (next reply) := by
  cases sweep with
  | fields count hub =>
      unfold removeFields at same
      split at same
      · cases same
      · cases same
        rename_i handles _
        have dead : Admits before (.indexRemove handles) := by
          intro handle member
          rw [Option.eq_none_iff_forall_ne_some]
          intro entry found
          cases covers handle entry found member
        exact ⟨exec_keeps good dead executed, .idle trivial, fun never =>
          never.elim⟩
  | hub count =>
      cases same
      have dead : Admits before .deleteIndex := by
        intro handle entry found
        by_contra bound
        cases covers handle entry found bound
      exact ⟨exec_keeps good dead executed, .idle trivial, fun never =>
        never.elim⟩
  | both count =>
      cases same
      have dead : Admits before .deleteIndexes := by
        intro handle
        rw [Option.eq_none_iff_forall_ne_some]
        intro entry found
        cases covers handle entry found trivial
      exact ⟨exec_keeps good dead executed, .idle trivial, fun never =>
        never.elim⟩

theorem sweeping_steps {finish : Handler Nat} {needs : Nat → Bound → Prop}
    {handles : List Nat} (good : Good ttl before)
    (sweep : Sweep before request finish needs)
    (covers : Covers before needs handles)
    (same : Program.call op next = revokeEach finish handles)
    (executed : exec ttl before op () = some (reply, after)) :
    Steps ttl request before op reply after (next reply) := by
  cases handles with
  | nil => exact finish_steps good sweep covers same executed
  | cons handle handles =>
      cases same
      cases executed
      exact .read good (by simp) id (.deleting sweep covers)

theorem deleting_steps {finish : Handler Nat} {needs : Nat → Bound → Prop}
    {handle : Nat} {handles : List Nat} {removed : Bool}
    (good : Good ttl before) (sweep : Sweep before request finish needs)
    (covers : Covers before needs (handle :: handles))
    (executed : exec ttl before (.deleteRecorded handle) () =
      some (removed, after)) :
    Steps ttl request before (.deleteRecorded handle) removed after
      (revokeEach finish handles) := by
  have kept := exec_keeps good
    (show Admits before (.deleteRecorded handle) from trivial) executed
  cases executed
  refine ⟨kept, .sweeping (sweep.evolves kept.evolves) ?_, fun never =>
    never.elim⟩
  intro other entry found needed
  rcases get_set found with ⟨different, old⟩ | ⟨-, never⟩
  · rcases List.mem_cons.mp (covers other entry old needed) with rfl | later
    · exact absurd rfl different
    · exact later
  · cases never

theorem refreshing_steps {server : String} {live dead handles : List Nat}
    (good : Good ttl before)
    (hub : ∀ handle ∈ dead ++ handles, HubHandle before handle)
    (gone : ∀ handle ∈ dead, before.get handle = none)
    (same : Program.call op next = refreshEach live dead handles)
    (executed : exec ttl before op () = some (reply, after)) :
    Steps ttl (.refreshServer server) before op reply after (next reply) := by
  cases handles with
  | nil =>
      unfold refreshEach at same
      split at same
      · exact idle_steps good (same ▸ extendIndex_harmless live) executed
      · cases same
        exact ⟨exec_keeps good gone executed, .idle (extendIndex_harmless live),
          fun never => never.elim⟩
  | cons handle handles =>
      cases same
      have own := hub handle (by simp)
      have kept := exec_keeps good
        (show Admits before (.expireEntry handle) from own) executed
      have known := fun other member =>
        (hub other member).evolves kept.evolves
      have dead := fun other member => kept.evolves.dead
        (hub other (List.mem_append_left _ member)).1 (gone other member)
      simp only [exec] at executed
      split at executed
      · rename_i missing
        cases executed
        refine ⟨kept, .refreshing ?_ ?_, fun never => nomatch never⟩
        · intro other member
          exact known other (by simpa using member)
        · intro other member
          rcases List.mem_append.mp member with old | new
          · exact dead other old
          · rw [List.mem_singleton.mp new]
            exact missing
      · cases executed
        refine ⟨kept, .refreshing ?_ dead, fun _ =>
          ⟨refreshEach_owes (by simp) _ _, server, rfl⟩⟩
        intro other member
        refine known other ?_
        rcases List.mem_append.mp member with old | new
        · exact List.mem_append_left _ old
        · exact List.mem_append_right _ (List.mem_cons_of_mem _ new)

theorem point_steps (good : Good ttl before)
    (point : Point before request (.call op next))
    (executed : exec ttl before op () = some (reply, after)) :
    Steps ttl request before op reply after (next reply) := by
  generalize same : Program.call op next = program at point
  cases point with
  | idle calls =>
      subst same
      exact idle_steps good calls executed
  | begun => exact begun_steps good same executed
  | listed covers => exact listed_steps good covers same executed
  | sweeping sweep covers => exact sweeping_steps good sweep covers same executed
  | deleting sweep covers =>
      cases same
      exact deleting_steps good sweep covers executed
  | refreshing hub gone => exact refreshing_steps good hub gone same executed

end Own

/-! ## Every run -/

/-- The store is good, every request is at a point of it, and where a handle
outlives the hub's index a refresh is about to extend the index. -/
structure Sound (ttl : Nat) (pool : Session) : Prop where
  good : Good ttl pool.shared
  points : ∀ thread ∈ pool.threads,
    Point pool.shared thread.request thread.program
  owed : pool.shared.lagging = true → ∃ thread ∈ pool.threads,
    refreshes thread = true ∧ Owing thread.program

theorem start_sound (now : Nat) : Sound ttl (.start (.empty now)) where
  good := by
    have nothing (handle : Nat) : (Store.empty now).get handle = none := rfl
    refine ⟨?_, ?_, ?_, (fun _ never => nomatch never)⟩
    · exact fun handle entry found => nomatch (nothing handle).symm.trans found
    · exact fun handle entry found => nomatch (nothing handle).symm.trans found
    · exact fun handle entry found => nomatch (nothing handle).symm.trans found
  points := fun _ never => nomatch never
  owed := fun never => nomatch never

theorem Lands.hub {pool : Session} {op : Op} (lands : Lands pool op)
    {thread : Running} (member : thread ∈ pool.threads)
    (sweeps : sweepsHub thread = true) (bound : Bound)
    (server : bound ≠ .upload) : ¬Mints op bound := by
  intro minted
  cases op with
  | setRecorded name =>
      rw [lands thread member] at sweeps
      cases sweeps
  | addRecorded => exact server minted
  | _ => exact minted

theorem Lands.upload {pool : Session} {op : Op} (lands : Lands pool op)
    {thread : Running} (member : thread ∈ pool.threads)
    (sweeps : sweepsUploads thread = true) : ¬Mints op .upload := by
  intro minted
  cases op with
  | setRecorded name => cases minted
  | addRecorded =>
      rw [lands thread member] at sweeps
      cases sweeps
  | _ => exact minted

/-- The other requests after a call. -/
theorem Sound.others {pool : Session} (sound : Sound ttl pool) {op : Op}
    {reply : Reply op} {after : Store} (lands : Lands pool op)
    (kept : Kept ttl op reply pool.shared after) {index : Nat}
    {changed : Running} (own : Point after changed.request changed.program) :
    ∀ thread ∈ pool.threads.set index changed,
      Point after thread.request thread.program := by
  intro thread member
  rcases List.mem_or_eq_of_mem_set member with before | rfl
  · exact (sound.points thread before).evolves kept.evolves
      (lands.hub before) (lands.upload before)
  · exact own

theorem step_keeps_owed {pool : Session} (sound : Sound ttl pool)
    {index : Nat} {request : Request} {op : Op}
    {rest : Reply op → Handler Nat} {reply : Reply op} {after : Store}
    (running : pool.threads[index]? = some ⟨request, .call op rest⟩)
    (steps : Steps ttl request pool.shared op reply after (rest reply))
    (lags : after.lagging = true) :
    ∃ thread ∈ pool.threads.set index ⟨request, rest reply⟩,
      refreshes thread = true ∧ Owing thread.program := by
  have bound := (List.getElem?_eq_some_iff.mp running).1
  have here : (⟨request, rest reply⟩ : Running) ∈
      pool.threads.set index ⟨request, rest reply⟩ := List.mem_set bound _
  rcases steps.kept.lags lags with before | extended
  · obtain ⟨thread, member, refreshing, owing⟩ := sound.owed before
    obtain ⟨other, found⟩ := List.mem_iff_getElem?.mp member
    by_cases same : other = index
    · subst same
      rw [running] at found
      cases found
      rcases owing with settles | ahead
      · rw [steps.kept.settles settles] at lags
        cases lags
      · exact ⟨_, here, refreshing, ahead reply trivial⟩
    · refine ⟨thread, ?_, refreshing, owing⟩
      apply List.mem_of_getElem?
      rw [List.getElem?_set_ne (Ne.symm same)]
      exact found
  · obtain ⟨owing, server, rfl⟩ := steps.owes extended
    exact ⟨_, here, rfl, owing⟩

/-- A request that is not the one that owes the index may die. -/
theorem dies_keeps_owed {pool : Session} (sound : Sound ttl pool)
    {index : Nat} {thread : Running}
    (running : pool.threads[index]? = some thread)
    (idle : refreshes thread = true → pool.shared.lagging = false)
    (lags : pool.shared.lagging = true) :
    ∃ other ∈ pool.threads.set index ⟨thread.request, .fail .died⟩,
      refreshes other = true ∧ Owing other.program := by
  obtain ⟨other, member, refreshing, owing⟩ := sound.owed lags
  obtain ⟨place, found⟩ := List.mem_iff_getElem?.mp member
  refine ⟨other, ?_, refreshing, owing⟩
  apply List.mem_of_getElem?
  rw [List.getElem?_set_ne]
  · exact found
  · intro same
    subst same
    rw [running] at found
    cases found
    rw [idle refreshing] at lags
    cases lags

theorem Leaves.cases {store : Store} {op : Op} (leaves : Leaves store op) :
    op = .expireIndex ∨ store.lagging = false := by
  cases op with
  | expireEntry handle => exact .inr leaves.1
  | expireIndex => exact .inl rfl
  | _ => exact .inr leaves

/-- A refresh that is cut off here has extended nothing beyond the index. -/
theorem Leaves.unextended {store after : Store} {op : Op} {reply : Reply op}
    (leaves : Leaves store op)
    (executed : exec ttl store op () = some (reply, after)) :
    ¬Extends op reply := by
  intro extended
  cases op with
  | expireEntry handle =>
      simp only [exec, leaves.2] at executed
      cases executed
      cases extended
  | _ => exact extended

theorem lose_keeps_owed {pool : Session} (sound : Sound ttl pool)
    {index : Nat} {request : Request} {op : Op}
    {rest : Reply op → Handler Nat} {reply : Reply op} {after : Store}
    (running : pool.threads[index]? = some ⟨request, .call op rest⟩)
    (leaves : refreshes ⟨request, .call op rest⟩ = true →
      Leaves pool.shared op)
    (executed : exec ttl pool.shared op () = some (reply, after))
    (steps : Steps ttl request pool.shared op reply after (rest reply))
    (lags : after.lagging = true) :
    ∃ thread ∈ pool.threads.set index ⟨request, .fail .died⟩,
      refreshes thread = true ∧ Owing thread.program := by
  rcases steps.kept.lags lags with before | extended
  · refine dies_keeps_owed sound running ?_ before
    intro refreshing
    rcases (leaves refreshing).cases with settles | current
    · rw [steps.kept.settles settles] at lags
      cases lags
    · exact current
  · obtain ⟨-, server, rfl⟩ := steps.owes extended
    exact absurd extended ((leaves rfl).unextended executed)

/-- Time passes. -/
theorem tick_sound {pool : Session} {seconds : Nat} (sound : Sound ttl pool)
    (steady : Steady pool (.environment (.tick seconds))) :
    Sound ttl { pool with shared :=
      { pool.shared with now := pool.shared.now + seconds } } := by
  have before {handle : Nat} {entry : Entry}
      (found : Store.get { pool.shared with
        now := pool.shared.now + seconds } handle = some entry) :
      pool.shared.get handle = some entry ∧
        pool.shared.now + seconds < entry.expires := by
    obtain ⟨present, live⟩ := get_eq_some.mp found
    refine ⟨get_eq_some.mpr ⟨present, ?_⟩, live⟩
    exact Nat.lt_of_le_of_lt (Nat.le_add_right _ _) live
  have evolves : Evolves (fun _ => False) pool.shared
      { pool.shared with now := pool.shared.now + seconds } :=
    ⟨Nat.le_refl _, fun _ entry found => .inl ⟨entry, (before found).1, rfl⟩⟩
  refine ⟨⟨?_, ?_, ?_, ?_⟩, ?_, ?_⟩
  · intro handle entry found bound
    obtain ⟨old, live⟩ := before found
    cases lags : pool.shared.lagging with
    | true =>
        obtain ⟨index, present, member⟩ :=
          sound.good.server handle entry old bound
        have still := steady lags index present
        exact ⟨index, hubIndex_eq_some.mpr
          ⟨(hubIndex_eq_some.mp present).1, still⟩, member⟩
    | false =>
        obtain ⟨index, present, member, covered⟩ :=
          sound.good.covered lags old bound
        exact ⟨index, hubIndex_eq_some.mpr
          ⟨(hubIndex_eq_some.mp present).1, Nat.lt_of_lt_of_le live covered⟩,
          member⟩
  · intro handle entry found bound
    obtain ⟨old, live⟩ := before found
    obtain ⟨index, present, member, covered⟩ :=
      sound.good.upload handle entry old bound
    exact ⟨index, uploadIndex_eq_some.mpr
      ⟨(uploadIndex_eq_some.mp present).1, Nat.lt_of_lt_of_le live covered⟩,
      member, covered⟩
  · intro handle entry found
    have short := sound.good.short handle entry (before found).1
    simp only
    omega
  · intro index present item member
    exact (sound.good.fields index present item member).evolves evolves
  · intro thread member
    exact (sound.points thread member).evolves evolves (fun _ _ _ => id)
      fun _ => id
  · intro lags
    obtain ⟨index, handle, entry, present, found, bound, later⟩ :=
      lagging_iff.mp lags
    refine sound.owed (lagging_iff.mpr ⟨index, handle, entry, ?_,
      (before found).1, bound, later⟩)
    obtain ⟨same, live⟩ := hubIndex_eq_some.mp present
    refine hubIndex_eq_some.mpr ⟨same, ?_⟩
    exact Nat.lt_of_le_of_lt (Nat.le_add_right _ _) live

theorem suspend_sound {pool : Session} {suspended : Bool}
    (sound : Sound ttl pool) :
    Sound ttl { pool with shared := { pool.shared with suspended } } := by
  have evolves : Evolves (fun _ => False) pool.shared
      { pool.shared with suspended } :=
    ⟨Nat.le_refl _, fun _ entry found => .inl ⟨entry, found, rfl⟩⟩
  refine ⟨⟨sound.good.server, sound.good.upload, sound.good.short,
    sound.good.fields⟩, ?_, sound.owed⟩
  intro thread member
  exact (sound.points thread member).evolves evolves (fun _ _ _ => id)
    fun _ => id

theorem step_sound {pool next : Session} {event : Event}
    (sound : Sound ttl pool) (steady : Steady pool event)
    (taken : Pool.step (capabilities ttl) pool event = some next) :
    Sound ttl next := by
  cases Pool.stepped taken with
  | spawn request =>
      refine ⟨sound.good, ?_, ?_⟩
      · intro thread member
        rcases List.mem_append.mp member with before | new
        · exact sound.points thread before
        · cases List.mem_singleton.mp new
          exact .begun request
      · intro lags
        obtain ⟨thread, member, owing⟩ := sound.owed lags
        exact ⟨thread, List.mem_append_left _ member, owing⟩
  | step running executed =>
      have steps := point_steps sound.good
        (sound.points _ (List.mem_of_getElem? running)) executed
      exact ⟨steps.kept.good,
        sound.others (steady _ running _ rfl) steps.kept steps.point,
        step_keeps_owed sound running steps⟩
  | abort running =>
      refine ⟨sound.good, ?_,
        dies_keeps_owed sound running (steady _ running)⟩
      intro thread member
      rcases List.mem_or_eq_of_mem_set member with before | rfl
      · exact sound.points thread before
      · exact .idle trivial
  | lose running executed =>
      have steps := point_steps sound.good
        (sound.points _ (List.mem_of_getElem? running)) executed
      have ⟨lands, leaves⟩ := steady _ running _ rfl
      exact ⟨steps.kept.good,
        sound.others lands steps.kept (.idle trivial),
        lose_keeps_owed sound running leaves executed steps⟩
  | @environment change after changed =>
      cases change with
      | tick seconds =>
          cases changed
          exact tick_sound sound steady
      | suspend suspended =>
          cases changed
          exact suspend_sound sound

/-- In a run where minting and refreshing are not overtaken in these two ways,
every live handle is named by its index. -/
theorem handles_stay_revocable (ttl now : Nat) {events : List Event}
    {final : Session}
    (ran : run (Pool.step (capabilities ttl)) (.start (.empty now)) events =
      some final)
    (steady : Along (Pool.step (capabilities ttl)) Steady
      (.start (.empty now)) events) :
    Revocable final.shared := by
  have sound : Sound ttl final :=
    run_preserves_along (Sound ttl) (fun _ _ _ => step_sound)
      (start_sound now) steady ran
  exact sound.good.revocable

/-- A handle minted and refreshed, and one minted for an upload. -/
theorem handles_stay_revocable_refreshed :
    ∃ final : Session,
      run (Pool.step (capabilities 60)) (.start (.empty 0))
        ([.spawn (.mint "a"), .step 0 (), .step 0 (),
          .environment (.tick 30), .spawn (.refreshServer "a"),
          .step 1 (), .step 1 (), .step 1 (), .spawn .mintUpload,
          .step 2 (), .step 2 (), .environment (.tick 40)]) = some final ∧
        (final.shared.get 0).isSome = true ∧ Revocable final.shared := by
  let events : List Event := [.spawn (.mint "a"), .step 0 (), .step 0 (),
    .environment (.tick 30), .spawn (.refreshServer "a"),
    .step 1 (), .step 1 (), .step 1 (), .spawn .mintUpload,
    .step 2 (), .step 2 (), .environment (.tick 40)]
  have ran : ((run (Pool.step (capabilities 60)) (.start (.empty 0))
      events).any fun final => (final.shared.get 0).isSome &&
        decide (Along (Pool.step (capabilities 60)) Steady
          (.start (.empty 0)) events)) = true := by decide +kernel
  obtain ⟨final, reached, checks⟩ := (Option.any_eq_true _ _).mp ran
  simp only [Bool.and_eq_true, decide_eq_true_eq] at checks
  exact ⟨final, reached, checks.1,
    handles_stay_revocable 60 0 reached checks.2⟩

/-- A handle minted between the reading of the index and its removal. -/
theorem handle_lost :
    ¬∀ (ttl now : Nat) (events : List Event) (final : Session),
      run (Pool.step (capabilities ttl)) (.start (.empty now)) events =
        some final → Revocable final.shared := by
  intro revocable
  let events : List Event := [.spawn .revokeUser, .step 0 (),
    .spawn (.mint "a"), .step 1 (), .step 1 (), .step 0 ()]
  have ran : ((run (Pool.step (capabilities 60)) (.start (.empty 0))
      events).any fun final =>
        final.shared.get 0 = some ⟨.server "a", 60⟩ &&
          final.shared.items.isEmpty) = true := by decide +kernel
  obtain ⟨final, reached, checks⟩ := (Option.any_eq_true _ _).mp ran
  simp only [Bool.and_eq_true, decide_eq_true_eq] at checks
  have named := (revocable 60 0 events final reached).server 0 _ "a" checks.1
    rfl
  rw [List.isEmpty_iff.mp checks.2] at named
  cases named

end IndustryFlow.Capabilities
