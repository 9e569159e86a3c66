import IndustryFlow.Audit.Drain

/-!
# Entries are settled before they leave the stream

What an entry's fate can be is `Settled`: counted as unreadable, in the table,
or counted as refused by the table.  Passes only add to it, so a pass may rely
on what it has settled while others write, claim and acknowledge beside it.
Every entry that leaves the stream was settled before, whatever the database,
the store or the consumer did between two steps.
-/

namespace IndustryFlow.Audit

open Concurrent

variable {Fields Event : Type} {config : Config Fields Event}

/-- The entry was counted as unreadable, is in the table, or was counted as
refused because the table refuses it. -/
def Settled (config : Config Fields Event) (store : Store Fields Event)
    (id : Nat) : Prop :=
  ∃ fields, store.appended[id]? = some fields ∧
    (config.read fields = none ∧ id ∈ store.unreadable ∨
      ∃ event, config.read fields = some event ∧
        ((id, event) ∈ store.table ∨
          config.refuses event = true ∧ id ∈ store.refused))

structure Consistent (config : Config Fields Event)
    (store : Store Fields Event) : Prop where
  held : ∀ entry ∈ store.stream, store.appended[entry.1]? = some entry.2
  ordered : (store.stream.map Prod.fst).Pairwise (· < ·)
  bound : store.unread ≤ store.appended.length
  deliverable : ∀ entry ∈ store.stream,
    store.unread ≤ entry.1 ∨ entry.1 ∈ store.pending
  kept : ∀ id fields, store.appended[id]? = some fields →
    (id, fields) ∈ store.stream ∨ Settled config store id
  rows : ∀ row ∈ store.table, ∃ fields,
    store.appended[row.1]? = some fields ∧ config.read fields = some row.2
  once : (store.table.map Prod.fst).Nodup

/-- What the others can do between two calls of a pass. -/
structure Grows (before after : Store Fields Event) : Prop where
  appended : ∀ (id : Nat) (fields : Fields),
    before.appended[id]? = some fields → after.appended[id]? = some fields
  unreadable : ∀ id ∈ before.unreadable, id ∈ after.unreadable
  table : ∀ row ∈ before.table, row ∈ after.table
  refused : ∀ id ∈ before.refused, id ∈ after.refused

theorem Grows.refl (store : Store Fields Event) : Grows store store :=
  ⟨fun _ _ held => held, fun _ member => member, fun _ member => member,
    fun _ member => member⟩

theorem Grows.trans {first second third : Store Fields Event}
    (before : Grows first second) (after : Grows second third) :
    Grows first third where
  appended id fields held := after.appended id fields
    (before.appended id fields held)
  unreadable id member := after.unreadable id (before.unreadable id member)
  table row member := after.table row (before.table row member)
  refused id member := after.refused id (before.refused id member)

theorem Settled.grows {before after : Store Fields Event} {id : Nat}
    (settled : Settled config before id) (grows : Grows before after) :
    Settled config after id := by
  obtain ⟨fields, held, ⟨unread, counted⟩ | ⟨event, read, fate⟩⟩ := settled
  · exact ⟨fields, grows.appended id fields held,
      .inl ⟨unread, grows.unreadable id counted⟩⟩
  · refine ⟨fields, grows.appended id fields held, .inr ⟨event, read, ?_⟩⟩
    rcases fate with written | ⟨refuses, counted⟩
    · exact .inl (grows.table _ written)
    · exact .inr ⟨refuses, grows.refused id counted⟩

/-- Nothing of the stream is given up before it is settled. -/
def Gives (config : Config Fields Event)
    (before after : Store Fields Event) : Prop :=
  Grows before after ∧ ∀ entry ∈ before.stream,
    entry ∉ after.stream → Settled config before entry.1

def contract (config : Config Fields Event) :
    Contract (Store Fields Event) (Op Event) Choice where
  invariant := Consistent config
  allowed _ _ _ := True
  rely := Grows
  guarantee := Gives config
  rely_refl := Grows.refl
  rely_trans := Grows.trans

/-! ## The table -/

theorem insertRow_subset {table : List (Nat × Event)}
    {row other : Nat × Event} (member : other ∈ table) :
    other ∈ insertRow table row := by
  unfold insertRow
  split
  · exact member
  · exact List.mem_append_left _ member

theorem insertRows_subset (rows : List (Nat × Event))
    {table : List (Nat × Event)} {other : Nat × Event}
    (member : other ∈ table) :
    other ∈ rows.foldl insertRow table := by
  induction rows generalizing table with
  | nil => exact member
  | cons row rows induction => exact induction (insertRow_subset member)

theorem insertRows_nodup {rows table : List (Nat × Event)}
    (once : (table.map Prod.fst).Nodup) :
    ((rows.foldl insertRow table).map Prod.fst).Nodup := by
  induction rows generalizing table with
  | nil => exact once
  | cons row rows induction =>
      refine induction ?_
      unfold insertRow
      split
      · exact once
      · rename_i absent
        rw [List.map_append]
        refine List.nodup_append.mpr ⟨once, by simp, ?_⟩
        intro id member other last same
        cases List.mem_singleton.mp last
        exact absent (same ▸ member)

theorem mem_insertRows {rows table : List (Nat × Event)}
    {other : Nat × Event} (member : other ∈ rows.foldl insertRow table) :
    other ∈ table ∨ other ∈ rows := by
  induction rows generalizing table with
  | nil => exact .inl member
  | cons row rows induction =>
      rcases induction member with early | late
      · unfold insertRow at early
        split at early
        · exact .inl early
        · rcases List.mem_append.mp early with old | new
          · exact .inl old
          · cases List.mem_singleton.mp new
            exact .inr List.mem_cons_self
      · exact .inr (List.mem_cons_of_mem _ late)

/-- Every id of the rows is in the table afterwards. -/
theorem insertRows_id {rows : List (Nat × Event)}
    (table : List (Nat × Event)) {row : Nat × Event}
    (member : row ∈ rows) :
    row.1 ∈ (rows.foldl insertRow table).map Prod.fst := by
  induction rows generalizing table with
  | nil => cases member
  | cons first rows induction =>
      rcases List.mem_cons.mp member with rfl | later
      · have here : row.1 ∈ (insertRow table row).map Prod.fst := by
          unfold insertRow
          split
          · assumption
          · simp
        obtain ⟨other, inside, same⟩ := List.mem_map.mp here
        refine List.mem_map.mpr ⟨other, ?_, same⟩
        exact insertRows_subset rows inside
      · exact induction _ later

/-- A row that an appended entry tells. -/
def Tells (config : Config Fields Event) (store : Store Fields Event)
    (row : Nat × Event) : Prop :=
  ∃ fields, store.appended[row.1]? = some fields ∧
    config.read fields = some row.2

theorem Tells.grows {before after : Store Fields Event} {row : Nat × Event}
    (tells : Tells config before row) (grows : Grows before after) :
    Tells config after row := by
  obtain ⟨fields, held, read⟩ := tells
  exact ⟨fields, grows.appended _ _ held, read⟩

theorem Tells.unique {store : Store Fields Event} {row other : Nat × Event}
    (tells : Tells config store row) (otherTells : Tells config store other)
    (same : row.1 = other.1) : row = other := by
  obtain ⟨fields, held, read⟩ := tells
  obtain ⟨more, otherHeld, otherRead⟩ := otherTells
  rw [same, otherHeld] at held
  cases held
  rw [otherRead] at read
  exact Prod.ext same (Option.some.inj read).symm

theorem record_grows (store : Store Fields Event)
    (rows : List (Nat × Event)) : Grows store (store.record rows) where
  appended _ _ held := held
  unreadable _ member := member
  table _ member := insertRows_subset rows member
  refused _ member := member

theorem record_consistent {store : Store Fields Event}
    (consistent : Consistent config store) {rows : List (Nat × Event)}
    (tells : ∀ row ∈ rows, Tells config store row) :
    Consistent config (store.record rows) where
  held := consistent.held
  ordered := consistent.ordered
  bound := consistent.bound
  deliverable := consistent.deliverable
  kept id fields held := (consistent.kept id fields held).imp_right
    fun settled => settled.grows (record_grows store rows)
  rows row member := by
    rcases mem_insertRows member with old | new
    · exact consistent.rows row old
    · exact tells row new
  once := insertRows_nodup consistent.once

/-- A transaction that commits leaves its rows in the table. -/
theorem record_mem {store : Store Fields Event}
    (consistent : Consistent config store) {rows : List (Nat × Event)}
    (tells : ∀ row ∈ rows, Tells config store row) {row : Nat × Event}
    (member : row ∈ rows) : row ∈ (store.record rows).table := by
  have recorded := record_consistent consistent tells
  obtain ⟨other, inside, same⟩ :=
    List.mem_map.mp (insertRows_id store.table member)
  have twin : Tells config (store.record rows) other :=
    recorded.rows other inside
  have own : Tells config (store.record rows) row :=
    (tells row member).grows (record_grows store rows)
  rw [own.unique twin same.symm]
  exact inside

/-- A call that leaves the stream as it is. -/
theorem gives_of_grows {before after : Store Fields Event}
    (grows : Grows before after) (same : after.stream = before.stream) :
    Gives config before after := by
  refine ⟨grows, ?_⟩
  intro entry member absent
  rw [same] at absent
  exact absurd member absent

/-- How a transaction can end. -/
theorem exec_record {store after : Store Fields Event}
    {rows : List (Nat × Event)} {choice : Choice} {reply : Written}
    (executed : exec config store (.record rows) choice =
      some (reply, after)) :
    (reply = .committed ∧ after = store.record rows) ∨
      (∃ exc, reply = .raised exc ∧ exc.caught = true ∧ after = store ∧
        ∃ row ∈ rows, config.refuses row.2 = true) ∨
      ∃ exc, reply = .raised exc ∧ exc.caught = false ∧
        (after = store ∨ after = store.record rows) := by
  cases choice with
  | plain => cases executed
  | claim ids => cases executed
  | commit =>
      simp only [exec] at executed
      split at executed
      · cases executed
      · cases executed
        exact .inl ⟨rfl, rfl⟩
  | lost exc =>
      simp only [exec] at executed
      split at executed
      · cases executed
      · rename_i answered
        cases executed
        exact .inr (.inr ⟨exc, rfl,
          Bool.eq_false_iff.mpr fun caught => answered (.inr caught),
          .inr rfl⟩)
  | refuse exc =>
      simp only [exec] at executed
      split at executed
      · rename_i refused
        cases executed
        obtain ⟨row, member, refuses⟩ := List.any_eq_true.mp refused.1
        exact .inr (.inl ⟨exc, rfl, refused.2, rfl, row, member, refuses⟩)
      · cases executed
  | fail exc =>
      simp only [exec] at executed
      split at executed
      · cases executed
      · rename_i uncaught
        cases executed
        exact .inr (.inr ⟨exc, rfl, Bool.eq_false_iff.mpr uncaught,
          .inl rfl⟩)

theorem record_gives (store : Store Fields Event)
    (rows : List (Nat × Event)) :
    Gives config store (store.record rows) :=
  gives_of_grows (record_grows store rows) rfl

theorem gives_refl (store : Store Fields Event) : Gives config store store :=
  gives_of_grows (Grows.refl store) rfl

theorem countUnreadable_grows (store : Store Fields Event) (id : Nat) :
    Grows store { store with unreadable := id :: store.unreadable } where
  appended _ _ held := held
  unreadable _ member := List.mem_cons_of_mem _ member
  table _ member := member
  refused _ member := member

theorem countRefused_grows (store : Store Fields Event) (id : Nat) :
    Grows store { store with refused := id :: store.refused } where
  appended _ _ held := held
  unreadable _ member := member
  table _ member := member
  refused _ member := List.mem_cons_of_mem _ member

/-- What only adds to the entries' fates keeps the store consistent. -/
theorem Consistent.counts {store after : Store Fields Event}
    (consistent : Consistent config store) (grows : Grows store after)
    (appended : after.appended = store.appended)
    (stream : after.stream = store.stream)
    (unread : after.unread = store.unread)
    (pending : after.pending = store.pending)
    (table : after.table = store.table) : Consistent config after where
  held := by
    rw [stream, appended]
    exact consistent.held
  ordered := by
    rw [stream]
    exact consistent.ordered
  bound := by
    rw [unread, appended]
    exact consistent.bound
  deliverable := by
    rw [stream, unread, pending]
    exact consistent.deliverable
  kept id fields held := by
    rw [appended] at held
    rw [stream]
    exact (consistent.kept id fields held).imp_right
      fun settled => settled.grows grows
  rows := by
    rw [table, appended]
    exact consistent.rows
  once := by
    rw [table]
    exact consistent.once

/-! ## Writing a batch -/

/-- Entries that were appended. -/
def Taken (store : Store Fields Event) (entries : List (Nat × Fields)) :
    Prop :=
  ∀ entry ∈ entries, store.appended[entry.1]? = some entry.2

theorem Taken.grows {before after : Store Fields Event}
    {entries : List (Nat × Fields)} (taken : Taken before entries)
    (grows : Grows before after) : Taken after entries :=
  fun entry member => grows.appended _ _ (taken entry member)

/-- The rows of the entries, with the unreadable entries counted. -/
def ReadPost (config : Config Fields Event)
    (entries : List (Nat × Fields)) :
    Except Failed (List (Nat × Event)) → Store Fields Event → Prop
  | .ok rows, store => Taken store entries ∧
      (∀ row ∈ rows, Tells config store row) ∧
      ∀ entry ∈ entries,
        (config.read entry.2 = none ∧ entry.1 ∈ store.unreadable) ∨
          ∃ event, config.read entry.2 = some event ∧
            (entry.1, event) ∈ rows
  | .error _, _ => True

theorem gives_grows {before after : Store Fields Event}
    (gives : (contract config).guarantee before after) :
    (contract config).rely before after :=
  gives.1

theorem readEntries_safe {entries : List (Nat × Fields)}
    {store : Store Fields Event} (consistent : Consistent config store)
    (taken : Taken store entries) :
    (readEntries config entries).Safe (exec config) (contract config)
      (ReadPost config entries) store := by
  induction entries generalizing store with
  | nil =>
      intro later _ _
      exact ⟨nofun, nofun, nofun⟩
  | cons entry entries induction =>
      obtain ⟨id, fields⟩ := entry
      obtain ⟨held, remaining⟩ := List.forall_mem_cons.mp taken
      have others : Taken store entries := remaining
      unfold readEntries
      cases read : config.read fields with
      | some event =>
          refine Program.Safe.bind consistent
            (Program.Safe.tracks gives_grows (induction consistent others))
            ?_ (fun _ _ _ => trivial)
          rintro rows later _ ⟨⟨still, tells, fates⟩, grows⟩ last _ further
          have more := Grows.trans grows further
          have own := more.appended id fields held
          refine ⟨?_, ?_, ?_⟩
          · exact List.forall_mem_cons.mpr ⟨own, still.grows further⟩
          · exact List.forall_mem_cons.mpr ⟨⟨fields, own, read⟩,
              fun row member => (tells row member).grows further⟩
          · refine List.forall_mem_cons.mpr
              ⟨.inr ⟨event, read, List.mem_cons_self⟩, ?_⟩
            intro other member
            rcases fates other member with ⟨none, counted⟩ | ⟨found, reads, row⟩
            · exact .inl ⟨none, further.unreadable _ counted⟩
            · exact .inr ⟨found, reads, List.mem_cons_of_mem _ row⟩
      | none =>
          intro later consistentLater grows choice reply after _ executed
          cases choice with
          | plain =>
              cases executed
              have counts := countUnreadable_grows later id
              have kept : Consistent config
                  { later with unreadable := id :: later.unreadable } :=
                consistentLater.counts counts rfl rfl rfl rfl rfl
              refine ⟨kept, gives_of_grows counts rfl, ?_⟩
              have takenNow := (others.grows grows).grows counts
              refine (Program.Safe.tracks gives_grows
                (induction kept takenNow)).mono ?_
              rintro (error | rows) last _ ⟨post, further⟩
              · trivial
              · obtain ⟨still, tells, fates⟩ := post
                have own := Grows.appended (further) id fields
                  (counts.appended _ _ (grows.appended _ _ held))
                refine ⟨List.forall_mem_cons.mpr ⟨own, still⟩, tells,
                  List.forall_mem_cons.mpr ⟨.inl ⟨read, ?_⟩, fates⟩⟩
                exact Grows.unreadable further id List.mem_cons_self
          | claim ids => cases executed
          | commit => cases executed
          | lost exc => cases executed
          | refuse exc => cases executed
          | fail exc => cases executed

/-- Every row is in the table, or was refused for itself. -/
def WrittenPost (config : Config Fields Event) (rows : List (Nat × Event)) :
    Except Failed Unit → Store Fields Event → Prop
  | .ok _, store => ∀ row ∈ rows, row ∈ store.table ∨
      config.refuses row.2 = true ∧ row.1 ∈ store.refused
  | .error _, _ => True

theorem writeAlone_safe {rows : List (Nat × Event)}
    {store : Store Fields Event}
    (tells : ∀ row ∈ rows, Tells config store row) :
    (writeAlone rows).Safe (exec config) (contract config)
      (WrittenPost config rows) store := by
  induction rows generalizing store with
  | nil =>
      intro later _ _
      exact nofun
  | cons row rows induction =>
      obtain ⟨own, others⟩ := List.forall_mem_cons.mp tells
      intro later consistent grows choice reply after _ executed
      have single : ∀ one ∈ [row], Tells config later one := by
        intro one member
        cases List.mem_singleton.mp member
        exact own.grows grows
      have rest {last : Store Fields Event} (more : Grows later last) :
          ∀ one ∈ rows, Tells config last one :=
        fun one member => (others one member).grows (grows.trans more)
      rcases exec_record executed with ⟨rfl, rfl⟩ |
        ⟨exc, rfl, caught, rfl, one, member, refuses⟩ |
        ⟨exc, rfl, uncaught, same⟩
      · refine ⟨record_consistent consistent single, record_gives _ _, ?_⟩
        refine (Program.Safe.tracks gives_grows
          (induction (rest (record_grows _ _)))).mono ?_
        rintro (error | _) last _ ⟨post, further⟩
        · trivial
        · exact List.forall_mem_cons.mpr ⟨.inl (Grows.table further _
            (record_mem consistent single List.mem_cons_self)), post⟩
      · cases List.mem_singleton.mp member
        refine ⟨consistent, gives_refl _, ?_⟩
        change (if exc.caught then
          (countRefused row.1 >>= fun _ => writeAlone rows)
          else Program.fail (.raised exc)).Safe _ _ _ _
        rw [if_pos caught]
        intro next kept more choice reply after _ counted
        have counts := countRefused_grows next row.1
        cases choice with
        | plain =>
            cases counted
            refine ⟨kept.counts counts rfl rfl rfl rfl rfl,
              gives_of_grows counts rfl, ?_⟩
            refine (Program.Safe.tracks gives_grows
              (induction (rest (Grows.trans more counts)))).mono ?_
            rintro (error | _) last _ ⟨post, further⟩
            · trivial
            · exact List.forall_mem_cons.mpr ⟨.inr ⟨refuses,
                Grows.refused further _ List.mem_cons_self⟩, post⟩
        | claim ids => cases counted
        | commit => cases counted
        | lost exc => cases counted
        | refuse exc => cases counted
        | fail exc => cases counted
      · have failed {last : Store Fields Event} :
            ((if exc.caught then
              (countRefused row.1 >>= fun _ => writeAlone rows)
              else Program.fail (.raised exc) :
                Drain Fields Event Unit)).Safe (exec config)
                (contract config) (WrittenPost config (row :: rows)) last := by
          rw [if_neg (by simp [uncaught])]
          exact fun _ _ _ => trivial
        rcases same with rfl | rfl
        · exact ⟨consistent, gives_refl _, failed⟩
        · exact ⟨record_consistent consistent single, record_gives _ _,
            failed⟩

/-- Every entry is settled, and all of them are to be acknowledged. -/
def BatchPost (config : Config Fields Event)
    (entries : List (Nat × Fields)) :
    Except Failed (List Nat) → Store Fields Event → Prop
  | .ok ack, store => ack = entries.map Prod.fst ∧
      ∀ entry ∈ entries, Settled config store entry.1
  | .error _, _ => True

/-- Entries whose rows are settled are settled. -/
theorem settled_of_fates {entries : List (Nat × Fields)}
    {rows : List (Nat × Event)} {before after : Store Fields Event}
    (read : ReadPost config entries (.ok rows) before)
    (grows : Grows before after)
    (written : WrittenPost config rows (.ok ()) after) :
    ∀ entry ∈ entries, Settled config after entry.1 := by
  obtain ⟨taken, -, fates⟩ := read
  intro entry member
  refine ⟨entry.2, grows.appended _ _ (taken entry member), ?_⟩
  rcases fates entry member with ⟨unread, counted⟩ | ⟨event, reads, row⟩
  · exact .inl ⟨unread, grows.unreadable _ counted⟩
  · exact .inr ⟨event, reads, written _ row⟩

theorem writeBatch_safe {entries : List (Nat × Fields)}
    {store : Store Fields Event} (consistent : Consistent config store)
    (taken : Taken store entries) :
    (writeBatch config entries).Safe (exec config) (contract config)
      (BatchPost config entries) store := by
  refine Program.Safe.bind consistent (readEntries_safe consistent taken) ?_
    (fun _ _ _ => trivial)
  intro rows later _ read
  dsimp only
  split
  · rename_i empty
    cases List.isEmpty_iff.mp empty
    intro last _ further
    exact ⟨rfl, settled_of_fates read further nofun⟩
  · intro last kept more choice reply after _ executed
    have tells : ∀ row ∈ rows, Tells config last row :=
      fun row member => (read.2.1 row member).grows more
    have failed {exc : Exc} (uncaught : exc.caught = false)
        {upto : Store Fields Event} :
        ((if exc.caught then
          (writeAlone rows >>= fun _ => pure (entries.map Prod.fst))
          else Program.fail (.raised exc) :
            Drain Fields Event (List Nat))).Safe (exec config)
            (contract config) (BatchPost config entries) upto := by
      rw [if_neg (by simp [uncaught])]
      exact fun _ _ _ => trivial
    rcases exec_record executed with ⟨rfl, rfl⟩ |
      ⟨exc, rfl, caught, rfl, -⟩ | ⟨exc, rfl, uncaught, rfl | rfl⟩
    · refine ⟨record_consistent kept tells, record_gives _ _, ?_⟩
      intro final _ further
      refine ⟨rfl, settled_of_fates read
        (more.trans (Grows.trans (record_grows _ _) further)) ?_⟩
      intro row member
      exact .inl (Grows.table further _ (record_mem kept tells member))
    · refine ⟨kept, gives_refl _, ?_⟩
      change (if exc.caught then
        (writeAlone rows >>= fun _ => pure (entries.map Prod.fst))
        else Program.fail (.raised exc)).Safe _ _ _ _
      rw [if_pos caught]
      refine Program.Safe.bind kept
        (Program.Safe.tracks gives_grows (writeAlone_safe tells)) ?_
        (fun _ _ _ => trivial)
      rintro ⟨⟩ middle _ ⟨written, grown⟩ final _ further
      refine ⟨rfl, settled_of_fates read
        (more.trans (Grows.trans grown further)) ?_⟩
      intro row member
      rcases written row member with inside | ⟨refuses, counted⟩
      · exact .inl (Grows.table further _ inside)
      · exact .inr ⟨refuses, Grows.refused further _ counted⟩
    · exact ⟨kept, gives_refl _, failed uncaught⟩
    · exact ⟨record_consistent kept tells, record_gives _ _,
        failed uncaught⟩

/-! ## The stream -/

theorem append_grows (store : Store Fields Event) (fields : Fields) :
    Grows store (store.append fields) where
  appended id found held := by
    unfold Store.append
    rw [List.getElem?_append_left (List.getElem?_eq_some_iff.mp held).1]
    exact held
  unreadable _ member := member
  table _ member := member
  refused _ member := member

theorem append_consistent {store : Store Fields Event}
    (consistent : Consistent config store) (fields : Fields) :
    Consistent config (store.append fields) where
  held := by
    intro entry member
    rcases List.mem_append.mp member with old | new
    · exact (append_grows store fields).appended _ _
        (consistent.held entry old)
    · cases List.mem_singleton.mp new
      simp [Store.append]
  ordered := by
    unfold Store.append
    rw [List.map_append, List.pairwise_append]
    refine ⟨consistent.ordered, List.pairwise_singleton _ _, ?_⟩
    intro id member last same
    cases List.mem_singleton.mp same
    obtain ⟨entry, inside, rfl⟩ := List.mem_map.mp member
    exact (List.getElem?_eq_some_iff.mp (consistent.held entry inside)).1
  bound := by
    have bound := consistent.bound
    simp only [Store.append, List.length_append, List.length_singleton]
    omega
  deliverable := by
    intro entry member
    rcases List.mem_append.mp member with old | new
    · exact consistent.deliverable entry old
    · cases List.mem_singleton.mp new
      exact .inl consistent.bound
  kept := by
    intro id found held
    by_cases old : id < store.appended.length
    · have before : store.appended[id]? = some found := by
        simpa only [Store.append, List.getElem?_append_left old] using held
      rcases consistent.kept id found before with inside | settled
      · exact .inl (List.mem_append_left _ inside)
      · exact .inr (settled.grows (append_grows store fields))
    · left
      have new : id = store.appended.length ∧ found = fields := by
        have within := (List.getElem?_eq_some_iff.mp held).1
        simp only [Store.append, List.length_append,
          List.length_singleton] at within
        have last : id = store.appended.length := by omega
        subst last
        simp only [Store.append, List.getElem?_concat_length,
          Option.some.injEq] at held
        exact ⟨rfl, held.symm⟩
      obtain ⟨rfl, rfl⟩ := new
      exact List.mem_append_right _ List.mem_cons_self
  rows row member := by
    obtain ⟨found, held, read⟩ := consistent.rows row member
    exact ⟨found, (append_grows store fields).appended _ _ held, read⟩
  once := consistent.once

theorem deliver_grows (store : Store Fields Event) :
    Grows store store.deliver :=
  ⟨fun _ _ held => held, fun _ member => member, fun _ member => member,
    fun _ member => member⟩

theorem fresh_mem {store : Store Fields Event} {entry : Nat × Fields}
    (member : entry ∈ store.fresh) : entry ∈ store.stream :=
  (List.mem_filter.mp (List.mem_of_mem_take member)).1

/-- What is delivered comes before what is left unread. -/
theorem fresh_first {store : Store Fields Event}
    (consistent : Consistent config store) {entry last : Nat × Fields}
    (member : entry ∈ store.stream) (unread : store.unread ≤ entry.1)
    (delivered : last ∈ store.fresh) (before : entry.1 ≤ last.1) :
    entry ∈ store.fresh := by
  have ordered := (List.pairwise_map.mp consistent.ordered).sublist
    (List.filter_sublist (p := fun entry => decide (store.unread ≤ entry.1)))
  rw [← List.take_append_drop batch (store.stream.filter _),
    List.pairwise_append] at ordered
  have inside : entry ∈ store.stream.filter (store.unread ≤ ·.1) :=
    List.mem_filter.mpr ⟨member, decide_eq_true unread⟩
  rw [← List.take_append_drop batch (store.stream.filter _)] at inside
  rcases List.mem_append.mp inside with taken | left
  · exact taken
  · have after := ordered.2.2 last delivered entry left
    omega

theorem deliver_consistent {store : Store Fields Event}
    (consistent : Consistent config store) :
    Consistent config store.deliver where
  held := consistent.held
  ordered := consistent.ordered
  bound := by
    unfold Store.deliver
    cases last : store.fresh.getLast? with
    | none => exact consistent.bound
    | some entry =>
        have member := fresh_mem (List.mem_of_getLast? last)
        exact (List.getElem?_eq_some_iff.mp (consistent.held entry member)).1
  deliverable := by
    intro entry member
    have before := consistent.deliverable entry member
    unfold Store.deliver
    cases last : store.fresh.getLast? with
    | none => exact before.imp_right (List.mem_append_left _)
    | some upto =>
        have delivered := List.mem_of_getLast? last
        simp only [List.mem_append]
        rcases before with unread | pending
        · by_cases later : upto.1 + 1 ≤ entry.1
          · exact .inl later
          · have fresh := fresh_first consistent member unread delivered
              (by omega)
            exact .inr (.inr (List.mem_map_of_mem fresh))
        · exact .inr (.inl pending)
  kept id fields held := (consistent.kept id fields held).imp_right
    fun settled => settled.grows (deliver_grows store)
  rows := consistent.rows
  once := consistent.once

theorem discard_grows (store : Store Fields Event) (ids : List Nat) :
    Grows store (store.discard ids) :=
  ⟨fun _ _ held => held, fun _ member => member, fun _ member => member,
    fun _ member => member⟩

theorem discard_consistent {store : Store Fields Event}
    (consistent : Consistent config store) {ids : List Nat}
    (settled : ∀ id ∈ ids, Settled config store id) :
    Consistent config (store.discard ids) where
  held entry member := consistent.held entry (List.mem_filter.mp member).1
  ordered := consistent.ordered.sublist
    (List.Sublist.map _ List.filter_sublist)
  bound := consistent.bound
  deliverable := by
    intro entry member
    obtain ⟨inside, unacked⟩ := List.mem_filter.mp member
    exact (consistent.deliverable entry inside).imp_right
      fun pending => List.mem_filter.mpr ⟨pending, unacked⟩
  kept := by
    intro id fields held
    rcases consistent.kept id fields held with inside | done
    · by_cases acked : id ∈ ids
      · exact .inr ((settled id acked).grows (discard_grows store ids))
      · exact .inl (List.mem_filter.mpr ⟨inside, decide_eq_true acked⟩)
    · exact .inr (done.grows (discard_grows store ids))
  rows := consistent.rows
  once := consistent.once

theorem discard_gives {store : Store Fields Event} {ids : List Nat}
    (settled : ∀ id ∈ ids, Settled config store id) :
    Gives config store (store.discard ids) := by
  refine ⟨discard_grows store ids, ?_⟩
  intro entry member gone
  by_cases acked : entry.1 ∈ ids
  · exact settled entry.1 acked
  · exact absurd (List.mem_filter.mpr ⟨member, decide_eq_true acked⟩) gone

/-! ## A pass -/

/-- What a pass does with the entries it has read. -/
def finishPass (config : Config Fields Event)
    (entries : List (Nat × Fields)) : Drain Fields Event Nat :=
  if entries.isEmpty then pure 0
  else do
    let ack ← writeBatch config entries
    if ack.isEmpty then pure ack.length
    else do
      xackXdel ack
      pure ack.length

theorem drainOnce_eq (config : Config Fields Event) :
    drainOnce config = .call .autoclaim fun claimed =>
      .call .readGroup fun fresh => finishPass config (claimed ++ fresh) :=
  rfl

def PassPost (config : Config Fields Event)
    (entries : List (Nat × Fields)) :
    Except Failed Nat → Store Fields Event → Prop
  | .ok _, store => ∀ entry ∈ entries, Settled config store entry.1
  | .error _, _ => True

theorem finishPass_safe {entries : List (Nat × Fields)}
    {store : Store Fields Event} (consistent : Consistent config store)
    (taken : Taken store entries) :
    (finishPass config entries).Safe (exec config) (contract config)
      (PassPost config entries) store := by
  unfold finishPass
  split
  · rename_i empty
    cases List.isEmpty_iff.mp empty
    exact fun _ _ _ => nofun
  · refine Program.Safe.bind consistent (writeBatch_safe consistent taken) ?_
      (fun _ _ _ => trivial)
    rintro ack later _ ⟨rfl, settled⟩
    split
    · exact fun last _ further entry member =>
        (settled entry member).grows further
    · intro last kept further choice reply after _ executed
      have acked : ∀ id ∈ entries.map Prod.fst, Settled config last id := by
        intro id member
        obtain ⟨entry, inside, rfl⟩ := List.mem_map.mp member
        exact (settled entry inside).grows further
      cases choice with
      | plain =>
          cases executed
          refine ⟨discard_consistent kept acked, discard_gives acked, ?_⟩
          intro final _ more entry member
          have discarded := Grows.trans (discard_grows last _) more
          exact (settled entry member).grows (Grows.trans further discarded)
      | claim ids => cases executed
      | commit => cases executed
      | lost exc => cases executed
      | refuse exc => cases executed
      | fail exc => cases executed

theorem drainOnce_safe (config : Config Fields Event)
    (store : Store Fields Event) :
    (drainOnce config).Safe (exec config) (contract config)
      (fun _ _ => True) store := by
  rw [drainOnce_eq]
  intro first consistent _ choice claimed after _ executed
  have claims : after = first ∧ ∀ entry ∈ claimed, entry ∈ first.stream := by
    cases choice with
    | claim ids =>
        simp only [exec] at executed
        split at executed
        · cases executed
          exact ⟨rfl, fun entry member => (List.mem_filter.mp member).1⟩
        · cases executed
    | plain => cases executed
    | commit => cases executed
    | lost exc => cases executed
    | refuse exc => cases executed
    | fail exc => cases executed
  obtain ⟨rfl, claimed_mem⟩ := claims
  refine ⟨consistent, gives_refl _, ?_⟩
  intro second kept grows choice fresh after _ executed
  cases choice with
  | plain =>
      cases executed
      have delivered := deliver_consistent kept
      refine ⟨delivered, gives_of_grows (deliver_grows second) rfl, ?_⟩
      refine (finishPass_safe delivered ?_).mono fun _ _ _ _ => trivial
      intro entry member
      rcases List.mem_append.mp member with old | new
      · exact grows.appended _ _
          (consistent.held entry (claimed_mem entry old))
      · exact kept.held entry (fresh_mem new)
  | claim ids => cases executed
  | commit => cases executed
  | lost exc => cases executed
  | refuse exc => cases executed
  | fail exc => cases executed

end IndustryFlow.Audit
