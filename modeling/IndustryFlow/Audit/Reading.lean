import IndustryFlow.Concurrent.History
import IndustryFlow.Keyset
import Mathlib.Logic.Function.Basic

/-!
# Reading the record of capability use

The rows of the record get their numbers when they are inserted and appear
when their transaction commits, so a lower number may appear after a higher
one; old rows expire.  A tenant's administrator pages through the rows of the
tenant, a superuser through those of any.
-/

namespace IndustryFlow.CapabilityUse

open Concurrent

/-! ## The record -/

section

variable (Facts : Type)

/-- What `record_capability_use` is given; `facts` are the columns that no
filter looks at. -/
structure Use where
  streamId : String
  time : Nat
  companyId : Option String
  handleId : Option String
  facts : Facts
deriving DecidableEq

/-- A row of `capability_use_events`. -/
structure Row extends Use Facts where
  eventId : Nat
  recordedAt : Nat
deriving DecidableEq

end

/-! ## The request -/

structure Account where
  isSuperuser : Bool
  role : String
  companyId : Option String
deriving DecidableEq

/-- The filters of a request, as they are asked for. -/
structure Query where
  companyId : Option String
  handleId : Option String
  since : Option Nat
deriving DecidableEq

/-- The tenant whose rows an account is shown, all of them with `none`; or it
is refused with a 403. -/
def scopeOf (account : Account) (query : Query) : Option (Option String) :=
  if account.isSuperuser then some query.companyId
  else if account.role ≠ "admin" then none
  else account.companyId.map some

variable {Facts : Type}

/-- `value IS NULL OR column = value`. -/
def admits (value column : Option String) : Bool :=
  value.all fun wanted => column = some wanted

/-- The `WHERE` of `CAPABILITY_USE_SELECT`, but for `before_id`. -/
def selects (scope : Option String) (query : Query) (row : Row Facts) : Bool :=
  admits scope row.companyId && admits query.handleId row.handleId &&
    query.since.all (· ≤ row.time)

section

variable (Facts)

/-- One who pages through what it may see. -/
structure Reader where
  scope : Option String
  query : Query
  before : Option Nat
  found : List (Row Facts)
  /-- A page fell short. -/
  done : Bool
deriving DecidableEq

structure Record where
  clock : Nat
  /-- The committed rows. -/
  rows : List (Row Facts)
  /-- The rows of transactions in progress. -/
  pending : List (Nat × Row Facts)
  /-- What the sequence gives next. -/
  nextId : Nat
  readers : Nat → Option (Reader Facts)

inductive RecordEvent where
  | wait (time : Nat)
  /-- A transaction that began so long ago records a use. -/
  | insert (transaction age : Nat) (use : Use Facts)
  | commit (transaction : Nat)
  | rollback (transaction : Nat)
  /-- `expire_capability_use`. -/
  | expire (days : Nat)
  /-- `list_capability_use`, the first page or the next. -/
  | page (reader : Nat) (account : Account) (query : Query) (limit : Nat)
deriving DecidableEq

end

def day : Nat := 86400

namespace Record

def empty : Record Facts :=
  ⟨0, [], [], 1, fun _ => none⟩

variable (record : Record Facts)

/-- `INSERT … ON CONFLICT (stream_id) DO NOTHING`, which takes a number all the
same, and waits for another transaction that has inserted the entry. -/
def insert (transaction age : Nat) (use : Use Facts) :
    Option (Record Facts) :=
  let counted := { record with nextId := record.nextId + 1 }
  if record.pending.any fun other =>
      other.1 ≠ transaction && other.2.streamId = use.streamId then none
  else if (record.rows ++ record.pending.map Prod.snd).any fun row =>
      row.streamId = use.streamId then some counted
  else some { counted with
    pending := record.pending ++
      [(transaction, ⟨use, record.nextId, record.clock - age⟩)] }

def commit (transaction : Nat) : Record Facts :=
  { record with
    rows := record.rows ++
      (record.pending.filter (·.1 = transaction)).map Prod.snd
    pending := record.pending.filter (·.1 ≠ transaction) }

def rollback (transaction : Nat) : Record Facts :=
  { record with
    pending := record.pending.filter (·.1 ≠ transaction) }

/-- Fewer than 30 days are refused. -/
def expire (days : Nat) : Record Facts :=
  if days < 30 then record
  else { record with
    rows := record.rows.filter fun row =>
      record.clock ≤ row.recordedAt + days * day }

def selected (scope : Option String) (query : Query) : List (Row Facts) :=
  record.rows.filter (selects scope query)

/-- `list_capability_use`, for a reader that asks for what is older than the
last it has. -/
def page (id : Nat) (account : Account) (query : Query) (limit : Nat) :
    Option (Record Facts) :=
  (scopeOf account query).bind fun scope =>
    let reader := (record.readers id).getD ⟨scope, query, none, [], false⟩
    if reader.done ∨ reader.scope ≠ scope ∨ reader.query ≠ query ∨ limit < 1 ∨
        1000 < limit then none
    else
      let found := Keyset.page Row.eventId limit reader.before
        (record.selected scope query)
      some { record with
        readers := Function.update record.readers id (some { reader with
          before := Keyset.next Row.eventId reader.before found
          found := reader.found ++ found
          done := found.length < limit }) }

def step (record : Record Facts) : RecordEvent Facts → Option (Record Facts)
  | .wait time => some { record with clock := record.clock + time }
  | .insert transaction age use => record.insert transaction age use
  | .commit transaction => some (record.commit transaction)
  | .rollback transaction => some (record.rollback transaction)
  | .expire days => some (record.expire days)
  | .page id account query limit => record.page id account query limit

/-! ## Numbers -/

/-- The rows there are and those to come. -/
def all : List (Row Facts) :=
  record.rows ++ record.pending.map Prod.snd

/-- No two rows have one number, and the next is free. -/
structure Numbered (record : Record Facts) : Prop where
  distinct : (record.all.map Row.eventId).Nodup
  issued : ∀ row ∈ record.all, row.eventId < record.nextId

/-- A step gives numbers that were not given, and brings only rows that were
to come. -/
structure Grows (before after : Record Facts) : Prop where
  next : before.nextId ≤ after.nextId
  rows : ∀ row ∈ after.rows, row ∈ before.rows ∨
    row ∈ before.pending.map Prod.snd
  pending : ∀ row ∈ after.pending.map Prod.snd,
    row ∈ before.pending.map Prod.snd ∨ before.nextId ≤ row.eventId

variable {record}

theorem numbered_empty : (empty : Record Facts).Numbered where
  distinct := List.nodup_nil
  issued := by
    intro row never
    cases never

/-- What is left of the rows keeps its numbers. -/
theorem Numbered.sublist (numbered : record.Numbered) {after : Record Facts}
    (fewer : ∃ between, between.Perm record.all ∧
      after.all.Sublist between) (next : after.nextId = record.nextId) :
    after.Numbered := by
  obtain ⟨between, perm, sublist⟩ := fewer
  have distinct := (perm.map Row.eventId).nodup_iff.mpr numbered.distinct
  refine ⟨distinct.sublist (sublist.map _), ?_⟩
  intro row member
  rw [next]
  exact numbered.issued row (perm.mem_iff.mp (sublist.subset member))

theorem commit_perm (transaction : Nat) :
    (record.commit transaction).all.Perm record.all := by
  unfold all commit
  rw [List.append_assoc, ← List.map_append]
  refine List.Perm.append_left _ (List.Perm.map _ ?_)
  have parts := List.filter_append_perm
    (fun other : Nat × Row Facts => decide (other.1 = transaction))
    record.pending
  simpa using parts

theorem step_numbered {next : Record Facts} {event : RecordEvent Facts}
    (numbered : record.Numbered) (stepped : step record event = some next) :
    next.Numbered ∧ Grows record next := by
  cases event with
  | wait time =>
      cases stepped
      exact ⟨⟨numbered.distinct, numbered.issued⟩, Nat.le_refl _,
        fun _ old => .inl old, fun _ old => .inl old⟩
  | insert transaction age use =>
      change record.insert transaction age use = some next at stepped
      unfold Record.insert at stepped
      split at stepped
      · cases stepped
      · split at stepped
        · cases stepped
          refine ⟨⟨numbered.distinct, fun row member =>
            Nat.lt_succ_of_lt (numbered.issued row member)⟩, Nat.le_succ _,
            fun _ old => .inl old, fun _ old => .inl old⟩
        · cases stepped
          have all : (all { record with
              nextId := record.nextId + 1
              pending := record.pending ++ [(transaction,
                ⟨use, record.nextId, record.clock - age⟩)] }) =
              record.all ++ [⟨use, record.nextId, record.clock - age⟩] := by
            simp [Record.all]
          refine ⟨⟨?_, ?_⟩, Nat.le_succ _, fun _ old => .inl old, ?_⟩
          · rw [all, List.map_append]
            refine List.Nodup.append numbered.distinct
              (List.nodup_singleton _) ?_
            intro number old new
            obtain ⟨row, member, rfl⟩ := List.mem_map.mp old
            have same := List.mem_singleton.mp new
            exact Nat.ne_of_lt (numbered.issued row member) same
          · intro row member
            rw [all] at member
            rcases List.mem_append.mp member with old | new
            · exact Nat.lt_succ_of_lt (numbered.issued row old)
            · cases List.mem_singleton.mp new
              exact Nat.lt_succ_self _
          · intro row member
            dsimp only at member
            rw [List.map_append] at member
            rcases List.mem_append.mp member with old | new
            · exact .inl old
            · cases List.mem_singleton.mp new
              exact .inr (Nat.le_refl _)
  | commit transaction =>
      cases stepped
      refine ⟨numbered.sublist
        ⟨_, commit_perm transaction, List.Sublist.refl _⟩ rfl,
        Nat.le_refl _, ?_, ?_⟩
      · intro row member
        rcases List.mem_append.mp member with old | new
        · exact .inl old
        · obtain ⟨other, inside, rfl⟩ := List.mem_map.mp new
          exact .inr (List.mem_map_of_mem (List.mem_of_mem_filter inside))
      · intro row member
        obtain ⟨other, inside, rfl⟩ := List.mem_map.mp member
        exact .inl (List.mem_map_of_mem (List.mem_of_mem_filter inside))
  | rollback transaction =>
      cases stepped
      refine ⟨numbered.sublist ⟨_, List.Perm.refl _, ?_⟩ rfl,
        Nat.le_refl _, fun _ old => .inl old, ?_⟩
      · exact (List.filter_sublist.map Prod.snd).append_left _
      · intro row member
        obtain ⟨other, inside, rfl⟩ := List.mem_map.mp member
        exact .inl (List.mem_map_of_mem (List.mem_of_mem_filter inside))
  | expire days =>
      cases stepped
      unfold Record.expire
      split
      · exact ⟨numbered, Nat.le_refl _, fun _ old => .inl old,
          fun _ old => .inl old⟩
      · refine ⟨numbered.sublist ⟨_, List.Perm.refl _, ?_⟩ rfl,
          Nat.le_refl _, ?_, fun _ old => .inl old⟩
        · exact List.filter_sublist.append_right _
        · exact fun row member => .inl (List.mem_of_mem_filter member)
  | page id account query limit =>
      obtain ⟨scope, -, paged⟩ := Option.bind_eq_some_iff.mp stepped
      dsimp only at paged
      split at paged
      · cases paged
      · cases paged
        exact ⟨⟨numbered.distinct, numbered.issued⟩, Nat.le_refl _,
          fun _ old => .inl old, fun _ old => .inl old⟩

/-! ## Readers -/

/-- What a reader has, of rows that are `always` there and of those that were
there at some time. -/
structure Reads (always ever : Row Facts → Prop) (reader : Reader Facts) :
    Prop where
  walked : Keyset.Walked Row.eventId always ever reader.before reader.found
  whole : reader.done = true → ∀ row, always row → row ∈ reader.found

theorem Reads.mono {always ever still known : Row Facts → Prop}
    {reader : Reader Facts} (reads : Reads always ever reader)
    (fewer : ∀ row, still row → always row)
    (more : ∀ row, ever row → known row) : Reads still known reader where
  walked := reads.walked.mono fewer more
  whole done row there := reads.whole done row (fewer row there)

theorem Reads.page {always ever : Row Facts → Prop} {reader : Reader Facts}
    {rows : List (Row Facts)} (limit : Nat)
    (walked : Keyset.Walked Row.eventId always ever reader.before reader.found)
    (distinct : (rows.map Row.eventId).Nodup)
    (present : ∀ row, always row → row ∈ rows)
    (known : ∀ row ∈ rows, ever row) :
    Reads always ever { reader with
      before := Keyset.next Row.eventId reader.before
        (Keyset.page Row.eventId limit reader.before rows)
      found := reader.found ++
        Keyset.page Row.eventId limit reader.before rows
      done := (Keyset.page Row.eventId limit reader.before rows).length <
        limit } where
  walked := walked.page distinct present known
  whole short _ there :=
    walked.finish distinct present (of_decide_eq_true short) there

section

variable (begun paged : Record Facts) (scope : Option String) (query : Query)

/-- A row the reader may see that was there when it began, and is still. -/
def Lasting (record : Record Facts) (row : Row Facts) : Prop :=
  row ∈ begun.selected scope query ∧ row ∈ record.rows

/-- A row the reader may see that was there when it began, or at some time of
these events. -/
def Seen (past : List (RecordEvent Facts)) (row : Row Facts) : Prop :=
  selects scope query row = true ∧ (row ∈ begun.rows ∨
    Sometime step (fun record _ => row ∈ record.rows) paged past)

/-- A reader that has begun, and the rows since. -/
structure Follows (id : Nat) (past : List (RecordEvent Facts))
    (record : Record Facts) : Prop where
  numbered : record.Numbered
  next : begun.nextId ≤ record.nextId
  apart : ∀ row ∈ record.pending.map Prod.snd, row ∉ begun.rows
  reads : ∃ reader, record.readers id = some reader ∧ reader.scope = scope ∧
    reader.query = query ∧
    Reads (Lasting begun scope query record)
      (Seen begun paged scope query past) reader

end

theorem selected_distinct (numbered : record.Numbered)
    (scope : Option String) (query : Query) :
    ((record.selected scope query).map Row.eventId).Nodup := by
  have rows : (record.rows.map Row.eventId).Nodup :=
    numbered.distinct.sublist ((List.sublist_append_left _ _).map _)
  exact rows.sublist (List.filter_sublist.map _)

theorem mem_selected {scope : Option String} {query : Query}
    {row : Row Facts} : row ∈ record.selected scope query ↔
      row ∈ record.rows ∧ selects scope query row = true :=
  List.mem_filter

/-- The reader is the one there was, unless the event is its next page. -/
theorem step_readers {next : Record Facts} {event : RecordEvent Facts}
    {id : Nat} {reader : Reader Facts}
    (present : record.readers id = some reader)
    (stepped : step record event = some next) :
    next.readers id = some reader ∨
      ∃ limit, next.rows = record.rows ∧ reader.done = false ∧
        next.readers id = some { reader with
          before := Keyset.next Row.eventId reader.before
            (Keyset.page Row.eventId limit reader.before
              (record.selected reader.scope reader.query))
          found := reader.found ++ Keyset.page Row.eventId limit
            reader.before (record.selected reader.scope reader.query)
          done := (Keyset.page Row.eventId limit reader.before
            (record.selected reader.scope reader.query)).length < limit } := by
  cases event with
  | wait time =>
      cases stepped
      exact .inl present
  | insert transaction age use =>
      left
      change record.insert transaction age use = some next at stepped
      unfold Record.insert at stepped
      split at stepped
      · cases stepped
      · split at stepped
        · cases stepped
          exact present
        · cases stepped
          exact present
  | commit transaction =>
      cases stepped
      exact .inl present
  | rollback transaction =>
      cases stepped
      exact .inl present
  | expire days =>
      left
      cases stepped
      unfold Record.expire
      split
      · exact present
      · exact present
  | page other account query limit =>
      obtain ⟨scope, -, paged⟩ := Option.bind_eq_some_iff.mp stepped
      dsimp only at paged
      split at paged
      · cases paged
      · rename_i goes
        cases paged
        by_cases own : id = other
        · right
          cases own
          rw [present] at goes ⊢
          rw [Option.getD_some] at goes
          obtain ⟨more, rest⟩ := not_or.mp goes
          obtain ⟨scopes, rest⟩ := not_or.mp rest
          obtain ⟨queries, -⟩ := not_or.mp rest
          cases not_not.mp scopes
          cases not_not.mp queries
          exact ⟨limit, rfl, Bool.eq_false_iff.mpr more,
            Function.update_self _ _ _⟩
        · exact .inl ((Function.update_of_ne own _ _).trans present)

theorem Follows.step {begun paged next : Record Facts}
    {scope : Option String} {query : Query} {id : Nat}
    {past : List (RecordEvent Facts)} {event : RecordEvent Facts}
    (begins : begun.Numbered)
    (ran : run Record.step paged past = some record)
    (follows : Follows begun paged scope query id past record)
    (stepped : Record.step record event = some next) :
    Follows begun paged scope query id (past ++ [event]) next := by
  obtain ⟨numbered, grows⟩ := step_numbered follows.numbered stepped
  obtain ⟨reader, present, rfl, rfl, reads⟩ := follows.reads
  have lasting : ∀ row, Lasting begun reader.scope reader.query next row →
      Lasting begun reader.scope reader.query record row := by
    intro row lasts
    obtain ⟨first, last⟩ := lasts
    refine ⟨first, (grows.rows row last).resolve_right fun pending => ?_⟩
    exact follows.apart row pending (mem_selected.mp first).1
  have seen : ∀ row, Seen begun paged reader.scope reader.query past row →
      Seen begun paged reader.scope reader.query (past ++ [event]) row :=
    fun row was => ⟨was.1, was.2.imp_right (·.append [event])⟩
  refine ⟨numbered, Nat.le_trans follows.next grows.next, ?_, ?_⟩
  · intro row member there
    rcases grows.pending row member with old | new
    · exact follows.apart row old there
    · have low := begins.issued row (List.mem_append_left _ there)
      exact Nat.lt_irrefl _
        (Nat.lt_of_lt_of_le low (Nat.le_trans follows.next new))
  · rcases step_readers present stepped with still | ⟨limit, rows, -, moved⟩
    · exact ⟨reader, still, rfl, rfl, reads.mono lasting seen⟩
    · refine ⟨_, moved, rfl, rfl, ?_⟩
      refine Reads.page limit (reads.walked.mono lasting seen)
        (selected_distinct follows.numbered _ _) ?_ ?_
      · intro row lasts
        exact mem_selected.mpr ⟨(lasting row lasts).2,
          (mem_selected.mp lasts.1).2⟩
      · intro row there
        obtain ⟨inside, fits⟩ := mem_selected.mp there
        exact ⟨fits, .inr (.last ran inside)⟩

/-! ## Whole runs -/

theorem run_numbered {events : List (RecordEvent Facts)}
    (ran : run step empty events = some record) : record.Numbered :=
  run_preserves Numbered
    (fun _ _ _ numbered stepped => (step_numbered numbered stepped).1)
    numbered_empty ran

/-- The first page of a reader. -/
theorem follows_first {begun paged : Record Facts} {id limit : Nat}
    {account : Account} {query : Query} (numbered : begun.Numbered)
    (new : begun.readers id = none)
    (stepped : begun.page id account query limit = some paged) :
    ∃ scope, scopeOf account query = some scope ∧
      Follows begun paged scope query id [] paged := by
  obtain ⟨scope, granted, first⟩ := Option.bind_eq_some_iff.mp stepped
  refine ⟨scope, granted, ?_⟩
  dsimp only at first
  rw [new] at first
  split at first
  · cases first
  · cases first
    refine ⟨⟨numbered.distinct, numbered.issued⟩, Nat.le_refl _, ?_, ?_⟩
    · intro row pending there
      have apart := (List.nodup_append.mp
        (numbered.distinct.of_map Row.eventId)).2.2
      exact apart row there row pending rfl
    · refine ⟨_, Function.update_self _ _ _, rfl, rfl, ?_⟩
      refine Reads.page limit (Keyset.Walked.start)
        (selected_distinct numbered scope query) (fun _ lasts => lasts.1) ?_
      intro row there
      obtain ⟨inside, fits⟩ := mem_selected.mp there
      exact ⟨fits, .inl inside⟩

/-- Whatever is recorded and expires between the pages of a reader: what it
finds comes newest first, each row once; each row was in the record when the
reader had begun, passes its filters and is of the tenant of an account that is
no superuser; and once a page falls short it has every such row that was there
at the first page and is there still. -/
theorem reading_is_whole {past later : List (RecordEvent Facts)}
    {begun final : Record Facts} {id limit : Nat} {account : Account}
    {query : Query} (before : run step empty past = some begun)
    (new : begun.readers id = none)
    (ran : run step begun (.page id account query limit :: later) =
      some final) :
    ∃ scope reader, scopeOf account query = some scope ∧
      final.readers id = some reader ∧
      reader.found.Pairwise (Keyset.Newer Row.eventId) ∧
      (∀ row ∈ reader.found, selects scope query row = true ∧
        Sometime step (fun record _ => row ∈ record.rows) begun
          (.page id account query limit :: later)) ∧
      (account.isSuperuser = false → ∀ row ∈ reader.found,
        row.companyId = account.companyId) ∧
      (reader.done = true → ∀ row ∈ begun.rows,
        selects scope query row = true → row ∈ final.rows →
          row ∈ reader.found) := by
  have numbered := run_numbered before
  obtain ⟨paged, stepped, rest⟩ := run_cons.mp ran
  obtain ⟨scope, granted, first⟩ := follows_first numbered new stepped
  have follows := run_history (Follows begun paged scope query id) first
    (fun _ _ _ _ moved held next => held.step numbered moved next) rest
  obtain ⟨reader, present, rfl, rfl, reads⟩ := follows.reads
  refine ⟨reader.scope, reader, granted, present, reads.walked.sorted, ?_, ?_,
    ?_⟩
  · intro row found
    obtain ⟨fits, was⟩ := reads.walked.within row found
    exact ⟨fits, was.imp_right fun later => ⟨paged, stepped, later⟩⟩
  · intro tenant row found
    have fits := (reads.walked.within row found).1
    unfold scopeOf at granted
    rw [if_neg (by rw [tenant]; exact Bool.false_ne_true)] at granted
    split at granted
    · cases granted
    · obtain ⟨company, own, same⟩ := Option.map_eq_some_iff.mp granted
      unfold selects at fits
      rw [← same] at fits
      simp only [admits, Option.all_some, Bool.and_eq_true,
        decide_eq_true_eq] at fits
      rw [own, fits.1.1]
  · intro done row there fits still
    exact reads.whole done row ⟨mem_selected.mpr ⟨there, fits⟩, still⟩

def use (streamId company : String) : Use Unit :=
  ⟨streamId, 0, some company, none, ()⟩

/-- Two tenants' rows, and one that is not committed yet. -/
def threeUses : List (RecordEvent Unit) :=
  [.insert 1 0 (use "1-0" "acme"), .insert 2 0 (use "2-0" "globex"),
    .insert 3 0 (use "3-0" "acme"), .commit 3, .commit 2]

def acmeAdmin : Account :=
  ⟨false, "admin", some "acme"⟩

/-- The administrator asks for the other tenant's rows. -/
def everything : Query :=
  ⟨some "globex", none, none⟩

/-- The first row is committed after the first page. -/
def committedBetween : List (RecordEvent Unit) :=
  [.commit 1, .page 0 acmeAdmin everything 1,
    .page 0 acmeAdmin everything 1]

theorem reading_is_whole_committedBetween :
    ∃ begun final, run step empty threeUses = some begun ∧
      run step begun
        (.page 0 acmeAdmin everything 1 :: committedBetween) = some final ∧
      ∃ reader, final.readers 0 = some reader ∧
        reader.found.map Row.eventId = [3, 1] ∧
        ∀ row ∈ reader.found, row.companyId = some "acme" := by
  have whole : (run step empty (threeUses ++
      .page 0 acmeAdmin everything 1 :: committedBetween)).map
      (fun record => (record.readers 0).map fun reader =>
        reader.found.map Row.eventId) = some (some [3, 1]) := by
    decide +kernel
  have fresh : (run step empty threeUses).map
      (fun record => (record.readers 0).isNone) = some true := by
    decide +kernel
  obtain ⟨final, ran, numbers⟩ := Option.map_eq_some_iff.mp whole
  obtain ⟨begun, before, rest⟩ := run_append.mp ran
  rw [before] at fresh
  have new : begun.readers 0 = none :=
    Option.isNone_iff_eq_none.mp (Option.some.inj fresh)
  obtain ⟨scope, reader, -, present, -, -, own, -⟩ :=
    reading_is_whole before new rest
  refine ⟨begun, final, before, rest, reader, present, ?_, own rfl⟩
  rw [present] at numbers
  exact Option.some.inj numbers

end Record

end IndustryFlow.CapabilityUse
