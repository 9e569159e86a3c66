import IndustryFlow.Calendar
import IndustryFlow.ColdExport.Durability

/-!
# The days of a tenant

Every day directory of a tenant holds the parts of one day.  What a day's
files hold is settled beyond the parts its manifest lists: `Filed` says that
no file shares a key with a part whose drop is recorded, so that a file which
the exporter rewrites stays apart from all that is final.
-/

namespace IndustryFlow.ColdExport

open Concurrent

/-! ## Partitions -/

/-- `f"{number:02d}"`. -/
def twoDigits (number : Nat) : List Char :=
  List.replicate (2 - (Nat.toDigits 10 number).length) '0' ++
    Nat.toDigits 10 number

/-- The directory of a day under the tenant's own prefix, as `day_partition`
names it. -/
def dayPartition (year month day : Nat) : String :=
  "year=" ++ String.ofList (fourDigits year) ++
    "/month=" ++ String.ofList (twoDigits month) ++
      "/day=" ++ String.ofList (twoDigits day)

/-- The directory of a row.  Its time counts from the start of the calendar. -/
def Measurement.directory (row : Measurement) : String :=
  let fields := Calendar.utcFields row.time.toNat
  dayPartition fields.year fields.month fields.day

theorem key_apart {left right : Measurement} {first second : String}
    (here : left.directory = first) (there : right.directory = second)
    (apart : first ≠ second) : left.key ≠ right.key := by
  intro same
  have time : left.time = right.time := congrArg Prod.fst same
  rw [← here, ← there, Measurement.directory, Measurement.directory,
    time] at apart
  exact apart rfl

/-! ## What the files of a day hold -/

namespace Archive

/-- Where the recorded parts of a day end. -/
def FirstUnrecorded (archive : Archive) (index : Nat) : Prop :=
  (∀ earlier < index, archive.recorded (partFile earlier) = true) ∧
    archive.recorded (partFile index) = false

structure Filed (here : Measurement → Prop) (archive : Archive) : Prop where
  unique : ∀ name rows, archive.files name = some rows → (keys rows).Nodup
  here : ∀ name rows, archive.files name = some rows → ∀ row ∈ rows, here row
  apart : ∀ name other rows held, archive.files name = some rows →
    archive.files other = some held → archive.recorded other = true →
    name ≠ other → ∀ key ∈ keys rows, key ∉ keys held
  current : ∀ index, archive.FirstUnrecorded index →
    ∀ name rows, archive.files name = some rows →
      archive.recorded name = true ∨ name = partFile index

theorem filed_empty (here : Measurement → Prop) : empty.Filed here where
  unique := nofun
  here := nofun
  apart := nofun
  current := nofun

variable {archive : Archive} {here : Measurement → Prop}

theorem FirstUnrecorded.unique {first second : Nat}
    (one : archive.FirstUnrecorded first)
    (other : archive.FirstUnrecorded second) : first = second := by
  rcases Nat.lt_trichotomy first second with less | same | more
  · exact absurd (other.1 first less) (by simp [one.2])
  · exact same
  · exact absurd (one.1 second more) (by simp [other.2])

theorem Sound.first_unrecorded (sound : archive.Sound) :
    archive.FirstUnrecorded archive.committed.length := by
  refine ⟨fun earlier less => ?_, sound.next_unrecorded⟩
  have found := List.getElem?_eq_getElem less
  rw [← sound.committed_named found]
  exact sound.committed_recorded (List.mem_of_getElem? found)

/-- A listed part is committed, or it is the one a run writes. -/
theorem Sound.listed_cases (sound : archive.Sound) {part : Part}
    (member : part ∈ archive.parts) :
    archive.recorded part.file = true ∨
      part.file = partFile archive.committed.length := by
  obtain ⟨index, found⟩ := List.mem_iff_getElem?.mp member
  rcases parts_get found with committed | ⟨last, -⟩
  · exact .inl (sound.committed_recorded (List.mem_of_getElem? committed))
  · rw [← last]
    exact .inr (sound.named index part found)

namespace Filed

variable (filed : archive.Filed here)
include filed

theorem written (sound : archive.Sound) {batches : List Measurement}
    (unique : (keys batches).Nodup) (own : ∀ row ∈ batches, here row) :
    (archive.written batches).Filed here := by
  by_cases nothing : archive.fresh batches = []
  · simpa [Archive.written, nothing] using filed
  · have fresh_unique : (keys (archive.fresh batches)).Nodup := by
      unfold Archive.fresh
      split
      · exact unique
      · have order := (inFileOrder_perm (leftAnti batches
          (archive.archivedKeys archive.committed))).map Measurement.key
        refine order.nodup_iff.mpr (unique.sublist ?_)
        exact List.filter_sublist.map Measurement.key
    have cases_of {name : String} {rows : List Measurement}
        (found : (archive.written batches).files name = some rows) :
        name = partFile archive.committed.length ∧
            rows = archive.fresh batches ∨
          name ≠ partFile archive.committed.length ∧
            archive.files name = some rows := by
      by_cases next : name = partFile archive.committed.length
      · rw [next, written_files_next nothing] at found
        exact .inl ⟨next, (Option.some.inj found).symm⟩
      · rw [written_files_of_ne next] at found
        exact .inr ⟨next, found⟩
    constructor
    · intro name rows found
      rcases cases_of found with ⟨-, rfl⟩ | ⟨-, before⟩
      · exact fresh_unique
      · exact filed.unique name rows before
    · intro name rows found row member
      rcases cases_of found with ⟨-, rfl⟩ | ⟨-, before⟩
      · exact own row (mem_fresh.mp member).1
      · exact filed.here name rows before row member
    · intro name other rows held found final recorded different key member
      rw [recorded_written] at recorded
      obtain ⟨part, committed, file, -⟩ := sound.recorded_committed recorded
      have earlier : archive.files other = some held := by
        rw [← file] at final ⊢
        rwa [written_files_of_ne (sound.committed_file_ne committed)] at final
      rcases cases_of found with ⟨-, rfl⟩ | ⟨-, before⟩
      · intro again
        refine fresh_unarchived committed ⟨held, ?_, again⟩ member
        rw [file, earlier]
      · exact filed.apart name other rows held before earlier recorded
          different key member
    · intro index first name rows found
      have before : archive.FirstUnrecorded index := by
        simpa only [FirstUnrecorded, recorded_written] using first
      rw [recorded_written]
      rcases cases_of found with ⟨next, -⟩ | ⟨-, earlier⟩
      · rw [before.unique sound.first_unrecorded]
        exact .inr next
      · exact filed.current index before name rows earlier

theorem listed (target : Target) (sound : archive.Sound)
    {batches : List Measurement} (unique : (keys batches).Nodup)
    (own : ∀ row ∈ batches, here row) :
    (archive.listed target batches).Filed here :=
  have written := filed.written sound unique own
  ⟨written.unique, written.here, written.apart, written.current⟩

/-- The drop of the last listed part. -/
theorem commitDrop (sound : archive.Sound) {last : Part}
    (final : archive.parts.getLast? = some last) (gone : List Key)
    (rows : Nat) :
    (archive.commitDrop gone last.file rows).Filed here := by
  have recorded_iff := Sound.recorded_commitDrop archive gone last.file rows
  have position := sound.listed_cases (List.mem_of_getLast? final)
  have existing := filed.current _ sound.first_unrecorded
  constructor
  · exact filed.unique
  · exact filed.here
  · intro name other file held found kept recorded different key member
    by_cases before : archive.recorded other = true
    · exact filed.apart name other file held found kept before different key
        member
    · have other_last : last.file = other :=
        ((recorded_iff other).mp recorded).resolve_left before
      have next : other = partFile archive.committed.length := by
        rw [← other_last] at before ⊢
        exact position.resolve_left before
      rcases existing name file found with earlier | same
      · exact fun again => filed.apart other name held file kept found
          earlier different.symm key again member
      · exact absurd (same.trans next.symm) different
  · intro index first name file found
    rcases existing name file found with earlier | same
    · exact .inl ((recorded_iff name).mpr (.inl earlier))
    · rcases position with before | next
      · have unchanged : archive.FirstUnrecorded index := by
          refine ⟨fun earlier less => ?_, ?_⟩
          · rcases (recorded_iff _).mp (first.1 earlier less) with
              old | file_eq
            · exact old
            · rwa [← file_eq]
          · refine Bool.eq_false_iff.mpr fun old => ?_
            exact absurd ((recorded_iff _).mpr (.inl old)) (by simp [first.2])
        rw [unchanged.unique sound.first_unrecorded]
        exact .inr same
      · exact .inl ((recorded_iff name).mpr (.inr (next.trans same.symm)))

end Filed

/-- What holds of the archive of a day between any two calls. -/
structure Orderly (here : Measurement → Prop) (archive : Archive) :
    Prop where
  sound : archive.Sound
  filed : archive.Filed here

end Archive

/-- The rows of a day that the exporter may snapshot. -/
def ofDay (here : Measurement → Prop) (day : Day) (_ : Archive) : Prop :=
  ∀ row ∈ day.rows, here row

theorem orderly_upheld (target : Target) (here : Measurement → Prop)
    {hash : Measurement → Int} (separates : Separates hash) :
    Upheld target hash (Archive.Orderly here) Archive.Preserves
      (ofDay here) := by
  have sound_upheld := sound_upheld target separates
  have streamed (day : Day) : (keys (inFileOrder day.rows)).Nodup :=
    ((inFileOrder_perm day.rows).map Measurement.key).nodup_iff.mpr day.unique
  have own {day : Day} {archive : Archive} (allowed : ofDay here day archive) :
      ∀ row ∈ inFileOrder day.rows, here row :=
    fun row member => allowed row ((inFileOrder_perm day.rows).mem_iff.mp
      member)
  constructor
  · exact Archive.Preserves.refl
  · intro archive last orderly pending counted
    obtain ⟨sound, preserved⟩ :=
      sound_upheld.resume archive last orderly.sound pending counted
    exact ⟨⟨sound, orderly.filed.commitDrop orderly.sound
      (Archive.pending_last pending).1 [] 0⟩, preserved⟩
  · intro archive day orderly allowed some_row counted
    obtain ⟨sound, preserved⟩ := sound_upheld.write archive day orderly.sound
      trivial some_row counted
    exact ⟨⟨sound, orderly.filed.written orderly.sound (streamed day)
      (own allowed)⟩, preserved⟩
  · intro archive day orderly allowed some_row counted
    obtain ⟨sound, preserved⟩ := sound_upheld.list archive day orderly.sound
      trivial some_row counted
    exact ⟨⟨sound, orderly.filed.listed target orderly.sound (streamed day)
      (own allowed)⟩, preserved⟩
  · intro archive day orderly allowed some_row counted now same last final
    obtain ⟨sound, preserved⟩ := sound_upheld.drop archive day orderly.sound
      trivial some_row counted now same last final
    have listed := orderly.filed.listed target orderly.sound (streamed day)
      (own allowed)
    exact ⟨⟨sound, listed.commitDrop (orderly.sound.listed target _) final
      (keys now.rows) day.rows.length⟩, preserved⟩

/-! ## All days of a tenant -/

/-- The days by their directories, each with the run of the exporter on it. -/
abbrev Days := String → Solo Stores Op Reply ExportError Outcome

/-- What happens to one day.  Runs on different days may overlap here, which
the exporter's lock does not let them. -/
abbrev DayEvent := String × SoloEvent Unit Change

def Change.row : Change → Measurement
  | .arrive row => row
  | .update _ row => row

/-- A row arrives on its own day and stays there. -/
def ofDirectory (directory : String) : SoloEvent Unit Change → Bool
  | .environment change => change.row.directory == directory
  | _ => true

def stepDays (target : String → Target) (hash : Measurement → Int)
    (days : Days) (event : DayEvent) : Option Days :=
  if ofDirectory event.1 event.2 then
    (Solo.step (exporter (target event.1) hash) (days event.1) event.2).map
      fun day => Function.update days event.1 day
  else none

/-- Days of which nothing is exported yet. -/
def unexported (source : String → Day) : Days :=
  fun directory => idle ⟨source directory, .empty⟩

/-- The contract of the exporter on a day. -/
def dayContract (directory : String) : Contract Stores Op Unit :=
  archiveContract
    (Archive.Orderly fun row => row.directory = directory) Archive.Preserves
    (ofDay fun row => row.directory = directory)

structure DayKept (target : Target) (hash : Measurement → Int)
    (directory : String)
    (day : Solo Stores Op Reply ExportError Outcome) : Prop where
  kept : Solo.Kept (exporter target hash) (dayContract directory) day
  source : ∀ row ∈ day.shared.source.rows, row.directory = directory

theorem exec_source {hash : Measurement → Int} {stores after : Stores}
    {op : Op} {reply : Reply op}
    (executed : exec hash stores op () = some (reply, after)) :
    after.source = stores.source ∨ after.source = .empty := by
  cases op with
  | drop snapshot part =>
      simp only [exec, dropDay, Option.some.injEq] at executed
      split at executed
      · cases executed
        exact .inl rfl
      · split at executed
        · cases executed
          exact .inr rfl
        · cases executed
          exact .inl rfl
  | writePart part rows =>
      simp only [exec] at executed
      split at executed
      · cases executed
        exact .inl rfl
      · cases executed
        exact .inl rfl
  | readManifest => cases executed; exact .inl rfl
  | dropRecorded part => cases executed; exact .inl rfl
  | partRowCount part => cases executed; exact .inl rfl
  | snapshotDay => cases executed; exact .inl rfl
  | readPartKeys part => cases executed; exact .inl rfl
  | writeManifest manifest => cases executed; exact .inl rfl

theorem change_source {stores after : Stores} {event : Change}
    (changed : change stores event = some after) :
    ∀ row ∈ after.source.rows, row ∈ stores.source.rows ∨
      row = event.row := by
  intro row member
  cases event with
  | arrive new =>
      obtain ⟨day, inserted, rfl⟩ := Option.map_eq_some_iff.mp changed
      simp only [Day.insert, Day.ofRows] at inserted
      split at inserted
      · cases inserted
        rcases List.mem_cons.mp member with same | old
        · exact .inr same
        · exact .inl old
      · cases inserted
  | update key new =>
      obtain ⟨day, updated, rfl⟩ := Option.map_eq_some_iff.mp changed
      simp only [Day.update, Day.ofRows] at updated
      split at updated
      · cases updated
        obtain ⟨old, listed, same⟩ := List.mem_map.mp member
        split at same
        · exact .inr same.symm
        · exact .inl (same ▸ listed)
      · cases updated

section

variable {target : Target} {hash : Measurement → Int} {directory : String}

theorem step_day (separates : Separates hash)
    {day next : Solo Stores Op Reply ExportError Outcome}
    {event : SoloEvent Unit Change} (own : ofDirectory directory event = true)
    (kept : DayKept target hash directory day)
    (stepped : Solo.step (exporter target hash) day event = some next) :
    DayKept target hash directory next ∧
      day.shared.archive.Preserves next.shared.archive := by
  have permitted : Solo.Allowed (dayContract directory) day event := by
    intro op choice _
    cases op with
    | snapshotDay => exact kept.source
    | _ => trivial
  obtain ⟨keptAfter, changed⟩ := Solo.step_keeps
    (fun _ holds => exportDay_safe (orderly_upheld target _ separates) holds)
    (fun stores change after holds changed => by
      have same := change_archive changed
      exact ⟨(congrArg (Archive.Orderly _) same).mpr holds, same⟩)
    kept.kept permitted stepped
  have source : ∀ row ∈ next.shared.source.rows,
      row.directory = directory := by
    refine Solo.step_shared (fun stores =>
      ∀ row ∈ stores.source.rows, row.directory = directory) ?_ ?_
      kept.source stepped
    · intro op choice reply after executed row member
      rcases exec_source executed with same | none
      · rw [same] at member
        exact kept.source row member
      · rw [none] at member
        cases member
    · intro change after same changed row member
      rcases change_source changed row member with old | new
      · exact kept.source row old
      · subst same
        rw [new]
        exact eq_of_beq own
  refine ⟨⟨keptAfter, source⟩, ?_⟩
  rcases changed with given | same
  · exact given
  · rw [show next.shared.archive = day.shared.archive from same]
    exact Archive.Preserves.refl _

end

/-- Every day is as the exporter keeps it. -/
def DaysKept (target : String → Target) (hash : Measurement → Int)
    (days : Days) : Prop :=
  ∀ directory, DayKept (target directory) hash directory (days directory)

def DaysPreserve (before after : Days) : Prop :=
  ∀ directory, (before directory).shared.archive.Preserves
    (after directory).shared.archive

theorem DaysPreserve.refl (days : Days) : DaysPreserve days days :=
  fun _ => Archive.Preserves.refl _

theorem DaysPreserve.trans {first second third : Days}
    (before : DaysPreserve first second) (after : DaysPreserve second third) :
    DaysPreserve first third :=
  fun directory => (before directory).trans (after directory)

theorem unexported_kept (target : String → Target)
    (hash : Measurement → Int) {source : String → Day}
    (own : ∀ directory, ∀ row ∈ (source directory).rows,
      row.directory = directory) :
    DaysKept target hash (unexported source) :=
  fun directory => ⟨⟨⟨Archive.sound_empty, Archive.filed_empty _⟩,
    fun _ _ _ => trivial⟩, own directory⟩

theorem stepDays_keeps {target : String → Target} {hash : Measurement → Int}
    (separates : Separates hash) {days next : Days} {event : DayEvent}
    (kept : DaysKept target hash days)
    (stepped : stepDays target hash days event = some next) :
    DaysKept target hash next ∧ DaysPreserve days next := by
  unfold stepDays at stepped
  split at stepped
  · rename_i own
    obtain ⟨day, moved, rfl⟩ := Option.map_eq_some_iff.mp stepped
    obtain ⟨day_kept, preserved⟩ :=
      step_day separates own (kept event.1) moved
    constructor
    · intro directory
      by_cases here : directory = event.1
      · subst here
        rwa [Function.update_self]
      · rw [Function.update_of_ne here]
        exact kept directory
    · intro directory
      by_cases here : directory = event.1
      · subst here
        rwa [Function.update_self]
      · rw [Function.update_of_ne here]
        exact Archive.Preserves.refl _
  · cases stepped

/-- A run of one day is one of all days. -/
theorem run_day {target : String → Target} {hash : Measurement → Int}
    {days : Days} {directory : String} {events : List (SoloEvent Unit Change)}
    {final : Solo Stores Op Reply ExportError Outcome}
    (own : ∀ event ∈ events, ofDirectory directory event = true)
    (ran : run (Solo.step (exporter (target directory) hash))
      (days directory) events = some final) :
    run (stepDays target hash) days
      (events.map fun event => (directory, event)) =
        some (Function.update days directory final) := by
  induction events generalizing days with
  | nil =>
      cases ran
      rw [Function.update_eq_self]
      rfl
  | cons event events induction =>
      obtain ⟨first, others⟩ := List.forall_mem_cons.mp own
      obtain ⟨day, stepped, rest⟩ := run_cons.mp ran
      refine run_cons.mpr ⟨Function.update days directory day, ?_, ?_⟩
      · simp [stepDays, first, stepped]
      · have same : Function.update (Function.update days directory day)
            directory final = Function.update days directory final :=
          Function.update_idem _ _ _
        rw [← same]
        refine induction others ?_
        rw [Function.update_self]
        exact rest

end IndustryFlow.ColdExport
