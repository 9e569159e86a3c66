import IndustryFlow.ColdExport.Tenant

/-!
# Reading a tenant's history

The client lists the day directories, opens the manifest of each and reads
the parts it names, each by a call of its own, while the exporter goes on.
It returns no key twice, and every row whose drop was recorded when it began.
-/

namespace IndustryFlow.ColdExport

open Concurrent

/-! ## The client -/

inductive ReadOp where
  | listDirectory (directory : String)
  | openManifest (directory : String)
  | openPart (directory name : String)
deriving DecidableEq

/-- A listing answers which names it holds; `none` is a missing object. -/
abbrev ReadReply : ReadOp → Type
  | .listDirectory _ => String → Bool
  | .openManifest _ => Option Manifest
  | .openPart _ _ => Option (List Measurement)

inductive ReadError where
  | notInStore (manifest name : String)
  | raised
  | died
deriving DecidableEq

abbrev Read := Program ReadOp ReadReply ReadError

def manifestName : String := "_manifest.json"

/-- The files of a day directory. -/
def Archive.holdsFile (archive : Archive) (name : String) : Bool :=
  if name = manifestName then archive.manifest.isSome
  else (archive.files name).isSome

def execRead (days : Days) :
    (op : ReadOp) → Unit → Option (ReadReply op × Days)
  | .listDirectory directory, _ =>
      some ((days directory).shared.archive.holdsFile, days)
  | .openManifest directory, _ =>
      some ((days directory).shared.archive.manifest, days)
  | .openPart directory name, _ =>
      some ((days directory).shared.archive.files name, days)

/-- A day directory and a file in it. -/
abbrev FilePath := String × String

/-- `_rel`. -/
def rel (file : FilePath) : String :=
  file.1 ++ "/" ++ file.2

def opened {Answer : Type} : Option Answer → Read Answer
  | some answer => .done answer
  | none => .fail .raised

/-- `manifest_part_files`. -/
def manifestPartFiles (manifest : Manifest) : List String :=
  match manifest.parts with
  | some parts => parts.map Part.file
  | none => [firstPart]

/-- `by_dir`: the directories with the names in them. -/
abbrev Listing := List (String × (String → Bool))

def listFiles : List String → Read Listing
  | [] => pure []
  | directory :: directories => do
      let names ← Program.perform (ReadOp.listDirectory directory)
      let listing ← listFiles directories
      pure ((directory, names) :: listing)

/-- The files a manifest names, all of which have to be listed. -/
def listedParts (directory : String) (names : String → Bool) :
    List String → Read (List FilePath)
  | [] => pure []
  | name :: others =>
      if names name then do
        let parts ← listedParts directory names others
        pure ((directory, name) :: parts)
      else .fail (.notInStore (rel (directory, manifestName)) name)

/-- `verified_parts`. -/
def verifiedParts : Listing → Read (List FilePath)
  | [] => pure []
  | (directory, names) :: listing =>
      if names manifestName then do
        let found ← Program.perform (ReadOp.openManifest directory)
        let manifest ← opened found
        let parts ← listedParts directory names (manifestPartFiles manifest)
        let others ← verifiedParts listing
        pure (parts ++ others)
      else verifiedParts listing

/-- The parts, each read and put after the ones before. -/
def readParts : List FilePath → Read (List Measurement)
  | [] => pure []
  | (directory, name) :: files => do
      let found ← Program.perform (ReadOp.openPart directory name)
      let rows ← opened found
      let others ← readParts files
      pure (rows ++ others)

def endsWith (ending text : String) : Bool :=
  ending.toList.isSuffixOf text.toList

/-- `read_all` of the day directories under a path. -/
def readAll (directories : List String) : Read (List Measurement) := do
  let listing ← listFiles (directories.dedup.insertionSort (· ≤ ·))
  let parts ← verifiedParts listing
  readParts (parts.filter fun file => endsWith ".parquet" (rel file))

/-- One read after the other, beside the exporter and what arrives. -/
def reader (target : String → Target) (hash : Measurement → Int)
    (directories : List String) :
    Solo.System Days ReadOp ReadReply ReadError (List Measurement) Unit
      DayEvent where
  job := readAll directories
  dead := .died
  exec := execRead
  change := stepDays target hash

/-! ## What stays as it is -/

def contents (days : Days) (file : FilePath) : Option (List Measurement) :=
  (days file.1).shared.archive.files file.2

/-- The drop of the part is recorded. -/
def Final (days : Days) (file : FilePath) : Prop :=
  (days file.1).shared.archive.recorded file.2 = true

theorem Final.stable {before after : Days} {file : FilePath}
    (final : Final before file) (changed : DaysPreserve before after) :
    Final after file ∧ contents after file = contents before file :=
  changed file.1 file.2 final

/-- A file that is followed by another of its directory is final. -/
def Ordered (days : Days) (files : List FilePath) : Prop :=
  files.Pairwise fun first second =>
    first.1 = second.1 → first.2 ≠ second.2 ∧ Final days first

theorem Ordered.stable {before after : Days} {files : List FilePath}
    (ordered : Ordered before files) (changed : DaysPreserve before after) :
    Ordered after files := by
  refine ordered.imp fun related same => ?_
  obtain ⟨different, final⟩ := related same
  exact ⟨different, (final.stable changed).1⟩

/-- What has been read from the files. -/
structure FileRows (days : Days) (files : List FilePath)
    (rows : List Measurement) : Prop where
  unique : (keys rows).Nodup
  within : ∀ row ∈ rows, ∃ file ∈ files, row.directory = file.1
  apart : ∀ file ∉ files, Final days file →
    ∀ held, contents days file = some held → ∀ key ∈ keys held,
      key ∉ keys rows
  complete : ∀ file ∈ files, Final days file →
    ∀ held, contents days file = some held → held ⊆ rows

section

variable {target : String → Target} {hash : Measurement → Int}

theorem FileRows.nil (days : Days) : FileRows days [] [] where
  unique := List.nodup_nil
  within := nofun
  apart _ _ _ _ _ _ _ := nofun
  complete := nofun

/-- The next file is read when it has come to be as it is `later`. -/
theorem FileRows.cons {days later : Days} {file : FilePath}
    {files : List FilePath} {held rows : List Measurement}
    (kept : DaysKept target hash later) (changed : DaysPreserve days later)
    (ordered : Ordered days (file :: files))
    (found : contents later file = some held)
    (others : FileRows later files rows) :
    FileRows days (file :: files) (held ++ rows) := by
  have filed := (kept file.1).kept.holds.filed
  have own : ∀ row ∈ held, row.directory = file.1 :=
    filed.here file.2 held found
  obtain ⟨follows, -⟩ := List.pairwise_cons.mp ordered
  constructor
  · rw [keys, List.map_append]
    refine List.Nodup.append (filed.unique file.2 held found) others.unique ?_
    intro key first second
    obtain ⟨left, left_held, rfl⟩ := List.mem_map.mp first
    obtain ⟨right, right_read, same⟩ := List.mem_map.mp second
    obtain ⟨next, member, there⟩ := others.within right right_read
    by_cases directory : file.1 = next.1
    · obtain ⟨-, final⟩ := follows next member directory
      have once : file ∉ files := fun again => (follows file again rfl).1 rfl
      exact others.apart file once (final.stable changed).1 held found
        left.key first second
    · exact key_apart (own left left_held) there directory same.symm
  · intro row member
    rcases List.mem_append.mp member with here | there
    · exact ⟨file, List.mem_cons_self, own row here⟩
    · obtain ⟨next, listed, same⟩ := others.within row there
      exact ⟨next, List.mem_cons_of_mem file listed, same⟩
  · intro other outside final rest_held other_found key member again
    obtain ⟨final_later, same⟩ := final.stable changed
    rw [← same] at other_found
    rw [keys, List.map_append] at again
    rcases List.mem_append.mp again with here | there
    · by_cases directory : file.1 = other.1
      · have different : file.2 ≠ other.2 := fun name =>
          outside (Prod.ext directory name ▸ List.mem_cons_self)
        have there : (later file.1).shared.archive.files other.2 =
            some rest_held := directory ▸ other_found
        have recorded : (later file.1).shared.archive.recorded other.2 =
            true := directory ▸ final_later
        exact filed.apart file.2 other.2 held rest_held found there recorded
          different key here member
      · obtain ⟨left, left_held, rfl⟩ := List.mem_map.mp here
        obtain ⟨right, right_held, same_key⟩ := List.mem_map.mp member
        have there := (kept other.1).kept.holds.filed.here other.2 rest_held
          other_found right right_held
        exact key_apart (own left left_held) there directory same_key.symm
    · have outside_files : other ∉ files := fun listed =>
        outside (List.mem_cons_of_mem file listed)
      exact others.apart other outside_files final_later rest_held other_found
        key member there
  · intro other member final rest_held other_found
    obtain ⟨final_later, same⟩ := final.stable changed
    rw [← same] at other_found
    rcases List.mem_cons.mp member with rfl | listed
    · rw [found] at other_found
      cases other_found
      exact List.subset_append_left held rows
    · exact List.subset_append_of_subset_right held
        (others.complete other listed final_later rest_held other_found)

/-! ## Safety of a read -/

/-- A read that began when the days were as in `start`. -/
def readContract (target : String → Target) (hash : Measurement → Int)
    (start : Days) : Contract Days ReadOp Unit where
  invariant days := DaysKept target hash days ∧ DaysPreserve start days
  allowed _ _ _ := True
  rely := DaysPreserve
  guarantee := DaysPreserve
  rely_refl := DaysPreserve.refl
  rely_trans := DaysPreserve.trans

/-- What a read returns. -/
structure History (start : Days) (directories : List String)
    (rows : List Measurement) : Prop where
  unique : (keys rows).Nodup
  within : ∀ row ∈ rows, row.directory ∈ directories
  complete : ∀ directory ∈ directories, ∀ name,
    Final start (directory, name) →
      ∀ held, contents start (directory, name) = some held → held ⊆ rows

/-- A read may fail, but not return anything else. -/
def returns (start : Days) (directories : List String) :
    Except ReadError (List Measurement) → Days → Prop
  | .ok rows, _ => History start directories rows
  | .error _, _ => True

variable {start : Days} {directories : List String}

/-- Safety of what is left of a read. -/
def SafeRead (target : String → Target) (hash : Measurement → Int)
    (start : Days) (directories : List String)
    (program : Read (List Measurement)) (days : Days) : Prop :=
  program.Safe execRead (readContract target hash start)
    (returns start directories) days

private theorem fail_read (error : ReadError) (days : Days) :
    SafeRead target hash start directories (.fail error) days :=
  fun _ _ _ => trivial

private theorem call_read {op : ReadOp}
    {next : ReadReply op → Read (List Measurement)} {days : Days}
    (goes_on : ∀ later reply, DaysKept target hash later →
      DaysPreserve start later → DaysPreserve days later →
      execRead later op () = some (reply, later) →
        SafeRead target hash start directories (next reply) later) :
    SafeRead target hash start directories (.call op next) days := by
  intro later holds changed choice reply after _ executed
  have same : after = later := by
    cases op <;> cases executed <;> rfl
  subst same
  exact ⟨holds, DaysPreserve.refl after,
    goes_on after reply holds.1 holds.2 changed executed⟩

theorem readParts_safe {files : List FilePath} {days : Days}
    {continuation : List Measurement → Read (List Measurement)}
    (kept : DaysKept target hash days) (preserved : DaysPreserve start days)
    (ordered : Ordered days files)
    (continues : ∀ rows later, DaysKept target hash later →
      DaysPreserve start later → DaysPreserve days later →
      FileRows days files rows →
        SafeRead target hash start directories (continuation rows) later) :
    SafeRead target hash start directories (readParts files >>= continuation)
      days := by
  induction files generalizing days continuation with
  | nil =>
      exact continues [] days kept preserved (DaysPreserve.refl days)
        (FileRows.nil days)
  | cons file files induction =>
      simp only [readParts, Program.perform_bind, Program.call_bind]
      refine call_read fun later reply kept_later since changed executed => ?_
      cases executed
      cases found : contents later file with
      | none =>
          rw [contents] at found
          rw [found]
          exact fail_read .raised later
      | some held =>
          have reply : (later file.1).shared.archive.files file.2 =
            some held := found
          rw [reply]
          simp only [opened, Program.done_bind, Program.bind_assoc]
          refine induction kept_later since
            ((List.pairwise_cons.mp (ordered.stable changed)).2) ?_
          intro rows last kept_last since_last changed_last read
          exact continues (held ++ rows) last kept_last since_last
            (changed.trans changed_last)
            (FileRows.cons kept_later changed ordered found read)

/-! ## The parts of a read -/

/-- The files that a read of the directories will open. -/
structure Planned (start days : Days) (directories : List String)
    (files : List FilePath) : Prop where
  ordered : Ordered days files
  within : ∀ file ∈ files, file.1 ∈ directories
  complete : ∀ file : FilePath, file.1 ∈ directories → Final start file →
    file ∈ files

theorem Planned.nil (start days : Days) : Planned start days [] [] where
  ordered := List.Pairwise.nil
  within := nofun
  complete := nofun

theorem Planned.skip {days : Days} {directory : String}
    {directories : List String} {files : List FilePath}
    (none_final : ∀ name, ¬Final start (directory, name))
    (others : Planned start days directories files) :
    Planned start days (directory :: directories) files where
  ordered := others.ordered
  within file member := List.mem_cons_of_mem _ (others.within file member)
  complete := by
    intro file member final
    rcases List.mem_cons.mp member with same | listed
    · refine absurd ?_ (none_final file.2)
      rw [← same]
      exact final
    · exact others.complete file listed final

theorem Planned.append {days later : Days} {directory : String}
    {directories : List String} {files others : List FilePath}
    (new : directory ∉ directories) (changed : DaysPreserve days later)
    (first : Planned start days [directory] files)
    (rest : Planned start later directories others) :
    Planned start later (directory :: directories) (files ++ others) where
  ordered := by
    refine List.pairwise_append.mpr
      ⟨first.ordered.stable changed, rest.ordered, ?_⟩
    intro file member other listed same
    have here := List.mem_singleton.mp (first.within file member)
    exact absurd (here ▸ same ▸ rest.within other listed) new
  within := by
    intro file member
    rcases List.mem_append.mp member with here | there
    · exact List.mem_cons.mpr
        (.inl (List.mem_singleton.mp (first.within file here)))
    · exact List.mem_cons_of_mem _ (rest.within file there)
  complete := by
    intro file member final
    rcases List.mem_cons.mp member with same | listed
    · exact List.mem_append_left _
        (first.complete file (List.mem_singleton.mpr same) final)
    · exact List.mem_append_right _ (rest.complete file listed final)

/-- A recorded part is listed in the manifest. -/
theorem Final.listed {days : Days} {file : FilePath}
    (kept : DaysKept target hash days) (final : Final days file) :
    ∃ index part,
      (days file.1).shared.archive.parts[index]? = some part ∧
        part.file = file.2 ∧ file.2 = partFile index := by
  have sound := (kept file.1).kept.holds.sound
  obtain ⟨part, member, same, -⟩ := sound.recorded_listed file.2 final
  obtain ⟨index, found⟩ := List.mem_iff_getElem?.mp member
  exact ⟨index, part, found, same,
    same.symm.trans (sound.named index part found)⟩

theorem Final.manifest {days : Days} {directory name : String}
    (kept : DaysKept target hash days) (final : Final days (directory, name)) :
    (days directory).shared.archive.holdsFile manifestName = true := by
  obtain ⟨index, part, found, -⟩ := final.listed kept
  rw [Archive.holdsFile, if_pos rfl]
  cases manifest : (days directory).shared.archive.manifest with
  | none => simp [Archive.parts, manifest, manifestParts] at found
  | some manifest => rfl

/-- The files a manifest names, when it is opened. -/
theorem planned_manifest {days : Days} {directory : String}
    {manifest : Manifest} (kept : DaysKept target hash days)
    (preserved : DaysPreserve start days)
    (found : (days directory).shared.archive.manifest = some manifest) :
    Planned start days [directory]
      ((manifestPartFiles manifest).map fun name => (directory, name)) := by
  have sound := (kept directory).kept.holds.sound
  have files : manifestPartFiles manifest =
      (days directory).shared.archive.parts.map Part.file := by
    have current := sound.current
    rw [found, isLegacy] at current
    rw [Archive.parts, found, manifestPartFiles, manifestParts]
    cases parts : manifest.parts with
    | none => simp [parts] at current
    | some parts => rfl
  rw [files, List.map_map]
  constructor
  · refine List.pairwise_map.mpr (List.pairwise_iff_getElem.mpr ?_)
    intro first second first_bound second_bound less _
    have left := List.getElem?_eq_getElem first_bound
    have right := List.getElem?_eq_getElem second_bound
    refine ⟨fun same => ?_, sound.earlier_recorded first _ left (by omega)⟩
    have index := partFile_injective ((sound.named first _ left).symm.trans
      (same.trans (sound.named second _ right)))
    omega
  · intro file member
    obtain ⟨part, -, rfl⟩ := List.mem_map.mp member
    exact List.mem_singleton.mpr rfl
  · intro file member final
    have here := List.mem_singleton.mp member
    obtain ⟨index, part, listed, same, -⟩ :=
      (final.stable preserved).1.listed kept
    rw [here] at listed
    refine List.mem_map.mpr ⟨part, List.mem_of_getElem? listed, ?_⟩
    exact Prod.ext here.symm same

theorem listedParts_cases (directory : String) (names : String → Bool)
    (files : List String) :
    listedParts directory names files =
        pure (files.map fun name => (directory, name)) ∨
      ∃ error, listedParts directory names files = .fail error := by
  induction files with
  | nil => exact .inl rfl
  | cons name files induction =>
      rw [listedParts]
      split
      · rcases induction with all | ⟨error, failed⟩
        · rw [all]
          exact .inl rfl
        · rw [failed]
          exact .inr ⟨error, rfl⟩
      · exact .inr ⟨_, rfl⟩

/-- A directory with a final part has a manifest in the listing. -/
def Listed (start : Days) (listing : Listing) : Prop :=
  ∀ entry ∈ listing, ∀ name, Final start (entry.1, name) →
    entry.2 manifestName = true

theorem listFiles_safe {listed : List String} {days : Days}
    {continuation : Listing → Read (List Measurement)}
    (kept : DaysKept target hash days) (preserved : DaysPreserve start days)
    (continues : ∀ listing later, DaysKept target hash later →
      DaysPreserve start later → listing.map Prod.fst = listed →
      Listed start listing →
        SafeRead target hash start directories (continuation listing)
          later) :
    SafeRead target hash start directories
      (listFiles listed >>= continuation) days := by
  induction listed generalizing days continuation with
  | nil => exact continues [] days kept preserved rfl nofun
  | cons directory listed induction =>
      simp only [listFiles, Program.perform_bind, Program.call_bind]
      refine call_read fun later reply kept_later since changed executed => ?_
      cases executed
      simp only [Program.bind_assoc]
      refine induction kept_later since ?_
      intro listing last kept_last since_last same known
      refine continues _ last kept_last since_last
        (congrArg (directory :: ·) same) ?_
      intro entry member name final
      rcases List.mem_cons.mp member with rfl | earlier
      · exact (final.stable since).1.manifest kept_later
      · exact known entry earlier name final

theorem verifiedParts_safe {listing : Listing} {days : Days}
    {continuation : List FilePath → Read (List Measurement)}
    (kept : DaysKept target hash days) (preserved : DaysPreserve start days)
    (once : (listing.map Prod.fst).Nodup) (known : Listed start listing)
    (continues : ∀ files later, DaysKept target hash later →
      DaysPreserve start later → DaysPreserve days later →
      Planned start later (listing.map Prod.fst) files →
        SafeRead target hash start directories (continuation files) later) :
    SafeRead target hash start directories
      (verifiedParts listing >>= continuation) days := by
  induction listing generalizing days continuation with
  | nil =>
      exact continues [] days kept preserved (DaysPreserve.refl days)
        (Planned.nil start days)
  | cons entry listing induction =>
      obtain ⟨directory, names⟩ := entry
      obtain ⟨new, others_once⟩ := List.nodup_cons.mp once
      have others_known : Listed start listing := fun entry member =>
        known entry (List.mem_cons_of_mem _ member)
      rw [verifiedParts]
      split
      · simp only [Program.perform_bind, Program.call_bind]
        refine call_read fun later reply kept_later since changed executed =>
          ?_
        cases executed
        cases found : (later directory).shared.archive.manifest with
        | none => exact fail_read .raised later
        | some manifest =>
            simp only [opened, Program.done_bind, Program.bind_assoc]
            rcases listedParts_cases directory names
              (manifestPartFiles manifest) with all | ⟨error, failed⟩
            · rw [all]
              refine induction kept_later since others_once others_known ?_
              intro files last kept_last since_last changed_last planned
              exact continues _ last kept_last since_last
                (changed.trans changed_last) ((planned_manifest kept_later
                  since found).append new changed_last planned)
            · rw [failed]
              exact fail_read error later
      · rename_i missing
        refine induction kept preserved others_once others_known ?_
        intro files last kept_last since_last changed_last planned
        refine continues files last kept_last since_last changed_last
          (planned.skip fun name final => missing ?_)
        exact known _ List.mem_cons_self name final

theorem parquet_partFile (directory : String) (index : Nat) :
    endsWith ".parquet" (rel (directory, partFile index)) = true := by
  have ending (text : List Char) :
      ".parquet".toList.isSuffixOf (text ++ ".parquet".toList) = true :=
    List.isSuffixOf_iff_suffix.mpr (List.suffix_append _ _)
  unfold partFile endsWith rel
  split
  · have split_name : firstPart.toList =
        "measurements".toList ++ ".parquet".toList := by decide
    simp only [String.toList_append, split_name, ← List.append_assoc]
    exact ending _
  · simp only [String.toList_append, ← List.append_assoc]
    exact ending _

theorem readAll_safe {days : Days} (kept : DaysKept target hash days)
    (preserved : DaysPreserve start days) :
    SafeRead target hash start directories (readAll directories) days := by
  rw [readAll]
  refine listFiles_safe kept preserved ?_
  intro listing later kept_later since names known
  have sorted : ∀ directory, directory ∈ listing.map Prod.fst ↔
      directory ∈ directories := by
    intro directory
    rw [names, List.mem_insertionSort, List.mem_dedup]
  have once : (listing.map Prod.fst).Nodup := by
    rw [names, (List.perm_insertionSort _ _).nodup_iff]
    exact List.nodup_dedup directories
  refine verifiedParts_safe kept_later since once known ?_
  intro files last kept_last since_last _ planned
  rw [← Program.bind_pure (readParts _)]
  refine readParts_safe kept_last since_last
    (planned.ordered.filter _) ?_
  intro rows final_days kept_final _ _ read ending _ _
  have read_final {file : FilePath} (final : Final start file)
      (member : file.1 ∈ directories) :
      file ∈ files.filter fun file => endsWith ".parquet" (rel file) := by
    obtain ⟨index, part, -, -, name⟩ :=
      (final.stable since_last).1.listed kept_last
    refine List.mem_filter.mpr
      ⟨planned.complete file ((sorted file.1).mpr member) final, ?_⟩
    rw [show file = (file.1, partFile index) from Prod.ext rfl name]
    exact parquet_partFile file.1 index
  constructor
  · exact read.unique
  · intro row member
    obtain ⟨file, listed, same⟩ := read.within row member
    rw [same]
    exact (sorted file.1).mp
      (planned.within file (List.mem_of_mem_filter listed))
  · intro directory member name final held found
    obtain ⟨final_last, same⟩ := final.stable since_last
    exact read.complete (directory, name) (read_final final member) final_last
      held (same.trans found)

end

/-! ## Every read -/

theorem step_reader {target : String → Target} {hash : Measurement → Int}
    (separates : Separates hash) {directories : List String}
    {state next : Solo Days ReadOp ReadReply ReadError (List Measurement)}
    {event : SoloEvent Unit DayEvent}
    (kept : DaysKept target hash state.shared)
    (stepped : Solo.step (reader target hash directories) state event =
      some next) :
    DaysKept target hash next.shared := by
  refine Solo.step_shared (DaysKept target hash) ?_ ?_ kept stepped
  · intro op choice reply after executed
    cases op <;> cases executed <;> exact kept
  · intro change after _ changed
    exact (stepDays_keeps separates kept changed).1

/-- Whatever the exporter, its crashes and arriving rows do before and during
a read, a read that returns has no key twice, only rows of the directories,
every row of each part whose drop was recorded when it began, and so every key
that a drop had removed from the hot table by then. -/
theorem read_all_complete (target : String → Target)
    (hash : Measurement → Int) (separates : Separates hash)
    (source : String → Day)
    (own : ∀ directory, ∀ row ∈ (source directory).rows,
      row.directory = directory)
    (directories : List String)
    (before after : List (SoloEvent Unit DayEvent))
    (middle final :
      Solo Days ReadOp ReadReply ReadError (List Measurement))
    (rows : List Measurement)
    (ran : run (Solo.step (reader target hash directories))
      ⟨unexported source, .fail .died⟩ before = some middle)
    (continued : run (Solo.step (reader target hash directories)) middle
      (.start :: after) = some final)
    (answered : final.running = .done rows) :
    (keys rows).Nodup ∧ (∀ row ∈ rows, row.directory ∈ directories) ∧
    (∀ directory ∈ directories, ∀ name held,
      (middle.shared directory).shared.archive.recorded name = true →
      (middle.shared directory).shared.archive.files name = some held →
        held ⊆ rows) ∧
    (∀ directory ∈ directories,
      ∀ key ∈ (middle.shared directory).shared.archive.removed,
        key ∈ keys rows) := by
  have kept : DaysKept target hash middle.shared :=
    run_preserves (fun state : Solo _ _ _ _ _ =>
      DaysKept target hash state.shared)
      (fun _ _ _ holds stepped => step_reader separates holds stepped)
      (unexported_kept target hash own) ran
  obtain ⟨began, starting, rest⟩ := run_cons.mp continued
  simp only [Solo.step] at starting
  split at starting
  · cases starting
    have fulfils : Solo.Fulfils (reader target hash directories)
        (readContract target hash middle.shared)
        (returns middle.shared directories) final := by
      refine run_preserves _ ?_ ?_ rest
      · intro state event next holds stepped
        refine (Solo.step_fulfils ?_ ?_ ?_ holds ?_ stepped).1
        · exact fun _ holds => readAll_safe holds.1 holds.2
        · exact fun _ _ => trivial
        · intro change changed _ moved
          obtain ⟨kept_after, preserved⟩ :=
            stepDays_keeps separates holds.holds.1 moved
          exact ⟨⟨kept_after, holds.holds.2.trans preserved⟩, preserved⟩
        · exact fun _ _ _ => trivial
      · exact ⟨⟨kept, DaysPreserve.refl _⟩, readAll_safe kept (DaysPreserve.refl _)⟩
    have history : History middle.shared directories rows := by
      have safe := fulfils.safe
      rw [answered] at safe
      exact safe final.shared fulfils.holds (DaysPreserve.refl _)
    refine ⟨history.unique, history.within, ?_, ?_⟩
    · intro directory member name held recorded found
      exact history.complete directory member name recorded held found
    · intro directory member key removed
      obtain ⟨part, -, recorded, held, found, holds⟩ :=
        (kept directory).kept.holds.sound.removed_held key removed
      obtain ⟨row, row_held, rfl⟩ := List.mem_map.mp holds
      exact List.mem_map_of_mem (history.complete directory member part.file
        recorded held found row_held)
  · cases starting

def archivedRow : Measurement :=
  ⟨0, "sensor", "equipment", "site", 0, none, none, none⟩

def archivedDay : Day :=
  ⟨[archivedRow], by decide⟩

def archivedSource (directory : String) : Day :=
  if directory = archivedRow.directory then archivedDay else .empty

def archivedTarget : Target :=
  ⟨"tenant_0", "0001-01-01"⟩

/-- The archive after the export of the row and its drop. -/
def rowArchive : Archive where
  files := Function.update (fun _ => none) firstPart (some [archivedRow])
  manifest := some (newManifest archivedTarget [⟨firstPart, 1⟩])
  drops := [(firstPart, 1)]
  removed := [archivedRow.key]

theorem export_row (hash : Measurement → Int) :
    run (Solo.step (exporter archivedTarget hash))
      (idle ⟨archivedDay, .empty⟩)
      [.start, .step (), .step (), .step (), .step (), .step (), .step ()] =
        some ⟨⟨.empty, rowArchive⟩, .done .exported⟩ := by
  have valid : validPart firstPart = true := by decide
  have droppable : droppablePart firstPart = true := by decide
  have written (stores : Stores) :
      exec hash stores (.writePart firstPart [archivedRow]) () =
        some (some 1, { stores with
          archive := stores.archive.putPart firstPart [archivedRow] }) := by
    simp [exec, valid]
  have counted (stores : Stores) :
      exec hash { stores with
          archive := stores.archive.putPart firstPart [archivedRow] }
        (.partRowCount firstPart) () = some (some 1, { stores with
          archive := stores.archive.putPart firstPart [archivedRow] }) := by
    simp [exec, Archive.read, valid, Archive.putPart]
  have dropped (archive : Archive) :
      exec hash ⟨archivedDay, archive⟩
        (.drop (takeSnapshot hash archivedDay) firstPart) () =
        some (some true, ⟨.empty,
          archive.commitDrop (keys [archivedRow]) firstPart 1⟩) := by
    simp [exec, dropDay, droppable, takeSnapshot, archivedDay, dayFingerprint]
  exact Solo.run_start rfl (Solo.run_step rfl (Solo.run_step rfl
    (Solo.run_step (written _) (Solo.run_step (counted _)
      (Solo.run_step rfl (Solo.run_step (dropped _) rfl))))))

theorem read_row (hash : Measurement → Int) {days : Days} {directory : String}
    (here : (days directory).shared.archive = rowArchive) :
    run (Solo.step (reader (fun _ => archivedTarget) hash [directory]))
      ⟨days, readAll [directory]⟩ [.step (), .step (), .step ()] =
        some ⟨days, .done [archivedRow]⟩ := by
  have manifest : rowArchive.holdsFile manifestName = true := rfl
  have part : rowArchive.holdsFile firstPart = true := rfl
  have listed : rowArchive.manifest =
    some (newManifest archivedTarget [⟨firstPart, 1⟩]) := rfl
  have names : manifestPartFiles
    (newManifest archivedTarget [⟨firstPart, 1⟩]) = [firstPart] := rfl
  have rows : rowArchive.files firstPart = some [archivedRow] := rfl
  have parquet : endsWith ".parquet" (rel (directory, firstPart)) = true :=
    parquet_partFile directory 0
  simp [run, Solo.step, reader, execRead, readAll, listFiles,
    verifiedParts, listedParts, readParts, opened, here, manifest, part,
    listed, names, rows, parquet]

theorem read_all_complete_row :
    ∃ hash, Separates hash ∧ ∃ middle final,
      run (Solo.step (reader (fun _ => archivedTarget) hash
        [archivedRow.directory]))
        ⟨unexported archivedSource, .fail .died⟩
        (([.start, .step (), .step (), .step (), .step (), .step (),
          .step ()].map fun event => (archivedRow.directory, event)).map
            .environment) = some middle ∧
      run (Solo.step (reader (fun _ => archivedTarget) hash
        [archivedRow.directory])) middle
        [.start, .step (), .step (), .step ()] = some final ∧
      final.running = .done [archivedRow] ∧
      archivedRow.key ∈ keys [archivedRow] := by
  obtain ⟨hash, separates⟩ := exists_separates
  have own : ∀ directory, ∀ row ∈ (archivedSource directory).rows,
      row.directory = directory := by
    intro directory row member
    unfold archivedSource at member
    split at member
    · rename_i here
      rw [List.mem_singleton.mp member, here]
    · cases member
  have exported := @run_day (fun _ => archivedTarget) hash
    (unexported archivedSource) archivedRow.directory
    [.start, .step (), .step (), .step (), .step (), .step (), .step ()]
    ⟨⟨.empty, rowArchive⟩, .done .exported⟩ (by simp [ofDirectory]) (by
      have begins : unexported archivedSource archivedRow.directory =
          idle ⟨archivedDay, .empty⟩ := by
        simp [unexported, archivedSource]
      rw [begins]
      exact export_row hash)
  have ran := @Solo.run_environment _ _ _ _ _ _ _
    (reader (fun _ => archivedTarget) hash [archivedRow.directory]) _ _ _
    (.fail .died) exported
  have archived : (Function.update (unexported archivedSource)
      archivedRow.directory ⟨⟨.empty, rowArchive⟩, .done .exported⟩
        archivedRow.directory).shared.archive = rowArchive := by
    rw [Function.update_self]
  have continued : run (Solo.step (reader (fun _ => archivedTarget) hash
      [archivedRow.directory])) ⟨_, .fail .died⟩ _ = some _ :=
    Solo.run_start rfl (read_row hash archived)
  exact ⟨hash, separates, _, _, ran, continued, rfl,
    (read_all_complete _ hash separates archivedSource own _ _ _ _ _ _ ran
      continued rfl).2.2.2 _ List.mem_cons_self _ (by
        rw [archived]
        exact List.mem_cons_self)⟩

end IndustryFlow.ColdExport
