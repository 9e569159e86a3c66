import Mathlib.Algebra.GroupWithZero.Nat
import Mathlib.Data.List.Basic

/-!
# Paths, links and real paths

A file tree with symbolic links.  `follow` is what a system does with a path;
`realpath` resolves the links of a path beforehand, with those that lead back
to themselves left as they are.  Whatever the tree holds, a path that has been
resolved leads nowhere but to itself (`follow_realpath`).
-/

namespace Files

/-- The names from the root on. -/
abbrev Path := List String

inductive Node where
  | file
  | directory
  | other
  | link (absolute : Bool) (target : List String)
deriving DecidableEq

/-- What stands at the paths of a tree; a path is under directories only. -/
structure Tree where
  nodes : List (Path × Node)
  nested : ∀ entry ∈ nodes, entry.1.dropLast = [] ∨
    nodes.lookup entry.1.dropLast = some .directory
  /-- The most names that the system follows for one path. -/
  patience : Nat

/-- `lstat`. -/
def Tree.node (tree : Tree) (path : Path) : Option Node :=
  tree.nodes.lookup path

def skipped (name : String) : Bool :=
  name = "" || name = "."

/-- A name that is looked up. -/
def plain (name : String) : Bool :=
  !skipped name && name ≠ ".."

variable (tree : Tree)

/-- One name from a directory: where it leads, and the names that a link puts
in its place. -/
def enter (start : Path) (name : String) : Path × List String :=
  if skipped name then (start, [])
  else if name = ".." then (start.dropLast, [])
  else match tree.node (start ++ [name]) with
    | some (.link absolute target) => (if absolute then [] else start, target)
    | _ => (start ++ [name], [])

/-- Where the names lead from a directory. -/
def follow : Nat → Path → List String → Option Path
  | _, start, [] => some start
  | 0, _, _ :: _ => none
  | steps + 1, start, name :: names =>
      follow steps (enter tree start name).1
        ((enter tree start name).2 ++ names)

/-- `os.path.isfile`. -/
def isFile (path : Path) : Bool :=
  match follow tree tree.patience [] path with
  | some found => tree.node found = some .file
  | none => false

/-- What is left of a path to resolve. -/
inductive Part where
  | name (name : String)
  /-- The target of this link has been resolved. -/
  | resolved (parent : Path) (name : String)

/-- The links met so far, with what they resolve to once that is known. -/
abbrev Seen := List ((Path × String) × Option Path)

/-- `os.path.realpath`, over the parts that are left. -/
def walk : Nat → Path → List Part → Seen → Path
  | 0, path, _, _ => path
  | _ + 1, path, [], _ => path
  | steps + 1, path, .resolved parent name :: rest, seen =>
      walk steps path rest (((parent, name), some path) :: seen)
  | steps + 1, path, .name name :: rest, seen =>
      if skipped name then walk steps path rest seen
      else if name = ".." then walk steps path.dropLast rest seen
      else match tree.node (path ++ [name]) with
        | some (.link absolute target) =>
            match seen.lookup (path, name) with
            | some (some known) => walk steps known rest seen
            -- the link is being resolved already: it leads back to itself
            | some none => walk steps (path ++ [name]) rest seen
            | none => walk steps (if absolute then [] else path)
                (target.map Part.name ++ .resolved path name :: rest)
                (((path, name), none) :: seen)
        | _ => walk steps (path ++ [name]) rest seen

/-- The parts that one link can add. -/
def Node.parts : Node → Nat
  | .link _ target => target.length + 1
  | _ => 0

/-- `os.path.realpath`, of an absolute path; every link is expanded once. -/
def realpath (names : List String) : Path :=
  walk tree (names.length + (tree.nodes.map (·.2.parts)).sum) []
    (names.map Part.name) []

/-- `os.path.commonpath`, of two absolute paths. -/
def commonpath : Path → Path → Path
  | first :: left, second :: right =>
      if first = second then first :: commonpath left right else []
  | _, _ => []

theorem commonpath_eq_left {root path : Path} :
    commonpath root path = root ↔ root <+: path := by
  induction root generalizing path with
  | nil =>
      constructor
      · exact fun _ => List.nil_prefix
      · exact fun _ => by cases path <;> rfl
  | cons name root induction =>
      cases path with
      | nil =>
          constructor
          · nofun
          · intro inside
            exact absurd (List.prefix_nil.mp inside) (List.cons_ne_nil _ _)
      | cons other path =>
          rw [commonpath, List.cons_prefix_cons]
          by_cases same : name = other
          · rw [if_pos same, List.cons_inj_right, induction]
            exact (and_iff_right same).symm
          · rw [if_neg same]
            constructor
            · nofun
            · exact fun inside => absurd inside.1 same

/-! ## Following a path -/

variable {tree}

/-- A path is followed name by name. -/
theorem follow_append {steps : Nat} {start found : Path}
    {names more : List String}
    (leads : follow tree steps start (names ++ more) = some found) :
    ∃ between left, follow tree steps start names = some between ∧
      left + names.length ≤ steps ∧
        follow tree left between more = some found := by
  induction steps generalizing start names with
  | zero =>
      cases names with
      | nil => exact ⟨start, 0, rfl, Nat.le_refl _, leads⟩
      | cons name names => cases leads
  | succ steps induction =>
      cases names with
      | nil => exact ⟨start, steps + 1, rfl, Nat.le_refl _, leads⟩
      | cons name names =>
          rw [List.cons_append, follow, ← List.append_assoc] at leads
          obtain ⟨between, left, first, bound, rest⟩ := induction leads
          refine ⟨between, left, first, ?_, rest⟩
          rw [List.length_append] at bound
          rw [List.length_cons]
          omega

variable (tree)

/-- A link that leads back to itself. -/
def Dead (parent : Path) (name : String) : Prop :=
  ∀ steps, follow tree steps parent [name] = none

/-- Every name is looked up, and is no link but a dead one. -/
structure Settled (path : Path) : Prop where
  plain : ∀ name ∈ path, plain name = true
  links : ∀ parent name absolute target, parent ++ [name] <+: path →
    tree.node (parent ++ [name]) = some (.link absolute target) →
      Dead tree parent name

variable {tree}

theorem Settled.nil : Settled tree [] where
  plain := nofun
  links parent name _ _ inside :=
    absurd (List.prefix_nil.mp inside) (List.concat_ne_nil name parent)

theorem Settled.dropLast {path : Path} (settled : Settled tree path) :
    Settled tree path.dropLast where
  plain name member := settled.plain name (List.dropLast_subset path member)
  links parent name absolute target inside :=
    settled.links parent name absolute target
      (inside.trans (List.dropLast_prefix path))

theorem Settled.snoc {path : Path} {name : String}
    (settled : Settled tree path) (looked : Files.plain name = true)
    (last : ∀ absolute target,
      tree.node (path ++ [name]) = some (.link absolute target) →
        Dead tree path name) : Settled tree (path ++ [name]) where
  plain other member := by
    rcases List.mem_append.mp member with before | here
    · exact settled.plain other before
    · rw [List.mem_singleton.mp here]
      exact looked
  links parent other absolute target inside linked := by
    rcases List.prefix_concat_iff.mp inside with same | before
    · obtain ⟨rfl, tail⟩ := List.append_inj' same rfl
      cases tail
      exact last absolute target linked
    · exact settled.links parent other absolute target before linked

theorem enter_plain {start : Path} {name : String}
    (looked : plain name = true)
    (other : ∀ absolute target,
      tree.node (start ++ [name]) ≠ some (.link absolute target)) :
    enter tree start name = (start ++ [name], []) := by
  rw [plain, Bool.and_eq_true_iff] at looked
  have unskipped : skipped name = false := by simpa using looked.1
  have up : name ≠ ".." := by simpa using looked.2
  rw [enter, unskipped, if_neg Bool.false_ne_true, if_neg up]
  split
  · rename_i absolute target linked
    exact absurd linked (other absolute target)
  · rfl

/-- A path without live links leads to itself. -/
theorem Settled.follow {path : Path} (settled : Settled tree path)
    {steps : Nat} {found : Path}
    (leads : follow tree steps [] path = some found) : found = path := by
  have general : ∀ (names : List String) (start : Path) (steps : Nat),
      path = start ++ names →
        Files.follow tree steps start names = some found →
          found = path := by
    intro names
    induction names with
    | nil =>
        intro start steps same leads
        rw [Files.follow, Option.some.injEq] at leads
        rw [same, List.append_nil, leads]
    | cons name names induction =>
        intro start steps same leads
        by_cases linked : ∃ absolute target,
            tree.node (start ++ [name]) = some (.link absolute target)
        · obtain ⟨absolute, target, linked⟩ := linked
          have walked : Files.follow tree steps start ([name] ++ names) =
              some _ := leads
          obtain ⟨between, left, first, -, -⟩ := follow_append walked
          have inside : start ++ [name] <+: path :=
            ⟨names, by rw [same, List.append_assoc]; rfl⟩
          have dead := settled.links start name absolute target inside linked
            steps
          rw [dead] at first
          cases first
        · cases steps with
          | zero => cases leads
          | succ steps =>
              have looked := settled.plain name (by rw [same]; simp)
              rw [Files.follow, enter_plain looked (by simpa using linked)]
                at leads
              apply induction (start ++ [name]) steps _ leads
              rw [same, List.append_assoc]
              rfl
  exact general path [] steps rfl leads

/-! ## Resolving a path -/

variable (tree)

/-- Where a link that is being resolved leads, the parts down to its end lead
too, in fewer steps. -/
def Chain : Path → List String → List Part → Prop
  | _, _, [] => True
  | start, names, .name name :: rest => Chain start (names ++ [name]) rest
  | start, names, .resolved parent name :: rest =>
      (∀ steps found, follow tree steps parent [name] = some found →
        ∃ fewer, fewer < steps ∧
          follow tree fewer start names = some found) ∧
        Chain parent [name] rest

structure Walking (path : Path) (rest : List Part) (seen : Seen) : Prop where
  settled : Settled tree path
  chain : Chain tree path [] rest
  known : ∀ parent name target,
    seen.lookup (parent, name) = some (some target) →
      Settled tree target ∧ ∀ steps found,
        follow tree steps parent [name] = some found → found = target
  open_ : ∀ parent name, seen.lookup (parent, name) = some none →
    .resolved parent name ∈ rest

variable {tree}

/-- Parts that lead as far may stand in for one another. -/
theorem Chain.mono {start other : Path} {names others : List String}
    {rest : List Part} (chain : Chain tree start names rest)
    (leads : ∀ more steps found,
      follow tree steps start (names ++ more) = some found →
        ∃ fewer, fewer ≤ steps ∧
          follow tree fewer other (others ++ more) = some found) :
    Chain tree other others rest := by
  induction rest generalizing start other names others with
  | nil => trivial
  | cons part rest induction =>
      cases part with
      | name name =>
          apply induction chain
          intro more steps found follows
          rw [List.append_assoc] at follows ⊢
          exact leads _ steps found follows
      | resolved parent name =>
          refine ⟨fun steps found follows => ?_, chain.2⟩
          obtain ⟨fewer, less, led⟩ := chain.1 steps found follows
          have appended := leads [] fewer found
          rw [List.append_nil, List.append_nil] at appended
          obtain ⟨last, least, follows⟩ := appended led
          exact ⟨last, by omega, follows⟩

theorem Chain.enter {path : Path} {name : String} {rest : List Part}
    (chain : Chain tree path [] (.name name :: rest)) {next : Path}
    (entered : Files.enter tree path name = (next, [])) :
    Chain tree next [] rest := by
  have named : Chain tree path [name] rest := chain
  apply named.mono
  intro more steps found follows
  cases steps with
  | zero => cases follows
  | succ steps =>
      rw [List.singleton_append, follow, entered] at follows
      exact ⟨steps, by omega, follows⟩

/-- A link that is being resolved leads to the parts that are left, if
anywhere. -/
theorem Chain.descends {start parent : Path} {name : String}
    {names : List String} {rest : List Part}
    (chain : Chain tree start names rest)
    (member : .resolved parent name ∈ rest) {steps : Nat} {found : Path}
    (leads : follow tree steps parent [name] = some found) :
    ∃ fewer between, fewer < steps ∧
      follow tree fewer start names = some between := by
  induction rest generalizing start names steps found with
  | nil => cases member
  | cons part rest induction =>
      cases part with
      | name other =>
          have inside := (List.mem_cons.mp member).resolve_left nofun
          obtain ⟨fewer, between, less, follows⟩ :=
            induction chain inside leads
          obtain ⟨first, left, led, bound, -⟩ := follow_append follows
          exact ⟨fewer, first, less, led⟩
      | resolved other last =>
          rcases List.mem_cons.mp member with same | inside
          · cases same
            obtain ⟨fewer, less, follows⟩ := chain.1 steps found leads
            exact ⟨fewer, found, less, follows⟩
          · obtain ⟨fewer, between, less, follows⟩ :=
              induction chain.2 inside leads
            obtain ⟨least, smaller, led⟩ := chain.1 fewer between follows
            exact ⟨least, between, by omega, led⟩

/-- A link that is met while it is being resolved is dead. -/
theorem Chain.dead {path : Path} {name : String} {rest : List Part}
    (chain : Chain tree path [name] rest)
    (member : .resolved path name ∈ rest) : Dead tree path name := by
  intro steps
  induction steps using Nat.strongRecOn with
  | ind steps induction =>
      cases led : follow tree steps path [name] with
      | none => rfl
      | some found =>
          obtain ⟨fewer, between, less, follows⟩ :=
            chain.descends member led
          rw [induction fewer less] at follows
          cases follows

/-- A link that is known to lead to one path only stands for that path. -/
theorem Chain.known {parent target : Path} {name : String} {rest : List Part}
    (chain : Chain tree parent [name] rest)
    (leads : ∀ steps found, follow tree steps parent [name] = some found →
      found = target) : Chain tree target [] rest := by
  apply chain.mono
  intro more steps found follows
  obtain ⟨between, left, led, bound, after⟩ := follow_append follows
  rw [leads steps between led] at after
  exact ⟨left, by omega, after⟩

theorem chain_names {start : Path} {names target : List String}
    {rest : List Part} :
    Chain tree start names (target.map Part.name ++ rest) ↔
      Chain tree start (names ++ target) rest := by
  induction target generalizing names with
  | nil => simp
  | cons name target induction =>
      rw [List.append_cons]
      exact induction

theorem plain_of {name : String} (unskipped : ¬skipped name = true)
    (up : name ≠ "..") : plain name = true := by
  simp [plain, unskipped, up]

theorem lookup_cons_ne {Key Value : Type} [BEq Key] [LawfulBEq Key]
    {key other : Key} {value : Value} {entries : List (Key × Value)}
    (different : key ≠ other) :
    ((other, value) :: entries).lookup key = entries.lookup key := by
  rw [List.lookup_cons, beq_false_of_ne different]

/-- The walk goes on where one name leads. -/
theorem Walking.enter {path : Path} {name : String} {rest : List Part}
    {seen : Seen} (walking : Walking tree path (.name name :: rest) seen)
    {next : Path} (chain : Chain tree next [] rest)
    (settled : Settled tree next) : Walking tree next rest seen where
  settled := settled
  chain := chain
  known := walking.known
  open_ parent other met :=
    (List.mem_cons.mp (walking.open_ parent other met)).resolve_left nofun

theorem Walking.resolved {path parent : Path} {name : String}
    {rest : List Part} {seen : Seen}
    (walking : Walking tree path (.resolved parent name :: rest) seen) :
    Walking tree path rest (((parent, name), some path) :: seen) := by
  have leads : ∀ steps found,
      follow tree steps parent [name] = some found → found = path := by
    intro steps found follows
    obtain ⟨fewer, -, led⟩ := walking.chain.1 steps found follows
    rw [follow, Option.some.injEq] at led
    exact led.symm
  refine ⟨walking.settled, walking.chain.2.known leads, ?_, ?_⟩
  · intro other last target found
    by_cases same : (other, last) = (parent, name)
    · cases same
      rw [List.lookup_cons_self, Option.some.injEq, Option.some.injEq]
        at found
      rw [← found]
      exact ⟨walking.settled, leads⟩
    · rw [lookup_cons_ne same] at found
      exact walking.known other last target found
  · intro other last found
    by_cases same : (other, last) = (parent, name)
    · cases same
      rw [List.lookup_cons_self] at found
      cases found
    · rw [lookup_cons_ne same] at found
      rcases List.mem_cons.mp (walking.open_ other last found) with head | tail
      · cases head
        exact absurd rfl same
      · exact tail

theorem Walking.expand {path : Path} {name : String} {rest : List Part}
    {seen : Seen} {absolute : Bool} {target : List String}
    (walking : Walking tree path (.name name :: rest) seen)
    (looked : plain name = true)
    (linked : tree.node (path ++ [name]) = some (.link absolute target)) :
    Walking tree (if absolute then [] else path)
      (target.map Part.name ++ .resolved path name :: rest)
      (((path, name), none) :: seen) := by
  have entered : Files.enter tree path name =
      (if absolute then [] else path, target) := by
    rw [plain, Bool.and_eq_true_iff] at looked
    rw [Files.enter, if_neg (by simpa using looked.1),
      if_neg (by simpa using looked.2), linked]
  refine ⟨?_, chain_names.mpr ⟨?_, walking.chain⟩, ?_, ?_⟩
  · split
    · exact .nil
    · exact walking.settled
  · intro steps found follows
    cases steps with
    | zero => cases follows
    | succ steps =>
        rw [follow, entered, List.append_nil] at follows
        exact ⟨steps, Nat.lt_succ_self steps, follows⟩
  · intro other last known found
    by_cases same : (other, last) = (path, name)
    · cases same
      rw [List.lookup_cons_self] at found
      cases found
    · rw [lookup_cons_ne same] at found
      exact walking.known other last known found
  · intro other last found
    apply List.mem_append_right
    by_cases same : (other, last) = (path, name)
    · cases same
      exact List.mem_cons_self
    · rw [lookup_cons_ne same] at found
      rcases List.mem_cons.mp (walking.open_ other last found) with head | tail
      · cases head
      · exact List.mem_cons_of_mem _ tail

theorem Walking.result {steps : Nat} {path : Path} {rest : List Part}
    {seen : Seen} (walking : Walking tree path rest seen) :
    Settled tree (walk tree steps path rest seen) := by
  induction steps generalizing path rest seen with
  | zero => exact walking.settled
  | succ steps induction =>
      cases rest with
      | nil => exact walking.settled
      | cons part rest =>
          cases part with
          | resolved parent name => exact induction walking.resolved
          | name name =>
              rw [walk]
              split
              · rename_i skip
                apply induction
                have entered : Files.enter tree path name = (path, []) := by
                  rw [Files.enter, if_pos skip]
                exact walking.enter (walking.chain.enter entered)
                  walking.settled
              · rename_i unskipped
                split
                · rename_i up
                  apply induction
                  have entered : Files.enter tree path name =
                      (path.dropLast, []) := by
                    rw [Files.enter, if_neg unskipped, if_pos up]
                  exact walking.enter (walking.chain.enter entered)
                    walking.settled.dropLast
                · rename_i up
                  have looked := plain_of unskipped up
                  have chain : Chain tree path [name] rest := walking.chain
                  split
                  · rename_i absolute target linked
                    split
                    · rename_i known found
                      obtain ⟨settled, leads⟩ :=
                        walking.known path name known found
                      exact induction (walking.enter (chain.known leads)
                        settled)
                    · rename_i found
                      have inside :=
                        (List.mem_cons.mp (walking.open_ path name found)
                          ).resolve_left nofun
                      have dead := chain.dead inside
                      have never : ∀ steps found,
                          follow tree steps path [name] = some found →
                            found = path ++ [name] := by
                        intro steps found follows
                        rw [dead steps] at follows
                        cases follows
                      exact induction (walking.enter (chain.known never)
                        (walking.settled.snoc looked fun _ _ _ => dead))
                    · exact induction (walking.expand looked linked)
                  · rename_i other
                    have unlinked : ∀ absolute target,
                        tree.node (path ++ [name]) ≠
                          some (.link absolute target) := other
                    apply induction
                    apply walking.enter
                      (walking.chain.enter (enter_plain looked unlinked))
                    apply walking.settled.snoc looked
                    intro absolute target linked
                    exact absurd linked (unlinked absolute target)

theorem realpath_settled (names : List String) :
    Settled tree (realpath tree names) := by
  apply Walking.result
  refine ⟨.nil, ?_, nofun, nofun⟩
  have whole : Chain tree [] [] (names.map Part.name ++ []) :=
    chain_names.mpr trivial
  rw [List.append_nil] at whole
  exact whole

/-- A path that has been resolved leads nowhere but to itself. -/
theorem follow_realpath {names : List String} {steps : Nat} {found : Path}
    (leads : follow tree steps [] (realpath tree names) = some found) :
    found = realpath tree names :=
  (realpath_settled names).follow leads

/-- A regular file at the end of such a path is no link's target. -/
theorem isFile_realpath {names : List String}
    (regular : isFile tree (realpath tree names) = true) :
    tree.node (realpath tree names) = some .file := by
  rw [isFile] at regular
  split at regular
  · rename_i found leads
    rw [follow_realpath leads] at regular
    exact of_decide_eq_true regular
  · cases regular

end Files
