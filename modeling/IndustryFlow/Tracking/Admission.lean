import IndustryFlow.Tracking.Uploads
import Mathlib.Logic.Relation

/-!
# Structural admission

The rule that judges a staged artifact by its manifest and the opening bytes of
its members.  The manifest is parsed with aliases resolved, so its value is a
graph; the walk over it is a recursion that ends with an exception where the
graph is deeper than the interpreter's stack, and it meets the values of
mappings, not the elements of sequences.
-/

namespace IndustryFlow.Tracking.Admission

open Tenancy (Text)

/-! ## Manifests -/

/-- A key of a mapping, or a value that is neither a mapping nor a
sequence. -/
inductive Scalar where
  | null
  | text (value : Text)
  /-- A value of another type, by what `str` makes of it. -/
  | other (shown : Text)
deriving DecidableEq

abbrev Ref := Nat

inductive Node where
  | scalar (value : Scalar)
  | sequence (items : List Ref)
  | mapping (entries : List (Scalar × Ref))
deriving DecidableEq

/-- A parsed text; an alias is another reference to its anchor. -/
structure Document where
  node : Ref → Node
  root : Ref

inductive LoadError where
  /-- `yaml.YAMLError`. -/
  | yaml
  /-- Another exception, such as the `ValueError` of a date there is not. -/
  | other
deriving DecidableEq

/-- The parser and the interpreter. -/
structure Python where
  safeLoad : Text → Except LoadError Document
  /-- `text.strip().lower()`. -/
  normalised : Text → Text
  /-- How many calls of the walk the stack has room for. -/
  stack : Nat

/-- `_EXECUTABLE_SERIALISATIONS`. -/
def executableSerialisations : List Text :=
  ["pickle".toList, "cloudpickle".toList, "dill".toList, "joblib".toList]

/-- `_EXECUTABLE_MARKER_KEYS`. -/
def executableMarkerKeys : List Text :=
  ["cloudpickle_version".toList, "python_model".toList]

/-- `str(key) if key is not None else None`. -/
def keyText : Scalar → Option Text
  | .null => none
  | .text value => some value
  | .other shown => some shown

/-! ## The walk -/

/-- What a walk yields, and whether it then raises `RecursionError`. -/
structure Walk where
  pairs : List (Option Text × Node)
  raised : Bool

namespace Walk

def nothing : Walk := ⟨[], false⟩

/-- One walk and then another, unless the first has raised. -/
def andThen (first second : Walk) : Walk :=
  if first.raised then first
  else ⟨first.pairs ++ second.pairs, second.raised⟩

def all (walks : List Walk) : Walk :=
  walks.foldr andThen nothing

end Walk

/-- `_walk`. -/
def walk (document : Document) : Nat → Ref → Walk
  | 0, _ => ⟨[], true⟩
  | stack + 1, ref =>
      match document.node ref with
      | .mapping entries => .all (entries.map fun entry =>
          .andThen ⟨[(keyText entry.1, document.node entry.2)], false⟩
            (walk document stack entry.2))
      | .sequence items => .all (items.map (walk document stack))
      | .scalar _ => .nothing

/-! ## The rule -/

section

variable (python : Python)

/-- The text of the scalar names an executable serialisation. -/
def NamesExecutable : Node → Prop
  | .scalar (.text value) =>
      python.normalised value ∈ executableSerialisations
  | _ => False

instance : DecidablePred (NamesExecutable python)
  | .scalar (.text _) => inferInstanceAs (Decidable (_ ∈ _))
  | .scalar .null | .scalar (.other _) => .isFalse id
  | .sequence _ | .mapping _ => .isFalse id

/-- `str` of a key. -/
def shownKey (key : Option Text) : String :=
  String.ofList (key.getD "None".toList)

def shownValue : Node → String
  | .scalar (.text value) => String.ofList value
  | _ => ""

/-- The loop body of `declared_executable_serialisation`. -/
def declaration (pair : Option Text × Node) : Option String :=
  if pair.1 ∈ executableMarkerKeys.map some then
    some ("manifest declares '" ++ shownKey pair.1 ++
      "', which is an author-supplied object stream")
  else if NamesExecutable python pair.2 then
    some ("manifest declares '" ++ shownKey pair.1 ++ ": " ++
      shownValue pair.2 ++ "', an object serialisation whose load path can " ++
      "execute author-supplied code")
  else none

/-- `declared_executable_serialisation`; `none` is an exception. -/
def declaredExecutableSerialisation (document : Document) (flavors : Ref) :
    Option (Option String) :=
  let walked := walk document python.stack flavors
  match walked.pairs.findSome? (declaration python) with
  | some reason => some (some reason)
  | none => if walked.raised then none else some none

/-- `is_executable_object_stream`. -/
def isExecutableObjectStream : Bytes → Bool
  | first :: second :: _ => first = 0x80 && 2 ≤ second && second < 6
  | _ => false

/-- `manifest.get("flavors")`, if it is a mapping that is not empty. -/
def flavorsOf (document : Document) : Option Ref :=
  match document.node document.root with
  | .mapping entries =>
      (entries.lookup (.text "flavors".toList)).filter fun ref =>
        match document.node ref with
        | .mapping (_ :: _) => true
        | _ => false
  | _ => none

def isMapping (document : Document) : Bool :=
  match document.node document.root with
  | .mapping _ => true
  | _ => false

/-- The members' opening bytes. -/
def judgeFiles (files : List (Text × Bytes)) : Judgement :=
  match files.find? fun file => isExecutableObjectStream file.2 with
  | some (path, _) => .refused ("'" ++ String.ofList path ++
      "' is an author-supplied object stream, whatever the manifest says it " ++
      "is")
  | none => .admitted

/-- The rule for a manifest that is a mapping. -/
def judgeDocument (document : Document) (files : List (Text × Bytes)) :
    Judgement :=
  match flavorsOf document with
  | none => .refused
      "MLmodel declares no flavors, so what it is cannot be established"
  | some flavors =>
      match declaredExecutableSerialisation python document flavors with
      | none => .raised
      | some (some reason) => .refused reason
      | some none => judgeFiles files

/-- `evaluate`. -/
def evaluate (manifestText : Option Text) (files : List (Text × Bytes)) :
    Judgement :=
  match manifestText with
  | none | some [] => .refused ("artifact has no MLmodel manifest, so what " ++
      "it is cannot be established")
  | some text =>
      match python.safeLoad text with
      | .error .yaml => .refused "MLmodel is not a readable mapping"
      | .error .other => .raised
      | .ok document =>
          if isMapping document then judgeDocument python document files
          else .refused "MLmodel is not a readable mapping"

end

/-! ## What is under a node -/

section

variable {document : Document}

def Child (document : Document) (parent child : Ref) : Prop :=
  match document.node parent with
  | .mapping entries => ∃ entry ∈ entries, entry.2 = child
  | .sequence items => child ∈ items
  | .scalar _ => False

def Under (document : Document) : Ref → Ref → Prop :=
  Relation.ReflTransGen (Child document)

/-- A path of so many references starts here. -/
def Deep (document : Document) : Nat → Ref → Prop
  | 0, _ => True
  | length + 1, ref => ∃ child, Child document ref child ∧
      Deep document length child

/-- A key and its value, somewhere under the node. -/
def PairAt (document : Document) (ref : Ref)
    (pair : Option Text × Node) : Prop :=
  ∃ parent, Under document ref parent ∧ ∃ entries,
    document.node parent = .mapping entries ∧ ∃ entry ∈ entries,
      pair = (keyText entry.1, document.node entry.2)

/-- An element of a sequence, somewhere under the node. -/
def ElementAt (document : Document) (ref : Ref) (element : Node) : Prop :=
  ∃ parent, Under document ref parent ∧ ∃ items,
    document.node parent = .sequence items ∧ ∃ item ∈ items,
      document.node item = element

theorem pairAt_iff {ref : Ref} {pair : Option Text × Node} :
    PairAt document ref pair ↔
      (∃ entries, document.node ref = .mapping entries ∧ ∃ entry ∈ entries,
        pair = (keyText entry.1, document.node entry.2)) ∨
      ∃ child, Child document ref child ∧ PairAt document child pair := by
  constructor
  · rintro ⟨parent, under, own⟩
    rcases Relation.ReflTransGen.cases_head under with rfl | ⟨child, step, rest⟩
    · exact .inl own
    · exact .inr ⟨child, step, parent, rest, own⟩
  · rintro (own | ⟨child, step, parent, rest, own⟩)
    · exact ⟨ref, .refl, own⟩
    · exact ⟨parent, .head step rest, own⟩

namespace Walk

@[simp] theorem andThen_pair (pair : Option Text × Node) (rest : Walk) :
    andThen ⟨[pair], false⟩ rest = ⟨pair :: rest.pairs, rest.raised⟩ := rfl

theorem all_cons (walked : Walk) (walks : List Walk) :
    all (walked :: walks) = walked.andThen (all walks) := rfl

theorem all_raised (walks : List Walk) :
    (all walks).raised = walks.any Walk.raised := by
  induction walks with
  | nil => rfl
  | cons walked walks induction =>
      rw [all_cons, andThen, List.any_cons]
      cases stopped : walked.raised with
      | true => simp [stopped]
      | false => simp [induction]

theorem all_pairs {walks : List Walk} (ends : (all walks).raised = false) :
    (all walks).pairs = walks.flatMap Walk.pairs := by
  induction walks with
  | nil => rfl
  | cons walked walks induction =>
      rw [all_raised, List.any_cons, Bool.or_eq_false_iff] at ends
      rw [all_cons, andThen, if_neg (by simp [ends.1]), List.flatMap_cons]
      simp only
      rw [induction (by rw [all_raised]; exact ends.2)]

end Walk

theorem walk_raised_iff {stack : Nat} {ref : Ref} :
    (walk document stack ref).raised = true ↔ Deep document stack ref := by
  induction stack generalizing ref with
  | zero => simp [walk, Deep]
  | succ stack induction =>
      rw [walk, Deep]
      cases own : document.node ref with
      | scalar value => simp [Walk.nothing, Child, own]
      | sequence items =>
          simp only [Walk.all_raised, List.any_map, List.any_eq_true,
            Function.comp_apply, induction, Child, own]
      | mapping entries =>
          simp only [Walk.andThen_pair, Walk.all_raised, List.any_map,
            List.any_eq_true, Function.comp_apply, induction, Child, own]
          constructor
          · rintro ⟨entry, member, deep⟩
            exact ⟨entry.2, ⟨entry, member, rfl⟩, deep⟩
          · rintro ⟨child, ⟨entry, member, rfl⟩, deep⟩
            exact ⟨entry, member, deep⟩

/-- A walk that ends meets every pair there is. -/
theorem mem_walk_iff {stack : Nat} {ref : Ref} {pair : Option Text × Node}
    (ends : (walk document stack ref).raised = false) :
    pair ∈ (walk document stack ref).pairs ↔ PairAt document ref pair := by
  induction stack generalizing ref with
  | zero => cases ends
  | succ stack induction =>
      rw [walk] at ends ⊢
      rw [pairAt_iff]
      cases own : document.node ref with
      | scalar value => simp [Walk.nothing, Child, own]
      | sequence items =>
          simp only [own] at ends ⊢
          have each := ends
          rw [Walk.all_raised, List.any_eq_false] at each
          rw [Walk.all_pairs ends]
          simp only [List.mem_flatMap, List.mem_map, Child, own]
          constructor
          · rintro ⟨_, ⟨item, member, rfl⟩, inside⟩
            have ended := each _ (List.mem_map_of_mem member)
            refine .inr ⟨item, member, ?_⟩
            exact (induction (Bool.not_eq_true _ ▸ ended)).mp inside
          · rintro (⟨_, never, -⟩ | ⟨item, member, inside⟩)
            · cases never
            · have ended := each _ (List.mem_map_of_mem member)
              refine ⟨_, ⟨item, member, rfl⟩, ?_⟩
              exact (induction (Bool.not_eq_true _ ▸ ended)).mpr inside
      | mapping entries =>
          simp only [own, Walk.andThen_pair] at ends ⊢
          have each := ends
          rw [Walk.all_raised, List.any_eq_false] at each
          rw [Walk.all_pairs ends]
          have ended {entry : Scalar × Ref} (member : entry ∈ entries) :
              (walk document stack entry.2).raised = false := by
            have quiet := each _ (List.mem_map_of_mem member)
            exact Bool.eq_false_iff.mpr quiet
          simp only [List.mem_flatMap, List.mem_map, Child, own]
          constructor
          · rintro ⟨_, ⟨entry, member, rfl⟩, inside⟩
            rcases List.mem_cons.mp inside with rfl | later
            · exact .inl ⟨entries, rfl, entry, member, rfl⟩
            · exact .inr ⟨entry.2, ⟨entry, member, rfl⟩,
                (induction (ended member)).mp later⟩
          · rintro (⟨same, known, entry, member, rfl⟩ |
              ⟨child, ⟨entry, member, rfl⟩, inside⟩)
            · cases known
              exact ⟨_, ⟨entry, member, rfl⟩, List.mem_cons_self⟩
            · exact ⟨_, ⟨entry, member, rfl⟩, List.mem_cons_of_mem _
                ((induction (ended member)).mpr inside)⟩

end

end IndustryFlow.Tracking.Admission
