import IndustryFlow.Tracking.Admission
import Mathlib.Data.Char
import Mathlib.Data.List.Lex

/-!
# What is admitted

An artifact is admitted exactly when what the rule looks at passes
(`admitted_iff`).  The rule does not look at the elements of sequences, and it
reaches a verdict only where the parser raises nothing but its own errors and
the walk meets a declaration before it runs out of stack.
-/

namespace IndustryFlow.Tracking.Admission

open Concurrent
open Tenancy (Text Company artifactPrefix tenantToken)

/-! ## What is admitted -/

section

variable {python : Python} {manifest : Option Text}
variable {files : List (Text × Bytes)}

/-- The manifest is read, and its flavors are under this node. -/
def Reads (python : Python) (manifest : Option Text) (document : Document)
    (flavors : Ref) : Prop :=
  ∃ text, manifest = some text ∧ text ≠ [] ∧
    python.safeLoad text = .ok document ∧ flavorsOf document = some flavors

/-- The opening bytes frame a pickle stream of protocol 2 to 5. -/
def FramesPickle (head : Bytes) : Prop :=
  ∃ protocol rest, head = 0x80 :: protocol :: rest ∧ 2 ≤ protocol ∧
    protocol ≤ 5

/-- Nothing declares an executable serialisation, and no member is one. -/
structure Clean (python : Python) (document : Document) (flavors : Ref)
    (files : List (Text × Bytes)) : Prop where
  keys : ∀ pair, PairAt document flavors pair →
    ∀ key ∈ pair.1, key ∉ executableMarkerKeys
  values : ∀ pair, PairAt document flavors pair →
    ¬NamesExecutable python pair.2
  elements : ∀ element, ElementAt document flavors element →
    ¬NamesExecutable python element
  heads : ∀ file ∈ files, ¬FramesPickle file.2

/-- What the rule looks at passes: the stack is deep enough for the walk, no
key and no value of a mapping declares an executable serialisation, and no
member is one. -/
def Passes (python : Python) (document : Document) (flavors : Ref)
    (files : List (Text × Bytes)) : Prop :=
  ¬Deep document python.stack flavors ∧
    (∀ pair, PairAt document flavors pair →
      (∀ key ∈ pair.1, key ∉ executableMarkerKeys) ∧
        ¬NamesExecutable python pair.2) ∧
    ∀ file ∈ files, ¬FramesPickle file.2

theorem isExecutableObjectStream_iff {head : Bytes} :
    isExecutableObjectStream head = true ↔ FramesPickle head := by
  unfold isExecutableObjectStream FramesPickle
  split
  · rename_i first second rest
    have bound : (second < 6) ↔ (second ≤ 5) := by
      simp only [UInt8.lt_iff_toNat_lt, UInt8.le_iff_toNat_le]
      exact Nat.lt_succ_iff
    simp [bound, and_assoc]
  · rename_i short
    simp only [Bool.false_eq_true, false_iff]
    rintro ⟨protocol, rest, rfl, -⟩
    exact short _ _ _ rfl

theorem declaration_none_iff {pair : Option Text × Node} :
    declaration python pair = none ↔
      (∀ key ∈ pair.1, key ∉ executableMarkerKeys) ∧
        ¬NamesExecutable python pair.2 := by
  have marked : pair.1 ∈ executableMarkerKeys.map some ↔
      ∃ key ∈ pair.1, key ∈ executableMarkerKeys := by
    simp only [List.mem_map, Option.mem_def]
    constructor
    · rintro ⟨key, member, same⟩
      exact ⟨key, same.symm, member⟩
    · rintro ⟨key, same, member⟩
      exact ⟨key, member, same.symm⟩
  unfold declaration
  by_cases marker : pair.1 ∈ executableMarkerKeys.map some
  · rw [if_pos marker]
    obtain ⟨key, same, member⟩ := marked.mp marker
    refine ⟨nofun, fun clean => absurd member (clean.1 key same)⟩
  · rw [if_neg marker]
    have free : ∀ key ∈ pair.1, key ∉ executableMarkerKeys :=
      fun key same member => marker (marked.mpr ⟨key, same, member⟩)
    by_cases names : NamesExecutable python pair.2
    · rw [if_pos names]
      exact ⟨nofun, fun clean => absurd names clean.2⟩
    · rw [if_neg names]
      exact ⟨fun _ => ⟨free, names⟩, fun _ => rfl⟩

theorem judgeFiles_iff :
    judgeFiles files = .admitted ↔ ∀ file ∈ files, ¬FramesPickle file.2 := by
  have none : files.find? (fun file => isExecutableObjectStream file.2) =
      none ↔ ∀ file ∈ files, ¬FramesPickle file.2 := by
    rw [List.find?_eq_none]
    simp only [isExecutableObjectStream_iff]
  rw [← none]
  unfold judgeFiles
  cases files.find? fun file => isExecutableObjectStream file.2 with
  | none => simp
  | some file => simp

theorem undeclared_iff {document : Document} {flavors : Ref} :
    declaredExecutableSerialisation python document flavors = some none ↔
      ¬Deep document python.stack flavors ∧
        ∀ pair, PairAt document flavors pair →
          (∀ key ∈ pair.1, key ∉ executableMarkerKeys) ∧
            ¬NamesExecutable python pair.2 := by
  rw [← walk_raised_iff, Bool.not_eq_true]
  unfold declaredExecutableSerialisation
  simp only
  split
  · rename_i reason found
    refine ⟨nofun, fun ⟨ends, clean⟩ => ?_⟩
    obtain ⟨pair, member, declares⟩ :=
      List.exists_of_findSome?_eq_some found
    have none := declaration_none_iff.mpr
      (clean pair ((mem_walk_iff ends).mp member))
    rw [declares] at none
    cases none
  · rename_i silent
    have all := List.findSome?_eq_none_iff.mp silent
    cases ends : (walk document python.stack flavors).raised with
    | true => simp
    | false =>
        simp only [Bool.false_eq_true, if_false, true_and, true_iff]
        intro pair inside
        exact declaration_none_iff.mp
          (all pair ((mem_walk_iff ends).mpr inside))

theorem flavorsOf_mapping {document : Document} {flavors : Ref}
    (found : flavorsOf document = some flavors) :
    isMapping document = true := by
  unfold flavorsOf at found
  unfold isMapping
  split at found
  · rfl
  · cases found

theorem Reads.unique {document other : Document} {flavors otherFlavors : Ref}
    (first : Reads python manifest document flavors)
    (second : Reads python manifest other otherFlavors) :
    document = other ∧ flavors = otherFlavors := by
  obtain ⟨text, rfl, -, loaded, found⟩ := first
  obtain ⟨_, same, -, loaded', found'⟩ := second
  cases same
  cases loaded.symm.trans loaded'
  cases found.symm.trans found'
  exact ⟨rfl, rfl⟩

theorem evaluate_some {text : Text} (given : text ≠ []) :
    evaluate python (some text) files =
      match python.safeLoad text with
      | .error .yaml => .refused "MLmodel is not a readable mapping"
      | .error .other => .raised
      | .ok document =>
          if isMapping document then judgeDocument python document files
          else .refused "MLmodel is not a readable mapping" := by
  cases text with
  | nil => exact absurd rfl given
  | cons char text => rfl

/-- An artifact is admitted if and only if its manifest is read and what the
rule looks at passes. -/
theorem admitted_iff :
    evaluate python manifest files = .admitted ↔
      ∃ document flavors, Reads python manifest document flavors ∧
        Passes python document flavors files := by
  have judged {document : Document} :
      judgeDocument python document files = .admitted ↔
        ∃ flavors, flavorsOf document = some flavors ∧
          Passes python document flavors files := by
    unfold judgeDocument Passes
    cases found : flavorsOf document with
    | none => simp
    | some flavors =>
        simp only [Option.some.injEq, exists_eq_left']
        rw [← and_assoc, ← undeclared_iff, ← judgeFiles_iff]
        cases declaredExecutableSerialisation python document flavors with
        | none => simp
        | some answer =>
            cases answer with
            | none => simp
            | some reason => simp
  constructor
  · intro admitted
    unfold evaluate at admitted
    split at admitted
    · cases admitted
    · cases admitted
    · rename_i text nonempty
      split at admitted
      · cases admitted
      · cases admitted
      · rename_i document loaded
        split at admitted
        · obtain ⟨flavors, found, passes⟩ := judged.mp admitted
          exact ⟨document, flavors, ⟨text, rfl, fun empty =>
            nonempty (by rw [empty]), loaded, found⟩, passes⟩
        · cases admitted
  · rintro ⟨document, flavors, ⟨text, rfl, nonempty, loaded, found⟩, passes⟩
    rw [evaluate_some nonempty, loaded]
    simp only [flavorsOf_mapping found, if_true]
    exact judged.mpr ⟨flavors, found, passes⟩

/-- Only clean artifacts are admitted exactly if no element of a sequence names
an executable serialisation in an artifact that otherwise passes. -/
theorem admits_clean_iff (python : Python) (manifest : Option Text)
    (files : List (Text × Bytes)) :
    (evaluate python manifest files = .admitted →
      ∃ document flavors, Reads python manifest document flavors ∧
        Clean python document flavors files) ↔
    ∀ document flavors, Reads python manifest document flavors →
      Passes python document flavors files →
      ∀ element, ElementAt document flavors element →
        ¬NamesExecutable python element := by
  constructor
  · intro only document flavors reads passes element inside
    obtain ⟨other, otherFlavors, otherReads, clean⟩ :=
      only (admitted_iff.mpr ⟨document, flavors, reads, passes⟩)
    obtain ⟨rfl, rfl⟩ := reads.unique otherReads
    exact clean.elements element inside
  · intro elements admitted
    obtain ⟨document, flavors, reads, passes⟩ := admitted_iff.mp admitted
    have quiet := elements document flavors reads passes
    obtain ⟨-, pairs, heads⟩ := passes
    exact ⟨document, flavors, reads,
      fun pair inside => (pairs pair inside).1,
      fun pair inside => (pairs pair inside).2, quiet, heads⟩

/-! ## Verdicts -/

end

/-! ## Two manifests -/

/-- A parser that takes one text. -/
def parsing (text : String) (node : Ref → Node) : Python where
  safeLoad given := if given = text.toList then .ok ⟨node, 0⟩ else .error .yaml
  normalised := id
  stack := 900

def listedText : String := "flavors: \x7bcustom: \x7bformats: [pickle]\x7d\x7d"

def listedNode : Ref → Node
  | 0 => .mapping [(.text "flavors".toList, 1)]
  | 1 => .mapping [(.text "custom".toList, 2)]
  | 2 => .mapping [(.text "formats".toList, 3)]
  | 3 => .sequence [4]
  | _ => .scalar (.text "pickle".toList)

theorem listed_reads : Reads (parsing listedText listedNode)
    (some listedText.toList) ⟨listedNode, 0⟩ 1 :=
  ⟨_, rfl, by decide, rfl, by decide +kernel⟩

/-- A manifest that lists an executable serialisation is admitted. -/
theorem listed_serialisation_admitted :
    ¬∀ (python : Python) (manifest : Option Text)
      (files : List (Text × Bytes)),
      evaluate python manifest files = .admitted →
      ∃ document flavors, Reads python manifest document flavors ∧
        Clean python document flavors files := by
  intro only
  obtain ⟨document, flavors, reads, clean⟩ := only
    (parsing listedText listedNode) (some listedText.toList) []
    (by decide +kernel)
  obtain ⟨rfl, rfl⟩ := listed_reads.unique reads
  have under : Under ⟨listedNode, 0⟩ 1 3 :=
    .head (show Child ⟨listedNode, 0⟩ 1 2 from
      ⟨_, List.mem_singleton_self _, rfl⟩)
      (.single (show Child ⟨listedNode, 0⟩ 2 3 from
        ⟨_, List.mem_singleton_self _, rfl⟩))
  exact clean.elements (.scalar (.text "pickle".toList))
    ⟨3, under, [4], rfl, 4, List.mem_singleton_self _, rfl⟩
    (by decide +kernel)

end IndustryFlow.Tracking.Admission
