import IndustryFlow.Words
import IndustryFlow.UrlPath
import Mathlib.Data.List.DropRight

/-!
# The way back after a sign-in

The edge sends a visitor without a session to the sign-in page with the path
that was asked for, and `returnPath` honours it if it is one of the dashboards'.
What it tests is the text; where the text leads to is read by the browser,
which takes dot segments out of the path.
-/

namespace IndustryFlow.SignIn

open UrlPath (Kind resolve level staysBelow)

/-- A text of JavaScript, in its code units. -/
abbrev Units := List Nat

def units (text : String) : Units :=
  text.toList.map Char.toNat

/-! ## `returnPath` -/

/-- `\s`. -/
def isSpace (unit : Nat) : Bool :=
  unit ∈ [9, 10, 11, 12, 13, 32, 160, 5760, 8232, 8233, 8239, 8287, 12288,
    65279] || (8192 ≤ unit && unit ≤ 8202)

def slash : Nat := '/'.toNat

def backslash : Nat := '\\'.toNat

def grafana : Units := units "grafana"

/-- The literal beginning of `DASHBOARDS`. -/
def dashboardsRoot : Units := slash :: (grafana ++ [slash])

/-- `DASHBOARDS.test(next)`. -/
def isDashboards (next : Units) : Bool :=
  dashboardsRoot.isPrefixOf next &&
    (next.drop dashboardsRoot.length).all fun unit =>
      unit ≠ backslash && !isSpace unit

def nextText : Units := units "?next="

/-- `returnPath`. -/
def returnPath (search : Option Units) : Option Units :=
  let search := search.getD []
  if nextText.isPrefixOf search then
    let next := search.drop nextText.length
    if isDashboards next then some next else none
  else none

/-! ## The browser -/

/-- `C0 control or space`. -/
def isC0OrSpace (unit : Nat) : Bool :=
  unit ≤ 32

def isTabOrNewline (unit : Nat) : Bool :=
  unit ∈ [9, 10, 13]

/-- The input without what a URL parser takes away first. -/
def cleaned (input : Units) : Units :=
  ((input.dropWhile isC0OrSpace).rdropWhile isC0OrSpace).filter
    fun unit => !isTabOrNewline unit

def isSlash (unit : Nat) : Bool :=
  unit = slash || unit = backslash

/-- The path of a relative reference, up to its query or fragment. -/
def pathPart (reference : Units) : Units :=
  reference.takeWhile fun unit => unit ≠ '?'.toNat && unit ≠ '#'.toNat

/-- The segments of a path after its first slash. -/
def segmentsOf (path : Units) : List Units :=
  (path.map fun unit => if unit = backslash then slash else unit).splitOn slash

def lower (unit : Nat) : Nat :=
  if 65 ≤ unit ∧ unit ≤ 90 then unit + 32 else unit

attribute [local instance] Words.lawful_list in
/-- Single-dot and double-dot path segments. -/
def kind (segment : Units) : Kind :=
  if segment.map lower ∈ [units ".", units "%2e"] then .single
  else if segment.map lower ∈
      [units "..", units ".%2e", units "%2e.", units "%2e%2e"] then .double
  else .plain

/-- A URL, before its characters are percent-encoded. -/
structure Url (Origin : Type) where
  origin : Origin
  path : List Units

def Url.pathText {Origin : Type} (url : Url Origin) : Units :=
  url.path.flatMap (slash :: ·)

/-- The basic URL parser, on a page of the origin; `other` is what it makes of
inputs that are not a path. -/
def parse {Origin : Type} (other : Units → Option (Url Origin))
    (origin : Origin) (input : Units) : Option (Url Origin) :=
  match cleaned input with
  | [] => other []
  | first :: rest =>
      if isSlash first && !rest.head?.any isSlash then
        some ⟨origin, resolve kind [] [] (segmentsOf (pathPart rest))⟩
      else other (first :: rest)

/-! ## The law -/

/-- The segments of the path as the browser reads it. -/
def segments (path : Units) : List Units :=
  segmentsOf (pathPart ((cleaned path).drop 1))

section

variable {Origin : Type} (other : Units → Option (Url Origin))
variable (origin : Origin)

/-- The path leads to a page of the dashboards. -/
def LeadsToDashboards (path : Units) : Prop :=
  ∃ url, parse other origin path = some url ∧ url.origin = origin ∧
    dashboardsRoot <+: url.pathText

/-- What is returned stays on the dashboards, and a plain path of theirs is
returned as it is. -/
def StaysOnDashboards (search : Option Units) : Prop :=
  (∀ path, returnPath search = some path →
    LeadsToDashboards other origin path) ∧
  ∀ path, search = some (nextText ++ path) → dashboardsRoot <+: path →
    (∀ segment ∈ segments path, kind segment = .plain) →
    (∀ unit ∈ path, unit ≠ backslash ∧ isSpace unit = false) →
    returnPath search = some path

end

/-- The double dots of a path that is taken lead out of the dashboards only to
come back: the segments before some `grafana` cancel out, and the segments
after it stay below it. -/
def ComesBack (search : Option Units) : Prop :=
  ∀ path, search = some (nextText ++ path) → isDashboards path = true →
    ∃ before after, segments path = before ++ grafana :: after ∧
      level kind 0 before = 0 ∧ after ≠ [] ∧ staysBelow kind 0 after = true

/-! ## What is taken -/

theorem returnPath_eq_some {search : Option Units} {path : Units} :
    returnPath search = some path ↔
      search = some (nextText ++ path) ∧ isDashboards path = true := by
  cases search with
  | none =>
      constructor
      · intro taken
        cases taken
      · rintro ⟨⟨⟩, -⟩
  | some text =>
      simp only [returnPath, Option.getD_some, Option.some.injEq,
        List.isPrefixOf_iff_prefix]
      constructor
      · intro taken
        split at taken
        · rename_i front
          obtain ⟨next, rfl⟩ := front
          rw [List.drop_left] at taken
          split at taken
          · rename_i own
            cases taken
            exact ⟨rfl, own⟩
          · cases taken
        · cases taken
      · rintro ⟨rfl, own⟩
        rw [if_pos (List.prefix_append _ _), List.drop_left, if_pos own]

theorem isDashboards_iff {path : Units} :
    isDashboards path = true ↔ ∃ rest, path = dashboardsRoot ++ rest ∧
      ∀ unit ∈ rest, unit ≠ backslash ∧ isSpace unit = false := by
  simp only [isDashboards, Bool.and_eq_true, List.isPrefixOf_iff_prefix,
    List.all_eq_true, decide_eq_true_eq, Bool.not_eq_true', ne_eq]
  constructor
  · rintro ⟨⟨rest, rfl⟩, clean⟩
    rw [List.drop_left] at clean
    exact ⟨rest, rfl, clean⟩
  · rintro ⟨rest, rfl, clean⟩
    rw [List.drop_left]
    exact ⟨List.prefix_append _ _, clean⟩

theorem returnPath_plain {path : Units} (front : dashboardsRoot <+: path)
    (clean : ∀ unit ∈ path, unit ≠ backslash ∧ isSpace unit = false) :
    returnPath (some (nextText ++ path)) = some path := by
  obtain ⟨rest, rfl⟩ := front
  refine returnPath_eq_some.mpr ⟨rfl, isDashboards_iff.mpr ⟨rest, rfl, ?_⟩⟩
  intro unit member
  exact clean unit (List.mem_append_right _ member)

/-! ## Where it leads -/

theorem rdropWhile_append_cons {Item : Type} {drops : Item → Bool}
    {last : Item} (stays : drops last = false) (front rest : List Item) :
    ∃ more, (front ++ last :: rest).rdropWhile drops =
      front ++ last :: more := by
  induction rest using List.reverseRecOn with
  | nil =>
      refine ⟨[], List.rdropWhile_concat_neg _ _ _ ?_⟩
      rw [stays]
      exact Bool.false_ne_true
  | append_singleton rest item induction =>
      have split : front ++ last :: (rest ++ [item]) =
          (front ++ last :: rest) ++ [item] := by
        simp
      rw [split, List.rdropWhile_concat]
      split
      · exact induction
      · exact ⟨rest ++ [item], by simp⟩

theorem units_ofList (chars : List Char) :
    units (String.ofList chars) = chars.map Char.toNat :=
  congrArg (List.map Char.toNat) String.toList_ofList

theorem grafana_eq : grafana = [103, 114, 97, 102, 97, 110, 97] :=
  (units_ofList _ : units "grafana" = _)

theorem slash_notMem_grafana : slash ∉ grafana := by
  rw [grafana_eq]
  decide

theorem kind_grafana : kind grafana = .plain := by
  rw [grafana_eq]
  decide +kernel

/-- The front of the path is left by the cleaning. -/
theorem cleaned_dashboards (rest : Units) :
    ∃ next more, cleaned (dashboardsRoot ++ rest) = slash :: next :: more ∧
      isSlash next = false := by
  obtain ⟨more, kept⟩ := rdropWhile_append_cons
    (by decide : isC0OrSpace 103 = false) [slash]
      ([114, 97, 102, 97, 110, 97] ++ slash :: rest)
  refine ⟨103, more.filter fun unit => !isTabOrNewline unit, ?_, by decide⟩
  have front : dashboardsRoot ++ rest =
      [slash] ++ 103 :: ([114, 97, 102, 97, 110, 97] ++ slash :: rest) := by
    rw [dashboardsRoot, grafana_eq]
    simp
  have first : isC0OrSpace slash = false := by decide
  rw [cleaned, front, List.singleton_append,
    List.dropWhile_cons_of_neg (by simp [first]), ← List.singleton_append,
    kept, List.singleton_append,
    List.filter_cons_of_pos (by decide), List.filter_cons_of_pos (by decide)]

theorem notMem_of_mem_splitOn {Item : Type} [DecidableEq Item]
    {separator : Item} {items part : List Item}
    (member : part ∈ items.splitOn separator) : separator ∉ part := by
  induction items generalizing part with
  | nil =>
      rw [List.splitOn_nil, List.mem_singleton] at member
      simp [member]
  | cons first items induction =>
      rw [List.splitOn_cons_eq_if_modifyHead] at member
      split at member
      · rcases List.mem_cons.mp member with rfl | later
        · exact List.not_mem_nil
        · exact induction later
      · rename_i apart
        cases split : items.splitOn separator with
        | nil => exact absurd split (List.splitOn_ne_nil separator items)
        | cons head rest =>
            rw [split] at member induction
            rcases List.mem_cons.mp member with rfl | later
            · intro inside
              rcases List.mem_cons.mp inside with rfl | deeper
              · exact apart (beq_self_eq_true _)
              · exact induction List.mem_cons_self deeper
            · exact induction (List.mem_cons_of_mem _ later)

theorem front_unique {Item : Type} {separator : Item}
    {front other rest more : List Item} (without : separator ∉ front)
    (also : separator ∉ other)
    (same : front ++ separator :: rest = other ++ separator :: more) :
    front = other := by
  induction front generalizing other with
  | nil =>
      cases other with
      | nil => rfl
      | cons first other =>
          rw [List.cons_append, List.nil_append, List.cons.injEq] at same
          exact absurd (List.mem_cons.mpr (.inl same.1)) also
  | cons first front induction =>
      cases other with
      | nil =>
          rw [List.cons_append, List.nil_append, List.cons.injEq] at same
          exact absurd (List.mem_cons.mpr (.inl same.1.symm)) without
      | cons second other =>
          rw [List.cons_append, List.cons_append, List.cons.injEq] at same
          rw [same.1, induction (fun inside =>
            without (List.mem_cons_of_mem _ inside)) (fun inside =>
              also (List.mem_cons_of_mem _ inside)) same.2]

/-- The text of a path begins with `/grafana/` exactly where its first segment
is `grafana` and another one follows. -/
theorem pathText_begins_iff {Origin : Type} {url : Url Origin}
    (slashless : ∀ segment ∈ url.path, slash ∉ segment) :
    dashboardsRoot <+: url.pathText ↔
      ∃ second rest, url.path = grafana :: second :: rest := by
  constructor
  · rintro ⟨more, text⟩
    rw [dashboardsRoot, List.cons_append, List.append_assoc,
      List.singleton_append] at text
    cases path : url.path with
    | nil =>
        rw [Url.pathText, path] at text
        cases text
    | cons first others =>
        have own := slashless first (by rw [path]; exact List.mem_cons_self)
        rw [Url.pathText, path, List.flatMap_cons, List.cons_append,
          List.cons.injEq] at text
        cases others with
        | nil =>
            rw [List.flatMap_nil, List.append_nil] at text
            refine absurd ?_ own
            rw [← text.2]
            simp
        | cons second rest =>
            rw [List.flatMap_cons, List.cons_append] at text
            rw [front_unique slash_notMem_grafana own text.2]
            exact ⟨second, rest, rfl⟩
  · rintro ⟨second, rest, path⟩
    refine ⟨second ++ rest.flatMap (slash :: ·), ?_⟩
    rw [Url.pathText, path, dashboardsRoot]
    simp

section

variable {Origin : Type} {other : Units → Option (Url Origin)}
variable {origin : Origin}

theorem parse_dashboards {path : Units} (own : isDashboards path = true) :
    parse other origin path =
      some ⟨origin, resolve kind [] [] (segments path)⟩ := by
  obtain ⟨rest, rfl, -⟩ := isDashboards_iff.mp own
  obtain ⟨next, more, read, plain⟩ := cleaned_dashboards rest
  have first : isSlash slash = true := by decide
  simp only [parse, segments, read, first, plain, List.head?_cons,
    Option.any_some, Bool.not_false, Bool.and_self, if_true,
    List.drop_succ_cons, List.drop_zero]

theorem leadsToDashboards_iff {path : Units}
    (own : isDashboards path = true) :
    LeadsToDashboards other origin path ↔
      ∃ before after, segments path = before ++ grafana :: after ∧
        level kind 0 before = 0 ∧ after ≠ [] ∧
          staysBelow kind 0 after = true := by
  have slashless : ∀ segment ∈ resolve kind [] [] (segments path),
      slash ∉ segment := by
    intro segment member
    rcases UrlPath.mem_resolve member with none | given | empty
    · cases none
    · exact notMem_of_mem_splitOn given
    · rw [empty]
      exact List.not_mem_nil
  rw [← UrlPath.resolve_begins_iff kind_grafana]
  unfold LeadsToDashboards
  rw [parse_dashboards own]
  constructor
  · rintro ⟨url, ⟨⟩, -, begins⟩
    exact (pathText_begins_iff slashless).mp begins
  · intro begins
    exact ⟨_, rfl, rfl, (pathText_begins_iff slashless).mpr begins⟩

end

/-- What is returned stays on the dashboards exactly where the double dots of
an accepted path come back. -/
theorem staysOnDashboards_iff {Origin : Type}
    (other : Units → Option (Url Origin)) (origin : Origin)
    (search : Option Units) :
    StaysOnDashboards other origin search ↔ ComesBack search := by
  constructor
  · rintro ⟨leads, -⟩ path rfl own
    exact (leadsToDashboards_iff own).mp
      (leads path (returnPath_eq_some.mpr ⟨rfl, own⟩))
  · intro back
    refine ⟨?_, ?_⟩
    · intro path taken
      obtain ⟨spelled, own⟩ := returnPath_eq_some.mp taken
      exact (leadsToDashboards_iff own).mpr (back path spelled own)
    · rintro path rfl front - clean
      exact returnPath_plain front clean

/-- A double dot leads to a page that is not the dashboards'. -/
theorem dot_segments_escape :
    ¬∀ (other : Units → Option (Url Unit)) (origin : Unit)
      (search : Option Units), StaysOnDashboards other origin search := by
  intro always
  have own : isDashboards (units "/grafana/../admin") = true := by
    decide +kernel
  have taken := returnPath_eq_some.mpr ⟨rfl, own⟩
  obtain ⟨url, parsed, -, begins⟩ :=
    (always (fun _ => none) () _).1 _ taken
  rw [parse_dashboards own] at parsed
  cases parsed
  have away : dashboardsRoot.isPrefixOf (Url.pathText (Url.mk () (resolve kind
      [] [] (segments (units "/grafana/../admin"))))) = false := by
    decide +kernel
  rw [List.isPrefixOf_iff_prefix.mpr begins] at away
  cases away

end IndustryFlow.SignIn
