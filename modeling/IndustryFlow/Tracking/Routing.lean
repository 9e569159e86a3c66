import IndustryFlow.Tenancy.Boundary
import IndustryFlow.Tracking.Proxy
import Mathlib.Data.List.Pairwise

/-!
# What a route stands for

An endpoint is meant to be matched by the one route that it spells, with a
plain segment for every parameter, and to be read at the tracking server as the
route it was matched by.  `Spells` is this reading.  The pattern of a template
takes more: any character in a parameter, and a newline after its end.
-/

namespace IndustryFlow.Tracking

open Tenancy

/-! ## Templates -/

/-- A character that means itself in a URL. -/
def isOrdinary (char : Char) : Bool :=
  !isControl char && char ∉ ['?', '#', '%']

/-- The segments that the template spells, and those of its parameters. -/
inductive Spells : List Text → List Text → List Text → Prop where
  | nil : Spells [] [] []
  | literal {part : Text} {parts rest arguments : List Text} :
      isParameter part = false → Spells parts rest arguments →
      Spells (part :: parts) (part :: rest) arguments
  | parameter {part segment : Text} {parts rest arguments : List Text} :
      isParameter part = true → isPlainSegment segment = true →
      segment.all isOrdinary = true → Spells parts rest arguments →
      Spells (part :: parts) (segment :: rest) (segment :: arguments)

/-- The template with any plain segment in each parameter's place. -/
inductive Filled : List Text → List Text → Prop where
  | nil : Filled [] []
  | literal {part : Text} {parts rest : List Text} :
      isParameter part = false → Filled parts rest →
      Filled (part :: parts) (part :: rest)
  | parameter {part segment : Text} {parts rest : List Text} :
      isParameter part = true → isPlainSegment segment = true →
      Filled parts rest → Filled (part :: parts) (segment :: rest)

/-- The segments in the places of the parameters. -/
def argumentsOf (parts segments : List Text) : List Text :=
  (parts.zip segments).filterMap fun pair =>
    if isParameter pair.1 then some pair.2 else none

theorem argumentsOf_literal {part : Text} (fixed : isParameter part = false)
    (found : Text) (parts rest : List Text) :
    argumentsOf (part :: parts) (found :: rest) = argumentsOf parts rest := by
  simp [argumentsOf, fixed]

theorem argumentsOf_parameter {part : Text} (own : isParameter part = true)
    (found : Text) (parts rest : List Text) :
    argumentsOf (part :: parts) (found :: rest) =
      found :: argumentsOf parts rest := by
  simp [argumentsOf, own]

theorem Spells.filled {parts segments arguments : List Text}
    (spelled : Spells parts segments arguments) : Filled parts segments := by
  induction spelled with
  | nil => exact .nil
  | literal fixed _ induction => exact .literal fixed induction
  | parameter own plain _ _ induction => exact .parameter own plain induction

theorem Spells.arguments_eq {parts segments arguments : List Text}
    (spelled : Spells parts segments arguments) :
    arguments = argumentsOf parts segments := by
  induction spelled with
  | nil => rfl
  | literal fixed _ induction =>
      rw [argumentsOf_literal fixed, induction]
  | parameter own _ _ _ induction =>
      rw [argumentsOf_parameter own, induction]

theorem Filled.spells {parts segments : List Text}
    (filled : Filled parts segments)
    (ordinary : ∀ segment ∈ segments, segment.all isOrdinary = true) :
    Spells parts segments (argumentsOf parts segments) := by
  induction filled with
  | nil => exact .nil
  | literal fixed _ induction =>
      have later := induction fun segment member =>
        ordinary segment (List.mem_cons_of_mem _ member)
      rw [argumentsOf_literal fixed]
      exact .literal fixed later
  | parameter own plain _ induction =>
      have later := induction fun segment member =>
        ordinary segment (List.mem_cons_of_mem _ member)
      rw [argumentsOf_parameter own]
      exact .parameter own plain (ordinary _ List.mem_cons_self) later

/-- A template whose literals are plain and ordinary. -/
def isTemplate (parts : List Text) : Bool :=
  parts.all fun part =>
    isPlainSegment part && (isParameter part || part.all isOrdinary)

theorem Filled.plain {parts segments : List Text}
    (filled : Filled parts segments) (template : isTemplate parts = true) :
    segments.all isPlainSegment = true := by
  induction filled with
  | nil => rfl
  | literal _ _ induction =>
      simp only [isTemplate, List.all_cons, Bool.and_eq_true] at template ⊢
      exact ⟨template.1.1, induction template.2⟩
  | parameter _ plain _ induction =>
      simp only [isTemplate, List.all_cons, Bool.and_eq_true] at template ⊢
      exact ⟨plain, induction template.2⟩

theorem Spells.ordinary {parts segments arguments : List Text}
    (spelled : Spells parts segments arguments)
    (template : isTemplate parts = true) :
    ∀ segment ∈ segments, segment.all isOrdinary = true := by
  induction spelled with
  | nil => nofun
  | literal fixed _ induction =>
      simp only [isTemplate, List.all_cons, Bool.and_eq_true, Bool.or_eq_true,
        fixed, Bool.false_eq_true, false_or] at template
      intro segment member
      rcases List.mem_cons.mp member with rfl | later
      · exact template.1.2
      · exact induction template.2 segment later
  | parameter _ _ own _ induction =>
      simp only [isTemplate, List.all_cons, Bool.and_eq_true] at template
      intro segment member
      rcases List.mem_cons.mp member with rfl | later
      · exact own
      · exact induction template.2 segment later

/-! ## Patterns -/

theorem matchSegments_cons {part found : Text} {parts rest : List Text}
    (more : parts ≠ [] ∨ rest ≠ []) :
    matchSegments (part :: parts) (found :: rest) =
      ((if isParameter part then !found.isEmpty else found = part) &&
        matchSegments parts rest) := by
  cases parts with
  | nil =>
      cases rest with
      | nil => simp at more
      | cons => rw [matchSegments]; nofun
  | cons => rw [matchSegments]; nofun

theorem isEmpty_of_isPlainSegment {segment : Text}
    (plain : isPlainSegment segment = true) : segment.isEmpty = false := by
  cases segment with
  | nil => exact absurd plain (by decide)
  | cons => rfl

theorem Filled.length {parts segments : List Text}
    (filled : Filled parts segments) : parts.length = segments.length := by
  induction filled with
  | nil => rfl
  | literal _ _ induction => simp [induction]
  | parameter _ _ _ induction => simp [induction]

theorem matchSegments_of_filled {parts segments : List Text}
    (filled : Filled parts segments) :
    matchSegments parts segments = true := by
  induction filled with
  | nil => rfl
  | @literal part parts rest fixed filled induction =>
      cases parts with
      | nil =>
          cases filled
          simp [matchSegments, fixed]
      | cons =>
          rw [matchSegments_cons (.inl (List.cons_ne_nil _ _))]
          simp [fixed, induction]
  | @parameter part segment parts rest own plain filled induction =>
      have some := isEmpty_of_isPlainSegment plain
      cases parts with
      | nil =>
          cases filled
          simp [matchSegments, own, some]
      | cons =>
          rw [matchSegments_cons (.inl (List.cons_ne_nil _ _))]
          simp [own, some, induction]

/-- The pattern's end is also before a last newline. -/
theorem matchSegments_newline {parts front : List Text} {last : Text}
    (filled : Filled parts (front ++ [last])) :
    matchSegments parts (front ++ [last ++ ['\n']]) = true := by
  induction front generalizing parts with
  | nil =>
      cases filled with
      | literal fixed later =>
          cases later
          simp [matchSegments, fixed]
      | parameter own _ later =>
          cases later
          simp [matchSegments, own]
  | cons first front induction =>
      cases filled with
      | literal fixed later =>
          rw [List.cons_append, matchSegments_cons (.inr (by simp)),
            induction later]
          simp [fixed]
      | parameter own plain later =>
          rw [List.cons_append, matchSegments_cons (.inr (by simp)),
            induction later]
          simp [own, isEmpty_of_isPlainSegment plain]

/-- The pattern takes no other segments. -/
theorem matchSegments_cases {parts segments : List Text}
    (matched : matchSegments parts segments = true)
    (plain : segments.all isPlainSegment = true) :
    Filled parts segments ∨ ∃ front last,
      segments = front ++ [last ++ ['\n']] ∧
        Filled parts (front ++ [last]) := by
  induction parts generalizing segments with
  | nil =>
      cases segments with
      | nil => exact .inl .nil
      | cons => simp [matchSegments] at matched
  | cons part parts induction =>
      cases segments with
      | nil => simp [matchSegments] at matched
      | cons segment rest =>
          simp only [List.all_cons, Bool.and_eq_true] at plain
          by_cases single : parts = [] ∧ rest = []
          · obtain ⟨rfl, rfl⟩ := single
            cases own : isParameter part with
            | true => exact .inl (.parameter own plain.1 .nil)
            | false =>
                simp only [matchSegments, own, Bool.false_eq_true, if_false,
                  Bool.or_eq_true, decide_eq_true_eq] at matched
                rcases matched with rfl | rfl
                · exact .inl (.literal own .nil)
                · exact .inr ⟨[], part, rfl, .literal own .nil⟩
          · rw [matchSegments_cons (by tauto), Bool.and_eq_true] at matched
            obtain ⟨first, later⟩ := matched
            have extend {others : List Text} (filled : Filled parts others) :
                Filled (part :: parts) (segment :: others) := by
              cases own : isParameter part with
              | true => exact .parameter own plain.1 filled
              | false =>
                  rw [own] at first
                  rw [show segment = part by simpa using first]
                  exact .literal own filled
            rcases induction later plain.2 with
              filled | ⟨front, last, rfl, filled⟩
            · exact .inl (extend filled)
            · exact .inr ⟨segment :: front, last, rfl, extend filled⟩

/-! ## The characters of an endpoint -/

theorem splitOn_newline (endpoint : Text) :
    ∃ front last, endpoint.splitOn '/' = front ++ [last] ∧
      (endpoint ++ ['\n']).splitOn '/' = front ++ [last ++ ['\n']] := by
  rcases last_slash endpoint with whole | ⟨front, last, rfl, ending⟩
  · refine ⟨[], endpoint, List.splitOn_eq_singleton whole, ?_⟩
    exact List.splitOn_eq_singleton (by simp [whole])
  · refine ⟨front.splitOn '/', last, ?_, ?_⟩
    · rw [List.splitOn_append_cons_self, List.splitOn_eq_singleton ending]
    · rw [List.append_assoc, List.cons_append, List.splitOn_append_cons_self,
        List.splitOn_eq_singleton
          (show '/' ∉ last ++ ['\n'] by simp [ending])]

/-- A newline that ends the last segment ends the endpoint. -/
theorem line_of_splitOn {endpoint last : Text} {front : List Text}
    (split : endpoint.splitOn '/' = front ++ [last ++ ['\n']]) :
    ∃ line, endpoint = line ++ ['\n'] ∧
      line.splitOn '/' = front ++ [last] := by
  rcases last_slash endpoint with whole | ⟨before, ending, rfl, slashless⟩
  · rw [List.splitOn_eq_singleton whole] at split
    obtain ⟨rfl, same⟩ := List.append_inj'
      (show [] ++ [endpoint] = front ++ [last ++ ['\n']] from split) rfl
    have own := (List.cons.inj same).1
    have short : '/' ∉ last := fun inside => whole (by simp [own, inside])
    exact ⟨last, own, List.splitOn_eq_singleton short⟩
  · rw [List.splitOn_append_cons_self,
      List.splitOn_eq_singleton slashless] at split
    obtain ⟨rfl, same⟩ := List.append_inj' split rfl
    have own := (List.cons.inj same).1
    have short : '/' ∉ last := fun inside => slashless (by simp [own, inside])
    refine ⟨before ++ '/' :: last, by simp [own], ?_⟩
    rw [List.splitOn_append_cons_self, List.splitOn_eq_singleton short]

theorem mem_segment {endpoint : Text} {char : Char}
    (member : char ∈ endpoint) (other : char ≠ '/') :
    ∃ segment ∈ endpoint.splitOn '/', char ∈ segment := by
  induction endpoint with
  | nil => cases member
  | cons first rest induction =>
      by_cases slash : first = '/'
      · subst slash
        have later := (List.mem_cons.mp member).resolve_left other
        obtain ⟨segment, part, inside⟩ := induction later
        rw [splitOn_slash_cons]
        exact ⟨segment, List.mem_cons_of_mem _ part, inside⟩
      · rw [List.splitOn_cons_eq_if_modifyHead,
          if_neg (by simpa using slash)]
        cases split : rest.splitOn '/' with
        | nil => exact absurd split (List.splitOn_ne_nil '/' rest)
        | cons head segments =>
            rw [split] at induction
            rcases List.mem_cons.mp member with rfl | later
            · exact ⟨char :: head, List.mem_cons_self, List.mem_cons_self⟩
            · obtain ⟨segment, part, inside⟩ := induction later
              rcases List.mem_cons.mp part with rfl | listed
              · exact ⟨first :: segment, List.mem_cons_self,
                  List.mem_cons_of_mem _ inside⟩
              · exact ⟨segment, List.mem_cons_of_mem _ listed, inside⟩

theorem all_ordinary_iff {endpoint : Text} :
    endpoint.all isOrdinary = true ↔
      ∀ segment ∈ endpoint.splitOn '/', segment.all isOrdinary = true := by
  constructor
  · intro ordinary segment part
    refine List.all_eq_true.mpr fun char member => ?_
    exact List.all_eq_true.mp ordinary char (mem_of_mem_splitOn part member).1
  · intro ordinary
    refine List.all_eq_true.mpr fun char member => ?_
    by_cases slash : char = '/'
    · rw [slash]
      decide
    · obtain ⟨segment, part, inside⟩ := mem_segment member slash
      exact List.all_eq_true.mp (ordinary segment part) char inside

/-! ## The table -/

/-- Two templates that some segments may fill at once. -/
def overlap (parts others : List Text) : Bool :=
  parts.length = others.length && (parts.zip others).all fun pair =>
    isParameter pair.1 || isParameter pair.2 || pair.1 = pair.2

theorem Filled.overlap {parts others segments : List Text}
    (filled : Filled parts segments) (other : Filled others segments) :
    overlap parts others = true := by
  simp only [Tracking.overlap, filled.length, other.length, Bool.and_eq_true,
    decide_true, true_and]
  induction filled generalizing others with
  | nil =>
      cases other
      rfl
  | literal fixed _ induction =>
      cases other with
      | literal _ later => simp [induction later]
      | parameter own _ later => simp [induction later, own]
  | parameter own _ _ induction =>
      cases other with
      | literal _ later => simp [induction later, own]
      | parameter _ _ later => simp [induction later, own]

/-- What is read of a route's template. -/
def templates : List (HttpMethod × List Text) :=
  routes.map fun entry => (entry.1, entry.2.segments)

theorem templates_apart :
    templates.Pairwise fun entry other =>
      ¬(entry.1 = other.1 ∧ overlap entry.2 other.2 = true) := by
  decide +kernel

theorem routes_templates :
    routes.all (fun entry => isTemplate entry.2.segments &&
      (('\x7b' ∈ entry.2.endpoint.toList) =
        entry.2.segments.any isParameter)) = true := by
  decide +kernel

theorem isTemplate_of_mem {method : HttpMethod} {route : Route}
    (listed : (method, route) ∈ routes) : isTemplate route.segments = true := by
  have own := List.all_eq_true.mp routes_templates _ listed
  exact (Bool.and_eq_true _ _ ▸ own).1

theorem parameter_iff {method : HttpMethod} {route : Route}
    (listed : (method, route) ∈ routes) :
    '\x7b' ∈ route.endpoint.toList ↔
      route.segments.any isParameter = true := by
  have own := List.all_eq_true.mp routes_templates _ listed
  simp only [Bool.and_eq_true, decide_eq_true_eq] at own
  rw [own.2]

/-- No segments fill both templates for one method. -/
def Apart (entry other : HttpMethod × Route) : Prop :=
  ∀ segments, entry.1 = other.1 → Filled entry.2.segments segments →
    ¬Filled other.2.segments segments

instance : Std.Symm Apart where
  symm _ _ apart segments same filled otherFilled :=
    apart segments same.symm otherFilled filled

theorem routes_apart : routes.Pairwise Apart := by
  refine (List.pairwise_map.mp templates_apart).imp ?_
  intro entry other apart segments same filled otherFilled
  exact apart ⟨same, filled.overlap otherFilled⟩

/-- Two routes of a method share no segments. -/
theorem filled_once {method : HttpMethod} {route other : Route}
    {segments : List Text} (listed : (method, route) ∈ routes)
    (otherListed : (method, other) ∈ routes)
    (filled : Filled route.segments segments)
    (otherFilled : Filled other.segments segments) : route = other := by
  by_contra different
  have apart := routes_apart.forall listed otherListed
    fun same => different (Prod.mk.inj same).2
  exact apart segments rfl filled otherFilled

/-! ## Matching -/

theorem Filled.of_literals {parts : List Text}
    (fixed : ∀ part ∈ parts, isParameter part = false) :
    Filled parts parts := by
  induction parts with
  | nil => exact .nil
  | cons part parts induction =>
      have later := induction fun other member =>
        fixed other (List.mem_cons_of_mem _ member)
      exact .literal (fixed part List.mem_cons_self) later

theorem argumentsOf_literals {parts : List Text}
    (fixed : ∀ part ∈ parts, isParameter part = false) :
    argumentsOf parts parts = [] := by
  induction parts with
  | nil => rfl
  | cons part parts induction =>
      rw [argumentsOf_literal (fixed part List.mem_cons_self)]
      exact induction fun other member =>
        fixed other (List.mem_cons_of_mem _ member)

theorem Filled.of_fixed {parts segments : List Text}
    (filled : Filled parts segments)
    (fixed : ∀ part ∈ parts, isParameter part = false) :
    segments = parts := by
  induction filled with
  | nil => rfl
  | literal _ _ induction =>
      rw [induction fun part member =>
        fixed part (List.mem_cons_of_mem _ member)]
  | parameter own _ _ _ =>
      rw [fixed _ List.mem_cons_self] at own
      cases own

/-- How an endpoint comes to be matched. -/
def Taken (route : Route) (endpoint : Text) (arguments : List Text) : Prop :=
  (route.endpoint.toList = endpoint ∧ arguments = []) ∨
    ('\x7b' ∈ route.endpoint.toList ∧
      matchSegments route.segments (endpoint.splitOn '/') = true ∧
      arguments = argumentsOf route.segments (endpoint.splitOn '/'))

theorem refused_iff {endpoint : Text} :
    (endpoint.splitOn '/').any (· ∈ [[], ['.'], ['.', '.']]) = false ↔
      (endpoint.splitOn '/').all isPlainSegment = true := by
  rw [List.any_eq_false, List.all_eq_true]
  simp only [isPlainSegment, decide_eq_true_eq]

theorem matchRoute_taken {method : HttpMethod} {endpoint : Text}
    {route : Route} {arguments : List Text}
    (matched : matchRoute method endpoint = some (route, arguments)) :
    (endpoint.splitOn '/').all isPlainSegment = true ∧
      (method, route) ∈ routes ∧ Taken route endpoint arguments := by
  unfold matchRoute at matched
  split at matched
  · cases matched
  · rename_i plain
    refine ⟨refused_iff.mp (Bool.not_eq_true _ ▸ plain), ?_⟩
    split at matched
    · rename_i own found exact
      cases matched
      have holds := List.find?_some exact
      simp only [Bool.and_eq_true, decide_eq_true_eq] at holds
      obtain ⟨rfl, same⟩ := holds
      exact ⟨List.mem_of_find?_eq_some exact, .inl ⟨same, rfl⟩⟩
    · obtain ⟨⟨own, found⟩, pattern, same⟩ := Option.map_eq_some_iff.mp matched
      cases same
      have holds := List.find?_some pattern
      have member := List.mem_filter.mp (List.mem_of_find?_eq_some pattern)
      simp only [Bool.and_eq_true, decide_eq_true_eq] at holds member
      obtain ⟨rfl, fits⟩ := holds
      exact ⟨member.1, .inr ⟨member.2, fits, rfl⟩⟩

theorem matchRoute_isSome {method : HttpMethod} {endpoint : Text}
    {route : Route} {arguments : List Text}
    (plain : (endpoint.splitOn '/').all isPlainSegment = true)
    (listed : (method, route) ∈ routes)
    (taken : Taken route endpoint arguments) :
    ∃ found, matchRoute method endpoint = some found := by
  unfold matchRoute
  rw [refused_iff.mpr plain]
  simp only [Bool.false_eq_true, if_false]
  split
  · exact ⟨_, rfl⟩
  · rename_i missed
    rw [List.find?_eq_none] at missed
    rcases taken with ⟨same, -⟩ | ⟨own, fits, -⟩
    · exact absurd (by simp [same]) (missed _ listed)
    · rw [← Option.isSome_iff_exists, Option.isSome_map,
        List.find?_isSome]
      exact ⟨(method, route),
        List.mem_filter.mpr ⟨listed, decide_eq_true own⟩, by simp [fits]⟩

/-! ## URLs -/

/-- The path so far, and its next segment; a parser takes the dot segments
out. -/
def dotStep (kept : List Text) (segment : Text) : List Text :=
  if segment = ['.'] then kept
  else if segment = ['.', '.'] then
    if kept = [[]] then kept else kept.dropLast
  else kept ++ [segment]

/-- What a URL parser reads of a path: no control character is taken, the path
ends at the query or the fragment, and the escapes are decoded. -/
def readPath (reference : Text) : Option (List (List UInt8)) :=
  if reference.any (fun char => char.toNat < 32 || char.toNat = 127) then none
  else
    let path := reference.takeWhile (· ∉ ['?', '#'])
    some (((path.splitOn '/').foldl dotStep []).map percentDecode)

/-- `_MLFLOW_PREFIX`. -/
def mlflowPrefix : Text := "/api/2.0/mlflow/".toList

def mlflowSegments : List Text :=
  ["".toList, "api".toList, "2.0".toList, "mlflow".toList]

/-- The endpoint that is forwarded is read as the route, with the arguments. -/
def ForwardedAs (parts arguments : List Text) (endpoint : Text) : Prop :=
  ∃ segments, readPath (mlflowPrefix ++ endpoint) =
      some ((mlflowSegments ++ segments).map octets) ∧
    Spells parts segments arguments

theorem foldl_dotStep_plain {segments : List Text}
    (plain : segments.all isPlainSegment = true) (kept : List Text) :
    segments.foldl dotStep kept = kept ++ segments := by
  induction segments generalizing kept with
  | nil => simp
  | cons segment segments induction =>
      simp only [List.all_cons, Bool.and_eq_true] at plain
      have ⟨_, single, double⟩ : segment ≠ [] ∧
          segment ≠ ['.'] ∧ segment ≠ ['.', '.'] := by
        simpa [isPlainSegment] using plain.1
      rw [List.foldl_cons, dotStep, if_neg single, if_neg double,
        induction plain.2, List.append_assoc, List.singleton_append]

theorem isOrdinary_spec {char : Char} (ordinary : isOrdinary char = true) :
    (char.toNat < 32 || char.toNat = 127) = false ∧
      decide (char ∉ ['?', '#']) = true ∧ char ≠ '%' := by
  simp only [isOrdinary, isControl, Bool.and_eq_true, Bool.not_eq_true',
    Bool.or_eq_false_iff, Bool.and_eq_false_iff, decide_eq_false_iff_not,
    decide_eq_true_eq, List.mem_cons, List.not_mem_nil, or_false,
    not_or] at ordinary ⊢
  obtain ⟨⟨low, high⟩, query, fragment, escape⟩ := ordinary
  exact ⟨⟨low, by omega⟩, ⟨query, fragment⟩, escape⟩

theorem readPath_ordinary {endpoint : Text}
    (plain : (endpoint.splitOn '/').all isPlainSegment = true)
    (ordinary : endpoint.all isOrdinary = true) :
    readPath (mlflowPrefix ++ endpoint) =
      some ((mlflowSegments ++ endpoint.splitOn '/').map octets) := by
  have whole : ∀ char ∈ mlflowPrefix ++ endpoint, isOrdinary char = true := by
    intro char member
    rcases List.mem_append.mp member with first | later
    · exact List.all_eq_true.mp (by decide) char first
    · exact List.all_eq_true.mp ordinary char later
  have graphic : (mlflowPrefix ++ endpoint).any
      (fun char => char.toNat < 32 || char.toNat = 127) = false := by
    rw [List.any_eq_false]
    intro char member
    rw [(isOrdinary_spec (whole char member)).1]
    exact Bool.false_ne_true
  have path : (mlflowPrefix ++ endpoint).takeWhile (· ∉ ['?', '#']) =
      mlflowPrefix ++ endpoint :=
    List.takeWhile_eq_self_iff.mpr fun char member =>
      (isOrdinary_spec (whole char member)).2.1
  have split : (mlflowPrefix ++ endpoint).splitOn '/' =
      mlflowSegments ++ endpoint.splitOn '/' :=
    List.splitOn_append_cons_self "/api/2.0/mlflow".toList endpoint
  have unescaped : ∀ segment ∈ mlflowSegments ++ endpoint.splitOn '/',
      percentDecode segment = octets segment := by
    intro segment part
    rw [← split] at part
    refine percentDecode_plain fun escape => ?_
    exact (isOrdinary_spec
      (whole '%' (mem_of_mem_splitOn part escape).1)).2.2 rfl
  simp only [readPath, graphic, path, split, Bool.false_eq_true, if_false]
  rw [List.foldl_append, foldl_dotStep_plain plain,
    ← List.map_congr_left unescaped]
  rfl

/-! ## Exact matching -/

/-- The template of the lookup of a logged model. -/
def loggedModelTemplate : List Text :=
  "logged-models/\x7bmodel_id\x7d".toList.splitOn '/'

/-- The endpoint is matched by the one route that it spells, if any, and is
read as that route where it is forwarded; so is the lookup of the logged model
that it names. -/
structure MatchedExactly (method : HttpMethod) (endpoint : Text) : Prop where
  spelled : ∀ route arguments,
    matchRoute method endpoint = some (route, arguments) ↔
      (method, route) ∈ routes ∧
        Spells route.segments (endpoint.splitOn '/') arguments
  single : ∀ route other arguments others,
    (method, route) ∈ routes → (method, other) ∈ routes →
    Spells route.segments (endpoint.splitOn '/') arguments →
    Spells other.segments (endpoint.splitOn '/') others →
      route = other ∧ arguments = others
  forwarded : ∀ route arguments,
    matchRoute method endpoint = some (route, arguments) →
      ForwardedAs route.segments arguments endpoint
  lookedUp : ∀ route id arguments,
    matchRoute method endpoint = some (route, id :: arguments) →
      ForwardedAs loggedModelTemplate [id] ("logged-models/".toList ++ id)

/-- No template with a parameter is the endpoint itself, is filled by it with a
character that means something else in a URL, or is filled by what stands
before a last newline. -/
def Clear (method : HttpMethod) (endpoint : Text) : Prop :=
  ∀ route, (method, route) ∈ routes → '\x7b' ∈ route.endpoint.toList →
    route.endpoint.toList ≠ endpoint ∧
      (Filled route.segments (endpoint.splitOn '/') →
        endpoint.all isOrdinary = true) ∧
      ∀ line, endpoint = line ++ ['\n'] →
        ¬Filled route.segments (line.splitOn '/')

theorem fixed_of_mem {method : HttpMethod} {route : Route}
    (listed : (method, route) ∈ routes)
    (own : '\x7b' ∉ route.endpoint.toList) :
    ∀ part ∈ route.segments, isParameter part = false := by
  rw [parameter_iff listed, Bool.not_eq_true, List.any_eq_false] at own
  intro part member
  exact Bool.not_eq_true _ ▸ own part member

theorem spells_taken {method : HttpMethod} {endpoint : Text} {route : Route}
    {arguments : List Text} (listed : (method, route) ∈ routes)
    (spelled : Spells route.segments (endpoint.splitOn '/') arguments) :
    Taken route endpoint arguments := by
  by_cases own : '\x7b' ∈ route.endpoint.toList
  · exact .inr ⟨own, matchSegments_of_filled spelled.filled,
      spelled.arguments_eq⟩
  · have fixed := fixed_of_mem listed own
    have same := spelled.filled.of_fixed fixed
    refine .inl ⟨?_, ?_⟩
    · rw [← @List.intercalate_splitOn _ endpoint _ _ '/', same,
        Route.segments, List.intercalate_splitOn]
    · rw [spelled.arguments_eq, same, argumentsOf_literals fixed]

/-- A route without a parameter spells itself. -/
theorem spells_itself {method : HttpMethod} {route : Route}
    (listed : (method, route) ∈ routes)
    (own : '\x7b' ∉ route.endpoint.toList) :
    Spells route.segments route.segments [] := by
  have fixed := fixed_of_mem listed own
  rw [← argumentsOf_literals fixed]
  apply (Filled.of_literals fixed).spells
  intro part member
  have template := List.all_eq_true.mp (isTemplate_of_mem listed) part member
  rw [fixed part member, Bool.false_or, Bool.and_eq_true] at template
  exact template.2

/-- What is taken of a clear endpoint is what it spells. -/
theorem Clear.spells {method : HttpMethod} {endpoint : Text} {route : Route}
    {arguments : List Text} (clear : Clear method endpoint)
    (plain : (endpoint.splitOn '/').all isPlainSegment = true)
    (listed : (method, route) ∈ routes)
    (taken : Taken route endpoint arguments) :
    Spells route.segments (endpoint.splitOn '/') arguments := by
  rcases taken with ⟨rfl, rfl⟩ | ⟨own, fits, rfl⟩
  · by_cases own : '\x7b' ∈ route.endpoint.toList
    · exact absurd rfl (clear route listed own).1
    · exact spells_itself listed own
  · obtain ⟨_, ordinary, unended⟩ := clear route listed own
    rcases matchSegments_cases fits plain with
      filled | ⟨front, last, split, filled⟩
    · exact filled.spells (all_ordinary_iff.mp (ordinary filled))
    · obtain ⟨line, ended, before⟩ := line_of_splitOn split
      exact absurd (before ▸ filled) (unended line ended)

theorem Spells.forwardedAs {method : HttpMethod} {endpoint : Text}
    {route : Route} {arguments : List Text} (listed : (method, route) ∈ routes)
    (spelled : Spells route.segments (endpoint.splitOn '/') arguments) :
    ForwardedAs route.segments arguments endpoint := by
  have template := isTemplate_of_mem listed
  exact ⟨endpoint.splitOn '/',
    readPath_ordinary (spelled.filled.plain template)
      (all_ordinary_iff.mpr (spelled.ordinary template)), spelled⟩

theorem Spells.arguments_plain {parts segments arguments : List Text}
    (spelled : Spells parts segments arguments) :
    ∀ id ∈ arguments, id ∈ segments ∧ isPlainSegment id = true ∧
      id.all isOrdinary = true := by
  induction spelled with
  | nil => nofun
  | literal _ _ induction =>
      intro id member
      have own := induction id member
      exact ⟨List.mem_cons_of_mem _ own.1, own.2⟩
  | parameter _ plain ordinary _ induction =>
      intro id member
      rcases List.mem_cons.mp member with rfl | later
      · exact ⟨List.mem_cons_self, plain, ordinary⟩
      · have own := induction id later
        exact ⟨List.mem_cons_of_mem _ own.1, own.2⟩

/-- An argument is looked up as the logged model that it names. -/
theorem Spells.lookedUp {parts arguments : List Text} {endpoint id : Text}
    (spelled : Spells parts (endpoint.splitOn '/') (id :: arguments)) :
    ForwardedAs loggedModelTemplate [id] ("logged-models/".toList ++ id) := by
  obtain ⟨part, plain, ordinary⟩ :=
    spelled.arguments_plain id List.mem_cons_self
  have slashless : '/' ∉ id := fun slash =>
    (mem_of_mem_splitOn part slash).2 rfl
  have split : ("logged-models/".toList ++ id).splitOn '/' =
      ["logged-models".toList, id] := by
    rw [show "logged-models/".toList ++ id =
      "logged-models".toList ++ '/' :: id from rfl,
      List.splitOn_append_cons_self, List.splitOn_eq_singleton slashless]
    rfl
  have listed : (HttpMethod.get, (⟨"logged-models/\x7bmodel_id\x7d",
      [.loggedModel]⟩ : Route)) ∈ routes := by decide +kernel
  apply Spells.forwardedAs listed
  rw [split]
  exact .literal (by decide) (.parameter (by decide) plain ordinary .nil)

/-- A clear endpoint is matched exactly. -/
theorem Clear.matchedExactly {method : HttpMethod} {endpoint : Text}
    (clear : Clear method endpoint) : MatchedExactly method endpoint := by
  have spelled {route : Route} {arguments : List Text}
      (matched : matchRoute method endpoint = some (route, arguments)) :
      (method, route) ∈ routes ∧
        Spells route.segments (endpoint.splitOn '/') arguments := by
    obtain ⟨plain, listed, taken⟩ := matchRoute_taken matched
    exact ⟨listed, clear.spells plain listed taken⟩
  have single {route other : Route} {arguments others : List Text}
      (listed : (method, route) ∈ routes)
      (otherListed : (method, other) ∈ routes)
      (first : Spells route.segments (endpoint.splitOn '/') arguments)
      (second : Spells other.segments (endpoint.splitOn '/') others) :
      route = other ∧ arguments = others := by
    have same := filled_once listed otherListed first.filled second.filled
    subst same
    exact ⟨rfl, first.arguments_eq.trans second.arguments_eq.symm⟩
  refine ⟨?_, fun _ _ _ _ => single, ?_, ?_⟩
  · intro route arguments
    constructor
    · exact spelled
    · rintro ⟨listed, own⟩
      obtain ⟨⟨other, others⟩, matched⟩ := matchRoute_isSome
        (own.filled.plain (isTemplate_of_mem listed)) listed
        (spells_taken listed own)
      obtain ⟨otherListed, otherOwn⟩ := spelled matched
      obtain ⟨rfl, rfl⟩ := single otherListed listed otherOwn own
      exact matched
  · intro route arguments matched
    obtain ⟨listed, own⟩ := spelled matched
    exact own.forwardedAs listed
  · intro route id arguments matched
    exact (spelled matched).2.lookedUp

/-- What a template's pattern takes is matched, and by no route that the
endpoint spells where its characters are not ordinary. -/
theorem MatchedExactly.ordinary {method : HttpMethod} {endpoint : Text}
    {route : Route} (exact : MatchedExactly method endpoint)
    (plain : (endpoint.splitOn '/').all isPlainSegment = true)
    (listed : (method, route) ∈ routes)
    (own : '\x7b' ∈ route.endpoint.toList)
    (fits : matchSegments route.segments (endpoint.splitOn '/') = true) :
    endpoint.all isOrdinary = true := by
  obtain ⟨⟨other, arguments⟩, matched⟩ := matchRoute_isSome plain listed
    (.inr ⟨own, fits, rfl⟩)
  obtain ⟨otherListed, spelled⟩ := (exact.spelled other arguments).mp matched
  exact all_ordinary_iff.mpr (spelled.ordinary (isTemplate_of_mem otherListed))

/-- A template that is spelled out is found without its pattern. -/
theorem matchRoute_exact {method : HttpMethod} {route : Route}
    (listed : (method, route) ∈ routes) :
    ∃ other, matchRoute method route.endpoint.toList = some (other, []) ∧
      other.endpoint = route.endpoint := by
  have plain : route.segments.all isPlainSegment = true := by
    refine List.all_eq_true.mpr fun part member => ?_
    have template := List.all_eq_true.mp (isTemplate_of_mem listed) part member
    exact (Bool.and_eq_true _ _ ▸ template).1
  unfold matchRoute
  rw [refused_iff.mpr plain]
  simp only [Bool.false_eq_true, if_false]
  split
  · rename_i own other found
    have holds := List.find?_some found
    simp only [Bool.and_eq_true, decide_eq_true_eq] at holds
    exact ⟨other, rfl, String.toList_inj.mp holds.2⟩
  · rename_i missed
    rw [List.find?_eq_none] at missed
    exact absurd (by simp) (missed _ listed)

theorem Spells.fixed {parts segments : List Text}
    (spelled : Spells parts segments []) :
    ∀ part ∈ parts, isParameter part = false := by
  induction parts generalizing segments with
  | nil => nofun
  | cons first parts induction =>
      cases spelled with
      | literal fixed later =>
          intro part member
          rcases List.mem_cons.mp member with rfl | inside
          · exact fixed
          · exact induction later part inside

theorem MatchedExactly.clear {method : HttpMethod} {endpoint : Text}
    (exact : MatchedExactly method endpoint) : Clear method endpoint := by
  intro route listed own
  have template := isTemplate_of_mem listed
  refine ⟨?_, ?_, ?_⟩
  · rintro rfl
    obtain ⟨other, matched, same⟩ := matchRoute_exact listed
    obtain ⟨otherListed, spelled⟩ := (exact.spelled other []).mp matched
    rw [← same, parameter_iff otherListed, List.any_eq_true] at own
    obtain ⟨part, member, parameter⟩ := own
    rw [spelled.fixed part member] at parameter
    cases parameter
  · intro filled
    exact exact.ordinary (filled.plain template) listed own
      (matchSegments_of_filled filled)
  · rintro line rfl filled
    have plain : ((line ++ ['\n']).splitOn '/').all isPlainSegment = true :=
      splitOn_append_plain (filled.plain template) (by decide) (by decide)
    obtain ⟨front, last, split, ended⟩ := splitOn_newline line
    rw [split] at filled
    have fits : matchSegments route.segments
        ((line ++ ['\n']).splitOn '/') = true := by
      rw [ended]
      exact matchSegments_newline filled
    have ordinary := exact.ordinary plain listed own fits
    have newline := List.all_eq_true.mp ordinary '\n' (by simp)
    exact absurd newline (by decide)

/-- An endpoint is matched exactly when it is clear. -/
theorem matchedExactly_iff (method : HttpMethod) (endpoint : Text) :
    MatchedExactly method endpoint ↔ Clear method endpoint :=
  ⟨MatchedExactly.clear, Clear.matchedExactly⟩

/-- A model's id with a question mark in it is taken as one segment. -/
theorem query_matched :
    ¬MatchedExactly .get "logged-models/m?x".toList := by
  intro exact
  have matched : matchRoute .get "logged-models/m?x".toList =
      some (⟨"logged-models/\x7bmodel_id\x7d", [.loggedModel]⟩,
        ["m?x".toList]) := by decide +kernel
  have spelled := ((exact.spelled _ _).mp matched).2
  have ordinary := (spelled.arguments_plain _ List.mem_cons_self).2.2
  exact absurd ordinary (by decide)

end IndustryFlow.Tracking
