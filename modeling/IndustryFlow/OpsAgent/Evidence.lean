import IndustryFlow.Dicts
import IndustryFlow.OpsAgent.Redaction
import Mathlib.Data.Char
import Mathlib.Data.List.Lex
import Mathlib.Data.List.Sort

/-!
# The evidence of a note

The steps of the graph between the tools and the model: what the tools gave is
put into words, one item after the other, made into one line each, redacted and
set out in the prompt.
-/

namespace IndustryFlow.OpsAgent

open Tracking (isSpace)

/-! ## The words of the evidence -/

/-- What is read of an alert. -/
structure Alert where
  labels : List (Text × Text)
  annotations : List (Text × Text)
  startsAt : Option Text

/-- What Python does with numbers: `float`, `:g`, `<` and the clock. -/
structure Numbers (Number : Type) where
  float : Text → Option Number
  general : Number → Text
  below : Number → Number → Bool
  clock : Number → Option Text

structure Series (Number : Type) where
  metric : List (Text × Text)
  values : List (Number × Text)

structure AlertRow where
  source : Text
  firesWhen : Text
  handling : Text

structure RunbookRow where
  source : Text
  symptom : Text
  cause : Text
  fix : Text

/-- What a tool answered, or why it did not. -/
inductive Answer (Number : Type) where
  | error (text : Text)
  | prometheusRange (series : List (Series Number)) (truncated : Bool)
  | lokiErrors (lines : List Text)
  | activeAlerts (alerts : List (Option Text))
  | alertRunbook (row : Option AlertRow)
  | runbookRows (rows : List RunbookRow)

structure Raw (Number : Type) where
  source : Text
  answer : Answer Number

/-- `str.join`. -/
def join (separator : String) (texts : List Text) : Text :=
  separator.toList.intercalate texts

/-- `sorted`, of the items of a dictionary. -/
def sortedItems (items : List (Text × Text)) : List (Text × Text) :=
  items.insertionSort fun first second => first.1 ≤ second.1

def equation (item : Text × Text) : Text :=
  item.1 ++ '=' :: item.2

/-- `str.split`. -/
def words (text : Text) : List Text :=
  (text.splitOnP isSpace).filter (· ≠ [])

/-- `text.replace("[E", "(E")`. -/
def unmark : Text → Text
  | '[' :: 'E' :: rest => '(' :: 'E' :: unmark rest
  | char :: rest => char :: unmark rest
  | [] => []

/-- `_flat`. -/
def flat (text : Text) : Text :=
  unmark ([' '].intercalate (words text))

def alertname : Text := "alertname".toList

def severity : Text := "severity".toList

def platform : Text := "platform".toList

def describe (alert : Alert) : Text :=
  let label (key : Text) (missing : String) : Text :=
    (alert.labels.lookup key).getD missing.toList
  let note (key : String) : List Text :=
    (alert.annotations.lookup key.toList).toList.filter (· ≠ [])
  let extra := alert.labels.filter fun item =>
    item.1 ≠ alertname ∧ item.1 ≠ severity ∧ item.1 ≠ platform
  join "; " ([label alertname "unnamed alert",
    "severity ".toList ++ label severity "unknown",
    "firing since ".toList ++ alert.startsAt.getD "unknown".toList] ++
    note "summary" ++ note "description" ++
    if extra = [] then []
    else ["labels: ".toList ++
      join ", " ((sortedItems extra).map equation)])

section

variable {Number : Type} (numbers : Numbers Number)

/-- `_own_series`. -/
def ownSeries (series : List (Series Number)) (alert : Alert) :
    List (Series Number) :=
  let labels := alert.labels.filter fun item =>
    item.1 ≠ alertname ∧ item.1 ≠ severity
  let own := series.filter fun one =>
    labels.all fun item => (one.metric.lookup item.1).getD item.2 = item.2
  if own.isEmpty then series else own

/-- `min`, and `max` with the order the other way. -/
def least (below : Number → Number → Bool) (first : Number)
    (rest : List Number) : Number :=
  rest.foldl (fun held next => if below next held then next else held) first

/-- `_series_summary`. -/
def seriesSummary (series : Series Number) : Option Text := do
  let values ← (series.values.filter fun sample =>
    sample.2 ≠ "NaN".toList ∧ sample.2 ≠ "+Inf".toList ∧
      sample.2 ≠ "-Inf".toList).mapM fun sample => numbers.float sample.2
  let metric := join ", " ((sortedItems (series.metric.filter fun item =>
    item.1 ≠ platform)).map equation)
  match values with
  | [] => some ('\x7b' :: metric ++ "\x7d: no samples".toList)
  | first :: rest =>
      let last := (first :: rest).getLastD first
      some ('\x7b' :: metric ++ "\x7d: ".toList ++
        Nat.toDigits 10 values.length ++ " samples, first ".toList ++
        numbers.general first ++ ", last ".toList ++ numbers.general last ++
        ", min ".toList ++ numbers.general (least numbers.below first rest) ++
        ", max ".toList ++ numbers.general (least
          (fun next held => numbers.below held next) first rest))

def revisionChars : Nat := 12

/-- The samples of each service, in the order in which the services come. -/
def revisionSamples (series : List (Series Number)) :
    List (Text × List (Number × Text)) :=
  series.foldl (fun samples one =>
    match one.metric.lookup "component".toList with
    | none | some [] => samples
    | some component =>
        let revision :=
          (one.metric.lookup "revision".toList).getD "unknown".toList
        let revision := if revision = "unknown".toList then
            "unknown (built without its commit)".toList
          else revision.take revisionChars
        let held := (samples.lookup component).getD []
        Dicts.set samples component (held ++ one.values.map fun sample =>
          (sample.1, revision))) []

/-- The runs of equal revisions: what each run is of, and its first and last
sample. -/
def revisionRuns (samples : List (Number × Text)) :
    List (Text × Number × Number) :=
  samples.foldl (fun runs sample =>
    match runs.getLast? with
    | some (revision, first, _) =>
        if revision = sample.2 then
          runs.dropLast ++ [(revision, first, sample.1)]
        else runs ++ [(sample.2, sample.1, sample.1)]
    | none => [(sample.2, sample.1, sample.1)]) []

/-- `_revisions_summary`. -/
def revisionsSummary (series : List (Series Number)) (truncated : Bool) :
    Option Text :=
  let samples := revisionSamples series
  let sorted (of : List (Number × Text)) : List (Number × Text) :=
    of.insertionSort fun first second => numbers.below first.1 second.1 ∨
      (¬numbers.below second.1 first.1 ∧ first.2 ≤ second.2)
  if samples.all fun entry => entry.2.isEmpty then
    some "no service reported its revision in the window".toList
  else do
    let services := (samples.filter fun entry =>
      ¬entry.2.isEmpty).insertionSort fun first second => first.1 ≤ second.1
    let parts ← services.mapM fun entry => do
      let runs := revisionRuns (sorted entry.2)
      let listed ← runs.mapM fun (revision, first, last) => do
        let since ← numbers.clock first
        let before ← numbers.clock last
        some ("revision ".toList ++ revision ++ " from ".toList ++ since ++
          " to ".toList ++ before)
      some (entry.1 ++ ": ".toList ++
        (if 1 < runs.length then "CHANGED in the window: ".toList else []) ++
        join ", then " listed)
    some (join "; " (parts ++ if truncated then
      ["more series than the query returns; ".toList ++
        "some services are not listed".toList] else []))

def revisionsSource : Text := "service revisions".toList

/-- The items of one entry: the source and the text of each. -/
def itemsOf (alert : Alert) (raw : Raw Number) : Option (List (Text × Text)) :=
  let source := raw.source
  match raw.answer with
  | .error text => some [(source, "unavailable: ".toList ++ text)]
  | .prometheusRange series truncated =>
      if source = revisionsSource then do
        some [(source, ← revisionsSummary numbers series truncated)]
      else do
        let lines ← (ownSeries series alert).mapM (seriesSummary numbers)
        some [(source, join "; " (if lines.isEmpty then
          ["no series returned".toList] else lines))]
  | .lokiErrors lines =>
      if lines.isEmpty then
        some [(source, "no error lines in the window".toList)]
      else
        let sample := join " " ((lines.take 8).map fun line =>
          '"' :: flat line ++ ['"'])
        some [(source, Nat.toDigits 10 lines.length ++
          " error lines; newest first: ".toList ++ sample)]
  | .activeAlerts alerts =>
      let name := alert.labels.lookup alertname
      let others := ((alerts.filterMap id).filter fun other =>
        other ≠ [] ∧ some other ≠ name).dedup.insertionSort (· ≤ ·)
      some [(source, "other active alerts: ".toList ++
        if others.isEmpty then "none".toList else join ", " others)]
  | .alertRunbook (some row) =>
      some [("runbook ".toList ++ row.source ++
          ", alert table (reference)".toList,
        flat ("fires when: ".toList ++ row.firesWhen ++
          "; handling: ".toList ++ row.handling))]
  | .alertRunbook none =>
      some [("runbook alert table (reference)".toList,
        "the runbooks have no entry for this alert name".toList)]
  | .runbookRows rows =>
      let items := rows.map fun row =>
        ("runbook ".toList ++ row.source ++ " (reference)".toList,
          flat ("symptom: ".toList ++ row.symptom ++ "; cause: ".toList ++
            row.cause ++ "; fix: ".toList ++ row.fix))
      some (items ++ if rows.isEmpty then
        [(source, "no matching runbook row".toList)] else [])

/-- An item of evidence, which `E` and its number name. -/
structure Item where
  number : Nat
  source : Text
  text : Text

/-- `correlate`. -/
def correlate (alert : Alert) (raw : List (Raw Number)) :
    Option (List Item) := do
  let items ← raw.mapM (itemsOf numbers alert)
  some ((items.flatten.zipIdx 1).map fun (item, number) =>
    ⟨number, flat item.1, flat item.2⟩)

end

/-! ## The prompt -/

/-- `[E<n>]`. -/
def marker (number : Nat) : Text :=
  '[' :: 'E' :: Nat.toDigits 10 number ++ [']']

/-- The line of an item. -/
def Item.line (item : Item) : Text :=
  marker item.number ++ ' ' :: '(' :: item.source ++ ')' :: ' ' :: item.text

def noItems : Text := ['(', 'n', 'o', 'n', 'e', ')']

/-- `block`. -/
def block (items : List Item) : Text :=
  let lines := ['\n'].intercalate (items.map Item.line)
  if lines = [] then noItems else lines

def referenceEnd : Text :=
  ['(', 'r', 'e', 'f', 'e', 'r', 'e', 'n', 'c', 'e', ')']

def Item.isReference (item : Item) : Bool :=
  referenceEnd.isSuffixOf item.source

def alertHeading : Text := ['A', 'l', 'e', 'r', 't', ':', ' ']

def observedHeading : Text := ['O', 'b', 's', 'e', 'r', 'v', 'e', 'd', ':']

def runbookHeading : Text :=
  ['R', 'u', 'n', 'b', 'o', 'o', 'k', ' ', 'r', 'e', 'f', 'e', 'r', 'e', 'n',
    'c', 'e', ':']

/-- The items, each with its source and its text redacted. -/
def redactItems (rules : List Rule) :
    Redactor → List Item → Redactor × List Item
  | redactor, [] => (redactor, [])
  | redactor, item :: rest =>
      let (sourced, source) := redactor.redact rules item.source
      let (texted, text) := sourced.redact rules item.text
      let (last, others) := redactItems rules texted rest
      (last, ⟨item.number, source, text⟩ :: others)

/-- The prompt that `redact` puts together. -/
def promptOf (alertText : Text) (evidence : List Item) : Text :=
  let observed := evidence.filter fun item => !item.isReference
  let reference := evidence.filter Item.isReference
  alertHeading ++ flat alertText ++ ['\n', '\n'] ++ observedHeading ++
    ['\n'] ++ block observed ++ ['\n', '\n'] ++ runbookHeading ++
      ['\n'] ++ block reference

/-- `redact`, as far as the prompt. -/
def redact (rules : List Rule) (alert : Alert) (evidence : List Item) : Text :=
  let (redactor, alertText) := Redactor.start.redact rules (describe alert)
  promptOf alertText (redactItems rules redactor evidence).2

end IndustryFlow.OpsAgent
