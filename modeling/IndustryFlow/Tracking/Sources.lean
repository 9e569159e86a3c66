import IndustryFlow.Tenancy.Keys

/-!
# The source of a model version

`source_kind` classifies the text a model version names as its source, and the
ownership check follows the classification.  The reader of the registered
version takes the same text, as it was sent, for a URI.  Where the two
readings part, the location read is outside the tenant.
-/

namespace IndustryFlow.Tracking

open Tenancy

/-! ## The classification -/

/-- `str.isspace` of one character. -/
def isSpace (char : Char) : Bool :=
  let code := char.toNat
  (9 ≤ code && code ≤ 13) || (28 ≤ code && code ≤ 32) || code = 0x85 ||
    code = 0xa0 || code = 0x1680 || (0x2000 ≤ code && code ≤ 0x200a) ||
    code = 0x2028 || code = 0x2029 || code = 0x202f || code = 0x205f ||
    code = 0x3000

/-- `str.strip`. -/
def strip (text : Text) : Text :=
  (text.dropWhile isSpace).rdropWhile isSpace

/-- Where `$` matches. -/
def atEnd (text : Text) : Bool :=
  text = [] || text = ['\n']

def after (literal text : Text) : Option Text :=
  if literal.isPrefixOf text then some (text.drop literal.length) else none

def runsScheme : Text := ['r', 'u', 'n', 's']

def modelsScheme : Text := ['m', 'o', 'd', 'e', 'l', 's']

def artifactScheme : Text :=
  ['m', 'l', 'f', 'l', 'o', 'w', '-', 'a', 'r', 't', 'i', 'f', 'a', 'c', 't',
    's']

/-- A group of so many characters, and what may follow it. -/
def capture (count : Nat) (valid ending : Text → Bool) (text : Text) :
    Option Text :=
  let group := text.take count
  if group.length = count ∧ valid group = true ∧
      ending (text.drop count) = true then
    some group
  else none

/-- `_RUNS_SOURCE`, as the group it captures. -/
def runsSource (source : Text) : Option Text :=
  (after (runsScheme ++ [':', '/']) source).bind <|
    capture 32 (fun run => run.all isLowerHex) fun tail =>
      atEnd tail ||
        (tail.head? = some '/' && atEnd (tail.tail.dropWhile (· ≠ '\n')))

/-- `_LOGGED_MODEL_SOURCE`, as the group it captures. -/
def loggedModelSource (source : Text) : Option Text :=
  (after (modelsScheme ++ [':', '/']) source).bind <|
    capture 34
      (fun model => model.take 2 = ['m', '-'] &&
        (model.drop 2).all isLowerHex)
      fun tail => atEnd tail || (tail.head? = some '/' && atEnd tail.tail)

inductive Source where
  | run (id : Text)
  | loggedModel (id : Text)
  | artifact (key : Text)
  | refused (reason : String)
  deriving DecidableEq

/-- `source_kind`. -/
def sourceKind (source : Text) : Source :=
  let source := strip source
  match runsSource source with
  | some run => .run run
  | none =>
      match loggedModelSource source with
      | some model => .loggedModel model
      | none =>
          match after (artifactScheme ++ [':', '/']) source with
          | some key => .artifact key
          | none =>
              .refused ("model version source must be runs:/<run>, " ++
                "models:/<logged model> or a tenant artifact path")

/-- The tracking server as far as a source depends on it: which runs and
logged models the ownership lookups find to be the tenant's, and where the
server put the artifacts of each.  It derives these places from the location
that the gateway chose for the experiment, below the tenant's prefix. -/
structure Server (company : Company) where
  ownsRun : Text → Bool
  ownsModel : Text → Bool
  runRoot : Text → Option Text
  modelRoot : Text → Option Text
  run_rooted : ∀ run, ownsRun run = true →
    ∃ root, runRoot run = some root ∧ isPlainKey root = true ∧
      artifactPrefix company <+: root
  model_rooted : ∀ model, ownsModel model = true →
    ∃ root, modelRoot model = some root ∧ isPlainKey root = true ∧
      artifactPrefix company <+: root
  run_spelled : ∀ run, (runRoot run).isSome = true → run.length = 32
  model_spelled : ∀ model, (modelRoot model).isSome = true →
    model.length = 34

variable {company : Company}

def isScheme (name : Text) : Bool :=
  name.head?.any Char.isAlpha &&
    name.all fun char => char.isAlphanum || char ∈ ['+', '-', '.']

/-- The scheme and what follows its colon. -/
def splitScheme (uri : Text) : Option (Text × Text) :=
  let name := uri.takeWhile (· ≠ ':')
  match uri.drop name.length with
  | ':' :: rest => if isScheme name then some (name, rest) else none
  | _ => none

/-- The path, without an authority that stands before it. -/
def uriPath : Text → Text
  | '/' :: '/' :: rest => rest.dropWhile (· ≠ '/')
  | path => path

inductive Location where
  | stored (key : Text)
  | elsewhere
  deriving DecidableEq

/-- The place of an entity's artifacts, and the rest of the path below it. -/
def below (root : Text → Option Text) (path : Text) : Option Location :=
  let named := stripLeft path
  let entity := named.takeWhile (· ≠ '/')
  (root entity).map fun place =>
    .stored (normalize (place ++ named.drop entity.length))

/-- The location a text denotes. -/
def located (server : Server company) (source : Text) : Option Location :=
  match splitScheme source with
  | none => some .elsewhere
  | some (scheme, rest) =>
      if scheme = runsScheme then below server.runRoot (uriPath rest)
      else if scheme = modelsScheme then below server.modelRoot (uriPath rest)
      else if scheme = artifactScheme then
        some (.stored (normalize (uriPath rest)))
      else some .elsewhere

def Location.Under (company : Company) : Location → Prop
  | .stored key => artifactPrefix company <+: key
  | .elsewhere => False

/-- Where a walk along path segments is: so many levels below the tenant's
directory, or so many below the top and not in that directory. -/
inductive Place where
  | inside (level : Nat)
  | outside (level : Nat)
  deriving DecidableEq

def Place.up : Place → Place
  | .inside 0 => .outside 0
  | .inside (level + 1) => .inside level
  | .outside level => .outside (level - 1)

def Place.down (own : Bool) : Place → Place
  | .inside level => .inside (level + 1)
  | .outside 0 => if own then .inside 0 else .outside 1
  | .outside (level + 1) => .outside (level + 2)

def Place.step (token : Text) (place : Place) (segment : Text) : Place :=
  if segment = [] ∨ segment = ['.'] then place
  else if segment = ['.', '.'] then place.up
  else place.down (segment = token)

/-- Below the tenant's directory. -/
def Place.within : Place → Bool
  | .inside (_ + 1) => true
  | _ => false

/-- The segments after a run's root lead back below the tenant's directory. -/
def staysBelow (company : Company) (root tail : Text) : Bool :=
  let level := (root.splitOn '/').length - 1
  ((tail.splitOn '/').foldl (Place.step (tenantToken company))
    (.inside level)).within

/-- The place that resolved segments lead to. -/
def Place.at (token : Text) : List Text → Place
  | [] => .outside 0
  | first :: rest =>
      if first = token then .inside rest.length
      else .outside (rest.length + 1)

/-- What follows an identifier: no slash and no dot, or a slash first. -/
def Follows (tail : Text) : Prop :=
  '/' ∉ tail ∧ '.' ∉ tail ∨ ∃ path, tail = '/' :: path

end IndustryFlow.Tracking
