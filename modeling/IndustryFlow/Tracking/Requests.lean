import IndustryFlow.Json
import IndustryFlow.Tracking.Artifacts

/-!
# The message of a tracking request

The tracking server reads the fields of a GET from its query string and those
of any other method from its JSON body.  The gateway refuses a request that
carries fields in the other place and works on the one message.
-/

namespace IndustryFlow.Tracking

/-- A request's body: none, one that is not JSON, or a JSON value. -/
inductive Body where
  | empty
  | invalid
  | value (json : Json)

inductive HttpMethod where
  | get
  | post
  | put
  | patch
  | delete
deriving DecidableEq

abbrev Message := List (String × Json)

/-- `_json_body`, of a request that is not a GET. -/
def jsonBody : Body → Except Refusal Message
  | .empty => .ok []
  | .invalid => .error ⟨400, "invalid JSON body"⟩
  | .value (.obj members) => .ok (Json.dict members)
  | .value _ => .error ⟨400, "the JSON body must be an object"⟩

/-- One item of a query: a field that comes again keeps every value. -/
def addItem (message : Message) (item : String × String) : Message :=
  match message.lookup item.1 with
  | some (.arr values) =>
      Json.setItem message item.1 (.arr (values ++ [.str item.2]))
  | some value =>
      Json.setItem message item.1 (.arr [value, .str item.2])
  | none => Json.setItem message item.1 (.str item.2)

/-- `_request_message`. -/
def requestMessage (method : HttpMethod) (query : List (String × String))
    (body : Body) : Except Refusal Message :=
  match method with
  | .get =>
      match body with
      | .empty => .ok (query.foldl addItem [])
      | _ => .error ⟨400,
          "a GET request carries its fields in the query string"⟩
  | _ =>
      if query.isEmpty then jsonBody body
      else .error ⟨400,
        "this request carries its fields in the JSON body, " ++
          "not the query string"⟩

end IndustryFlow.Tracking
