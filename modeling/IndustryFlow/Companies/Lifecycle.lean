import IndustryFlow.Concurrent.Obligation

/-!
# Suspending and reactivating a company

The handlers of `PUT` and `DELETE /companies/{company_id}` for one company.
The registry row and the suspension marker live in two stores: the handler
commits the row first and writes the marker after it, in a call of its own.
-/

namespace IndustryFlow.Companies

open Concurrent

/-- The answer of a refused request. -/
structure HttpError where
  status : Nat
  detail : String
deriving DecidableEq

/-- The errors the provisioning functions raise, by SQLSTATE. -/
inductive DbError where
  | uniqueViolation
  | checkViolation
  | noDataFound
  /-- SQLSTATE 55000 with its hint. -/
  | prerequisite (hint : String)
  | other
deriving DecidableEq

def prerequisiteDetail (hint : String) : String :=
  if hint = "deletion_requested" then
    "The company has a deletion request and can no longer be changed"
  else if hint = "not_suspended" then
    "Only a suspended company can be deleted"
  else if hint = "suspended_too_recently" then
    "The company has not been suspended long enough to be deleted"
  else "The company cannot be changed now"

/-- `_provisioning_error`. -/
def provisioningError : DbError → HttpError
  | .uniqueViolation => ⟨409, "A company with this name already exists"⟩
  | .checkViolation => ⟨422, "Invalid company name"⟩
  | .noDataFound => ⟨404, "Company not found"⟩
  | .prerequisite hint => ⟨409, prerequisiteDetail hint⟩
  | .other => ⟨500, "Company provisioning failed"⟩

structure Actor where
  isSuperuser : Bool
  companyId : String
deriving DecidableEq

structure CompanyUpdate where
  companyName : Option String
  isActive : Option Bool
deriving DecidableEq

structure CompanyRow where
  companyName : String
  isActive : Bool
deriving DecidableEq

inductive Action where
  | deactivate
  | reactivate
  | rename
deriving DecidableEq

/-- A write of the suspension marker, with the registry flag it found. -/
structure MarkerWrite where
  suspended : Bool
  registryActive : Bool
deriving DecidableEq

structure Stores where
  registry : CompanyRow
  /-- The company's users and whether they are active. -/
  users : List (String × Bool)
  lifecycle : List Action
  /-- The key `nbcap-suspended:{company_id}` of the capability store. -/
  marker : Bool
  /-- Users whose sessions were ended. -/
  sessionsEnded : List String
  /-- All marker writes, the latest first. -/
  markerWrites : List MarkerWrite

/-- A company as provisioning leaves it: active, without a marker. -/
def provisioned (name : String) (users : List (String × Bool)) : Stores :=
  ⟨⟨name, true⟩, users, [], false, [], []⟩

inductive Op where
  | readActive
  /-- The transaction of a handler, with its commit. -/
  | update (name : Option String) (isActive : Option Bool)
      (actions : List Action) (deactivateUsers : Bool)
  | endSqlSessions
  | markSuspended
  | clearSuspended
  | endAllSessions (user : String)
deriving DecidableEq

abbrev Reply : Op → Type
  | .readActive => Bool
  | .update _ _ _ _ => Except DbError (CompanyRow × List String)
  | .endSqlSessions => Except DbError Unit
  | .markSuspended => Unit
  | .clearSuspended => Unit
  | .endAllSessions _ => Unit

/-- `public.update_company` and the statements around it. -/
def Stores.update (stores : Stores) (name : Option String)
    (isActive : Option Bool) (actions : List Action)
    (deactivateUsers : Bool) : Stores :=
  { stores with
    registry :=
      { companyName := name.getD stores.registry.companyName
        isActive := isActive.getD stores.registry.isActive }
    users := if deactivateUsers then stores.users.map fun user =>
      (user.1, false) else stores.users
    lifecycle := actions ++ stores.lifecycle }

def Stores.writeMarker (stores : Stores) (suspended : Bool) : Stores :=
  { stores with
    marker := suspended
    markerWrites :=
      ⟨suspended, stores.registry.isActive⟩ :: stores.markerWrites }

/-- The choice is the error a database call raises, if it does. -/
def exec (stores : Stores) :
    (op : Op) → Option DbError → Option (Reply op × Stores)
  | .readActive, _ => some (stores.registry.isActive, stores)
  | .update name isActive actions deactivateUsers, none =>
      let after := stores.update name isActive actions deactivateUsers
      some (.ok (after.registry, after.users.map Prod.fst), after)
  | .update _ _ _ _, some error => some (.error error, stores)
  | .endSqlSessions, none => some (.ok (), stores)
  | .endSqlSessions, some error => some (.error error, stores)
  | .markSuspended, _ => some ((), stores.writeMarker true)
  | .clearSuspended, _ => some ((), stores.writeMarker false)
  | .endAllSessions user, _ => some ((), { stores with
      sessionsEnded := user :: stores.sessionsEnded })

abbrev Handler := Program Op Reply HttpError

abbrev readActive : Handler Bool :=
  Program.perform Op.readActive

abbrev updateRow (name : Option String) (isActive : Option Bool)
    (actions : List Action) (deactivateUsers : Bool) :
    Handler (Except DbError (CompanyRow × List String)) :=
  Program.perform (Op.update name isActive actions deactivateUsers)

abbrev endSqlSessions : Handler (Except DbError Unit) :=
  Program.perform Op.endSqlSessions

abbrev markSuspended : Handler Unit :=
  Program.perform Op.markSuspended

abbrev clearSuspended : Handler Unit :=
  Program.perform Op.clearSuspended

abbrev endAllSessions (user : String) : Handler Unit :=
  Program.perform (Op.endAllSessions user)

def orProvisioningError {Answer : Type} :
    Except DbError Answer → Handler Answer
  | .ok answer => .done answer
  | .error error => .fail (provisioningError error)

def superuserRequired : HttpError :=
  ⟨403, "Superuser privileges required"⟩

def companyNotFound : HttpError :=
  ⟨404, "Company not found"⟩

def ownCompanyRefused : HttpError :=
  ⟨400, "Cannot deactivate your own company"⟩

def endSessionsOf : List String → Handler Unit
  | [] => pure ()
  | user :: users => do
      endAllSessions user
      endSessionsOf users

/-- `_suspended`, after a transition to inactive has committed. -/
def suspended (users : List String) : Handler Unit := do
  let ended ← endSqlSessions
  orProvisioningError ended
  markSuspended
  endSessionsOf users

/-- `_reactivated`. -/
def reactivated : Handler Unit :=
  clearSuspended

/-- The flag a request may set: an administrator who is not a superuser may
send the current one back, which then counts as not given. -/
def requestedFlag (actor : Actor) :
    Option Bool → Handler (Option Bool)
  | none => pure none
  | some flag =>
      if actor.isSuperuser then pure (some flag)
      else do
        let current ← readActive
        if current = flag then pure none else .fail superuserRequired

def updateActions (name : Option String) (isActive : Option Bool) :
    List Action :=
  (match isActive with
    | some false => [.deactivate]
    | some true => [.reactivate]
    | none => []) ++ if name.isSome then [.rename] else []

/-- What follows the commit of an update. -/
def afterUpdate (isActive : Option Bool) (row : CompanyRow)
    (users : List String) : Handler CompanyRow :=
  match isActive with
  | some false => do
      suspended users
      pure row
  | some true => do
      reactivated
      pure row
  | none => pure row

def updateCompany (company : String) (actor : Actor)
    (update : CompanyUpdate) : Handler CompanyRow :=
  if !actor.isSuperuser && actor.companyId != company then
    .fail companyNotFound
  else do
    let isActive ← requestedFlag actor update.isActive
    if update.companyName.isNone && isActive.isNone then
      .fail ⟨400, "No fields to update"⟩
    else if isActive == some false && actor.companyId == company then
      .fail ownCompanyRefused
    else do
      let answer ← updateRow update.companyName isActive
        (updateActions update.companyName isActive) false
      let (row, users) ← orProvisioningError answer
      afterUpdate isActive row users

def deleteCompany (company : String) (actor : Actor) :
    Handler CompanyRow :=
  if !actor.isSuperuser then .fail superuserRequired
  else if actor.companyId == company then .fail ownCompanyRefused
  else do
    let answer ← updateRow none (some false) [.deactivate] true
    let (row, users) ← orProvisioningError answer
    suspended users
    pure row

inductive Request where
  | update (actor : Actor) (update : CompanyUpdate)
  | delete (actor : Actor)
deriving DecidableEq

def handle (company : String) : Request → Handler CompanyRow
  | .update actor update => updateCompany company actor update
  | .delete actor => deleteCompany company actor

/-- The requests for one company.  Nothing else changes its stores. -/
def companies (company : String) :
    Pool.System Stores Request Op Reply HttpError CompanyRow
      (Option DbError) Empty where
  code := handle company
  dead := ⟨500, "Internal Server Error"⟩
  exec := exec
  change _ change := nomatch change

end IndustryFlow.Companies
