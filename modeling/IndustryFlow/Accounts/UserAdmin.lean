import IndustryFlow.Accounts.UserTable
import IndustryFlow.Concurrent.Pool

/-!
# Tenant-scoped user administration

The three routes that write users, each a sequence of statements on the user
table beside the others.  A request has one session: the row of its caller is
loaded once, and a later select of that row gives the object it has.  `moves`
counts the superusers' writes of a row's company or superuser flag and is not
read by the code, nor is the list of writes.
-/

namespace IndustryFlow.UserAdmin

open Concurrent

/-- A row as the session loaded it, with the row's count of moves then. -/
structure Loaded where
  user : User
  moves : Nat
deriving DecidableEq

/-- A write that has been committed: the caller and the target as the request
loaded them, the target's row before it and after it, and the caller's row. -/
structure Write where
  admin : Loaded
  target : Option Loaded
  before : Option Loaded
  after : Option User
  own : Option Loaded
deriving DecidableEq

structure Store where
  table : Table
  moves : Nat → Nat
  /-- Every id there has been. -/
  ids : List Nat
  writes : List Write

namespace Store

def load (store : Store) (id : Nat) : Option Loaded :=
  (store.table.find id).map (⟨·, store.moves id⟩)

/-- The row changes company or becomes or ceases to be a superuser. -/
def moved (store : Store) (admin before after : User) : Nat → Nat :=
  if admin.isSuperuser ∧ (before.companyId ≠ after.companyId ∨
      before.isSuperuser ≠ after.isSuperuser) then
    Function.update store.moves before.id (store.moves before.id + 1)
  else store.moves

def log (store : Store) (admin : Loaded) (target : Option Loaded)
    (after : Option User) : List Write :=
  store.writes ++ [⟨admin, target,
    target.bind fun loaded => store.load loaded.user.id, after,
    store.load admin.user.id⟩]

end Store

/-! ## Statements -/

/-- The columns of a new row but its id. -/
structure NewUser where
  email : String
  hashedPassword : String
  companyId : Nat
  role : Role
  isActive : Bool
  isSuperuser : Bool
  isVerified : Bool
deriving DecidableEq

def NewUser.row (new : NewUser) (id : Nat) : User where
  id := id
  email := new.email
  hashedPassword := new.hashedPassword
  companyId := new.companyId
  role := new.role
  isActive := new.isActive
  isSuperuser := new.isSuperuser
  isVerified := new.isVerified
  passwordChangeRequired := false

inductive Error where
  | http (status : Nat) (detail : String)
  /-- A 400 with a code and the reason. -/
  | invalidPassword (code : String)
  | integrity
  /-- `StaleDataError`. -/
  | stale
  /-- `MultipleResultsFound`. -/
  | multiple
  | dead
deriving DecidableEq

inductive Op where
  | select (id : Nat)
  /-- The rest of `read_token`: the company, the session, a held account. -/
  | acceptToken (id : Nat)
  | countByEmail (email : Option String)
  | hash (password : String)
  | insert (admin : Loaded) (new : NewUser)
  | update (admin target : Loaded) (assignments : List Assignment)
  | delete (admin target : Loaded)
  | endAllSessions (id : Nat)
  | clearFailures (email : String)
deriving DecidableEq

/-- What a flush and its commit come to. -/
inductive Flushed where
  | committed
  | integrity
  | stale
deriving DecidableEq

def Reply : Op → Type
  | .select _ => Option Loaded
  | .acceptToken _ => Option Error
  | .countByEmail _ => Nat
  | .hash _ => String
  | .insert _ _ | .update _ _ _ => Flushed
  | .delete _ _ | .endAllSessions _ => Unit
  | .clearFailures _ => Bool

/-- What the code leaves open: whether a token is refused, the salt of a hash,
the id of a row, whether the throttle's store answers. -/
inductive Choice where
  | passes
  | refuses (status : Nat) (detail : String)
  | salted (hash : String)
  | fresh (id : Nat)
  | fails
deriving DecidableEq

structure Library where
  /-- The database's `lower`. -/
  lower : String → String
  /-- `password.strip().lower()`. -/
  bare : String → String
  /-- `password_helper.verify_and_update(password, hashed)[0]`. -/
  verifies : String → String → Bool

variable (library : Library)

def insertRow (store : Store) (admin : Loaded) (row : User) :
    Flushed × Store :=
  match store.table.insert row with
  | none => (.integrity, store)
  | some table => (.committed, { store with
      table, ids := row.id :: store.ids
      writes := store.log admin none (some row) })

/-- Only the columns that differ are set; without any there is no statement. -/
def updateRow (store : Store) (admin target : Loaded)
    (assignments : List Assignment) : Flushed × Store :=
  if assignments = [] then (.committed, store)
  else
    match store.table.find target.user.id with
    | none => (.stale, store)
    | some before =>
        match (Assignment.applyAll before assignments).bind fun after =>
            (store.table.write after).map (after, ·) with
        | none => (.integrity, store)
        | some (after, table) => (.committed, { store with
            table, moves := store.moved admin.user before after
            writes := store.log admin (some target) (some after) })

/-- A row that is gone already is only warned of. -/
def deleteRow (store : Store) (admin target : Loaded) : Store :=
  match store.table.find target.user.id with
  | none => store
  | some _ => { store with
      table := store.table.erase target.user.id
      writes := store.log admin (some target) none }

def exec (store : Store) : (op : Op) → Choice → Option (Reply op × Store)
  | .select id, _ => some (store.load id, store)
  | .acceptToken _, .refuses status detail =>
      some (some (.http status detail), store)
  | .acceptToken _, _ => some (none, store)
  | .countByEmail email, _ => some (store.table.rows.countP fun row =>
      email.any (library.lower · = library.lower row.email), store)
  | .hash _, .salted hash => some (hash, store)
  | .hash _, _ => none
  | .insert admin new, .fresh id =>
      if id ∈ store.ids then none
      else some (insertRow store admin (new.row id))
  | .insert _ _, _ => none
  | .update admin target assignments, _ =>
      some (updateRow store admin target assignments)
  | .delete admin target, _ => some ((), deleteRow store admin target)
  | .endAllSessions _, _ => some ((), store)
  | .clearFailures _, .fails => some (false, store)
  | .clearFailures _, _ => some (true, store)

/-! ## The bodies -/

structure AdminUserCreate where
  email : String
  password : String
  role : Role
  /-- Unset, null or a company. -/
  companyId : Option (Option Nat)
  isActive : Bool
  isSuperuser : Option Bool
deriving DecidableEq

/-- Each field unset, null or a value. -/
structure AdminUserUpdate where
  password : Option (Option String)
  email : Option (Option String)
  isActive : Option (Option Bool)
  isSuperuser : Option (Option Bool)
  /-- Unset or null. -/
  isVerified : Option Unit
  role : Option (Option Role)
  companyId : Option (Option Nat)
deriving DecidableEq

/-! ## The routes -/

abbrev Handler := Program Op Reply Error

def defaultPassword : String := "industryflow"

/-- `current_active_user`. -/
def currentActiveUser (id : Nat) : Handler Loaded := do
  let row ← Program.perform (Op.select id)
  match row with
  | none => .fail (.http 401 "Unauthorized")
  | some user => do
      let refusal ← Program.perform (Op.acceptToken id)
      match refusal with
      | some error => .fail error
      | none =>
          if user.user.isActive then pure user
          else .fail (.http 401 "Unauthorized")

/-- `require_role("admin")`. -/
def requireAdmin (id : Nat) : Handler Loaded := do
  let user ← currentActiveUser id
  if user.user.isSuperuser then pure user
  else if user.user.role ≠ .admin then
    .fail (.http 403 "Required role: admin")
  else pure user

/-- The object that the session of the caller has for a row. -/
def inSession (admin found : Loaded) : Loaded :=
  if found.user.id = admin.user.id then admin else found

/-- A target that there is. -/
def checkScope (admin target : Loaded) : Handler Loaded :=
  if admin.user.isSuperuser = false ∧
      target.user.companyId ≠ admin.user.companyId then
    .fail (.http 404 "User not found")
  else if target.user.isSuperuser ∧ admin.user.isSuperuser = false then
    .fail (.http 403 "Superuser privileges required")
  else pure target

/-- `_target_in_scope`. -/
def targetInScope (userId : Nat) (admin : Loaded) : Handler Loaded := do
  let row ← Program.perform (Op.select userId)
  match row with
  | none => .fail (.http 404 "User not found")
  | some found => checkScope admin (inSession admin found)

/-- `_refuse_superuser_only`, of which fields are there. -/
def refuseSuperuserOnly (admin : Loaded) (companyId isSuperuser : Bool) :
    Handler Unit :=
  if admin.user.isSuperuser = false ∧ (companyId ∨ isSuperuser) then
    .fail (.http 403 "Superuser privileges required")
  else pure ()

/-- Of so many rows with an email. -/
def inUse : Nat → Handler Unit
  | 0 => pure ()
  | 1 => .fail (.http 400 "Email already in use")
  | _ => .fail .multiple

/-- `get_by_email`, which may find no row. -/
def emailFree (email : Option String) : Handler Unit := do
  let count ← Program.perform (Op.countByEmail email)
  inUse count

def committed : Flushed → Handler Unit
  | .committed => pure ()
  | .integrity => .fail .integrity
  | .stale => .fail .stale

/-- `create_user`. -/
def createUser (adminId : Nat) (body : AdminUserCreate) : Handler Unit := do
  let admin ← requireAdmin adminId
  let companyId :=
    if body.companyId = some (some admin.user.companyId) then none
    else body.companyId
  let isSuperuser :=
    if body.isSuperuser = some false then none else body.isSuperuser
  refuseSuperuserOnly admin companyId.isSome isSuperuser.isSome
  emailFree (some body.email)
  let hashed ← Program.perform (Op.hash body.password)
  let flushed ← Program.perform (Op.insert admin
    { email := body.email
      hashedPassword := hashed
      companyId := companyId.join.getD admin.user.companyId
      role := body.role
      isActive := body.isActive
      isSuperuser := isSuperuser.getD false
      isVerified := false })
  committed flushed

/-- `validate_password`: whether a held account may not take it. -/
def refusedPassword (password : String) (user : User) : Bool :=
  user.passwordChangeRequired &&
    (library.bare password = defaultPassword ||
      (user.hashedPassword ≠ "" &&
        library.verifies password user.hashedPassword))

/-- A password in `_update`; a null one is no column. -/
def assignedPassword (target : Loaded) :
    Option (Option String) → Handler (List Assignment)
  | some (some password) =>
      if refusedPassword library password target.user then
        .fail (.invalidPassword "UPDATE_USER_INVALID_PASSWORD")
      else do
        let hashed ← Program.perform (Op.hash password)
        pure [.hashedPassword hashed]
  | _ => pure []

/-- An email in `_update`. -/
def assignedEmail (target : Loaded) :
    Option (Option String) → Handler (List Assignment)
  | none => pure []
  | some email =>
      if email = some target.user.email then pure [.email email]
      else do
        emailFree email
        pure [.email email, .isVerified (some false)]

/-- The other fields in `_update`. -/
def assignedRest (target : Loaded) (fields : AdminUserUpdate) :
    List Assignment :=
  (fields.isActive.map Assignment.isActive).toList ++
    (fields.isSuperuser.map Assignment.isSuperuser).toList ++
    (fields.isVerified.map fun _ => Assignment.isVerified none).toList ++
    (fields.role.map Assignment.role).toList ++
    (fields.companyId.map Assignment.companyId).toList ++
    if target.user.passwordChangeRequired ∧ fields.password.join.isSome then
      [.passwordChangeRequired false]
    else []

/-- `end_all_sessions`. -/
def endAllSessions (id : Nat) : Handler Unit :=
  Program.perform (Op.endAllSessions id)

/-- The sessions that `on_after_update` ends. -/
def endSessions (target : Loaded) (fields : AdminUserUpdate) :
    Handler Unit :=
  if fields.password.isSome ∨ fields.companyId.isSome ∨
      fields.isActive = some (some false) then
    endAllSessions target.user.id
  else pure ()

/-- `_clear_sign_in_failures`, for the email after the update. -/
def clearSignInFailures (target : Loaded) (fields : AdminUserUpdate) :
    Handler Unit :=
  if fields.password.isSome then do
    let cleared ← Program.perform (Op.clearFailures
      (fields.email.join.getD target.user.email))
    match cleared with
    | true => pure ()
    | false => .fail (.http 503 "Session store not available")
  else pure ()

/-- `on_after_update`. -/
def onAfterUpdate (target : Loaded) (fields : AdminUserUpdate) :
    Handler Unit := do
  endSessions target fields
  clearSignInFailures target fields

/-- `manager.update`. -/
def update (admin target : Loaded) (fields : AdminUserUpdate) :
    Handler Unit := do
  let password ← assignedPassword library target fields.password
  let email ← assignedEmail target fields.email
  let assignments := password ++ email ++ assignedRest target fields
  let flushed ← Program.perform (Op.update admin target
    (assignments.filter (·.differs target.user)))
  committed flushed
  onAfterUpdate target fields

/-- The fields without those that change nothing. -/
def AdminUserUpdate.without (fields : AdminUserUpdate) (target : User) :
    AdminUserUpdate where
  password := fields.password
  email := fields.email
  isActive := fields.isActive
  isSuperuser :=
    if fields.isSuperuser = some (some target.isSuperuser) then none
    else fields.isSuperuser
  isVerified := fields.isVerified
  role := fields.role
  companyId :=
    if fields.companyId = some (some target.companyId) then none
    else fields.companyId

/-- `update_user`. -/
def updateUser (adminId userId : Nat) (body : AdminUserUpdate) :
    Handler Unit := do
  let admin ← requireAdmin adminId
  let target ← targetInScope userId admin
  let fields := body.without target.user
  refuseSuperuserOnly admin fields.companyId.isSome fields.isSuperuser.isSome
  update library admin target fields

/-- `delete_user`. -/
def deleteUser (adminId userId : Nat) : Handler Unit := do
  let admin ← requireAdmin adminId
  let target ← targetInScope userId admin
  if target.user.id = admin.user.id then
    .fail (.http 400 "Cannot delete yourself")
  else do
    Program.perform (Op.delete admin target)
    endAllSessions target.user.id

/-! ## The gateway -/

inductive Request where
  | create (adminId : Nat) (body : AdminUserCreate)
  | update (adminId userId : Nat) (body : AdminUserUpdate)
  | delete (adminId userId : Nat)
deriving DecidableEq

def code : Request → Handler Unit
  | .create adminId body => createUser adminId body
  | .update adminId userId body => updateUser library adminId userId body
  | .delete adminId userId => deleteUser adminId userId

abbrev Gateway := Pool Store Request Op Reply Error Unit

abbrev Event := PoolEvent Request Choice Empty

def gateway : Pool.System Store Request Op Reply Error Unit Choice Empty where
  code := code library
  dead := .dead
  exec := exec library
  change _ := nofun

/-- The table before any request. -/
def start (table : Table) : Store where
  table := table
  moves _ := 0
  ids := table.rows.map User.id
  writes := []

end IndustryFlow.UserAdmin
