import IndustryFlow.Concurrent.Obligation

/-!
# The handles of one user

The capability store as minting, refreshing and revoking the handles of one
user use it: the entries with their expiry, the hub's index of the handles it
minted (a hash) and the index of upload handles (a set).  Minting writes an
entry and its index field in one transaction.  Refreshing and revoking read an
index first and then go through the handles one call at a time.  All lifetimes
are the same.
-/

namespace IndustryFlow.Capabilities

open Concurrent

inductive Bound where
  | server (name : String)
  | upload
  deriving DecidableEq

structure Entry where
  bound : Bound
  expires : Nat
  deriving DecidableEq

/-- `nbcap-user:{user}`. -/
structure HubIndex where
  servers : List (Nat × String)
  expires : Nat
  deriving DecidableEq

/-- The index without the fields of some handles. -/
def HubIndex.without (index : HubIndex) (handles : List Nat) : HubIndex :=
  { index with
    servers := index.servers.filter fun item => item.1 ∉ handles }

/-- `nbcap-upload-user:{user}`. -/
structure UploadIndex where
  handles : List Nat
  expires : Nat
  deriving DecidableEq

/-- Handles are numbered as they are minted.  A key whose expiry has come is
not there any more. -/
structure Store where
  now : Nat
  entries : List (Option Entry)
  hub : Option HubIndex
  upload : Option UploadIndex
  suspended : Bool
  deriving DecidableEq

def Store.empty (now : Nat) : Store :=
  ⟨now, [], none, none, false⟩

/-- The live entry of a handle. -/
def Store.get (store : Store) (handle : Nat) : Option Entry :=
  store.entries[handle]?.join.filter fun entry => store.now < entry.expires

def Store.hubIndex (store : Store) : Option HubIndex :=
  store.hub.filter fun index => store.now < index.expires

def Store.uploadIndex (store : Store) : Option UploadIndex :=
  store.upload.filter fun index => store.now < index.expires

def Store.items (store : Store) : List (Nat × String) :=
  (store.hubIndex.map HubIndex.servers).getD []

def Store.members (store : Store) : List Nat :=
  (store.uploadIndex.map UploadIndex.handles).getD []

inductive Op where
  | isSuspended
  /-- `set_recorded` with an index field. -/
  | setRecorded (server : String)
  /-- The transaction of `mint_upload_capability`. -/
  | addRecorded
  | indexItems
  | uploadMembers
  | get (handle : Nat)
  /-- `DELETE_RECORDED_SCRIPT`. -/
  | deleteRecorded (handle : Nat)
  | indexRemove (handles : List Nat)
  | deleteIndex
  | deleteIndexes
  | expireEntry (handle : Nat)
  | expireIndex
  deriving DecidableEq

abbrev Reply : Op → Type
  | .isSuspended => Bool
  | .setRecorded _ => Nat
  | .addRecorded => Nat
  | .indexItems => List (Nat × String)
  | .uploadMembers => List Nat
  | .get _ => Option Entry
  | .deleteRecorded _ => Bool
  | .indexRemove _ => Unit
  | .deleteIndex => Unit
  | .deleteIndexes => Unit
  | .expireEntry _ => Bool
  | .expireIndex => Bool

/-- `ttl` is the common lifetime. -/
def exec (ttl : Nat) (store : Store) :
    (op : Op) → Unit → Option (Reply op × Store)
  | .isSuspended, _ => some (store.suspended, store)
  | .setRecorded server, _ => some (store.entries.length, { store with
      entries := store.entries ++ [some ⟨.server server, store.now + ttl⟩]
      hub := some ⟨(store.entries.length, server) :: store.items,
        store.now + ttl⟩ })
  | .addRecorded, _ => some (store.entries.length, { store with
      entries := store.entries ++ [some ⟨.upload, store.now + ttl⟩]
      upload := some ⟨store.entries.length :: store.members,
        store.now + ttl⟩ })
  | .indexItems, _ => some (store.items, store)
  | .uploadMembers, _ => some (store.members, store)
  | .get handle, _ => some (store.get handle, store)
  | .deleteRecorded handle, _ => some ((store.get handle).isSome,
      { store with entries := store.entries.set handle none })
  | .indexRemove handles, _ => some ((), { store with
      hub := (store.hubIndex.map fun index => index.without handles).filter
        fun index => !index.servers.isEmpty })
  | .deleteIndex, _ => some ((), { store with hub := none })
  | .deleteIndexes, _ =>
      some ((), { store with hub := none, upload := none })
  | .expireEntry handle, _ =>
      match store.get handle with
      | none => some (false, store)
      | some entry => some (true, { store with
          entries := store.entries.set handle
            (some { entry with expires := store.now + ttl }) })
  | .expireIndex, _ =>
      match store.hubIndex with
      | none => some (false, store)
      | some index => some (true, { store with
          hub := some { index with expires := store.now + ttl } })

inductive Change where
  | tick (seconds : Nat)
  | suspend (suspended : Bool)
  deriving DecidableEq

def change (store : Store) : Change → Option Store
  | .tick seconds => some { store with now := store.now + seconds }
  | .suspend suspended => some { store with suspended }

/-! ## The code -/

inductive Refusal where
  | companySuspended
  | died
  deriving DecidableEq

abbrev Handler := Program Op Reply Refusal

abbrev isSuspended : Handler Bool :=
  Program.perform Op.isSuspended

abbrev setRecorded (server : String) : Handler Nat :=
  Program.perform (Op.setRecorded server)

abbrev addRecorded : Handler Nat :=
  Program.perform Op.addRecorded

abbrev indexItems : Handler (List (Nat × String)) :=
  Program.perform Op.indexItems

abbrev uploadMembers : Handler (List Nat) :=
  Program.perform Op.uploadMembers

abbrev get (handle : Nat) : Handler (Option Entry) :=
  Program.perform (Op.get handle)

abbrev deleteRecorded (handle : Nat) : Handler Bool :=
  Program.perform (Op.deleteRecorded handle)

abbrev indexRemove (handles : List Nat) : Handler Unit :=
  Program.perform (Op.indexRemove handles)

abbrev deleteIndex : Handler Unit :=
  Program.perform Op.deleteIndex

abbrev deleteIndexes : Handler Unit :=
  Program.perform Op.deleteIndexes

abbrev expireEntry (handle : Nat) : Handler Bool :=
  Program.perform (Op.expireEntry handle)

abbrev expireIndex : Handler Bool :=
  Program.perform Op.expireIndex

/-- `mint`, with a server name; the answer is the handle. -/
def mint (server : String) : Handler Nat := do
  let suspended ← isSuspended
  if suspended then .fail .companySuspended else setRecorded server

/-- `mint_upload_capability`. -/
def mintUpload : Handler Nat := do
  let suspended ← isSuspended
  if suspended then .fail .companySuspended else addRecorded

/-- The loop over the handles to revoke, `_revoke_recorded` for each, and what
follows it. -/
def revokeEach (finish : Handler Nat) : List Nat → Handler Nat
  | [] => finish
  | handle :: handles => do
      let _ ← get handle
      let _ ← deleteRecorded handle
      revokeEach finish handles

def serverHandles (server : String) (items : List (Nat × String)) :
    List Nat :=
  (items.filter fun item => item.2 = server).map Prod.fst

/-- The index fields of revoked handles are removed. -/
def removeFields (handles : List Nat) (count : Nat) : Handler Nat :=
  if handles.isEmpty then pure count
  else do
    indexRemove handles
    pure count

/-- `revoke_server`. -/
def revokeServer (server : String) : Handler Nat := do
  let items ← indexItems
  let handles := serverHandles server items
  revokeEach (removeFields handles handles.length) handles

/-- The hub's index is removed. -/
def dropIndex (count : Nat) : Handler Nat := do
  deleteIndex
  pure count

/-- `revoke_user`. -/
def revokeUser : Handler Nat := do
  let items ← indexItems
  let handles := items.map Prod.fst
  revokeEach (dropIndex handles.length) handles

/-- Both indexes are removed. -/
def dropIndexes (count : Nat) : Handler Nat := do
  deleteIndexes
  pure count

/-- `revoke_user_capabilities`, once it has read the hub's index. -/
def revokeListed (handles : List Nat) : Handler Nat := do
  let uploads ← uploadMembers
  revokeEach (dropIndexes (handles ++ uploads).length) (handles ++ uploads)

/-- `revoke_user_capabilities`. -/
def revokeUserCapabilities : Handler Nat := do
  let items ← indexItems
  revokeListed (items.map Prod.fst)

/-- The end of `refresh_server`: the index of the live handles. -/
def extendIndex (live : List Nat) : Handler Nat :=
  if live.isEmpty then pure live.length
  else do
    let _ ← expireIndex
    pure live.length

/-- The loop of `refresh_server` over the handles, and what follows it. -/
def refreshEach (live dead : List Nat) : List Nat → Handler Nat
  | [] =>
      if dead.isEmpty then extendIndex live
      else do
        indexRemove dead
        extendIndex live
  | handle :: handles => do
      let extended ← expireEntry handle
      if extended then refreshEach (live ++ [handle]) dead handles
      else refreshEach live (dead ++ [handle]) handles

/-- `refresh_server`. -/
def refreshServer (server : String) : Handler Nat := do
  let items ← indexItems
  refreshEach [] [] (serverHandles server items)

inductive Request where
  | mint (server : String)
  | mintUpload
  | revokeServer (server : String)
  | revokeUser
  | revokeUserCapabilities
  | refreshServer (server : String)
  deriving DecidableEq

def handle : Request → Handler Nat
  | .mint server => mint server
  | .mintUpload => mintUpload
  | .revokeServer server => revokeServer server
  | .revokeUser => revokeUser
  | .revokeUserCapabilities => revokeUserCapabilities
  | .refreshServer server => refreshServer server

def capabilities (ttl : Nat) :
    Pool.System Store Request Op Reply Refusal Nat Unit Change where
  code := handle
  dead := .died
  exec := exec ttl
  change := change

abbrev Session := Pool Store Request Op Reply Refusal Nat

abbrev Event := PoolEvent Request Unit Change

/-- Every live handle is named by its index, which a revocation reads. -/
structure Revocable (store : Store) : Prop where
  server : ∀ handle entry name, store.get handle = some entry →
    entry.bound = .server name → handle ∈ store.items.map Prod.fst
  upload : ∀ handle entry, store.get handle = some entry →
    entry.bound = .upload → handle ∈ store.members

end IndustryFlow.Capabilities
