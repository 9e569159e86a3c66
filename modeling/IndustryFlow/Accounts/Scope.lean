import IndustryFlow.Accounts.Early

/-!
# Tenant administrators and their company

A tenant administrator's request checks the target as it loaded it and writes
the row by its id.  No such request assigns a company or the superuser flag, so
the row is still in the administrator's company when it is written, unless a
superuser has moved it since.
-/

namespace IndustryFlow.UserAdmin

open Concurrent

/-- The row is of the company of the administrator, and no superuser. -/
def Governed (admin row : User) : Prop :=
  row.companyId = admin.companyId ∧ row.isSuperuser = false

def SameScope (first second : User) : Prop :=
  first.companyId = second.companyId ∧ first.isSuperuser = second.isSuperuser

/-- No superuser has moved the target since the request loaded it. -/
def Write.Unmoved (write : Write) : Prop :=
  ∀ target ∈ write.target, ∀ before ∈ write.before,
    before.moves = target.moves

/-- What a write of a tenant administrator is. -/
structure Write.Within (write : Write) : Prop where
  kept : ∀ before ∈ write.before, ∀ after ∈ write.after,
    SameScope after before.user
  before : write.Unmoved → ∀ before ∈ write.before,
    Governed write.admin.user before.user
  after : write.Unmoved → ∀ after ∈ write.after,
    Governed write.admin.user after
  /-- The administrator is still one of that company, unless moved too. -/
  own : ∀ own ∈ write.own, own.moves = write.admin.moves →
    Governed write.admin.user own.user

/-! ## What a request knows of a row it has loaded -/

structure Sound (store : Store) : Prop where
  ids : ∀ row ∈ store.table.rows, row.id ∈ store.ids
  writes : ∀ write ∈ store.writes,
    write.admin.user.isSuperuser = false → write.Within

/-- A row that no superuser moved has the scope it had. -/
structure Evolves (before after : Store) : Prop where
  ids : before.ids ⊆ after.ids
  moves : ∀ id, before.moves id ≤ after.moves id
  scope : ∀ id found, id ∈ before.ids → after.moves id = before.moves id →
    after.table.find id = some found →
      ∃ was, before.table.find id = some was ∧ SameScope found was

theorem SameScope.refl (user : User) : SameScope user user := ⟨rfl, rfl⟩

theorem SameScope.trans {first second third : User}
    (left : SameScope first second) (right : SameScope second third) :
    SameScope first third :=
  ⟨left.1.trans right.1, left.2.trans right.2⟩

theorem SameScope.governed {admin first second : User}
    (same : SameScope first second) (governed : Governed admin second) :
    Governed admin first :=
  ⟨same.1.trans governed.1, same.2.trans governed.2⟩

theorem Evolves.refl (store : Store) : Evolves store store where
  ids := List.Subset.refl _
  moves _ := Nat.le_refl _
  scope _ found _ _ looked := ⟨found, looked, .refl found⟩

theorem Evolves.trans {first second third : Store}
    (left : Evolves first second) (right : Evolves second third) :
    Evolves first third where
  ids := List.Subset.trans left.ids right.ids
  moves id := Nat.le_trans (left.moves id) (right.moves id)
  scope id found known still looked := by
    have early := left.moves id
    have late := right.moves id
    obtain ⟨middle, between, same⟩ :=
      right.scope id found (left.ids known) (by omega) looked
    obtain ⟨was, before, alike⟩ :=
      left.scope id middle known (by omega) between
    exact ⟨was, before, same.trans alike⟩

/-- The row has the scope it was loaded with, unless it was moved. -/
structure Traced (store : Store) (loaded : Loaded) : Prop where
  known : loaded.user.id ∈ store.ids
  moves : loaded.moves ≤ store.moves loaded.user.id
  scope : ∀ found, store.moves loaded.user.id = loaded.moves →
    store.table.find loaded.user.id = some found →
      SameScope found loaded.user

theorem Traced.later {before after : Store} {loaded : Loaded}
    (traced : Traced before loaded) (evolves : Evolves before after) :
    Traced after loaded where
  known := evolves.ids traced.known
  moves := Nat.le_trans traced.moves (evolves.moves _)
  scope found still looked := by
    have early := traced.moves
    have late := evolves.moves loaded.user.id
    obtain ⟨was, before, same⟩ := evolves.scope _ found traced.known
      (by omega) looked
    exact same.trans (traced.scope was (by omega) before)

theorem Sound.load {store : Store} (sound : Sound store) {id : Nat}
    {loaded : Loaded} (found : store.load id = some loaded) :
    loaded.user.id = id ∧ Traced store loaded := by
  obtain ⟨user, looked, rfl⟩ := Option.map_eq_some_iff.mp found
  have same : user.id = id := Table.find_id looked
  subst same
  refine ⟨rfl, sound.ids user (Table.find_mem looked), Nat.le_refl _, ?_⟩
  intro other _ again
  rw [looked] at again
  cases again
  exact .refl user

theorem Traced.loaded {store : Store} {loaded now : Loaded}
    (traced : Traced store loaded)
    (found : store.load loaded.user.id = some now)
    (unmoved : now.moves = loaded.moves) :
    SameScope now.user loaded.user := by
  obtain ⟨user, looked, rfl⟩ := Option.map_eq_some_iff.mp found
  exact traced.scope user unmoved looked

/-! ## The writes -/

/-- The caller of a write that is a tenant administrator's. -/
theorem own_within {store : Store} {admin own : Loaded}
    (traced : Traced store admin) (tenant : admin.user.isSuperuser = false)
    (found : store.load admin.user.id = some own)
    (unmoved : own.moves = admin.moves) :
    Governed admin.user own.user :=
  (traced.loaded found unmoved).governed ⟨rfl, tenant⟩

/-- The writes so far and one that is within its scope. -/
theorem writes_append {store after : Store} {admin : Loaded}
    {target : Option Loaded} {new : Option User} (sound : Sound store)
    (ids : ∀ row ∈ after.table.rows, row.id ∈ after.ids)
    (logged : after.writes = store.log admin target new)
    (within : admin.user.isSuperuser = false → Write.Within ⟨admin, target,
      target.bind fun loaded => store.load loaded.user.id, new,
      store.load admin.user.id⟩) : Sound after := by
  refine ⟨ids, ?_⟩
  rw [logged]
  intro write member tenant
  rcases List.mem_append.mp member with before | last
  · exact sound.writes write before tenant
  · cases List.mem_singleton.mp last
    exact within tenant

theorem insertRow_keeps {store after : Store} {admin : Loaded} {row : User}
    {flushed : Flushed} (sound : Sound store) (traced : Traced store admin)
    (governed : admin.user.isSuperuser = false → Governed admin.user row)
    (fresh : row.id ∉ store.ids)
    (inserted : insertRow store admin row = (flushed, after)) :
    Sound after ∧ Evolves store after := by
  rw [insertRow] at inserted
  split at inserted
  · cases inserted
    exact ⟨sound, .refl _⟩
  · next table written =>
    cases inserted
    constructor
    · refine writes_append sound ?_ rfl ?_
      · intro other member
        rw [Table.insert_rows written] at member
        rcases List.mem_append.mp member with before | last
        · exact List.mem_cons_of_mem _ (sound.ids other before)
        · cases List.mem_singleton.mp last
          exact List.mem_cons_self
      · intro tenant
        refine ⟨nofun, fun _ => nofun, ?_, ?_⟩
        · intro _ new same
          cases same
          exact governed tenant
        · exact fun own found unmoved =>
            own_within traced tenant found unmoved
    · constructor
      · exact List.subset_cons_self _ _
      · exact fun _ => Nat.le_refl _
      · intro id found known _ looked
        rcases Table.find_insert written looked with rfl | before
        · exact absurd (Table.find_id looked ▸ known) fresh
        · exact ⟨found, before, .refl found⟩

/-- A write of a target whose scope it keeps. -/
theorem target_within {store : Store} {admin target : Loaded}
    {after : Option User} (traced : Traced store admin)
    (aimed : Traced store target) (tenant : admin.user.isSuperuser = false)
    (governed : Governed admin.user target.user)
    (kept : ∀ new ∈ after, ∃ before,
      store.table.find target.user.id = some before ∧
        SameScope new before) :
    Write.Within ⟨admin, some target, store.load target.user.id, after,
      store.load admin.user.id⟩ := by
  have stays : ∀ before ∈ store.load target.user.id,
      before.moves = target.moves → Governed admin.user before.user :=
    fun before found unmoved =>
      (aimed.loaded found unmoved).governed governed
  constructor
  · intro before found new member
    obtain ⟨user, looked, same⟩ := kept new member
    have equal : store.load target.user.id =
        some ⟨user, store.moves target.user.id⟩ :=
      Option.map_eq_some_iff.mpr ⟨user, looked, rfl⟩
    cases equal.symm.trans found
    exact same
  · exact fun unmoved before found =>
      stays before found (unmoved target rfl before found)
  · intro unmoved new member
    obtain ⟨user, looked, same⟩ := kept new member
    have found : store.load target.user.id =
        some ⟨user, store.moves target.user.id⟩ :=
      Option.map_eq_some_iff.mpr ⟨user, looked, rfl⟩
    exact same.governed (stays _ found (unmoved target rfl _ found))
  · exact fun own found unmoved => own_within traced tenant found unmoved

theorem moved_le (store : Store) (admin before after : User) (id : Nat) :
    store.moves id ≤ store.moved admin before after id := by
  rw [Store.moved]
  split
  · by_cases same : id = before.id
    · rw [same, Function.update_self]
      exact Nat.le_succ _
    · exact Nat.le_of_eq (Function.update_of_ne same _ _).symm
  · exact Nat.le_refl _

/-- A row whose count stays has kept its scope. -/
theorem moved_scope {store : Store} {admin before after : User}
    (kept : admin.isSuperuser = false → SameScope after before)
    (still : store.moved admin before after before.id =
      store.moves before.id) : SameScope after before := by
  cases superuser : admin.isSuperuser with
  | false => exact kept superuser
  | true =>
      rw [Store.moved] at still
      split at still
      · rw [Function.update_self] at still
        omega
      · next same =>
        constructor
        · by_contra other
          exact same ⟨superuser, .inl (Ne.symm other)⟩
        · by_contra other
          exact same ⟨superuser, .inr (Ne.symm other)⟩

theorem updateRow_keeps {store after : Store} {admin target : Loaded}
    {assignments : List Assignment} {flushed : Flushed}
    (sound : Sound store) (traced : Traced store admin)
    (aimed : Traced store target)
    (governed : admin.user.isSuperuser = false →
      Governed admin.user target.user ∧
        OutsideScope assignments)
    (updated : updateRow store admin target assignments =
      (flushed, after)) :
    Sound after ∧ Evolves store after := by
  rw [updateRow] at updated
  split at updated
  · cases updated
    exact ⟨sound, .refl _⟩
  split at updated
  · cases updated
    exact ⟨sound, .refl _⟩
  next before looked =>
  split at updated
  · cases updated
    exact ⟨sound, .refl _⟩
  next row table wrote =>
  cases updated
  obtain ⟨changed, applied, written⟩ := Option.bind_eq_some_iff.mp wrote
  obtain ⟨other, saved, same⟩ := Option.map_eq_some_iff.mp written
  cases same
  have sameId := Assignment.applyAll_id applied
  have kept : admin.user.isSuperuser = false → SameScope row before :=
    fun tenant => Assignment.applyAll_scope (governed tenant).2 applied
  constructor
  · refine writes_append sound ?_ rfl ?_
    · intro present member
      rw [Table.write_rows saved] at member
      rcases Table.mem_replace member with rfl | earlier
      · rw [sameId]
        exact sound.ids before (Table.find_mem looked)
      · exact sound.ids present earlier
    · intro tenant
      apply target_within traced aimed tenant (governed tenant).1
      intro new same
      cases same
      exact ⟨before, looked, kept tenant⟩
  · constructor
    · exact List.Subset.refl _
    · exact fun id => moved_le store admin.user before row id
    · intro id found known still again
      rcases Table.find_write saved again with rfl | earlier
      · have own : id = before.id := (Table.find_id again).symm.trans sameId
        subst own
        have here := Table.find_of_mem (Table.find_mem looked)
        exact ⟨before, here, moved_scope kept still⟩
      · exact ⟨found, earlier, .refl found⟩

theorem deleteRow_keeps {store : Store} {admin target : Loaded}
    (sound : Sound store) (traced : Traced store admin)
    (aimed : Traced store target)
    (governed : admin.user.isSuperuser = false →
      Governed admin.user target.user) :
    Sound (deleteRow store admin target) ∧
      Evolves store (deleteRow store admin target) := by
  rw [deleteRow]
  split
  · exact ⟨sound, .refl _⟩
  · next before looked =>
    constructor
    · refine writes_append sound ?_ rfl ?_
      · exact fun row member =>
          sound.ids row (List.mem_filter.mp member).1
      · exact fun tenant =>
          target_within traced aimed tenant (governed tenant) nofun
    · constructor
      · exact List.Subset.refl _
      · exact fun _ => Nat.le_refl _
      · exact fun id found _ _ again =>
          ⟨found, Table.find_erase again, .refl found⟩

/-! ## The routes -/

/-- Every request keeps what the others know. -/
def terms : Contract Store Op Choice where
  invariant := Sound
  allowed _ _ _ := True
  rely := Evolves
  guarantee := Evolves
  rely_refl := .refl
  rely_trans := .trans

variable {library : Library}

abbrev Safely {Result : Type} (library : Library)
    (post : Except Error Result → Store → Prop)
    (program : Handler Result) (store : Store) : Prop :=
  program.Safe (exec library) terms post store

/-- What is known of an answer, and stays known. -/
abbrev Gives {Result : Type} (holds : Result → Store → Prop) :
    Except Error Result → Store → Prop :=
  fun outcome later => ∀ answer, outcome = .ok answer → holds answer later

theorem ReadsTo.safe {Result : Type} {answers : Result → Prop}
    {program : Handler Result} (reads : ReadsTo answers program)
    (store : Store) :
    Safely library (Gives fun answer _ => answers answer) program store := by
  apply Program.Always.safe reads
  intro op quiet later choice reply after sound _ executed
  cases exec_reads quiet executed
  exact ⟨sound, .refl _, trivial⟩

theorem reads_safe {Result : Type} {program : Handler Result}
    (reads : Reads program) (store : Store) :
    Safely library (fun _ _ => True) program store := by
  apply Program.Always.safe reads
  intro op quiet later choice reply after sound _ executed
  cases exec_reads quiet executed
  exact ⟨sound, .refl _, trivial⟩

theorem gives_pure {Result : Type} {holds : Result → Store → Prop}
    {answer : Result} {store : Store}
    (now : ∀ later, Evolves store later → holds answer later) :
    Safely library (Gives holds) (pure answer) store := by
  intro later _ evolves other same
  cases same
  exact now later evolves

theorem gives_fail {Result : Type} {holds : Result → Store → Prop}
    (error : Error) (store : Store) :
    Safely library (Gives holds) (.fail error) store :=
  fun _ _ _ _ => nofun

theorem currentActiveUser_safe (id : Nat) (store : Store) :
    Safely library (Gives fun user later => Traced later user)
      (currentActiveUser id) store := by
  intro loading sound _ choice reply after _ executed
  cases executed
  refine ⟨sound, .refl _, ?_⟩
  cases found : loading.load id with
  | none => exact gives_fail _ _
  | some user =>
      intro admitting _ evolves choice refusal after _ executed
      have traced := (sound.load found).2.later evolves
      have quiet : ¬writes (.acceptToken id) := fun never => never
      cases exec_reads quiet executed
      refine ⟨‹_›, .refl _, ?_⟩
      cases refusal with
      | some error => exact gives_fail _ _
      | none =>
          change Safely library _ (if user.user.isActive = true then _ else _)
            admitting
          split
          · exact gives_pure fun later goes => traced.later goes
          · exact gives_fail _ _

theorem requireAdmin_safe (id : Nat) {store : Store} (sound : Sound store) :
    Safely library (Gives fun admin later => Traced later admin)
      (requireAdmin id) store := by
  apply Program.Safe.bind sound (currentActiveUser_safe id store)
  · intro user later _ told
    have traced := told user rfl
    split
    · exact gives_pure fun last goes => traced.later goes
    · split
      · exact gives_fail _ _
      · exact gives_pure fun last goes => traced.later goes
  · exact fun _ _ _ _ => nofun

/-- What is known of a target that is in scope. -/
structure Aimed (admin target : Loaded) (store : Store) : Prop where
  caller : Traced store admin
  aim : Traced store target
  governed : admin.user.isSuperuser = false →
    Governed admin.user target.user

theorem Aimed.later {admin target : Loaded} {before after : Store}
    (aimed : Aimed admin target before) (evolves : Evolves before after) :
    Aimed admin target after :=
  ⟨aimed.caller.later evolves, aimed.aim.later evolves, aimed.governed⟩

theorem checkScope_safe {admin target : Loaded} {store : Store}
    (traced : Traced store admin) (aimed : Traced store target) :
    Safely library (Gives fun target => Aimed admin target)
      (checkScope admin target) store := by
  rw [checkScope]
  split
  · exact gives_fail _ _
  next home =>
  split
  · exact gives_fail _ _
  next plain =>
  apply gives_pure
  intro later goes
  refine ⟨traced.later goes, aimed.later goes, fun tenant => ?_⟩
  simp only [tenant, true_and, and_true, ne_eq, not_not] at home plain
  exact ⟨home, by simpa using plain⟩

theorem targetInScope_safe (userId : Nat) {admin : Loaded} {store : Store}
    (traced : Traced store admin) :
    Safely library (Gives fun target => Aimed admin target)
      (targetInScope userId admin) store := by
  intro loading sound evolves choice reply after _ executed
  cases executed
  refine ⟨sound, .refl _, ?_⟩
  have here := traced.later evolves
  cases found : loading.load userId with
  | none => exact gives_fail _ _
  | some loaded =>
      apply checkScope_safe here
      rw [inSession]
      split
      · exact here
      · exact (sound.load found).2

theorem committed_safe (flushed : Flushed) (store : Store) :
    Safely library (fun _ _ => True) (committed flushed) store := by
  cases flushed <;> exact fun _ _ _ => trivial

theorem endAllSessions_reads (id : Nat) : Reads (endAllSessions id) :=
  ⟨fun never => never, fun _ _ => trivial⟩

theorem onAfterUpdate_reads (target : Loaded) (fields : AdminUserUpdate) :
    Reads (onAfterUpdate target fields) := by
  have ended : Reads (endSessions target fields) := by
    unfold endSessions
    split
    · exact endAllSessions_reads _
    · trivial
  apply ended.bind
  · intro _ _
    unfold clearSignInFailures
    split
    · refine ⟨fun never => never, fun cleared _ => ?_⟩
      cases cleared <;> trivial
    · trivial
  · exact fun _ _ => trivial

/-- Without a company and a superuser flag nothing of the scope is assigned. -/
theorem assignedRest_outside {target : Loaded} {fields : AdminUserUpdate}
    (company : fields.companyId = none)
    (superuser : fields.isSuperuser = none) :
    OutsideScope (assignedRest target fields) := by
  intro assignment member
  simp only [assignedRest, company, superuser, List.mem_append,
    Option.mem_toList, Option.map_eq_some_iff] at member
  rcases member with ((((⟨_, -, rfl⟩ | ⟨_, never, -⟩) | ⟨_, -, rfl⟩) |
    ⟨_, -, rfl⟩) | ⟨_, never, -⟩) | released
  · rfl
  · cases never
  · rfl
  · rfl
  · cases never
  · split at released
    · cases List.mem_singleton.mp released
      rfl
    · cases released

theorem update_safe {admin target : Loaded} {fields : AdminUserUpdate}
    {store : Store} (sound : Sound store)
    (aimed : Aimed admin target store)
    (plain : admin.user.isSuperuser = false →
      fields.companyId = none ∧ fields.isSuperuser = none) :
    Safely library (fun _ _ => True) (update library admin target fields)
      store := by
  apply Program.Safe.bind sound
    ((assignedPassword_reads target _).safe store |>.tracks id)
  · intro password later kept ⟨outside, goes⟩
    apply Program.Safe.bind kept
      ((assignedEmail_reads target _).safe later |>.tracks id)
    · intro email last held ⟨beyond, passes⟩
      intro flushing whole evolves choice reply after _ executed
      have here := aimed.later (goes.trans (passes.trans evolves))
      obtain ⟨sound, evolved⟩ := updateRow_keeps whole here.caller here.aim
        (by
          intro tenant
          refine ⟨here.governed tenant, ?_⟩
          intro assignment member
          have rest : OutsideScope (assignedRest target fields) :=
            assignedRest_outside (plain tenant).1 (plain tenant).2
          rcases List.mem_append.mp (List.mem_filter.mp member).1
            with early | late
          · rcases List.mem_append.mp early with first | second
            · exact outside password rfl assignment first
            · exact beyond email rfl assignment second
          · exact rest assignment late)
        (Option.some.inj executed)
      refine ⟨sound, evolved, ?_⟩
      apply Program.Safe.bind sound (committed_safe reply after)
      · exact fun _ later _ _ => reads_safe (onAfterUpdate_reads _ _) later
      · exact fun _ _ _ => trivial
    · exact fun _ _ _ => trivial
  · exact fun _ _ _ => trivial

theorem without_plain {admin : Loaded} {fields : AdminUserUpdate}
    (told : admin.user.isSuperuser = false →
      fields.companyId.isSome = false ∧ fields.isSuperuser.isSome = false)
    (tenant : admin.user.isSuperuser = false) :
    fields.companyId = none ∧ fields.isSuperuser = none := by
  have absent := told tenant
  simpa using absent

theorem updateUser_safe (adminId userId : Nat) (body : AdminUserUpdate)
    {store : Store} (sound : Sound store) :
    Safely library (fun _ _ => True)
      (updateUser library adminId userId body) store := by
  apply Program.Safe.bind sound (requireAdmin_safe adminId sound)
  · intro admin first kept traced
    apply Program.Safe.bind kept (targetInScope_safe userId
      (traced admin rfl))
    · intro target second held aimed
      have known := aimed target rfl
      apply Program.Safe.bind held
        ((refuseSuperuserOnly_reads _ _ _).safe second |>.tracks id)
      · intro _ last whole ⟨told, goes⟩
        apply update_safe whole (known.later goes)
        exact without_plain (told () rfl)
      · exact fun _ _ _ => trivial
    · exact fun _ _ _ => trivial
  · exact fun _ _ _ => trivial

theorem deleteUser_safe (adminId userId : Nat) {store : Store}
    (sound : Sound store) :
    Safely library (fun _ _ => True) (deleteUser adminId userId) store := by
  apply Program.Safe.bind sound (requireAdmin_safe adminId sound)
  · intro admin first kept traced
    apply Program.Safe.bind kept (targetInScope_safe userId
      (traced admin rfl))
    · intro target second held aimed
      have known := aimed target rfl
      by_cases own : target.user.id = admin.user.id
      · rw [if_pos own]
        exact fun _ _ _ => trivial
      · rw [if_neg own]
        intro deleting whole goes choice reply after _ executed
        have here := known.later goes
        cases executed
        obtain ⟨sound, evolved⟩ :=
          deleteRow_keeps whole here.caller here.aim here.governed
        exact ⟨sound, evolved, reads_safe (endAllSessions_reads _) _⟩
    · exact fun _ _ _ => trivial
  · exact fun _ _ _ => trivial

/-- A tenant administrator's new user is of their company. -/
theorem createUser_safe (adminId : Nat) (body : AdminUserCreate)
    {store : Store} (sound : Sound store) :
    Safely library (fun _ _ => True) (createUser adminId body) store := by
  apply Program.Safe.bind sound (requireAdmin_safe adminId sound)
  · intro admin first kept traced
    have known := traced admin rfl
    apply Program.Safe.bind kept
      ((refuseSuperuserOnly_reads _ _ _).safe first |>.tracks id)
    · intro _ second held ⟨told, goes⟩
      apply Program.Safe.bind held
        (reads_safe (emailFree_reads _) second |>.tracks id)
      · intro _ third whole ⟨_, passes⟩
        intro hashing settled evolves choice hashed after _ executed
        have quiet : ¬writes (.hash body.password) := fun never => never
        cases exec_reads quiet executed
        refine ⟨settled, .refl _, ?_⟩
        intro flushing entire proceeds choice reply last _ inserted
        have here := known.later (goes.trans (passes.trans
          (evolves.trans proceeds)))
        cases choice with
        | fresh id =>
            simp only [exec] at inserted
            split at inserted
            · cases inserted
            next unused =>
            obtain ⟨sound, evolved⟩ := insertRow_keeps entire here
              (by
                intro tenant
                have absent := told () rfl tenant
                simp only [Option.isSome_eq_false_iff,
                  Option.isNone_iff_eq_none] at absent
                constructor
                · simp [NewUser.row, absent.1]
                · simp [NewUser.row, absent.2])
              unused (Option.some.inj inserted)
            exact ⟨sound, evolved, committed_safe reply last⟩
        | _ => cases inserted
      · exact fun _ _ _ => trivial
    · exact fun _ _ _ => trivial
  · exact fun _ _ _ => trivial

theorem code_safe (request : Request) {store : Store} (sound : Sound store) :
    Safely library (fun _ _ => True) (code library request) store := by
  cases request with
  | create adminId body => exact createUser_safe adminId body sound
  | update adminId userId body =>
      exact updateUser_safe adminId userId body sound
  | delete adminId userId => exact deleteUser_safe adminId userId sound

/-! ## Every run -/

theorem start_sound (table : Table) : Sound (start table) where
  ids _ member := List.mem_map_of_mem member
  writes _ never := nomatch never

abbrev Kept (library : Library) (pool : Gateway) : Prop :=
  Pool.Kept (gateway library) terms (fun _ _ _ => True) pool

theorem step_kept {pool next : Gateway} {event : Event}
    (kept : Kept library pool)
    (taken : Pool.step (gateway library) pool event = some next) :
    Kept library next := by
  have permitted : Pool.Allowed (fun _ => True) terms pool event := by
    cases event with
    | step index choice => exact fun _ _ _ _ => trivial
    | lose index choice => exact fun _ _ _ _ => trivial
    | _ => trivial
  refine (Pool.step_keeps id ?_ ?_ ?_ kept permitted taken).1
  · exact fun request store _ sound => code_safe request sound
  · exact fun _ _ _ => trivial
  · exact fun _ change => nomatch change

/-- In every run a tenant administrator's write keeps the company and the
superuser flag of the row, and is of a row of their company that is no
superuser's, as long as no superuser moved the row after the request loaded it;
a request that is answered with 403 or 404 has changed nothing. -/
theorem admins_within (library : Library) (table : Table)
    (events : List Event) (final : Gateway)
    (ran : run (Pool.step (gateway library)) (.start (start table)) events =
      some final) :
    (∀ write ∈ final.shared.writes, write.admin.user.isSuperuser = false →
      write.Within) ∧
    ∀ index request error, refused error →
      final.threads[index]? = some ⟨request, .fail error⟩ →
        Along (Pool.step (gateway library))
          (Pool.Idle (gateway library) Store.table index)
          (.start (start table)) events := by
  constructor
  · have first : Kept library (.start (start table)) :=
      ⟨start_sound table, fun thread never => nomatch never⟩
    have kept : Kept library final :=
      run_preserves (Kept library)
        (fun _ _ _ held taken => step_kept held taken) first ran
    exact kept.holds.writes
  · intro index request error refusal ended
    refine Pool.run_idle ?_ code_early ?_ ?_ ran refusal
      ended
    · rintro ⟨detail, never | never⟩ <;> cases never
    · intro store op choice reply after reads executed
      rw [exec_reads reads executed]
    · exact fun thread never => nomatch never

/-! ## A superuser made between the check and the write -/

def sampleLibrary : Library where
  lower := id
  bare := id
  verifies _ _ := false

def sampleUser (id companyId : Nat) (role : Role) (isSuperuser : Bool) :
    User where
  id := id
  email := s!"{id}@example.com"
  hashedPassword := "first"
  companyId := companyId
  role := role
  isActive := true
  isSuperuser := isSuperuser
  isVerified := false
  passwordChangeRequired := false

/-- An administrator, a user of the same company, and a superuser. -/
def sampleTable : Table where
  rows := [sampleUser 1 1 .admin false, sampleUser 2 1 .observer false,
    sampleUser 3 2 .admin true]
  distinct := by decide

def noFields : AdminUserUpdate where
  password := none
  email := none
  isActive := none
  isSuperuser := none
  isVerified := none
  role := none
  companyId := none

def resetPassword : AdminUserUpdate :=
  { noFields with password := some (some "password-of-mine") }

def grantSuperuser : AdminUserUpdate :=
  { noFields with isSuperuser := some (some true) }

/-- The administrator's request up to its write. -/
def resetBegun : List Event :=
  (.spawn (.update 1 2 resetPassword) :: .replicate 3 (.step 0 .passes) :
    List Event) ++ ([.step 0 (.salted "mine")] : List Event)

def granted : List Event :=
  .spawn (.update 3 2 grantSuperuser) :: .replicate 4 (.step 1 .passes)

def lastWrite (events : List Event) : Option Write :=
  (run (Pool.step (gateway sampleLibrary)) (.start (start sampleTable))
    events).bind fun final => final.shared.writes.getLast?

/-- The password that a tenant administrator set is a superuser's. -/
theorem superuser_reset :
    ∃ final, run (Pool.step (gateway sampleLibrary))
        (.start (start sampleTable))
        (resetBegun ++ granted ++ ([.step 0 .passes] : List Event)) =
          some final ∧
      ∃ write ∈ final.shared.writes,
        write.admin.user.isSuperuser = false ∧
        (∃ before ∈ write.before, before.user.isSuperuser = true ∧
          before.user.hashedPassword = "first") ∧
        ∃ after ∈ write.after, after.isSuperuser = true ∧
          after.hashedPassword = "mine" := by
  have wrote : lastWrite
      (resetBegun ++ granted ++ ([.step 0 .passes] : List Event)) =
      some ⟨⟨sampleUser 1 1 .admin false, 0⟩,
        some ⟨sampleUser 2 1 .observer false, 0⟩,
        some ⟨sampleUser 2 1 .observer true, 1⟩,
        some { sampleUser 2 1 .observer true with hashedPassword := "mine" },
        some ⟨sampleUser 1 1 .admin false, 0⟩⟩ := by
    decide +kernel
  obtain ⟨final, ran, last⟩ := Option.bind_eq_some_iff.mp wrote
  refine ⟨final, ran, _, List.mem_of_getLast? last, rfl, ?_, ?_⟩
  · exact ⟨_, rfl, rfl, rfl⟩
  · exact ⟨_, rfl, rfl, rfl⟩

/-- Without it the password is that of a user of the company. -/
theorem admins_within_reset :
    ∃ final, run (Pool.step (gateway sampleLibrary))
        (.start (start sampleTable))
        (resetBegun ++ ([.step 0 .passes] : List Event)) = some final ∧
      ∃ write ∈ final.shared.writes, ∃ before ∈ write.before,
        Governed write.admin.user before.user := by
  have wrote : lastWrite (resetBegun ++ ([.step 0 .passes] : List Event)) =
      some ⟨⟨sampleUser 1 1 .admin false, 0⟩,
        some ⟨sampleUser 2 1 .observer false, 0⟩,
        some ⟨sampleUser 2 1 .observer false, 0⟩,
        some { sampleUser 2 1 .observer false with hashedPassword := "mine" },
        some ⟨sampleUser 1 1 .admin false, 0⟩⟩ := by
    decide +kernel
  obtain ⟨final, ran, last⟩ := Option.bind_eq_some_iff.mp wrote
  have member := List.mem_of_getLast? last
  have within := (admins_within sampleLibrary sampleTable _ final ran).1 _
    member rfl
  refine ⟨final, ran, _, member, _, rfl, within.before ?_ _ rfl⟩
  intro target aimed before found
  cases aimed
  cases found
  rfl

end IndustryFlow.UserAdmin
