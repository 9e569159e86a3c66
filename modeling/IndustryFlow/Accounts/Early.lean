import IndustryFlow.Accounts.UserAdmin
import IndustryFlow.Concurrent.Refused

/-!
# Refusals come before writes

The caller and the target are checked before anything is written, and what
follows the write answers neither 403 nor 404.
-/

namespace IndustryFlow.UserAdmin

open Concurrent

/-- The request is answered with 403 or 404. -/
def refused (error : Error) : Prop :=
  ∃ detail, error = .http 403 detail ∨ error = .http 404 detail

def writes : Op → Prop
  | .insert _ _ | .update _ _ _ | .delete _ _ => True
  | _ => False

/-- The program only reads, hashes and ends sessions. -/
abbrev Reads {Result : Type} (program : Handler Result) : Prop :=
  program.Always (fun _ _ => True) (fun op => ¬writes op) (fun _ => True)

abbrev RefusesEarly {Result : Type} (program : Handler Result) : Prop :=
  program.RefusesEarly writes refused

variable {library : Library}

theorem currentActiveUser_reads (id : Nat) : Reads (currentActiveUser id) := by
  refine ⟨nofun, fun row _ => ?_⟩
  cases row with
  | none => trivial
  | some user =>
      refine ⟨nofun, fun refusal _ => ?_⟩
      cases refusal with
      | some error => trivial
      | none =>
          change Reads (if user.user.isActive = true then _ else _)
          split <;> trivial

theorem requireAdmin_reads (id : Nat) : Reads (requireAdmin id) := by
  apply Program.Always.bind (currentActiveUser_reads id)
  · intro user _
    split
    · trivial
    · split <;> trivial
  · exact fun _ _ => trivial

theorem checkScope_reads (admin target : Loaded) :
    Reads (checkScope admin target) := by
  unfold checkScope
  split
  · trivial
  · split <;> trivial

theorem targetInScope_reads (userId : Nat) (admin : Loaded) :
    Reads (targetInScope userId admin) := by
  refine ⟨nofun, fun row _ => ?_⟩
  cases row with
  | none => trivial
  | some found => exact checkScope_reads admin _

theorem inUse_reads (count : Nat) : Reads (inUse count) := by
  match count with
  | 0 => trivial
  | 1 => trivial
  | _ + 2 => trivial

theorem emailFree_reads (email : Option String) : Reads (emailFree email) :=
  ⟨nofun, fun count _ => inUse_reads count⟩

/-- A program that reads, and answers so if it does. -/
abbrev ReadsTo {Result : Type} (answers : Result → Prop)
    (program : Handler Result) : Prop :=
  program.Always (fun _ _ => True) (fun op => ¬writes op)
    (fun result => ∀ answer, result = .ok answer → answers answer)

theorem ReadsTo.reads {Result : Type} {answers : Result → Prop}
    {program : Handler Result} (reads : ReadsTo answers program) :
    Reads program :=
  reads.mono (fun _ _ => id) (fun _ => id) (fun _ _ => trivial)

theorem readsTo_pure {Result : Type} {answers : Result → Prop}
    {answer : Result} (holds : answers answer) :
    ReadsTo answers (pure answer) := by
  intro other same
  cases same
  exact holds

/-- No assignment is of a company or of the superuser flag. -/
def OutsideScope (assignments : List Assignment) : Prop :=
  ∀ assignment ∈ assignments, assignment.ofScope = false

theorem assignedPassword_reads (target : Loaded)
    (password : Option (Option String)) :
    ReadsTo OutsideScope (assignedPassword library target password) := by
  unfold assignedPassword
  split
  · split
    · exact fun _ => nofun
    · exact ⟨nofun, fun _ _ => readsTo_pure (by simp [OutsideScope,
        Assignment.ofScope])⟩
  · exact readsTo_pure (by simp [OutsideScope])

theorem assignedEmail_reads (target : Loaded)
    (email : Option (Option String)) :
    ReadsTo OutsideScope (assignedEmail target email) := by
  unfold assignedEmail
  split
  · exact readsTo_pure (by simp [OutsideScope])
  · split
    · exact readsTo_pure (by simp [OutsideScope, Assignment.ofScope])
    · apply (emailFree_reads _).bind
      · exact fun _ _ => readsTo_pure (by simp [OutsideScope,
          Assignment.ofScope])
      · exact fun _ _ _ => nofun

theorem refuseSuperuserOnly_reads (admin : Loaded)
    (companyId isSuperuser : Bool) :
    ReadsTo (fun _ => admin.user.isSuperuser = false →
        companyId = false ∧ isSuperuser = false)
      (refuseSuperuserOnly admin companyId isSuperuser) := by
  unfold refuseSuperuserOnly
  split
  · exact fun _ => nofun
  · next free =>
    apply readsTo_pure
    simpa using free

/-! ## What follows a write -/

abbrev Unrefused {Result : Type} (program : Handler Result) : Prop :=
  program.Unrefused refused

theorem not_refused {error : Error}
    (other : ∀ detail, error ≠ .http 403 detail ∧ error ≠ .http 404 detail) :
    ∀ same, (Except.error error : Except Error Unit) = .error same →
      ¬refused same := by
  rintro same told ⟨detail, first | second⟩
  · cases told
    exact (other detail).1 first
  · cases told
    exact (other detail).2 second

theorem done_unrefused : Unrefused (pure () : Handler Unit) := by
  intro error never
  cases never

theorem committed_unrefused (flushed : Flushed) :
    Unrefused (committed flushed) := by
  cases flushed with
  | committed => exact done_unrefused
  | integrity => exact not_refused (by simp)
  | stale => exact not_refused (by simp)

theorem Unrefused.then {first second : Handler Unit}
    (before : Unrefused first) (after : Unrefused second) :
    Unrefused (first >>= fun _ => second) :=
  Program.Always.bind before (fun _ _ => after)
    (fun error told other same => told other (by cases same; rfl))

theorem onAfterUpdate_unrefused (target : Loaded)
    (fields : AdminUserUpdate) :
    Unrefused (onAfterUpdate target fields) := by
  apply Unrefused.then
  · unfold endSessions
    split
    · exact ⟨trivial, fun _ _ => done_unrefused⟩
    · exact done_unrefused
  · unfold clearSignInFailures
    split
    · refine ⟨trivial, fun cleared _ => ?_⟩
      cases cleared with
      | true => exact done_unrefused
      | false => exact not_refused (by simp)
    · exact done_unrefused

/-! ## The routes -/

theorem createUser_early (adminId : Nat) (body : AdminUserCreate) :
    RefusesEarly (createUser adminId body) := by
  apply Program.RefusesEarly.bind (requireAdmin_reads adminId)
  intro admin
  apply Program.RefusesEarly.bind
    (refuseSuperuserOnly_reads _ _ _).reads
  intro _
  apply Program.RefusesEarly.bind (emailFree_reads _)
  intro _ hashed
  refine ⟨nofun, fun flushed => ⟨fun _ => ?_, ?_⟩⟩
  · exact committed_unrefused flushed
  · exact (committed_unrefused flushed).refusesEarly

theorem updateUser_early (adminId userId : Nat) (body : AdminUserUpdate) :
    RefusesEarly (updateUser library adminId userId body) := by
  apply Program.RefusesEarly.bind (requireAdmin_reads adminId)
  intro admin
  apply Program.RefusesEarly.bind (targetInScope_reads userId admin)
  intro target
  apply Program.RefusesEarly.bind
    (refuseSuperuserOnly_reads _ _ _).reads
  intro _
  apply Program.RefusesEarly.bind
    (assignedPassword_reads target _).reads
  intro password
  apply Program.RefusesEarly.bind (assignedEmail_reads target _).reads
  intro email flushed
  have rest := (committed_unrefused flushed).then
    (onAfterUpdate_unrefused target (body.without target.user))
  exact ⟨fun _ => rest, rest.refusesEarly⟩

theorem deleteUser_early (adminId userId : Nat) :
    RefusesEarly (deleteUser adminId userId) := by
  apply Program.RefusesEarly.bind (requireAdmin_reads adminId)
  intro admin
  apply Program.RefusesEarly.bind (targetInScope_reads userId admin)
  intro target
  by_cases own : target.user.id = admin.user.id
  · rw [if_pos own]
    trivial
  · rw [if_neg own]
    intro _
    have rest : Unrefused (endAllSessions target.user.id) :=
      ⟨trivial, fun _ _ => done_unrefused⟩
    exact ⟨fun _ => rest, rest.refusesEarly⟩

theorem code_early (request : Request) :
    RefusesEarly (code library request) := by
  cases request with
  | create adminId body => exact createUser_early adminId body
  | update adminId userId body => exact updateUser_early adminId userId body
  | delete adminId userId => exact deleteUser_early adminId userId

/-- Nothing but a write changes the store. -/
theorem exec_reads {store after : Store} {op : Op} {choice : Choice}
    {reply : Reply op} (reads : ¬writes op)
    (executed : exec library store op choice = some (reply, after)) :
    after = store := by
  cases op with
  | insert admin new => exact absurd trivial reads
  | update admin target assignments => exact absurd trivial reads
  | delete admin target => exact absurd trivial reads
  | _ => cases choice <;> cases executed <;> rfl

end IndustryFlow.UserAdmin
