import IndustryFlow.Companies.Lifecycle

/-!
# The suspension marker at rest

Every commit of the flag is followed by a marker write of the same request,
so at rest the registry row is the one the latest marker write found.  The
marker is then true exactly when that write agreed with the row it found; a
request that is overtaken between its commit and its marker write can leave a
suspended company without a marker (`marker_lost`).
-/

namespace IndustryFlow.Companies

open Concurrent

namespace Stores

/-- The registry flag the latest marker write found. -/
def flagAtWrite (stores : Stores) : Bool :=
  match stores.markerWrites with
  | [] => true
  | write :: _ => write.registryActive

/-- The latest marker write, if there is one, landed while the registry row
held the flag the write stands for. -/
def LatestWriteAgrees (stores : Stores) : Prop :=
  ∀ write, stores.markerWrites.head? = some write →
    write.suspended = !write.registryActive

/-- The marker is what the latest write made it. -/
def MarkerWritten (stores : Stores) : Prop :=
  stores.marker =
    match stores.markerWrites with
    | [] => false
    | write :: _ => write.suspended

end Stores

/-- The replies of calls that do not raise. -/
def Raised : (op : Op) → Reply op → Prop
  | .update _ _ _ _, .error _ => True
  | .endSqlSessions, .error _ => True
  | _, _ => False

/-- A committed flag has to be followed by a marker write. -/
def CommitsFlag : (op : Op) → Reply op → Prop
  | .update _ isActive _ _, _ => isActive.isSome = true
  | _, _ => False

def WritesMarker : Op → Prop
  | .markSuspended => True
  | .clearSuspended => True
  | _ => False

private theorem suspended_owes {Next : Type} (users : List String)
    (continuation : Unit → Handler Next) :
    (suspended users >>= continuation).Owes
      (fun op reply => ¬Raised op reply) WritesMarker := by
  refine .inr fun reply succeeded => ?_
  cases reply with
  | error error => exact absurd trivial succeeded
  | ok done => exact .inl trivial

private theorem endSessionsOf_incurs (users : List String)
    (row : CompanyRow) :
    (endSessionsOf users >>= fun _ => (pure row : Handler CompanyRow)).Incurs
      (fun op reply => ¬Raised op reply) CommitsFlag WritesMarker := by
  induction users with
  | nil => trivial
  | cons user users induction =>
      exact fun _ _ => ⟨fun committed => absurd committed id, induction⟩

private theorem suspended_incurs (users : List String) (row : CompanyRow) :
    (suspended users >>= fun _ => (pure row : Handler CompanyRow)).Incurs
      (fun op reply => ¬Raised op reply) CommitsFlag WritesMarker := by
  intro reply succeeded
  cases reply with
  | error error => exact absurd trivial succeeded
  | ok done =>
      refine ⟨fun committed => absurd committed id, fun _ _ => ?_⟩
      exact ⟨fun committed => absurd committed id,
        endSessionsOf_incurs users row⟩

private theorem updateRow_incurs (name : Option String)
    (isActive : Option Bool) :
    (updateRow name isActive (updateActions name isActive) false >>=
      fun answer => orProvisioningError answer >>=
      fun committed => afterUpdate isActive committed.1
        committed.2).Incurs
      (fun op reply => ¬Raised op reply) CommitsFlag WritesMarker := by
  intro reply succeeded
  cases reply with
  | error error => exact absurd trivial succeeded
  | ok answer =>
      match isActive with
      | none =>
          exact ⟨fun flagged => absurd flagged (by simp [CommitsFlag]),
            trivial⟩
      | some false =>
          exact ⟨fun _ => suspended_owes answer.2 _,
            suspended_incurs answer.2 answer.1⟩
      | some true =>
          refine ⟨fun _ => .inl trivial, fun _ _ => ?_⟩
          exact ⟨fun flagged => absurd flagged id, trivial⟩

private theorem updateCompany_incurs (company : String) (actor : Actor)
    (update : CompanyUpdate) :
    (updateCompany company actor update).Incurs
      (fun op reply => ¬Raised op reply) CommitsFlag WritesMarker := by
  have decided (isActive : Option Bool) :
      (if update.companyName.isNone && isActive.isNone then
        .fail ⟨400, "No fields to update"⟩
      else if isActive == some false && actor.companyId == company then
        .fail ownCompanyRefused
      else updateRow update.companyName isActive
          (updateActions update.companyName isActive) false >>=
        fun answer => orProvisioningError answer >>=
        fun committed => afterUpdate isActive committed.1
          committed.2 : Handler CompanyRow).Incurs
      (fun op reply => ¬Raised op reply) CommitsFlag WritesMarker := by
    split
    · trivial
    · split
      · trivial
      · exact updateRow_incurs update.companyName isActive
  unfold updateCompany
  split
  · trivial
  · cases update.isActive with
    | none => exact decided none
    | some flag =>
        unfold requestedFlag
        by_cases superuser : actor.isSuperuser = true
        · simp only [superuser, ↓reduceIte]
          exact decided (some flag)
        · simp only [superuser, Bool.false_eq_true, ↓reduceIte,
            Program.perform_bind, Program.call_bind]
          intro current _
          refine ⟨fun flagged => absurd flagged id, ?_⟩
          by_cases same : current = flag
          · simp only [same, ↓reduceIte]
            exact decided none
          · simp only [same, ↓reduceIte]
            trivial

private theorem deleteCompany_incurs (company : String) (actor : Actor) :
    (deleteCompany company actor).Incurs
      (fun op reply => ¬Raised op reply) CommitsFlag WritesMarker := by
  unfold deleteCompany
  split
  · trivial
  · split
    · trivial
    · intro reply succeeded
      cases reply with
      | error error => exact absurd trivial succeeded
      | ok answer =>
          exact ⟨fun _ => suspended_owes answer.2 _,
            suspended_incurs answer.2 answer.1⟩

/-- The handlers write the marker after every commit of the flag. -/
theorem handle_incurs (company : String) (request : Request) :
    (handle company request).Incurs
      (fun op reply => ¬Raised op reply) CommitsFlag WritesMarker := by
  cases request with
  | update actor update => exact updateCompany_incurs company actor update
  | delete actor => exact deleteCompany_incurs company actor

/-- Only a committed flag puts the row ahead of the latest marker write, and
a marker write brings them together. -/
private theorem exec_flagAtWrite (stores : Stores) (op : Op)
    (choice : Option DbError) (reply : Reply op) (after : Stores)
    (orderly : choice = none)
    (executed : exec stores op choice = some (reply, after)) :
    ¬Raised op reply ∧
      (WritesMarker op →
        ¬after.flagAtWrite ≠ after.registry.isActive) ∧
      (after.flagAtWrite ≠ after.registry.isActive →
        stores.flagAtWrite ≠ stores.registry.isActive ∨
          CommitsFlag op reply) := by
  subst orderly
  cases op with
  | readActive =>
      cases executed
      exact ⟨id, fun written => absurd written id, .inl⟩
  | update name isActive actions deactivateUsers =>
      cases executed
      refine ⟨id, fun written => absurd written id, fun owed => ?_⟩
      cases isActive with
      | none => exact .inl owed
      | some flag => exact .inr rfl
  | endSqlSessions =>
      cases executed
      exact ⟨id, fun written => absurd written id, .inl⟩
  | markSuspended =>
      cases executed
      exact ⟨id, fun _ owed => owed rfl, fun owed => absurd rfl owed⟩
  | clearSuspended =>
      cases executed
      exact ⟨id, fun _ owed => owed rfl, fun owed => absurd rfl owed⟩
  | endAllSessions user =>
      cases executed
      exact ⟨id, fun written => absurd written id, .inl⟩

private theorem exec_markerWritten (stores : Stores) (op : Op)
    (choice : Option DbError) (reply : Reply op) (after : Stores)
    (written : stores.MarkerWritten)
    (executed : exec stores op choice = some (reply, after)) :
    after.MarkerWritten := by
  cases op <;> cases choice <;> cases executed <;>
    first | exact written | rfl

/-- Once all requests have completed, the marker is present exactly when the
company is inactive, if and only if the latest marker write landed while the
registry row held the flag it stands for. -/
theorem marker_true_at_rest_iff (company name : String)
    (users : List (String × Bool))
    (events : List (PoolEvent Request (Option DbError) Empty))
    (final : Pool Stores Request Op Reply HttpError CompanyRow)
    (ran : run (Pool.step (companies company))
      (.start (provisioned name users)) events = some final)
    (unfailing : ∀ event ∈ events, Pool.Orderly (· = none) event)
    (rest : final.AtRest) :
    (final.shared.marker = true ↔
      final.shared.registry.isActive = false) ↔
        final.shared.LatestWriteAgrees := by
  have written : final.shared.MarkerWritten :=
    run_preserves _
      (fun _ _ _ holds taken => Pool.step_shared exec_markerWritten
        (fun _ change => nomatch change) holds taken)
      (show (provisioned name users).MarkerWritten from rfl) ran
  have accounted : final.Accounted (fun op reply => ¬Raised op reply)
      CommitsFlag WritesMarker
      (fun stores => stores.flagAtWrite ≠ stores.registry.isActive) := by
    refine run_preserves_along _ ?_ ?_ (Along.of_forall _ _ unfailing) ran
    · intro pool event next holds permitted taken
      exact Pool.step_accounted (handle_incurs company) exec_flagAtWrite
        holds permitted taken
    · exact ⟨by simp [Pool.start], fun owed => absurd rfl owed⟩
  have found : final.shared.flagAtWrite = final.shared.registry.isActive :=
    not_not.mp (accounted.settled rest)
  unfold Stores.MarkerWritten at written
  unfold Stores.flagAtWrite at found
  unfold Stores.LatestWriteAgrees
  cases history : final.shared.markerWrites with
  | nil =>
      simp only [history] at written found
      simp [written, ← found]
  | cons write earlier =>
      obtain ⟨suspended, registryActive⟩ := write
      simp only [history] at written found
      rw [written, ← found]
      cases suspended <;> cases registryActive <;> simp

/-- A superuser of another company. -/
def operator : Actor :=
  ⟨true, "operator"⟩

/-- One request after the other: the company is deleted and reactivated. -/
theorem marker_true_at_rest_iff_in_turn : ∃ final,
    run (Pool.step (companies "company"))
      (.start (provisioned "Plant" [("user", true)]))
      [.spawn (.delete operator), .step 0 none, .step 0 none, .step 0 none,
        .step 0 none, .spawn (.update operator ⟨none, some true⟩),
        .step 1 none, .step 1 none] = some final ∧
    ((final.shared.marker = true ↔
      final.shared.registry.isActive = false) ↔
        final.shared.LatestWriteAgrees) := by
  have ran : ((run (Pool.step (companies "company"))
      (.start (provisioned "Plant" [("user", true)]))
      [.spawn (.delete operator), .step 0 none, .step 0 none, .step 0 none,
        .step 0 none, .spawn (.update operator ⟨none, some true⟩),
        .step 1 none, .step 1 none]).any
          fun final => decide final.AtRest) = true := by
    decide +kernel
  obtain ⟨final, ran, rest⟩ := (Option.any_eq_true _ _).mp ran
  exact ⟨final, ran, marker_true_at_rest_iff "company" "Plant" _ _ final ran
    (by simp [Pool.Orderly]) (by simpa using rest)⟩

/-- A reactivation commits before a deletion and writes the marker after it:
the company is inactive and no marker says so. -/
theorem marker_lost :
    ¬∀ (company name : String) (users : List (String × Bool))
      (events : List (PoolEvent Request (Option DbError) Empty))
      (final : Pool Stores Request Op Reply HttpError CompanyRow),
      run (Pool.step (companies company))
        (.start (provisioned name users)) events = some final →
      (∀ event ∈ events, Pool.Orderly (· = none) event) →
      final.AtRest →
      (final.shared.marker = true ↔
        final.shared.registry.isActive = false) := by
  intro always
  have ran : ((run (Pool.step (companies "company"))
      (.start (provisioned "Plant" []))
      [.spawn (.update operator ⟨none, some true⟩),
        .spawn (.delete operator), .step 0 none, .step 1 none, .step 1 none,
        .step 1 none, .step 0 none]).any fun final =>
          decide (final.AtRest ∧ final.shared.marker = false ∧
            final.shared.registry.isActive = false)) = true := by
    decide +kernel
  obtain ⟨final, ran, lost⟩ := (Option.any_eq_true _ _).mp ran
  obtain ⟨rest, unmarked, inactive⟩ := of_decide_eq_true lost
  have marked := (always "company" "Plant" [] _ final ran
    (by simp [Pool.Orderly]) rest).mpr inactive
  rw [unmarked] at marked
  cases marked

end IndustryFlow.Companies
