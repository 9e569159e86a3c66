import IndustryFlow.Alerts.RuleEdits
import IndustryFlow.Concurrent.Refused

/-!
# Every stored rule

In every run an answered edit has set the columns it names, and a refused
request has changed nothing.  Every stored rule is valid as a whole in a run
whose edits lock rows with the columns that they have validated: two edits that
validate the same row can leave one that neither has validated.
-/

namespace IndustryFlow.AlertRules

open Concurrent

/-! ## Refusals come first -/

def Op.isCommit : Op → Prop
  | .commit _ _ => True
  | _ => False

/-- The request is answered with 400, 404 or 422. -/
def refused (refusal : Refusal) : Prop :=
  refusal ≠ .internal

abbrev RefusesEarly {Answer : Type} (program : Handler Answer) : Prop :=
  program.RefusesEarly Op.isCommit refused

/-- The program commits nothing. -/
abbrev Quiet {Answer : Type} (program : Handler Answer) : Prop :=
  program.Always (fun _ _ => True) (fun op => ¬op.isCommit) (fun _ => True)

theorem abandon_quiet {Answer : Type} (owner : Nat) (refusal : Refusal) :
    Quiet (abandon owner refusal : Handler Answer) :=
  ⟨id, fun _ _ => trivial⟩

theorem lockRule_quiet (owner rule : Nat) (mode : LockMode)
    (checked : Option Checked) : Quiet (lockRule owner rule mode checked) := by
  refine ⟨id, fun visible _ => ?_⟩
  cases visible with
  | false => trivial
  | true =>
      refine ⟨id, fun locked _ => ?_⟩
      cases locked with
      | error _ => exact abandon_quiet owner .internal
      | ok row => trivial

theorem close_unrefused {Answer : Type} {owner : Nat} {write : Write}
    {rest : Handler Answer} (unrefused : rest.Unrefused refused) :
    (do
      close owner write
      rest : Handler Answer).Unrefused refused := by
  refine ⟨trivial, fun ended _ => ?_⟩
  cases ended with
  | error _ =>
      intro error same
      cases same
      exact fun refused => refused rfl
  | ok _ => exact unrefused

theorem returning_early (owner rule : Nat) (changes : Given)
    (latest : Option Row) :
    RefusesEarly (returning owner rule changes latest) := by
  apply Program.Unrefused.refusesEarly
  cases latest with
  | none =>
      apply close_unrefused
      intro error same
      cases same
      exact fun refused => refused rfl
  | some latest => exact close_unrefused fun _ => nofun

variable {libraries : Libraries}

theorem edit_early (owner rule : Nat) (changes : Given) :
    RefusesEarly (do
      let read ← validatedMerge libraries owner rule changes
      applyChanges owner rule changes read) := by
  refine Program.RefusesEarly.bind ?_ fun read => ?_
  · refine ⟨id, fun row _ => ?_⟩
    cases row with
    | none => exact abandon_quiet owner .notFound
    | some read =>
        simp only [Program.bind]
        split
        · exact abandon_quiet owner _
        · trivial
  · exact Program.RefusesEarly.bind (lockRule_quiet owner rule _ _)
      fun latest => returning_early owner rule changes latest

theorem code_early (request : Request) :
    RefusesEarly ((routes libraries).code request) := by
  cases request with
  | create body =>
      change RefusesEarly (createAlertRule libraries body)
      unfold createAlertRule
      split
      · trivial
      · refine fun owner => ⟨False.elim, ?_⟩
        exact Program.Unrefused.refusesEarly (close_unrefused fun _ => nofun)
  | update rule body =>
      change RefusesEarly (updateAlertRule libraries rule body)
      unfold updateAlertRule
      split
      · trivial
      · refine fun owner => ⟨False.elim, ?_⟩
        change RefusesEarly (if _ then _ else _)
        split
        · exact (abandon_quiet owner .noFields).refusesEarly
            fun _ _ => trivial
        · exact edit_early owner rule _
  | switch rule body =>
      refine fun owner => ⟨False.elim, fun previous => ⟨False.elim, ?_⟩⟩
      exact edit_early owner rule body.changes
  | delete rule =>
      refine fun owner => ⟨False.elim, ?_⟩
      change RefusesEarly (do
        let row ← lockRule owner rule .update none
        deleted owner rule row)
      refine Program.RefusesEarly.bind (lockRule_quiet owner rule _ _) ?_
      intro row
      cases row with
      | none =>
          apply Program.Always.refusesEarly (abandon_quiet owner .notFound)
          exact fun _ _ => trivial
      | some latest =>
          exact Program.Unrefused.refusesEarly
            (close_unrefused fun _ => nofun)

theorem exec_rows {database after : Database} {op : Op} {choice : Choice}
    {reply : Reply op} (quiet : ¬op.isCommit)
    (executed : exec database op choice = some (reply, after)) :
    after.rows = database.rows := by
  cases op with
  | commit owner write => exact absurd trivial quiet
  | lock owner rule mode checked =>
      cases choice with
      | raises =>
          cases executed
          rfl
      | succeeds =>
          rcases lockRow_cases executed with ⟨rfl, -⟩ | ⟨_, -, -, -, -, rfl⟩
          · rfl
          · rfl
  | _ =>
      cases executed
      rfl

/-! ## Runs -/

/-- An edit answers with the row that it has committed. -/
def requestPost (libraries : Libraries) :
    Request → Except Refusal Row → Database → Prop
  | .update rule body =>
      Edited rule (updateChanges libraries.pydantic body)
  | .switch rule switch => Edited rule switch.changes
  | _ => fun _ _ => True

/-- The edit locks a row that is as it has read it, in the columns that are
validated together and that it does not name. -/
def Undisturbed (service : Service) : Event → Prop
  | .step index _ | .lose index _ =>
      ∀ op ∈ (service.threads[index]?).bind (·.program.next?),
        Fresh service.shared op
  | _ => True

instance (service : Service) (event : Event) :
    Decidable (Undisturbed service event) :=
  match event with
  | .step _ _ => inferInstanceAs (Decidable (∀ _ ∈ _, _))
  | .lose _ _ => inferInstanceAs (Decidable (∀ _ ∈ _, _))
  | .spawn _ | .abort _ | .environment _ => .isTrue trivial

abbrev Kept (libraries : Libraries) (fresh : Prop) (service : Service) :
    Prop :=
  Pool.Kept (routes libraries) (terms libraries.pydantic fresh)
    (requestPost libraries) service

variable {fresh : Prop}

theorem code_safe (request : Request) (database : Database) :
    ((routes libraries).code request).Safe exec
      (terms libraries.pydantic fresh) (requestPost libraries request)
      database := by
  cases request with
  | create body => exact createAlertRule_safe body database
  | update rule body => exact updateAlertRule_safe rule body database
  | switch rule switch => exact switchDetectionMode_safe rule switch database
  | delete rule => exact deleteAlertRule_safe rule database

theorem step_kept {service next : Service} {event : Event}
    (kept : Kept libraries fresh service)
    (undisturbed : fresh → Undisturbed service event)
    (taken : Pool.step (routes libraries) service event = some next) :
    Kept libraries fresh next := by
  have permitted : Pool.Allowed (fun _ => True)
      (terms libraries.pydantic fresh) service event := by
    cases event with
    | step index choice =>
        intro request op rest running holds
        exact undisturbed holds op (by rw [running]; rfl)
    | lose index choice =>
        intro request op rest running holds
        exact undisturbed holds op (by rw [running]; rfl)
    | _ => trivial
  refine (Pool.step_keeps id ?_ ?_ ?_ kept permitted taken).1
  · exact fun request database _ _ => code_safe request database
  · intro request database _
    cases request with
    | create body => trivial
    | delete rule => trivial
    | update rule body => exact fun _ => nofun
    | switch rule switch => exact fun _ => nofun
  · intro database happens after sound changed
    cases happens with
    | disconnect owner =>
        cases changed
        exact ⟨finish_sound sound owner, finish_evolves owner⟩

theorem start_kept {rows : Nat → Option Row}
    (valid : fresh → ∀ rule row, rows rule = some row →
      Valid libraries.pydantic row) :
    Kept libraries fresh (.start (.start rows)) :=
  ⟨⟨Locking.idle_sound, nofun, valid⟩, nofun⟩

theorem run_kept {service final : Service} {events : List Event}
    (kept : Kept libraries fresh service)
    (undisturbed : fresh →
      Along (Pool.step (routes libraries)) Undisturbed service events)
    (ran : run (Pool.step (routes libraries)) service events =
      some final) :
    Kept libraries fresh final := by
  have along : Along (Pool.step (routes libraries))
      (fun service event => fresh → Undisturbed service event) service
      events := by
    by_cases holds : fresh
    · exact (undisturbed holds).mono fun _ _ held _ => held
    · have all : Along (Pool.step (routes libraries)) (fun _ _ => True)
          service events := Along.of_forall _ _ fun _ _ => trivial
      exact all.mono fun _ _ _ held => absurd held holds
  exact run_preserves_along (Kept libraries fresh)
    (fun _ _ _ kept undisturbed taken => step_kept kept undisturbed taken)
    kept along ran

/-- In every run an answered edit was committed and every committed edit has
set the columns it names and no others, and a refused request has changed no
row.  Where every edit locks its row with the columns that it has validated,
every stored rule is valid. -/
theorem stored_rules_valid (libraries : Libraries)
    (rows : Nat → Option Row) (events : List Event) (final : Service)
    (valid : ∀ rule row, rows rule = some row →
      Valid libraries.pydantic row)
    (ran : run (Pool.step (routes libraries)) (.start (.start rows))
      events = some final) :
    (∀ edit ∈ final.shared.edits, edit.Exact) ∧
    (∀ request row, ⟨request, .done row⟩ ∈ final.threads →
      requestPost libraries request (.ok row) final.shared) ∧
    (∀ index request refusal, final.threads[index]? =
        some ⟨request, .fail refusal⟩ → refused refusal →
      Along (Pool.step (routes libraries))
        (Pool.Idle (routes libraries) Database.rows index)
        (.start (.start rows)) events) ∧
    (Along (Pool.step (routes libraries)) Undisturbed
        (.start (.start rows)) events →
      ∀ rule row, final.shared.rows rule = some row →
        Valid libraries.pydantic row) := by
  have always : Kept libraries False final :=
    run_kept (start_kept nofun) nofun ran
  refine ⟨always.holds.exact, ?_, ?_, ?_⟩
  · exact fun request row member => always.answered member
  · intro index request refusal ended early
    refine Pool.run_idle (fun dead => dead rfl) code_early ?_ nofun ran
      early ended
    exact fun _ _ _ _ _ quiet executed => exec_rows quiet executed
  · intro undisturbed
    have kept : Kept libraries True final :=
      run_kept (start_kept fun _ => valid) (fun _ => undisturbed) ran
    exact kept.holds.valid trivial

/-! ## Two edits of one rule -/

def sampleLibraries : Libraries where
  pydantic := ⟨true, true⟩
  readConfig := id

def sampleModel : JsonText.Text := [48]

/-- A threshold rule that has a model. -/
def sampleBody : Given
  | .name => some (some "pressure")
  | .condition => some (some .greaterThan)
  | .modelId => some (some sampleModel)
  | _ => none

def toModel : Given
  | .detectionType => some (some .ml)
  | _ => none

def withoutModel : Given
  | .modelId => some none
  | _ => none

/-- So many steps of one request. -/
def steps (index count : Nat) : List Event :=
  .replicate count (.step index .succeeds)

def created : List Event :=
  .spawn (.create sampleBody) :: steps 0 2

/-- Both edits read the rule before either sets its column. -/
def crossed : List Event :=
  created ++ (.spawn (.update 0 toModel) ::
    .spawn (.update 0 withoutModel) ::
      (steps 1 2 ++ steps 2 2 ++ steps 1 3 ++ steps 2 3) : List Event)

/-- The second edit reads what the first has left, and is refused. -/
def inTurn : List Event :=
  created ++ (.spawn (.update 0 toModel) ::
    .spawn (.update 0 withoutModel) :: (steps 1 5 ++ steps 2 3) : List Event)

def storedAfter (events : List Event) : Option Row :=
  (run (Pool.step (routes sampleLibraries)) (.start (.start fun _ => none))
    events).bind (·.shared.rows 0)

/-- A model rule is stored without a model. -/
theorem stored_rule_invalid :
    ¬∀ (libraries : Libraries) (events : List Event) (final : Service),
      run (Pool.step (routes libraries)) (.start (.start fun _ => none))
        events = some final →
      ∀ rule row, final.shared.rows rule = some row →
        Valid libraries.pydantic row := by
  intro always
  have stored : (storedAfter crossed).map detectionRequirements =
      some (some "ml rules require a model_id") := by
    decide +kernel
  obtain ⟨row, found, raised⟩ := Option.map_eq_some_iff.mp stored
  obtain ⟨final, ran, there⟩ := Option.bind_eq_some_iff.mp found
  have valid := always sampleLibraries crossed final ran 0 row there
  rw [(valid_iff.mp valid).2] at raised
  cases raised

/-- Edits in turn leave a valid rule. -/
theorem stored_rules_valid_turn : ∃ final : Service, ∃ row,
    final.shared.rows 0 = some row ∧ row .detectionType = some .ml ∧
      final.threads.map (·.program.error?) = [none, none,
        some (.invalid [.value "ml rules require a model_id"])] ∧
      Valid sampleLibraries.pydantic row := by
  let step := Pool.step (routes sampleLibraries)
  let start : Service := .start (.start fun _ => none)
  have undisturbed : Along step Undisturbed start inTurn := by
    decide +kernel
  have ended : ((run step start inTurn).bind fun final =>
      (final.shared.rows 0).map fun row =>
        (row .detectionType, final.threads.map (·.program.error?))) =
      some (some .ml, [none, none,
        some (.invalid [.value "ml rules require a model_id"])]) := by
    decide +kernel
  obtain ⟨final, ran, found⟩ := Option.bind_eq_some_iff.mp ended
  obtain ⟨row, there, same⟩ := Option.map_eq_some_iff.mp found
  obtain ⟨type, errors⟩ := Prod.mk.inj same
  have whole := stored_rules_valid sampleLibraries (fun _ => none) inTurn
    final nofun ran
  exact ⟨final, row, there, type, errors, whole.2.2.2 undisturbed 0 row there⟩

end IndustryFlow.AlertRules
