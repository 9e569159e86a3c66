import IndustryFlow.Consumption.Consumer

/-!
# At-least-once consumption

`Reached` says that a partition may be read or committed from an offset: every
record below it has been handled and no record below it waits to be presented
again.  The committed offsets are reached at all times, the positions whenever
the process asks for the next batch.
-/

namespace IndustryFlow.Consumption

open Concurrent

/-- The record was processed to completion or written as a dead letter. -/
def Stores.Handled (stores : Stores) (partition : Partition)
    (offset : Nat) : Prop :=
  (partition, offset) ∈ stores.processed ∨
    ∃ letter ∈ stores.deadLetters,
      letter.partition = partition ∧ letter.offset = offset

instance (stores : Stores) (partition : Partition) (offset : Nat) :
    Decidable (stores.Handled partition offset) :=
  inferInstanceAs (Decidable (_ ∨ _))

/-- The record was not below its partition's committed offset. -/
def Failure.Uncommitted (failure : Failure) : Prop :=
  failure.committed ≤ failure.offset

instance (failure : Failure) : Decidable failure.Uncommitted :=
  inferInstanceAs (Decidable (_ ≤ _))

/-- The process has the partition and reads on from the offset. -/
def Stores.At (stores : Stores) (partition : Partition) (offset : Nat) :
    Prop :=
  partition ∈ stores.assigned ∧ stores.position partition = some offset

structure Reached (stores : Stores) (partition : Partition)
    (offset : Nat) : Prop where
  handled : ∀ record < offset, stores.Handled partition record
  presented : ∀ failure ∈ stores.unpresented, failure.Uncommitted →
    failure.partition = partition → offset ≤ failure.offset

/-- What happens beside the process, and all it does itself short of failing:
nothing reached is lost, and a new position is a reached one. -/
structure Advances (before after : Stores) : Prop where
  reached : ∀ partition offset, Reached before partition offset →
    Reached after partition offset
  position : ∀ partition offset, after.At partition offset →
    before.At partition offset ∨ Reached after partition offset

theorem Advances.refl (stores : Stores) : Advances stores stores :=
  ⟨fun _ _ reached => reached, fun _ _ position => .inl position⟩

theorem Advances.trans {first second third : Stores}
    (before : Advances first second) (after : Advances second third) :
    Advances first third := by
  refine ⟨fun partition offset reached =>
    after.reached _ _ (before.reached _ _ reached), ?_⟩
  intro partition offset position
  rcases after.position partition offset position with earlier | reached
  · rcases before.position partition offset earlier with first | reached
    · exact .inl first
    · exact .inr (after.reached _ _ reached)
  · exact .inr reached

/-- The committed offsets are reached. -/
def Committable (stores : Stores) : Prop :=
  ∀ partition, Reached stores partition (stores.restart partition)

def contract {Value : Type} : Contract Stores (Op Value) Choice where
  invariant := Committable
  allowed _ _ _ := True
  rely := Advances
  guarantee _ _ := True
  rely_refl := Advances.refl
  rely_trans := Advances.trans

/-! ## What the calls do -/

/-- More is handled, less is owed and the positions are as they were. -/
private theorem advances_mono {before after : Stores}
    (handled : ∀ partition offset, before.Handled partition offset →
      after.Handled partition offset)
    (unpresented : after.unpresented ⊆ before.unpresented)
    (assigned : after.assigned = before.assigned)
    (position : after.position = before.position) :
    Advances before after := by
  constructor
  · intro partition offset reached
    constructor
    · exact fun record bound => handled _ _ (reached.handled record bound)
    · exact fun failure member =>
        reached.presented failure (unpresented member)
  · intro partition offset found
    unfold Stores.At at found
    rw [assigned, position] at found
    exact .inl found

theorem present_advances (stores : Stores) (message : Message) :
    Advances stores (stores.present message) := by
  apply advances_mono
  · exact fun _ _ handled => handled
  · exact fun failure member => (List.mem_filter.mp member).1
  · rfl
  · rfl

theorem process_advances (stores : Stores) (message : Message) :
    Advances stores (stores.process message) := by
  apply advances_mono
  · intro partition offset handled
    rcases handled with processed | dead
    · exact .inl (List.mem_cons_of_mem _ processed)
    · exact .inr dead
  · exact List.Subset.refl _
  · rfl
  · rfl

theorem deadLetter_advances (stores : Stores) (message : Message)
    (reason : String) :
    Advances stores (stores.deadLetter message reason) := by
  apply advances_mono
  · intro partition offset handled
    rcases handled with processed | ⟨letter, member, same⟩
    · exact .inl processed
    · exact .inr ⟨letter, List.mem_cons_of_mem _ member, same⟩
  · exact List.Subset.refl _
  · rfl
  · rfl

/-- A presented record that is handled moves its partition on. -/
private theorem reached_succ {stores after : Stores} {message : Message}
    (reached : Reached stores message.partition message.offset)
    (advances : Advances (stores.present message) after)
    (unpresented : after.unpresented =
      (stores.present message).unpresented)
    (handled : after.Handled message.partition message.offset) :
    Reached after message.partition (message.offset + 1) := by
  have before := advances.reached _ _
    ((present_advances stores message).reached _ _ reached)
  constructor
  · intro record bound
    rcases Nat.lt_succ_iff_lt_or_eq.mp bound with below | rfl
    · exact before.handled record below
    · exact handled
  · intro failure member owed same
    have least := before.presented failure member owed same
    rw [unpresented] at member
    have other := (List.mem_filter.mp member).2
    simp only [decide_eq_true_eq, same, true_and] at other
    omega

theorem process_reached {stores : Stores} {message : Message}
    (reached : Reached stores message.partition message.offset) :
    Reached ((stores.present message).process message) message.partition
      (message.offset + 1) :=
  reached_succ reached (process_advances _ _) rfl
    (.inl List.mem_cons_self)

theorem deadLetter_reached {stores : Stores} {message : Message}
    (reason : String)
    (reached : Reached stores message.partition message.offset) :
    Reached ((stores.present message).deadLetter message reason)
      message.partition (message.offset + 1) :=
  reached_succ reached (deadLetter_advances _ _ _) rfl
    (.inr ⟨_, List.mem_cons_self, rfl, rfl⟩)

/-- A failure is owed above the committed offset only. -/
theorem fail_committable {stores : Stores} (message : Message)
    (committable : Committable stores) :
    Committable (stores.fail message) := by
  intro partition
  refine ⟨(committable partition).handled, ?_⟩
  intro failure member owed same
  rcases List.mem_cons.mp member with rfl | before
  · cases same
    exact owed
  · exact (committable partition).presented failure before owed same

theorem commit_committable {stores : Stores}
    {offsets : List (Partition × Nat)}
    (reached : ∀ entry ∈ offsets, Reached stores entry.1 entry.2)
    (committable : Committable stores) :
    Committable (stores.commit offsets) := by
  intro partition
  have same (offset : Nat) (holds : Reached stores partition offset) :
      Reached (stores.commit offsets) partition offset :=
    ⟨holds.handled, holds.presented⟩
  unfold Stores.restart Stores.commit
  simp only
  split
  · rename_i entry found
    have matched := List.find?_some found
    have holds := reached entry (List.mem_of_find?_eq_some found)
    rw [of_decide_eq_true matched] at holds
    exact same _ holds
  · exact same _ (committable partition)

theorem Advances.committable {before after : Stores}
    (advances : Advances before after)
    (same : after.committed = before.committed)
    (committable : Committable before) : Committable after := by
  intro partition
  have reached := advances.reached _ _ (committable partition)
  unfold Stores.restart at reached ⊢
  rwa [same]

/-! ## What happens beside the process -/

private theorem elsewhere_reached {stores : Stores} {partition : Partition}
    {offset : Nat} (committable : Committable stores) :
    Reached (stores.handleElsewhere partition offset) partition offset := by
  have before := committable partition
  constructor
  · intro record bound
    by_cases below : record < stores.restart partition
    · rcases before.handled record below with processed | dead
      · exact .inl (List.mem_append_right _ processed)
      · exact .inr dead
    · refine .inl (List.mem_append_left _ (List.mem_map.mpr ⟨record, ?_, rfl⟩))
      simp only [List.mem_filter, List.mem_range, decide_eq_true_eq]
      exact ⟨bound, Nat.le_of_not_lt below⟩
  · intro failure member owed same
    obtain ⟨member, kept⟩ := List.mem_filter.mp member
    have least := before.presented failure member owed same
    simp only [same, List.mem_filter, List.mem_range, decide_eq_true_eq,
      true_and] at kept
    omega

private theorem elsewhere_advances (stores : Stores) (partition : Partition)
    (offset : Nat) :
    Advances stores (stores.handleElsewhere partition offset) := by
  apply advances_mono
  · intro other record handled
    rcases handled with processed | dead
    · exact .inl (List.mem_append_right _ processed)
    · exact .inr dead
  · exact fun failure member => (List.mem_filter.mp member).1
  · rfl
  · rfl

theorem change_advances {stores after : Stores} {changed : Change}
    (committable : Committable stores)
    (done : change stores changed = some after) :
    Committable after ∧ Advances stores after := by
  cases changed with
  | append partition value =>
      cases done
      exact ⟨fun other => ⟨(committable other).handled,
        (committable other).presented⟩,
        advances_mono (fun _ _ handled => handled) (fun _ member => member)
          rfl rfl⟩
  | reassign partitions =>
      cases done
      refine ⟨fun other => ⟨(committable other).handled,
        (committable other).presented⟩, ?_, fun _ _ found => nomatch found.2⟩
      exact fun _ _ reached => ⟨reached.handled, reached.presented⟩
  | resolve partition =>
      simp only [change] at done
      split at done
      · cases done
        have same (other : Partition) (offset : Nat)
            (reached : Reached stores other offset) : Reached
              (stores.seek partition (stores.restart partition)) other
              offset :=
          ⟨reached.handled, reached.presented⟩
        refine ⟨fun other => same _ _ (committable other), same, ?_⟩
        intro other offset found
        by_cases own : other = partition
        · subst own
          simp only [Stores.At, Stores.seek, Function.update_self,
            Option.some.injEq] at found
          rw [← found.2]
          exact .inr (same _ _ (committable other))
        · simp only [Stores.At, Stores.seek,
            Function.update_of_ne own] at found
          exact .inl found
      · cases done
  | elsewhere partition offset =>
      simp only [change] at done
      split at done
      · cases done
        have advances := elsewhere_advances stores partition offset
        refine ⟨?_, advances⟩
        intro other
        by_cases own : other = partition
        · subst own
          have restarts : (stores.handleElsewhere other offset).restart
              other = offset := by
            simp [Stores.restart, Stores.handleElsewhere]
          rw [restarts]
          exact elsewhere_reached committable
        · have restarts : (stores.handleElsewhere partition offset).restart
              other = stores.restart other := by
            simp [Stores.restart, Stores.handleElsewhere,
              Function.update_of_ne own]
          rw [restarts]
          exact advances.reached _ _ (committable other)
      · cases done

/-! ## Handling a batch -/

variable {Value : Type}

/-- A dead letter moves the partition on, or the record has failed. -/
private theorem send_cases {message : Message} {reason : String}
    {choice : Choice} {stores after : Stores} {reply : Bool}
    (executed : exec stores (Op.send message reason : Op Value) choice =
      some (reply, after)) :
    (reply = true ∧
      after = (stores.present message).deadLetter message reason) ∨
    reply = false ∧ ∃ tried, Advances stores tried ∧
      tried.committed = stores.committed ∧ after = tried.fail message := by
  have presented := present_advances stores message
  cases choice with
  | sent written acknowledged =>
      cases written <;> cases acknowledged
      · cases executed
        exact .inr ⟨rfl, _, presented, rfl, rfl⟩
      · cases executed
      · cases executed
        exact .inr ⟨rfl, _, presented.trans (deadLetter_advances _ _ _), rfl,
          rfl⟩
      · cases executed
        exact .inl ⟨rfl, rfl⟩
  | _ => cases executed

private theorem evaluate_cases {message : Message} {value : Value}
    {choice : Choice} {stores after : Stores} {reply : Evaluated}
    (executed : exec stores (Op.evaluate message value) choice =
      some (reply, after)) :
    (reply = .completed ∧
      after = (stores.present message).process message) ∨
    (reply = .infrastructure ∧
      after = (stores.present message).fail message) ∨
    reply ≠ .completed ∧ after = stores.present message := by
  cases choice with
  | evaluated outcome =>
      cases outcome with
      | completed =>
          cases executed
          exact .inl ⟨rfl, rfl⟩
      | infrastructure =>
          cases executed
          exact .inr (.inl ⟨rfl, rfl⟩)
      | invalid reason =>
          cases executed
          exact .inr (.inr ⟨nofun, rfl⟩)
      | failed error =>
          cases executed
          exact .inr (.inr ⟨nofun, rfl⟩)
  | _ => cases executed

/-- Handled, and the partition has moved on. -/
private def HandledPost (stores : Stores) (message : Message) :
    Except Crash Outcome → Stores → Prop
  | .ok .handled, later => Advances stores later ∧
      Reached later message.partition (message.offset + 1)
  | _, _ => True

private theorem deadLetter_safe (message : Message) (reason : String)
    {initial stores : Stores} (advances : Advances initial stores)
    (reached : Reached stores message.partition message.offset) :
    (deadLetter message reason : Consume Value Outcome).Safe exec contract
      (HandledPost initial message) stores := by
  intro later committable more choice reply after _ executed
  have reachedNow := more.reached _ _ reached
  rcases send_cases executed with ⟨rfl, rfl⟩ | ⟨rfl, tried, moved, same, rfl⟩
  · have moved := (present_advances later message).trans
      (deadLetter_advances _ message reason)
    refine ⟨moved.committable rfl committable, trivial, ?_⟩
    intro last _ further
    exact ⟨advances.trans (more.trans (moved.trans further)),
      further.reached _ _ (deadLetter_reached reason reachedNow)⟩
  · exact ⟨fail_committable message (moved.committable same committable),
      trivial, fun _ _ _ => trivial⟩

private theorem attempts_safe (config : Config Value) (message : Message)
    (value : Value) (left : Nat) (error : String) {initial stores : Stores}
    (advances : Advances initial stores)
    (reached : Reached stores message.partition message.offset) :
    (attempts config message value left error).Safe exec contract
      (HandledPost initial message) stores := by
  induction left generalizing stores error with
  | zero => exact deadLetter_safe message _ advances reached
  | succ left induction =>
      unfold attempts processMessage
      split
      · intro later committable more choice reply after _ executed
        have reachedNow := more.reached _ _ reached
        have presented := present_advances later message
        rcases evaluate_cases executed with
          ⟨rfl, rfl⟩ | ⟨rfl, rfl⟩ | ⟨incomplete, rfl⟩
        · have moved := presented.trans (process_advances _ message)
          refine ⟨moved.committable rfl committable, trivial, ?_⟩
          intro last _ further
          exact ⟨advances.trans (more.trans (moved.trans further)),
            further.reached _ _ (process_reached reachedNow)⟩
        · exact ⟨fail_committable message
            (presented.committable rfl committable), trivial,
            fun _ _ _ => trivial⟩
        · have still := advances.trans (more.trans presented)
          have reachedStill := presented.reached _ _ reachedNow
          refine ⟨presented.committable rfl committable, trivial, ?_⟩
          cases reply with
          | completed => exact absurd rfl incomplete
          | invalid reason =>
              exact deadLetter_safe message reason still reachedStill
          | infrastructure => exact fun _ _ _ => trivial
          | failed error => exact induction error still reachedStill
      · exact deadLetter_safe message _ advances reached

private theorem handleMessage_safe (config : Config Value)
    (message : Message) {stores : Stores}
    (reached : Reached stores message.partition message.offset) :
    (handleMessage config message).Safe exec contract
      (HandledPost stores message) stores := by
  unfold handleMessage
  split
  · exact fun _ _ _ => trivial
  · exact deadLetter_safe message _ (.refl _) reached
  · exact attempts_safe config message _ _ _ (.refl _) reached

/-- Each message is reached once those before it have been handled. -/
private def Upcoming (stores : Stores) : List Message → Prop
  | [] => True
  | message :: messages =>
      Reached stores message.partition message.offset ∧
        ∀ later, Advances stores later →
          Reached later message.partition (message.offset + 1) →
            Upcoming later messages

private theorem Upcoming.stable {stores later : Stores}
    {messages : List Message} (upcoming : Upcoming stores messages)
    (advances : Advances stores later) : Upcoming later messages := by
  cases messages with
  | nil => trivial
  | cons message messages =>
      exact ⟨advances.reached _ _ upcoming.1, fun last more =>
        upcoming.2 last (advances.trans more)⟩

/-- The middle of a batch: the positions are those after the batch. -/
private structure Handling (stores : Stores) (messages : List Message)
    (offsets : List (Partition × Nat)) : Prop where
  upcoming : Upcoming stores messages
  offsets : ∀ entry ∈ offsets, Reached stores entry.1 entry.2
  position : ∀ partition offset, stores.At partition offset →
    Reached stores partition offset ∨ ∃ message ∈ messages,
      message.partition = partition ∧ message.offset + 1 = offset

private theorem Handling.stable {stores later : Stores}
    {messages : List Message} {offsets : List (Partition × Nat)}
    (handling : Handling stores messages offsets)
    (advances : Advances stores later) :
    Handling later messages offsets := by
  refine ⟨handling.upcoming.stable advances,
    fun entry member => advances.reached _ _ (handling.offsets entry member),
    ?_⟩
  intro partition offset found
  rcases advances.position partition offset found with before | reached
  · rcases handling.position partition offset before with reached | ahead
    · exact .inl (advances.reached _ _ reached)
    · exact .inr ahead
  · exact .inl reached

private theorem Handling.next {stores later : Stores} {message : Message}
    {messages : List Message} {offsets : List (Partition × Nat)}
    (handling : Handling stores (message :: messages) offsets)
    (advances : Advances stores later)
    (reached : Reached later message.partition (message.offset + 1)) :
    Handling later messages
      (setOffset offsets message.partition (message.offset + 1)) := by
  have still := handling.stable advances
  constructor
  · exact handling.upcoming.2 later advances reached
  · intro entry member
    rcases List.mem_cons.mp member with rfl | before
    · exact reached
    · exact still.offsets entry (List.mem_filter.mp before).1
  · intro partition offset found
    rcases still.position partition offset found with done | ahead
    · exact .inl done
    · obtain ⟨other, member, rfl, rfl⟩ := ahead
      rcases List.mem_cons.mp member with rfl | later
      · exact .inl reached
      · exact .inr ⟨other, later, rfl, rfl⟩

private def MessagesPost :
    Except Crash (Option (List (Partition × Nat))) → Stores → Prop
  | .ok (some offsets), later => Handling later [] offsets
  | _, _ => True

private theorem handleMessages_safe (config : Config Value)
    {messages : List Message} {offsets : List (Partition × Nat)}
    {stores : Stores} (committable : Committable stores)
    (handling : Handling stores messages offsets) :
    (handleMessages config messages offsets).Safe exec contract
      MessagesPost stores := by
  induction messages generalizing stores offsets with
  | nil => exact fun later _ more => handling.stable more
  | cons message messages induction =>
      unfold handleMessages
      refine Program.Safe.bind committable
        (handleMessage_safe config message handling.upcoming.1) ?_
        (fun _ _ _ => trivial)
      intro outcome later committable post
      cases outcome with
      | handled =>
          obtain ⟨advances, reached⟩ := post
          exact induction committable (handling.next advances reached)
      | retryBatch => exact fun _ _ _ => trivial

/-! ## Taking and giving back a batch -/

/-- Every position is reached. -/
def Resting (stores : Stores) : Prop :=
  ∀ partition offset, stores.At partition offset →
    Reached stores partition offset

private theorem Resting.stable {stores later : Stores}
    (resting : Resting stores) (advances : Advances stores later) :
    Resting later := by
  intro partition offset found
  rcases advances.position partition offset found with before | reached
  · exact advances.reached _ _ (resting partition offset before)
  · exact reached

private theorem upcoming_messages {stores : Stores} (source : Stores)
    {partition : Partition} {first : Nat} (count : Nat)
    {rest : List Message} (reached : Reached stores partition first)
    (others : ∀ later, Advances stores later → Upcoming later rest) :
    Upcoming stores (source.messages partition first count ++ rest) := by
  induction count generalizing stores first with
  | zero => exact others stores (.refl _)
  | succ count induction =>
      have split : source.messages partition first (count + 1) =
          ⟨partition, first, ((source.log partition)[first]?).getD none⟩ ::
            source.messages partition (first + 1) count := by
        unfold Stores.messages
        rw [List.range_succ_eq_map, List.map_cons, List.map_map]
        simp [Function.comp_def, Nat.add_assoc, Nat.add_comm 1]
      rw [split]
      refine ⟨reached, fun later advances next => induction next ?_⟩
      exact fun last more => others last (advances.trans more)

private theorem upcoming_fetch {stores : Stores} (source : Stores)
    {counts : List (Partition × Nat)}
    (reached : ∀ entry ∈ counts, Reached stores entry.1
      ((source.position entry.1).getD 0)) :
    Upcoming stores ((source.fetch counts).flatMap Prod.snd) := by
  induction counts generalizing stores with
  | nil => trivial
  | cons entry counts induction =>
      obtain ⟨head, tail⟩ := List.forall_mem_cons.mp reached
      refine upcoming_messages source entry.2 head ?_
      exact fun later advances => induction fun other member =>
        advances.reached _ _ (tail other member)

private theorem fetch_handling {stores : Stores}
    {counts : List (Partition × Nat)} (resting : Resting stores)
    (fetchable : stores.Fetchable counts) :
    Handling (stores.advance counts)
      ((stores.fetch counts).flatMap Prod.snd) [] := by
  have same (partition : Partition) (offset : Nat)
      (reached : Reached stores partition offset) :
      Reached (stores.advance counts) partition offset :=
    ⟨reached.handled, reached.presented⟩
  refine ⟨upcoming_fetch stores ?_, by simp, ?_⟩
  · intro entry member
    obtain ⟨-, own, first, found, -⟩ := fetchable.2.2 entry member
    rw [Option.mem_def.mp found]
    exact same _ _ (resting _ _ ⟨own, found⟩)
  · intro partition offset ⟨own, found⟩
    simp only [Stores.advance] at found
    split at found
    · rename_i entry taken
      have member := List.mem_of_find?_eq_some taken
      have matched := List.find?_some taken
      cases of_decide_eq_true matched
      obtain ⟨positive, -, first, position, -⟩ :=
        fetchable.2.2 entry member
      rw [Option.mem_def.mp position] at found
      cases found
      refine .inr ⟨⟨entry.1, first + (entry.2 - 1),
        ((stores.log entry.1)[first + (entry.2 - 1)]?).getD none⟩, ?_, rfl,
        by simp only; omega⟩
      refine List.mem_flatMap.mpr ⟨_, List.mem_map_of_mem member, ?_⟩
      rw [Option.mem_def.mp position]
      exact List.mem_map.mpr
        ⟨entry.2 - 1, List.mem_range.mpr (by omega), rfl⟩
    · exact .inl (same _ _ (resting _ _ ⟨own, found⟩))

private def BatchPost : Except Crash Bool → Stores → Prop
  | .ok true, later => Resting later
  | _, _ => True

private theorem commit_kept {stores : Stores}
    {offsets stored : List (Partition × Nat)}
    (handling : Handling stores [] offsets)
    (committable : Committable stores) (part : stored ⊆ offsets) :
    Committable (stores.commit stored) ∧ Resting (stores.commit stored) := by
  refine ⟨commit_committable (fun entry member =>
    handling.offsets entry (part member)) committable, ?_⟩
  intro partition offset found
  rcases handling.position partition offset found with reached | ahead
  · exact ⟨reached.handled, reached.presented⟩
  · simp at ahead

private theorem commit_safe {offsets : List (Partition × Nat)}
    {stores : Stores} (handling : Handling stores [] offsets) :
    (commit offsets >>= fun reply => match reply with
      | .done => pure true
      | .recoverable => pure false
      | .raised => .fail .raised : Consume Value Bool).Safe exec contract
        BatchPost stores := by
  intro later committable more choice reply after _ executed
  have handlingNow := handling.stable more
  cases choice with
  | commit answered stored =>
      simp only [exec] at executed
      split at executed
      · cases executed
        exact ⟨committable, trivial, fun _ _ _ => trivial⟩
      · have partly : Committable (later.commit
            (offsets.filter fun entry => entry.1 ∈ stored)) :=
          (commit_kept handlingNow committable
            fun _ member => (List.mem_filter.mp member).1).1
        cases answered with
        | done =>
            cases executed
            obtain ⟨kept, resting⟩ := commit_kept handlingNow committable
              (List.Subset.refl offsets)
            exact ⟨kept, trivial, fun _ _ further => resting.stable further⟩
        | recoverable =>
            cases executed
            exact ⟨partly, trivial, fun _ _ _ => trivial⟩
        | raised =>
            cases executed
            exact ⟨partly, trivial, fun _ _ _ => trivial⟩
  | _ => cases executed

private theorem handleBatch_safe (config : Config Value)
    {data : List (Partition × List Message)} {stores : Stores}
    (committable : Committable stores)
    (handling : Handling stores (data.flatMap Prod.snd) []) :
    (handleBatch config data).Safe exec contract BatchPost stores := by
  refine Program.Safe.bind committable
    (handleMessages_safe config committable handling) ?_
    (fun _ _ _ => trivial)
  intro handled later _ post
  cases handled with
  | none => exact fun _ _ _ => trivial
  | some offsets => exact commit_safe post

/-- The partitions still to be sought are the only ones astray. -/
private def Rewinding (partitions : List Partition) (stores : Stores) :
    Prop :=
  ∀ partition offset, stores.At partition offset →
    partition ∈ partitions ∨ Reached stores partition offset

private theorem Rewinding.stable {partitions : List Partition}
    {stores later : Stores} (rewinding : Rewinding partitions stores)
    (advances : Advances stores later) : Rewinding partitions later := by
  intro partition offset found
  rcases advances.position partition offset found with before | reached
  · rcases rewinding partition offset before with listed | reached
    · exact .inl listed
    · exact .inr (advances.reached _ _ reached)
  · exact .inr reached

private theorem Rewinding.seek {partition : Partition}
    {partitions : List Partition} {stores : Stores} {offset : Nat}
    (rewinding : Rewinding (partition :: partitions) stores)
    (reached : Reached stores partition offset) :
    Rewinding partitions (stores.seek partition offset) := by
  intro other position found
  by_cases own : other = partition
  · subst own
    simp only [Stores.At, Stores.seek, Function.update_self,
      Option.some.injEq] at found
    rw [← found.2]
    exact .inr ⟨reached.handled, reached.presented⟩
  · simp only [Stores.At, Stores.seek, Function.update_of_ne own] at found
    rcases rewinding other position found with listed | reached
    · exact .inl ((List.mem_cons.mp listed).resolve_left own)
    · exact .inr ⟨reached.handled, reached.presented⟩

private def RestPost : Except Crash Unit → Stores → Prop
  | .ok (), later => Resting later
  | _, _ => True

private theorem seekAll_safe {partitions : List Partition}
    {stores : Stores} (rewinding : Rewinding partitions stores) :
    (seekAll partitions : Consume Value Unit).Safe exec contract RestPost
      stores := by
  induction partitions generalizing stores with
  | nil =>
      intro later _ more partition offset found
      rcases rewinding.stable more partition offset found with none | done
      · cases none
      · exact done
  | cons partition partitions induction =>
      intro reading committable more choice reply after _ executed
      have astray := rewinding.stable more
      have reached := committable partition
      cases choice with
      | plain =>
          cases executed
          refine ⟨committable, trivial, ?_⟩
          intro seeking committable more choice reply after _ executed
          have reachedNow := more.reached _ _ reached
          have astrayNow := astray.stable more
          cases choice with
          | plain =>
              simp only [exec] at executed
              split at executed
              · cases executed
                refine ⟨fun other => ⟨(committable other).handled,
                  (committable other).presented⟩, trivial, ?_⟩
                exact induction (astrayNow.seek reachedNow)
              · cases executed
                exact ⟨committable, trivial, fun _ _ _ => trivial⟩
          | raises =>
              cases executed
              exact ⟨committable, trivial, fun _ _ _ => trivial⟩
          | _ => cases executed
      | raises =>
          cases executed
          exact ⟨committable, trivial, fun _ _ _ => trivial⟩
      | _ => cases executed

private theorem seekToCommitted_safe {stores : Stores} :
    (seekToCommitted : Consume Value Unit).Safe exec contract RestPost
      stores := by
  intro later committable _ choice reply after _ executed
  cases choice with
  | plain =>
      cases executed
      exact ⟨committable, trivial,
        seekAll_safe fun _ _ found => .inl found.1⟩
  | _ => cases executed

private theorem consumeMessages_safe (config : Config Value) (batches : Nat)
    {stores : Stores} (resting : Resting stores) :
    (consumeMessages config batches).Safe exec contract (fun _ _ => True)
      stores := by
  induction batches generalizing stores with
  | zero => exact fun _ _ _ => trivial
  | succ batches induction =>
      intro taking committable more choice reply after _ executed
      have restingNow := resting.stable more
      cases choice with
      | records counts =>
          simp only [exec] at executed
          split at executed
          · rename_i fetchable
            cases executed
            have handling := fetch_handling restingNow fetchable
            have kept : Committable (taking.advance counts) :=
              fun other => ⟨(committable other).handled,
                (committable other).presented⟩
            refine ⟨kept, trivial, ?_⟩
            show Program.Safe exec contract _ (if _ then _ else _) _
            split
            · rename_i nothing
              rw [List.isEmpty_iff.mp nothing] at handling
              refine induction fun partition offset found => ?_
              rcases handling.position partition offset found with
                reached | ahead
              · exact reached
              · simp at ahead
            · refine Program.Safe.bind kept
                (handleBatch_safe config kept handling) ?_
                (fun _ _ _ => trivial)
              intro handled later committable post
              cases handled with
              | true => exact induction post
              | false =>
                  refine Program.Safe.bind committable
                    seekToCommitted_safe ?_ (fun _ _ _ => trivial)
                  exact fun _ last _ resting => induction resting
          · cases executed
      | _ => cases executed

theorem worker_safe (config : Config Value) (stores : Stores) :
    (worker config).Safe exec contract (fun _ _ => True) stores := by
  intro starting committable _ choice reply after _ executed
  cases choice with
  | plain =>
      cases executed
      refine ⟨fun other => ⟨(committable other).handled,
        (committable other).presented⟩, trivial, ?_⟩
      intro asking committable more choice batches after _ executed
      cases choice with
      | batches count =>
          cases executed
          refine ⟨committable, trivial, consumeMessages_safe config _ ?_⟩
          have none_yet : Resting { starting with
              assigned := [], position := fun _ => none } :=
            fun _ _ found => nomatch found.2
          exact none_yet.stable more
      | _ => cases executed
  | _ => cases executed

/-- Every record below a committed offset has been handled, and no committed
offset passes a record that failed above it and was not presented again. -/
theorem consumption_at_least_once (config : Config Value)
    (events : List (SoloEvent Choice Change))
    (final : Solo Stores (Op Value) Reply Crash Unit)
    (ran : run (Solo.step (consumer config)) ⟨.empty, .done ()⟩ events =
      some final) (partition : Partition) (offset : Nat)
    (committed : final.shared.committed partition = some offset) :
    (∀ record < offset, final.shared.Handled partition record) ∧
    (∀ failure ∈ final.shared.unpresented, failure.partition = partition →
      failure.committed ≤ failure.offset → offset ≤ failure.offset) := by
  have kept : Solo.Kept (consumer config) contract final := by
    refine run_preserves _ ?_ ?_ ran
    · intro state event next kept taken
      exact (Solo.step_keeps (fun stores _ => worker_safe config stores)
        (fun _ _ _ => change_advances) kept (fun _ _ _ => trivial) taken).1
    · refine ⟨fun other => ⟨?_, ?_⟩, fun _ _ _ => trivial⟩
      · exact fun record bound => absurd bound (Nat.not_lt_zero record)
      · exact fun failure member => nomatch member
  have reached := kept.holds partition
  rw [Stores.restart, committed] at reached
  exact ⟨reached.handled, fun failure member same owed =>
    reached.presented failure member owed same⟩

/-- Every record is a reading of some company. -/
def readings : Config Unit where
  maxRetries := 3
  loads _ := .value ()
  isObject _ := true
  typeName _ := "dict"
  hasCompany _ := true

/-- The process has started, with three records in its only partition. -/
def started : List (SoloEvent Choice Change) :=
  ([.start, .step .plain, .step (.batches 3)] :
    List (SoloEvent Choice Change)) ++
    (List.replicate 3 (.environment (.append 0 (some []))) :
      List (SoloEvent Choice Change)) ++
    ([.environment (.reassign [0]), .environment (.resolve 0)] :
      List (SoloEvent Choice Change))

/-- The first record is committed, and the second fails. -/
theorem consumption_at_least_once_after_failure : ∃ final,
    run (Solo.step (consumer readings)) ⟨.empty, .done ()⟩
      (started ++ ([.step (.records [(0, 1)]), .step (.evaluated .completed),
        .step (.commit .done []), .step (.records [(0, 2)]),
        .step (.evaluated .infrastructure)] :
          List (SoloEvent Choice Change))) = some final ∧
    final.shared.unpresented = [⟨0, 1, 1⟩] ∧
    (∀ record < 1, final.shared.Handled 0 record) ∧
    (∀ failure ∈ final.shared.unpresented, failure.partition = 0 →
      failure.committed ≤ failure.offset → 1 ≤ failure.offset) := by
  have ran : ((run (Solo.step (consumer readings)) ⟨.empty, .done ()⟩
      (started ++ ([.step (.records [(0, 1)]), .step (.evaluated .completed),
        .step (.commit .done []), .step (.records [(0, 2)]),
        .step (.evaluated .infrastructure)] :
          List (SoloEvent Choice Change)))).any fun final =>
      decide (final.shared.committed 0 = some 1 ∧
        final.shared.unpresented = [⟨0, 1, 1⟩])) = true := by
    decide +kernel
  obtain ⟨final, ran, facts⟩ := (Option.any_eq_true _ _).mp ran
  obtain ⟨committed, failed⟩ := of_decide_eq_true facts
  exact ⟨final, ran, failed,
    consumption_at_least_once readings _ final ran 0 1 committed⟩

/-- A rebalance while the first two records are being handled puts the
position back.  They are committed and then fetched again; the first one fails
this time and the rewind, to the committed offset, leaves it behind. -/
theorem failed_record_left_behind :
    ¬∀ (config : Config Unit) (events : List (SoloEvent Choice Change))
      (final : Solo Stores (Op Unit) Reply Crash Unit),
      run (Solo.step (consumer config)) ⟨.empty, .done ()⟩ events =
        some final →
      ∀ partition offset, final.shared.committed partition = some offset →
        (∀ record < offset, final.shared.Handled partition record) ∧
        (∀ failure ∈ final.shared.unpresented,
          failure.partition = partition →
            offset ≤ max failure.committed (failure.offset + 1)) := by
  intro always
  have ran : ((run (Solo.step (consumer readings)) ⟨.empty, .done ()⟩
      (started ++ ([.step (.records [(0, 2)]),
        .environment (.reassign [0]), .environment (.resolve 0),
        .step (.evaluated .completed), .step (.evaluated .completed),
        .step (.commit .done []), .step (.records [(0, 1)]),
        .step (.evaluated .infrastructure), .step .plain, .step .plain,
        .step .plain, .step (.records [(0, 1)]),
        .step (.evaluated .completed), .step (.commit .done [])] :
          List (SoloEvent Choice Change)))).any
      fun final => decide (final.shared.committed 0 = some 3 ∧
        final.shared.unpresented = [⟨0, 0, 2⟩])) = true := by
    decide +kernel
  obtain ⟨final, ran, facts⟩ := (Option.any_eq_true _ _).mp ran
  obtain ⟨committed, failed⟩ := of_decide_eq_true facts
  have bounded := (always readings _ final ran 0 3 committed).2 ⟨0, 0, 2⟩
    (by simp [failed]) rfl
  exact absurd bounded (by decide)

end IndustryFlow.Consumption
