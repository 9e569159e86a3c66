import IndustryFlow.SignIn.Throttle
import Mathlib.Data.List.Chain
import Mathlib.Data.List.Induction

/-!
# Guesses from one source are spaced

What the record holds of a source is its last counted attempt, with at least as
many attempts as were counted since the record began.  As long as no hour
passes between two counted attempts the record is kept, and the next attempt of
a source waits for the delay of its count (`guesses_spaced`).
-/

namespace IndustryFlow.SignIn

open Tenancy (Text)

variable {ipAddress : Text → Option Address}

/-! ## Runs of calls -/

theorem after_append (record : Option Record) (earlier later : List Call) :
    after ipAddress record (earlier ++ later) =
      after ipAddress (after ipAddress record earlier) later :=
  List.foldl_append

theorem answers_append (record : Option Record) (earlier later : List Call) :
    answers ipAddress record (earlier ++ later) =
      answers ipAddress record earlier ++
        answers ipAddress (after ipAddress record earlier) later := by
  induction earlier generalizing record with
  | nil => rfl
  | cons call earlier induction =>
      rw [List.cons_append, answers, answers, induction]
      rfl

theorem admitted_snoc (record : Option Record) (calls : List Call)
    (call : Call) :
    admitted ipAddress record (calls ++ [call]) =
      admitted ipAddress record calls ++
        if (step ipAddress (after ipAddress record calls) call).1 = some 0 then
          [call]
        else [] := by
  rw [admitted, answers_append, List.filter_append, List.map_append,
    ← admitted]
  congr 1
  rw [answers, answers, List.filter_cons]
  by_cases counted :
      (step ipAddress (after ipAddress record calls) call).1 = some 0
  · rw [if_pos (by simpa using counted), if_pos counted]
    rfl
  · rw [if_neg (by simpa using counted), if_neg counted]
    rfl

theorem Ordered.init {calls : List Call} {call : Call}
    (ordered : Ordered (calls ++ [call])) :
    Ordered calls ∧ ∀ earlier ∈ calls, earlier.time ≤ call.time := by
  rw [Ordered, List.map_append, List.pairwise_append] at ordered
  refine ⟨ordered.1, fun earlier member => ?_⟩
  exact ordered.2.2 earlier.time (List.mem_map_of_mem member) call.time
    (List.mem_singleton_self _)

theorem live_some (now : Rat) (kept : Record) : live now (some kept) =
    if now ≤ kept.expires then some kept else none := by
  rw [live, Option.filter_some]
  simp only [decide_eq_true_eq]

theorem live_self {now : Rat} {kept : Record} (alive : now ≤ kept.expires) :
    live now (some kept) = some kept := by
  rw [live_some, if_pos alive]

theorem live_eq_some {now : Rat} {record : Option Record} {kept : Record}
    (held : live now record = some kept) : record = some kept := by
  cases record with
  | none => cases held
  | some other =>
      rw [live_some] at held
      split at held
      · exact held
      · cases held

theorem attemptsOf_eq_some {now : Rat} {record : Option Record}
    {source : Text} {found : Attempts} :
    attemptsOf now record source = some found ↔
      ∃ kept, record = some kept ∧ now ≤ kept.expires ∧
        kept.attempts source = some found := by
  cases record with
  | none => simp [attemptsOf, live]
  | some kept =>
      by_cases alive : now ≤ kept.expires
      · simp [attemptsOf, live_some, alive]
      · simp [attemptsOf, live_some, alive]

/-- A refused attempt leaves the record as it is. -/
theorem reserve_refused {now : Rat} {source : Text} {record : Option Record}
    (refused : (reserve now source record).1 ≠ 0) :
    (reserve now source record).2 = record := by
  rcases reserve_cases now source record with
    ⟨found, held, -, -, reserved⟩ | ⟨-, reserved⟩
  · obtain ⟨kept, rfl, alive, -⟩ := attemptsOf_eq_some.mp held
    rw [reserved]
    exact live_self alive
  · rw [reserved] at refused
    exact absurd rfl refused

theorem ceil_positive {wait : Rat} (positive : 0 < wait) : 0 < wait.ceil :=
  Rat.lt_ceil_iff.mpr (by simpa using positive)

/-- A counted attempt begins the hour anew. -/
theorem reserve_counted {now : Rat} {source : Text} {record : Option Record}
    (counted : (reserve now source record).1 = 0) :
    (reserve now source record).2 = some {
      attempts := Function.update (attemptsOf now record) source (some
        ⟨((attemptsOf now record source).map Attempts.count).getD 0 + 1, now⟩)
      expires := now + forgetAfterSeconds } := by
  rcases reserve_cases now source record with
    ⟨found, -, -, waiting, reserved⟩ | ⟨-, reserved⟩
  · rw [reserved] at counted
    have ahead := ceil_positive (sub_pos.mpr waiting)
    exact absurd counted ahead.ne'
  · rw [reserved]

/-! ## Spacing -/

/-- No gap in which the record is forgotten. -/
def Gapless (attempts : List Call) : Prop :=
  attempts.IsChain fun (earlier later : Call) =>
    later.time - earlier.time < forgetAfterSeconds

/-- The attempt after `count` ones waits for their delay. -/
def Spaced (attempts : List Call) : Prop :=
  ∀ number, 6 ≤ number → ∀ earlier later : Call,
    attempts[number - 2]? = some earlier →
    attempts[number - 1]? = some later →
    earlier.time + delayAfter (number - 1) ≤ later.time

/-- The attempts of a source. -/
def ofSource (ipAddress : Text → Option Address) (source : Text)
    (calls : List Call) : List Call :=
  calls.filter fun call => call.source ipAddress = some source

theorem Spaced.snoc {attempts : List Call} {call : Call}
    (spaced : Spaced attempts)
    (waited : ∀ last ∈ attempts.getLast?, 5 ≤ attempts.length →
      last.time + delayAfter attempts.length ≤ call.time) :
    Spaced (attempts ++ [call]) := by
  intro number many earlier later atEarlier atLater
  have bound := (List.getElem?_eq_some_iff.mp atLater).1
  rw [List.length_append, List.length_singleton] at bound
  by_cases inside : number - 1 < attempts.length
  · rw [List.getElem?_append_left inside] at atLater
    rw [List.getElem?_append_left (by omega)] at atEarlier
    exact spaced number many earlier later atEarlier atLater
  · have number_eq : number - 1 = attempts.length := by omega
    rw [number_eq, List.getElem?_concat_length] at atLater
    cases atLater
    rw [List.getElem?_append_left (by omega)] at atEarlier
    have last : earlier ∈ attempts.getLast? := by
      rw [List.getLast?_eq_getElem?]
      have index : attempts.length - 1 = number - 2 := by omega
      rw [index]
      exact atEarlier
    rw [number_eq]
    exact waited earlier last (by omega)

/-- What the record holds after some attempts were counted. -/
structure Counting (source : Text) (record : Option Record)
    (all mine : List Call) : Prop where
  held : ∀ last ∈ mine.getLast?, ∃ kept found, record = some kept ∧
    kept.attempts source = some found ∧ mine.length ≤ found.count ∧
      found.last = last.time
  expires : ∀ last ∈ all.getLast?, ∀ kept ∈ record,
    kept.expires = last.time + forgetAfterSeconds

/-- Until the next attempt the record is kept. -/
theorem Counting.found {source : Text} {record : Option Record}
    {all mine : List Call} (counting : Counting source record all mine)
    (among : mine ⊆ all) {last : Call} (final : last ∈ mine.getLast?)
    {now : Rat} (soon : ∀ previous ∈ all.getLast?,
      now - previous.time < forgetAfterSeconds) :
    ∃ found, attemptsOf now record source = some found ∧
      mine.length ≤ found.count ∧ found.last = last.time := by
  obtain ⟨kept, found, rfl, own, counted, time⟩ := counting.held last final
  have member := among (List.mem_of_getLast? final)
  cases ends : all.getLast? with
  | none =>
      rw [List.getLast?_eq_none_iff] at ends
      rw [ends] at member
      cases member
  | some previous =>
      have expires := counting.expires previous ends kept rfl
      have gap := soon previous ends
      refine ⟨found, ?_, counted, time⟩
      exact attemptsOf_eq_some.mpr ⟨kept, rfl, by linarith, own⟩

theorem counting_run (source : Text) (record : Option Record)
    (calls : List Call)
    (reserves : ∀ call ∈ calls, ∃ given, call.request = .reserve given)
    (gapless : Gapless (admitted ipAddress record calls)) :
    Counting source (after ipAddress record calls)
        (admitted ipAddress record calls)
        (ofSource ipAddress source (admitted ipAddress record calls)) ∧
      Spaced (ofSource ipAddress source
        (admitted ipAddress record calls)) := by
  induction calls using List.reverseRecOn with
  | nil => exact ⟨⟨nofun, nofun⟩, fun _ _ _ _ => nofun⟩
  | append_singleton calls call induction =>
      rw [admitted_snoc] at gapless ⊢
      have started := List.isChain_append.mp gapless
      obtain ⟨counting, spaced⟩ := induction
        (fun earlier member =>
          reserves earlier (List.mem_append_left _ member)) started.1
      obtain ⟨given, request⟩ := reserves call (by simp)
      have step_eq : step ipAddress (after ipAddress record calls) call =
          (some (reserve call.time (sourceOf ipAddress given)
              (after ipAddress record calls)).1,
            (reserve call.time (sourceOf ipAddress given)
              (after ipAddress record calls)).2) := by
        rw [step, request]
      rw [after_append, after, List.foldl_cons, List.foldl_nil]
      rw [step_eq] at started ⊢
      dsimp only at started ⊢
      generalize admitted ipAddress record calls = all at *
      generalize after ipAddress record calls = before at *
      rcases reserve_cases call.time (sourceOf ipAddress given) before with
        ⟨found, held, slowed, waiting, reserved⟩ | ⟨waited, reserved⟩
      · have positive : (reserve call.time (sourceOf ipAddress given)
            before).1 ≠ 0 := by
          rw [reserved]
          exact (ceil_positive (sub_pos.mpr waiting)).ne'
        rw [if_neg (by simpa using positive), List.append_nil,
          reserve_refused positive]
        exact ⟨counting, spaced⟩
      · rw [reserved] at started ⊢
        rw [if_pos rfl] at started ⊢
        have soon : ∀ previous ∈ all.getLast?,
            call.time - previous.time < forgetAfterSeconds :=
          fun previous final => started.2.2 previous final call rfl
        have among : ofSource ipAddress source all ⊆ all :=
          List.filter_subset_self all
        have own : call.source ipAddress = some (sourceOf ipAddress given) := by
          rw [Call.source, request]
        rw [ofSource, List.filter_append, ← ofSource]
        by_cases mine : sourceOf ipAddress given = source
        · rw [mine] at own waited ⊢
          have single : ([call].filter fun call =>
              call.source ipAddress = some source) = [call] := by
            rw [List.filter_singleton, own]
            simp
          rw [single]
          constructor
          · constructor
            · intro last final
              rw [List.getLast?_concat, Option.mem_some] at final
              subst final
              refine ⟨_, _, rfl, Function.update_self .., ?_, rfl⟩
              rw [List.length_append, List.length_singleton]
              cases ends : (ofSource ipAddress source all).getLast? with
              | none =>
                  rw [List.getLast?_eq_none_iff.mp ends]
                  exact Nat.le_add_left _ _
              | some last =>
                  obtain ⟨found, held, counted, -⟩ :=
                    counting.found among ends soon
                  rw [held]
                  exact Nat.succ_le_succ counted
            · intro last final kept same
              rw [List.getLast?_concat, Option.mem_some] at final
              subst final
              cases same
              rfl
          · apply spaced.snoc
            intro last final many
            obtain ⟨found, held, counted, time⟩ :=
              counting.found among final soon
            rcases waited found held with enough | few
            · have longer : (delayAfter (ofSource ipAddress source
                  all).length : Rat) ≤ delayAfter found.count :=
                Nat.cast_le.mpr (delayAfter_mono counted)
              linarith
            · rw [threshold] at few
              omega
        · have single : ([call].filter fun call =>
              call.source ipAddress = some source) = [] := by
            rw [List.filter_singleton, own]
            simp [mine]
          rw [single, List.append_nil]
          refine ⟨⟨?_, ?_⟩, spaced⟩
          · intro last final
            obtain ⟨found, held, counted, time⟩ :=
              counting.found among final soon
            refine ⟨_, found, rfl, ?_, counted, time⟩
            dsimp only
            rw [Function.update_of_ne (Ne.symm mine)]
            exact held
          · intro last final kept same
            rw [List.getLast?_concat, Option.mem_some] at final
            subst final
            cases same
            rfl

/-! ## Waiting -/

/-- The record outlives the delay of every count in it. -/
structure Sound (record : Option Record) (now : Rat) : Prop where
  kept : ∀ kept ∈ record, kept.expires ≤ now + forgetAfterSeconds
  last : ∀ kept ∈ record, ∀ source found,
    kept.attempts source = some found → found.last ≤ now ∧
      found.last + forgetAfterSeconds ≤ kept.expires

theorem Sound.mono {record : Option Record} {now later : Rat}
    (sound : Sound record now) (passed : now ≤ later) :
    Sound record later where
  kept kept same := by
    have expires := sound.kept kept same
    linarith
  last kept same source found own := by
    have bounds := sound.last kept same source found own
    exact ⟨bounds.1.trans passed, bounds.2⟩

theorem Sound.live {record : Option Record} {now : Rat}
    (sound : Sound record now) : Sound (live now record) now where
  kept kept same := sound.kept kept (live_eq_some same)
  last kept same := sound.last kept (live_eq_some same)

theorem Sound.step {record : Option Record} {call : Call}
    (sound : Sound record call.time) :
    Sound (step ipAddress record call).2 call.time := by
  rw [SignIn.step]
  split
  · next given request =>
      rcases reserve_cases call.time (sourceOf ipAddress given) record with
        ⟨found, -, -, -, reserved⟩ | ⟨-, reserved⟩
      · rw [reserved]
        exact sound.live
      · rw [reserved]
        constructor
        · intro kept same
          cases same
          exact le_refl _
        · intro kept same source found own
          cases same
          dsimp only at own ⊢
          by_cases mine : source = sourceOf ipAddress given
          · rw [mine, Function.update_self, Option.some.injEq] at own
            rw [← own]
            exact ⟨le_refl _, le_refl _⟩
          · rw [Function.update_of_ne mine] at own
            obtain ⟨before, rfl, -, held⟩ := attemptsOf_eq_some.mp own
            have bounds := sound.last before rfl source found held
            exact ⟨bounds.1, by linarith⟩
  · next given request =>
      constructor
      · intro kept same
        obtain ⟨before, alive, rfl⟩ := Option.map_eq_some_iff.mp same
        exact sound.live.kept before alive
      · intro kept same source found own
        obtain ⟨before, alive, rfl⟩ := Option.map_eq_some_iff.mp same
        dsimp only at own ⊢
        by_cases mine : source = sourceOf ipAddress given
        · rw [mine, Function.update_self] at own
          cases own
        · rw [Function.update_of_ne mine] at own
          exact sound.live.last before alive source found own
  · exact ⟨nofun, nofun⟩

theorem sound_after (calls : List Call) (ordered : Ordered calls) {now : Rat}
    (past : ∀ call ∈ calls, call.time ≤ now) :
    Sound (after ipAddress none calls) now := by
  induction calls using List.reverseRecOn generalizing now with
  | nil => exact ⟨nofun, nofun⟩
  | append_singleton calls call induction =>
      obtain ⟨earlier, before⟩ := ordered.init
      rw [after_append]
      exact ((induction earlier before).step).mono (past call (by simp))

/-- A refused attempt is told the least number of seconds to wait. -/
theorem reserve_waits {record : Option Record} {now : Rat}
    (sound : Sound record now) {source : Text}
    (refused : (reserve now source record).1 ≠ 0) (wait : Nat) :
    (reserve (now + wait) source record).1 = 0 ↔
      (reserve now source record).1 ≤ wait := by
  rcases reserve_cases now source record with
    ⟨found, held, slowed, waiting, reserved⟩ | ⟨-, reserved⟩
  · obtain ⟨kept, rfl, alive, own⟩ := attemptsOf_eq_some.mp held
    have bounds := sound.last kept rfl source found own
    have short : (delayAfter found.count : Rat) ≤ forgetAfterSeconds :=
      Nat.cast_le.mpr ((delayAfter_le _).trans (by decide))
    rw [reserved, Rat.ceil_le_iff]
    have casts : ((wait : Int) : Rat) = wait := Int.cast_natCast wait
    rw [casts]
    rcases reserve_cases (now + wait) source (some kept) with
      ⟨other, still, -, behind, later⟩ | ⟨passed, later⟩
    · obtain ⟨same, whole, -, other_eq⟩ := attemptsOf_eq_some.mp still
      cases whole
      cases own.symm.trans other_eq
      rw [later]
      constructor
      · intro zero
        exact absurd zero (ceil_positive (sub_pos.mpr behind)).ne'
      · intro enough
        linarith
    · rw [later]
      refine ⟨fun _ => ?_, fun _ => rfl⟩
      by_cases still : now + wait ≤ kept.expires
      · have found_later := attemptsOf_eq_some.mpr ⟨kept, rfl, still, own⟩
        rcases passed found found_later with enough | few
        · linarith
        · omega
      · linarith
  · rw [reserved] at refused
    exact absurd rfl refused

/-! ## Every sequence of calls -/

/-- Attempts of a source that are counted within the hour are spaced by the
delay of their count, and a refused attempt changes nothing and is told the
least whole number of seconds to wait. -/
theorem guesses_spaced (history : List Call) (ordered : Ordered history) :
    let record := after ipAddress none history
    (∀ calls : List Call,
      (∀ call ∈ calls, ∃ given, call.request = .reserve given) →
      Gapless (admitted ipAddress record calls) →
      ∀ source, Spaced (ofSource ipAddress source
        (admitted ipAddress record calls))) ∧
    ∀ now, (∀ call ∈ history, call.time ≤ now) → ∀ source,
      (reserve now source record).1 ≠ 0 →
      (reserve now source record).2 = record ∧
        ∀ wait : Nat, (reserve (now + wait) source record).1 = 0 ↔
          (reserve now source record).1 ≤ wait := by
  intro record
  constructor
  · intro calls reserves gapless source
    exact (counting_run source record calls reserves gapless).2
  · intro now past source refused
    have sound : Sound record now := sound_after history ordered past
    exact ⟨reserve_refused refused, reserve_waits sound refused⟩

def guess (time : Rat) : Call :=
  ⟨time, .reserve none⟩

def fiveGuesses : List Call :=
  List.replicate 5 (guess 0)

def unknownSource : Text :=
  sourceOf (fun _ => none) none

theorem guesses_spaced_five :
    let record := after (fun _ => none) none fiveGuesses
    Spaced (ofSource (fun _ => none) unknownSource
      (admitted (fun _ => none) record [guess 1, guess 3])) ∧
    (reserve (1 / 2) unknownSource record).2 = record ∧
      ∀ wait : Nat, (reserve (1 / 2 + wait) unknownSource record).1 = 0 ↔
        (reserve (1 / 2) unknownSource record).1 ≤ wait := by
  have ordered : Ordered fiveGuesses := by decide +kernel
  constructor
  · apply (guesses_spaced fiveGuesses ordered).1
    · intro call member
      simp only [List.mem_cons, List.not_mem_nil, or_false] at member
      rcases member with rfl | rfl
      · exact ⟨none, rfl⟩
      · exact ⟨none, rfl⟩
    · have counted : admitted (fun _ => none)
          (after (fun _ => none) none fiveGuesses) [guess 1, guess 3] =
            [guess 1, guess 3] := by
        decide +kernel
      rw [counted]
      simp only [Gapless, List.isChain_cons_cons, List.isChain_singleton,
        guess, forgetAfterSeconds]
      norm_num
  · apply (guesses_spaced fiveGuesses ordered).2
    · intro call member
      rw [List.eq_of_mem_replicate member, guess]
      norm_num
    · decide +kernel

/-- An attempt that is refused at half a second is no failure: the record is
forgotten before the next one, an hour and a quarter of a second later. -/
def refusedBetween : List Call :=
  fiveGuesses ++ [guess (1 / 2), guess (3600 + 1 / 4), guess (3600 + 1 / 4)]

theorem forgotten_between_attempts :
    (∀ call ∈ refusedBetween, ∃ given, call.request = .reserve given) ∧
      Ordered refusedBetween ∧ Gapless refusedBetween ∧
      ¬Spaced (ofSource (fun _ => none) unknownSource
        (admitted (fun _ => none) none refusedBetween)) := by
  refine ⟨?_, ?_, ?_, ?_⟩
  · have all : refusedBetween.all
        (fun call => call.request = .reserve none) = true := by
      decide +kernel
    intro call member
    exact ⟨none, of_decide_eq_true (List.all_eq_true.mp all call member)⟩
  · decide +kernel
  · simp only [refusedBetween, fiveGuesses, List.replicate, List.cons_append,
      List.nil_append, Gapless, List.isChain_cons_cons,
      List.isChain_singleton, guess, forgetAfterSeconds]
    norm_num
  · intro spaced
    have counted : ofSource (fun _ => none) unknownSource
        (admitted (fun _ => none) none refusedBetween) =
          fiveGuesses ++ [guess (3600 + 1 / 4), guess (3600 + 1 / 4)] := by
      decide +kernel
    rw [counted] at spaced
    have waited := spaced 7 (by decide) (guess (3600 + 1 / 4))
      (guess (3600 + 1 / 4)) rfl rfl
    have delay : delayAfter (7 - 1) = 2 := by decide
    rw [delay] at waited
    norm_num at waited

end IndustryFlow.SignIn
