import IndustryFlow.Extended
import Mathlib.Analysis.Complex.Exponential

/-!
# The detectors of the platform

Each turns what a model answers to one reading into a score between zero and
one, by the semantics it was registered with, or refuses the model.
-/

namespace IndustryFlow.Detectors

open Extended

/-- An array of numbers. -/
structure Tensor (K : Type) where
  shape : List Nat
  cells : List (Extended K)
  full : cells.length = shape.prod

/-- What a model answers to a reading, of what it offers. -/
structure Model (K : Type) where
  predictProba : Option (List (Extended K))
  decisionFunction : Option (List (Extended K))
  predict : Tensor K

/-- What a detector is called with. -/
structure Call (K : Type) where
  features : Tensor K
  model : Model K
  reconstructionScale : Option (Extended K)

inductive Detail (K : Type) where
  | anomalyProbability
  | directScore
  | outlierScore (raw : Extended K)
  | reconstructionError (error scale : Extended K)

structure DetectionResult (K : Type) where
  score : Extended K
  isAnomaly : Bool
  detail : Detail K

inductive Raised where
  | uninterpretableModel (text : String)
  | indexError

/-- How numbers are written in a refusal. -/
structure Printing (K : Type) where
  list : List (Extended K) → String
  shape : List Nat → String
  general : Extended K → String

/-- The exponential function. -/
structure Exponential (K : Type) [Field K] [LinearOrder K] where
  exp : K → K
  positive : ∀ value, 0 < exp value
  increasing : StrictMono exp

section Definitions

variable {K : Type} [Field K] [LinearOrder K]
variable (printing : Printing K) (exponential : Exponential K)

/-- `_clamp`. -/
def clamp (number : Extended K) : Extended K :=
  greatest (.finite 0) (least (.finite 1) number)

/-- The second of several columns, or the first. -/
def probabilityOf (row : List (Extended K)) : Option (Extended K) :=
  if row.length > 1 then row[1]? else row[0]?

def temperature : K := 3 / 50

/-- `_outlier_result`. -/
def outlierResult (raw threshold : Extended K) : DetectionResult K :=
  let score := div (.finite 1) (add (.finite 1)
    (Extended.exp exponential.exp (div raw (.finite temperature))))
  let score := clamp score
  ⟨score, le threshold score, .outlierScore raw⟩

/-- The first decision value. -/
def scoreDecision (values : List (Extended K)) (threshold : Extended K) :
    Except Raised (DetectionResult K) :=
  match values.head? with
  | none => .error .indexError
  | some raw => .ok (outlierResult exponential raw threshold)

/-- `sklearn_detector`. -/
def sklearnDetector (call : Call K) (threshold : Extended K) :
    Except Raised (DetectionResult K) :=
  match call.model.predictProba with
  | some row =>
      match probabilityOf row with
      | none => .error .indexError
      | some score => .ok ⟨clamp score, le threshold (clamp score),
          .anomalyProbability⟩
  | none =>
      match call.model.decisionFunction with
      | some values => scoreDecision exponential values threshold
      | none => .error (.uninterpretableModel
          ("this model exposes neither predict_proba nor " ++
          "decision_function, so what its output MEANS cannot be " ++
          "established — a label's sign and a float's range are not " ++
          "declarations (+1 is 'normal' to an IsolationForest and " ++
          "'anomaly' to a classifier). Register it with the detector that " ++
          "declares its semantics — `direct` if it already emits a 0-1 " ++
          "anomaly score — rather than having the platform guess " ++
          "(ADR-0028)."))

/-- `direct_detector`. -/
def directDetector (call : Call K) (threshold : Extended K) :
    Except Raised (DetectionResult K) :=
  let prediction := call.model.predict.cells
  let refused := Raised.uninterpretableModel
    ("this model is registered as emitting a 0-1 anomaly score, but " ++
    "returned " ++ printing.list (prediction.take 1) ++
    " — not a score in that range. It is not the model its declaration " ++
    "describes.")
  match prediction.head? with
  | none => .error refused
  | some score =>
      if !score.isFinite ||
          !(le (.finite 0) score && le score (.finite 1)) then
        .error refused
      else .ok ⟨score, le threshold score, .directScore⟩

/-- `outlier_detector`. -/
def outlierDetector (call : Call K) (threshold : Extended K) :
    Except Raised (DetectionResult K) :=
  match call.model.decisionFunction with
  | none => .error (.uninterpretableModel
      ("the 'outlier' detector scores from `decision_function`, whose SIGN " ++
      "carries the inlier/outlier boundary; this model does not expose " ++
      "one. (`score_samples` is not a substitute — it is not centred on " ++
      "the boundary, so its sign says nothing.)"))
  | some values => scoreDecision exponential values threshold

/-- The mean square of what a reconstruction misses. -/
def reconstructionError (call : Call K) : Extended K :=
  mean ((List.zipWith sub call.features.cells
    call.model.predict.cells).map square)

/-- `not scale or scale <= 0`. -/
def noScale (scale : Extended K) : Bool :=
  match scale with
  | .finite value => value = 0 || value ≤ 0
  | scale => le scale (.finite 0)

/-- `autoencoder_detector`. -/
def autoencoderDetector (call : Call K) (threshold : Extended K) :
    Except Raised (DetectionResult K) :=
  let reconstruction := call.model.predict
  if reconstruction.shape ≠ call.features.shape then
    .error (.uninterpretableModel
      ("an autoencoder must reconstruct its input, but this model mapped " ++
      "an input of shape " ++ printing.shape call.features.shape ++
      " to an output of shape " ++ printing.shape reconstruction.shape ++
      ". It is not an autoencoder, or it is not the model this rule " ++
      "thinks it is."))
  else
    let mse := reconstructionError call
    let unscaled := Raised.uninterpretableModel
      ("this autoencoder has no reconstruction-error scale recorded, so " ++
      "its error cannot be turned into a 0-1 score: an MSE of " ++
      printing.general mse ++ " is catastrophic for one model and " ++
      "unremarkable for another. Register the model with the " ++
      "reconstruction error it saw on its own training data (ADR-0028 " ++
      "deferred: captured alongside ADR-0021's reference profile).")
    match call.reconstructionScale with
    | none => .error unscaled
    | some scale =>
        if noScale scale then .error unscaled
        else
          let score := clamp (div mse (add mse scale))
          .ok ⟨score, le threshold score, .reconstructionError mse scale⟩

/-- The detectors that are registered. -/
inductive Detector where
  | sklearn
  | direct
  | outlier
  | autoencoder

def detect (detector : Detector) (call : Call K) (threshold : Extended K) :
    Except Raised (DetectionResult K) :=
  match detector with
  | .sklearn => sklearnDetector exponential call threshold
  | .direct => directDetector printing call threshold
  | .outlier => outlierDetector exponential call threshold
  | .autoencoder => autoencoderDetector printing call threshold

end Definitions

/-! ## Clamped numbers -/

section Clamp

variable {K : Type} [Field K] [LinearOrder K] [IsStrictOrderedRing K]

@[simp] theorem clamp_finite (value : K) :
    clamp (.finite value) =
      .finite (max 0 (min 1 value)) := by
  by_cases above : value < 1
  · by_cases positive : 0 < value
    · simp [clamp, greatest, least, lt, above, positive, above.le, positive.le]
    · simp [clamp, greatest, least, lt, above, positive, above.le,
        not_lt.mp positive]
  · simp [clamp, greatest, least, lt, above, not_lt.mp above]

/-- Whatever is clamped becomes a score. -/
theorem clamp_score (number : Extended K) :
    le (.finite 0) (clamp number) = true ∧
      le (clamp number) (.finite 1) = true := by
  cases number with
  | finite value =>
      rw [clamp_finite, le_finite, le_finite]
      exact ⟨le_max_left _ _, max_le zero_le_one (min_le_left _ _)⟩
  | nan => simp [clamp, greatest, least, lt, le]
  | negInf => simp [clamp, greatest, least, lt, le]
  | posInf => simp [clamp, greatest, least, lt, le]

theorem clamp_mono {first second : K} (less : first ≤ second) :
    le (clamp (.finite first)) (clamp (.finite second)) = true := by
  rw [clamp_finite, clamp_finite, le_finite]
  exact max_le_max_left 0 (min_le_min_left 1 less)

end Clamp

/-! ## What a detector may answer -/

section Outcomes

variable {K : Type}

def Refused (outcome : Except Raised (DetectionResult K)) : Prop :=
  ∃ text, outcome = .error (.uninterpretableModel text)

/-- A number that is there and finite. -/
def FiniteValue (number : Option (Extended K)) : Prop :=
  ∃ value, number = some (.finite value)

theorem not_refused_ok (result : DetectionResult K) :
    ¬Refused (.ok result) := by
  rintro ⟨text, never⟩
  cases never

theorem not_refused_indexError :
    ¬Refused (.error .indexError : Except Raised (DetectionResult K)) := by
  rintro ⟨text, never⟩
  cases never

theorem finiteValue_iff {number : Extended K} :
    FiniteValue (some number) ↔ number.isFinite = true := by
  rw [isFinite_iff]
  constructor
  · rintro ⟨value, is⟩
    exact ⟨value, Option.some.inj is⟩
  · rintro ⟨value, rfl⟩
    exact ⟨value, rfl⟩

end Outcomes

section Answers

variable {K : Type} [Field K] [LinearOrder K]

/-- A score, and whether it is an anomaly by the threshold. -/
structure IsScore (result : DetectionResult K) (threshold : Extended K) :
    Prop where
  least : le (.finite 0) result.score = true
  most : le result.score (.finite 1) = true
  anomaly : result.isAnomaly = le threshold result.score

/-- The numbers that a score is made of. -/
def evidence (detector : Detector) (call : Call K) : List (Extended K) :=
  match detector with
  | .sklearn =>
      match call.model.predictProba, call.model.decisionFunction with
      | some row, _ => (probabilityOf row).toList
      | none, some values => values.head?.toList
      | none, none => []
  | .direct => call.model.predict.cells.head?.toList
  | .outlier => (call.model.decisionFunction.bind List.head?).toList
  | .autoencoder =>
      reconstructionError call :: call.reconstructionScale.toList

/-- A refusal or a score, and a refusal where a number is not finite. -/
structure Interprets (detector : Detector) (call : Call K)
    (threshold : Extended K)
    (outcome : Except Raised (DetectionResult K)) : Prop where
  answers : Refused outcome ∨
    ∃ result, outcome = .ok result ∧ IsScore result threshold
  refuses : (∃ number ∈ evidence detector call, number.isFinite = false) →
    Refused outcome

/-- What an autoencoder is scored by. -/
structure Measured (call : Call K) : Prop where
  some : call.features.cells ≠ []
  features : ∀ cell ∈ call.features.cells, cell.isFinite = true
  reconstruction : ∀ cell ∈ call.model.predict.cells, cell.isFinite = true
  scale : FiniteValue call.reconstructionScale

/-- The numbers that are read are finite, or no score is made of them. -/
def Readable (detector : Detector) (call : Call K) : Prop :=
  match detector with
  | .sklearn =>
      match call.model.predictProba, call.model.decisionFunction with
      | some row, _ => FiniteValue (probabilityOf row)
      | none, some values => FiniteValue values.head?
      | none, none => True
  | .direct => True
  | .outlier =>
      match call.model.decisionFunction with
      | some values => FiniteValue values.head?
      | none => True
  | .autoencoder =>
      call.model.predict.shape ≠ call.features.shape ∨
        (∀ scale, call.reconstructionScale = some scale →
          noScale scale = true) ∨ Measured call

/-- A decision value that is no greater. -/
def LowerDecision (before after : Call K) : Prop :=
  ∃ values others value other,
    before.model.decisionFunction = some values ∧
      values.head? = some (.finite value) ∧
      after.model.decisionFunction = some others ∧
      others.head? = some (.finite other) ∧ other ≤ value

/-- Finite evidence of an anomaly that is no less. -/
def MoreEvidence (detector : Detector) (before after : Call K) : Prop :=
  match detector with
  | .sklearn =>
      (∃ row line value other, before.model.predictProba = some row ∧
        probabilityOf row = some (.finite value) ∧
        after.model.predictProba = some line ∧
        probabilityOf line = some (.finite other) ∧ value ≤ other) ∨
      (before.model.predictProba = none ∧ after.model.predictProba = none ∧
        LowerDecision before after)
  | .direct => ∃ value other,
      before.model.predict.cells.head? = some (.finite value) ∧
        after.model.predict.cells.head? = some (.finite other) ∧
        value ≤ other
  | .outlier => LowerDecision before after
  | .autoencoder => ∃ scale value other,
      before.reconstructionScale = some (.finite scale) ∧
        after.reconstructionScale = some (.finite scale) ∧
        reconstructionError before = .finite value ∧
        reconstructionError after = .finite other ∧ value ≤ other

/-- An answer that is a score of one number. -/
theorem interprets_ok_iff {detector : Detector} {call : Call K}
    {threshold : Extended K} {result : DetectionResult K}
    (score : IsScore result threshold) :
    Interprets detector call threshold (.ok result) ↔
      ∀ number ∈ evidence detector call, number.isFinite = true := by
  constructor
  · intro interprets number member
    by_contra infinite
    exact not_refused_ok _ (interprets.refuses
      ⟨number, member, (Bool.not_eq_true _).mp infinite⟩)
  · intro finite
    refine ⟨.inr ⟨result, rfl, score⟩, ?_⟩
    rintro ⟨number, member, infinite⟩
    rw [finite number member] at infinite
    cases infinite

theorem not_interprets_indexError {detector : Detector} {call : Call K}
    {threshold : Extended K} :
    ¬Interprets detector call threshold (.error .indexError) := by
  intro interprets
  rcases interprets.answers with refused | ⟨result, never, -⟩
  · exact not_refused_indexError refused
  · cases never

theorem interprets_refused {detector : Detector} {call : Call K}
    {threshold : Extended K}
    {outcome : Except Raised (DetectionResult K)}
    (refused : Refused outcome) :
    Interprets detector call threshold outcome :=
  ⟨.inl refused, fun _ => refused⟩

/-! ## The detectors that look at what they read -/

variable {printing : Printing K} {call : Call K} {threshold : Extended K}

/-- What was declared a score is one, or it is refused. -/
theorem direct_interprets :
    Interprets .direct call threshold
      (directDetector printing call threshold) := by
  cases first : call.model.predict.cells.head? with
  | none =>
      refine interprets_refused ?_
      rw [directDetector, first]
      exact ⟨_, rfl⟩
  | some score =>
      by_cases outside : (!score.isFinite ||
          !(le (.finite 0) score && le score (.finite 1))) = true
      · refine interprets_refused ?_
        simp only [directDetector, first, outside, if_true]
        exact ⟨_, rfl⟩
      · have scored : directDetector printing call threshold =
            .ok ⟨score, le threshold score, .directScore⟩ := by
          simp only [directDetector, first]
          exact if_neg outside
        simp only [Bool.or_eq_true, Bool.not_eq_true', not_or,
          Bool.not_eq_false, Bool.and_eq_true] at outside
        obtain ⟨finite, least, most⟩ := outside
        rw [scored]
        refine (interprets_ok_iff ⟨least, most, rfl⟩).mpr ?_
        simp [evidence, first, finite]

theorem direct_score {value : K} {result : DetectionResult K}
    (first : call.model.predict.cells.head? = some (.finite value))
    (scored : directDetector printing call threshold = .ok result) :
    result.score = .finite value := by
  simp only [directDetector, first] at scored
  split at scored
  · cases scored
  · cases scored
    rfl

theorem autoencoderDetector_ok {scale : Extended K}
    (same : call.model.predict.shape = call.features.shape)
    (recorded : call.reconstructionScale = some scale)
    (usable : ¬noScale scale = true) :
    autoencoderDetector printing call threshold =
      let score := clamp (div (reconstructionError call)
        (add (reconstructionError call) scale))
      .ok ⟨score, le threshold score,
        .reconstructionError (reconstructionError call) scale⟩ := by
  simp only [autoencoderDetector, same, recorded, ne_eq, not_true, if_false]
  exact if_neg usable

theorem shapes_of_scored {result : DetectionResult K}
    (scored : autoencoderDetector printing call threshold = .ok result) :
    call.model.predict.shape = call.features.shape := by
  by_contra other
  simp only [autoencoderDetector, other, ne_eq, not_false_eq_true,
    if_true] at scored
  cases scored

theorem usable_of_scored {scale : Extended K} {result : DetectionResult K}
    (recorded : call.reconstructionScale = some scale)
    (scored : autoencoderDetector printing call threshold = .ok result) :
    ¬noScale scale = true := by
  intro missing
  simp only [autoencoderDetector, shapes_of_scored scored, recorded, missing,
    ne_eq, not_true, if_false, if_true] at scored
  cases scored

theorem positive_of_usable {scale : K}
    (usable : ¬noScale (.finite scale) = true) : 0 < scale := by
  simp only [noScale, Bool.or_eq_true, decide_eq_true_eq, not_or,
    not_le] at usable
  exact usable.2

end Answers

section Scores

variable {K : Type} [Field K] [LinearOrder K] [IsStrictOrderedRing K]
variable {printing : Printing K} {exponential : Exponential K}
variable {call before after : Call K} {threshold : Extended K}

theorem isScore_clamp (number : Extended K) (detail : Detail K) :
    IsScore ⟨clamp number, le threshold (clamp number), detail⟩ threshold :=
  ⟨(clamp_score number).1, (clamp_score number).2, rfl⟩

/-- A decision value. -/
theorem scoreDecision_interprets_iff {detector : Detector}
    {values : List (Extended K)}
    (read : evidence detector call = values.head?.toList) :
    Interprets detector call threshold
        (scoreDecision exponential values threshold) ↔
      FiniteValue values.head? := by
  unfold scoreDecision
  cases first : values.head? with
  | none =>
      refine iff_of_false not_interprets_indexError ?_
      rintro ⟨value, never⟩
      cases never
  | some raw =>
      rw [finiteValue_iff]
      refine (interprets_ok_iff (isScore_clamp _ _)).trans ?_
      rw [read, first]
      simp

theorem sklearn_interprets_iff :
    Interprets .sklearn call threshold
        (sklearnDetector exponential call threshold) ↔
      Readable .sklearn call := by
  unfold sklearnDetector Readable
  cases proba : call.model.predictProba with
  | some row =>
      cases value : probabilityOf row with
      | none =>
          refine iff_of_false (by simpa [value] using
            not_interprets_indexError) ?_
          rintro ⟨value, never⟩
          simp [*] at never
      | some score =>
          simp only [value, finiteValue_iff]
          refine (interprets_ok_iff (isScore_clamp _ _)).trans ?_
          simp [evidence, proba, value]
  | none =>
      cases decision : call.model.decisionFunction with
      | some values =>
          exact scoreDecision_interprets_iff
            (by simp [evidence, proba, decision])
      | none => exact iff_of_true (interprets_refused ⟨_, rfl⟩) trivial

theorem outlier_interprets_iff :
    Interprets .outlier call threshold
        (outlierDetector exponential call threshold) ↔
      Readable .outlier call := by
  unfold outlierDetector Readable
  cases decision : call.model.decisionFunction with
  | some values =>
      exact scoreDecision_interprets_iff (by simp [evidence, decision])
  | none => exact iff_of_true (interprets_refused ⟨_, rfl⟩) trivial

/-! ## The error of a reconstruction -/

/-- The error is a number exactly if every cell is, and there is one. -/
theorem isFinite_reconstructionError
    (same : call.model.predict.shape = call.features.shape) :
    (reconstructionError call).isFinite = true ↔
      call.features.cells ≠ [] ∧
        (∀ cell ∈ call.features.cells, cell.isFinite = true) ∧
        ∀ cell ∈ call.model.predict.cells, cell.isFinite = true := by
  have lengths : call.features.cells.length =
      call.model.predict.cells.length := by
    rw [call.features.full, call.model.predict.full, same]
  have squares : (∀ number ∈ (List.zipWith sub call.features.cells
      call.model.predict.cells).map square, number.isFinite = true) ↔
        ∀ number ∈ List.zipWith sub call.features.cells
          call.model.predict.cells, number.isFinite = true := by
    rw [List.forall_mem_map]
    simp only [isFinite_square]
  have some : (List.zipWith sub call.features.cells
      call.model.predict.cells).map square ≠ [] ↔
        call.features.cells ≠ [] := by
    rw [← List.length_pos_iff, ← List.length_pos_iff, List.length_map,
      List.length_zipWith, ← lengths, min_self]
  rw [reconstructionError, isFinite_mean, some, squares,
    isFinite_zipWith_sub lengths]

theorem autoencoder_interprets_iff :
    Interprets .autoencoder call threshold
        (autoencoderDetector printing call threshold) ↔
      Readable .autoencoder call := by
  by_cases same : call.model.predict.shape = call.features.shape
  · have read : Readable .autoencoder call ↔
        (∀ scale, call.reconstructionScale = some scale →
          noScale scale = true) ∨ Measured call :=
      or_iff_right (not_not_intro same)
    rw [read]
    cases recorded : call.reconstructionScale with
    | none =>
        refine iff_of_true (interprets_refused ?_) (.inl nofun)
        simp only [autoencoderDetector, same, recorded, ne_eq, not_true,
          if_false]
        exact ⟨_, rfl⟩
    | some scale =>
        by_cases missing : noScale scale = true
        · refine iff_of_true (interprets_refused ?_) (.inl ?_)
          · simp only [autoencoderDetector, same, recorded, ne_eq, not_true,
              if_false, missing, if_true]
            exact ⟨_, rfl⟩
          · rintro other ⟨⟩
            exact missing
        · rw [autoencoderDetector_ok same recorded missing]
          refine (interprets_ok_iff (isScore_clamp _ _)).trans ?_
          rw [evidence, recorded, Option.toList_some, List.forall_mem_cons,
            List.forall_mem_singleton, isFinite_reconstructionError same,
            ← finiteValue_iff]
          constructor
          · rintro ⟨⟨some, features, reconstruction⟩, finite⟩
            exact .inr ⟨some, features, reconstruction, recorded ▸ finite⟩
          · rintro (none | measured)
            · exact absurd (none scale rfl) missing
            · exact ⟨⟨measured.some, measured.features,
                measured.reconstruction⟩, recorded ▸ measured.scale⟩
  · refine iff_of_true (interprets_refused ?_) (.inl same)
    simp only [autoencoderDetector, same, ne_eq, not_false_eq_true, if_true]
    exact ⟨_, rfl⟩

theorem detect_interprets_iff (detector : Detector) :
    Interprets detector call threshold
        (detect printing exponential detector call threshold) ↔
      Readable detector call := by
  cases detector with
  | sklearn => exact sklearn_interprets_iff
  | direct => exact iff_of_true direct_interprets trivial
  | outlier => exact outlier_interprets_iff
  | autoencoder => exact autoencoder_interprets_iff

/-! ## More evidence -/

theorem temperature_pos : (0 : K) < temperature :=
  div_pos three_pos (by norm_num)

theorem outlierResult_score (value : K) :
    (outlierResult exponential (.finite value) threshold).score =
      clamp (.finite
        (1 / (1 + exponential.exp (value / temperature)))) := by
  have positive : 0 < 1 + exponential.exp (value / temperature) :=
    add_pos one_pos (exponential.positive _)
  rw [outlierResult, div_positive temperature_pos, Extended.exp, add,
    div_positive positive]

theorem scoreDecision_mono {values others : List (Extended K)}
    {value other : K} {result next : DetectionResult K}
    (first : values.head? = some (.finite value))
    (second : others.head? = some (.finite other)) (lower : other ≤ value)
    (scored : scoreDecision exponential values threshold = .ok result)
    (later : scoreDecision exponential others threshold = .ok next) :
    le result.score next.score = true := by
  simp only [scoreDecision, first] at scored
  simp only [scoreDecision, second] at later
  cases scored
  cases later
  rw [outlierResult_score, outlierResult_score]
  apply clamp_mono
  have scaled : other / temperature ≤ value / temperature :=
    div_le_div_of_nonneg_right lower temperature_pos.le
  have grown : exponential.exp (other / temperature) ≤
      exponential.exp (value / temperature) :=
    exponential.increasing.monotone scaled
  exact one_div_le_one_div_of_le
    (add_pos one_pos (exponential.positive _)) (add_le_add_right grown 1)

theorem autoencoder_score {scale value : K} {result : DetectionResult K}
    (recorded : call.reconstructionScale = some (.finite scale))
    (error : reconstructionError call = .finite value)
    (scored : autoencoderDetector printing call threshold = .ok result) :
    0 < scale ∧ 0 ≤ value ∧
      result.score = clamp (.finite (value / (value + scale))) := by
  have usable := usable_of_scored recorded scored
  have positive := positive_of_usable usable
  have nonneg : 0 ≤ value := mean_squares_nonneg error
  rw [autoencoderDetector_ok (shapes_of_scored scored) recorded
    usable] at scored
  cases scored
  refine ⟨positive, nonneg, ?_⟩
  rw [error, add, div_positive (add_pos_of_nonneg_of_pos nonneg positive)]

/-- More evidence does not make a lower score. -/
theorem detect_mono {detector : Detector} {result next : DetectionResult K}
    (more : MoreEvidence detector before after)
    (scored : detect printing exponential detector before threshold =
      .ok result)
    (later : detect printing exponential detector after threshold =
      .ok next) : le result.score next.score = true := by
  cases detector with
  | sklearn =>
      rcases more with ⟨row, line, value, other, proba, read, second, also,
        less⟩ | ⟨proba, second, values, others, value, other, decision, first,
        third, also, lower⟩
      · simp only [detect, sklearnDetector, proba, read] at scored
        simp only [detect, sklearnDetector, second, also] at later
        cases scored
        cases later
        exact clamp_mono less
      · simp only [detect, sklearnDetector, proba, decision] at scored
        simp only [detect, sklearnDetector, second, third] at later
        exact scoreDecision_mono first also lower scored later
  | direct =>
      obtain ⟨value, other, first, second, less⟩ := more
      rw [direct_score first scored, direct_score second later, le_finite]
      exact less
  | outlier =>
      obtain ⟨values, others, value, other, decision, first, third, also,
        lower⟩ := more
      simp only [detect, outlierDetector, decision] at scored
      simp only [detect, outlierDetector, third] at later
      exact scoreDecision_mono first also lower scored later
  | autoencoder =>
      obtain ⟨scale, value, other, recorded, same, error, larger, less⟩ :=
        more
      obtain ⟨positive, nonneg, is⟩ := autoencoder_score recorded error scored
      obtain ⟨-, also, becomes⟩ := autoencoder_score same larger later
      rw [is, becomes]
      apply clamp_mono
      have denominator : 0 < value + scale :=
        add_pos_of_nonneg_of_pos nonneg positive
      have grown : 0 < other + scale :=
        add_pos_of_nonneg_of_pos also positive
      rw [div_le_div_iff₀ denominator grown, mul_add, mul_add,
        mul_comm other value]
      exact add_le_add_right
        (mul_le_mul_of_nonneg_right less positive.le) _

/-- Each detector refuses or scores, and makes no score of what is not finite,
exactly if the numbers it reads are finite or not read.  More evidence never
makes a lower score. -/
theorem detectors_interpret_iff (printing : Printing K)
    (exponential : Exponential K) (detector : Detector)
    (threshold : Extended K) :
    (∀ call, Interprets detector call threshold
        (detect printing exponential detector call threshold) ↔
          Readable detector call) ∧
      ∀ before after result next, MoreEvidence detector before after →
        detect printing exponential detector before threshold = .ok result →
        detect printing exponential detector after threshold = .ok next →
          le result.score next.score = true :=
  ⟨fun _ => detect_interprets_iff detector,
    fun _ _ _ _ more scored later => detect_mono more scored later⟩

end Scores

/-! ## A probability that is none -/

noncomputable section

/-- The exponential function of the reals. -/
def realExponential : Exponential ℝ :=
  ⟨Real.exp, Real.exp_pos, Real.exp_strictMono⟩

def plain : Printing ℝ :=
  ⟨fun _ => "", fun _ => "", fun _ => ""⟩

/-- A classifier of two classes that answers no number. -/
def brokenClassifier : Call ℝ where
  features := ⟨[1, 1], [.finite 0], rfl⟩
  model := ⟨some [.nan, .nan], none, ⟨[1], [.finite 0], rfl⟩⟩
  reconstructionScale := none

theorem detectors_interpret_classifier :
    (∀ call, Interprets .sklearn call (.finite 1)
        (detect plain realExponential .sklearn call (.finite 1)) ↔
          Readable .sklearn call) ∧
      ∀ before after result next, MoreEvidence .sklearn before after →
        detect plain realExponential .sklearn before (.finite 1) =
          .ok result →
        detect plain realExponential .sklearn after (.finite 1) = .ok next →
          le result.score next.score = true :=
  detectors_interpret_iff plain realExponential .sklearn (.finite 1)

/-- It scores one, and is an anomaly at every threshold. -/
theorem nan_is_an_anomaly :
    ¬∀ (detector : Detector) (call : Call ℝ) (threshold : Extended ℝ),
      Interprets detector call threshold
        (detect plain realExponential detector call threshold) := by
  intro always
  have interprets := always .sklearn brokenClassifier (.finite 1)
  refine not_refused_ok _ (interprets.refuses ⟨.nan, ?_, rfl⟩)
  simp [evidence, brokenClassifier, probabilityOf]

end

end IndustryFlow.Detectors
