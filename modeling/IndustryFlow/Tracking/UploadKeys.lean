import IndustryFlow.Tenancy.Boundary
import IndustryFlow.Tracking.Promotion

/-!
# The keys of an upload

The staging key and the admitted key of a member are told apart by their
tenant, upload id and member.  They are plain keys unless the upload id ends
with a newline, which the pattern's end lets through, or the member has one of
the control characters from 0x80 on, which the test of the path does not look
for.
-/

namespace IndustryFlow.Tracking

open Tenancy

/-- The keys of the member are plain, the admitted one is the tenant's and the
staging one no tenant's, and no other accepted upload or member has them. -/
structure KeysHold (company : Company) (uploadId member : Text) : Prop where
  staged : isPlainKey
    (stagingKey (tenantToken company) uploadId member) = true
  admitted : isPlainKey
    (admittedKey (artifactPrefix company) uploadId member) = true
  owned : ownsKey (artifactPrefix company)
    (admittedKey (artifactPrefix company) uploadId member) false = true
  apart : ∀ other, ¬artifactPrefix other <+:
    stagingKey (tenantToken company) uploadId member
  distinct : ∀ other otherId otherName otherMember,
    isUploadId otherId = true → safeMemberPath otherName = some otherMember →
    stagingKey (tenantToken company) uploadId member =
        stagingKey (tenantToken other) otherId otherMember ∨
      admittedKey (artifactPrefix company) uploadId member =
        admittedKey (artifactPrefix other) otherId otherMember →
    company = other ∧ uploadId = otherId ∧ member = otherMember

/-- A control character that the path test lets through. -/
def isUpperControl (char : Char) : Bool :=
  128 ≤ char.toNat && char.toNat < 160

/-! ## Plain keys -/

theorem isPlainKey_append_iff {front back : Text} :
    isPlainKey (front ++ '/' :: back) = true ↔
      isPlainKey front = true ∧ isPlainKey back = true := by
  refine ⟨fun plain => ?_, fun both => isPlainKey_below both.1 both.2⟩
  simp only [isPlainKey, Bool.and_eq_true, decide_eq_true_eq,
    Bool.not_eq_true', List.any_eq_false, List.splitOn_append_cons_self,
    List.all_append, List.mem_append, List.mem_cons, not_or] at plain ⊢
  obtain ⟨⟨slashes, controls⟩, segments⟩ := plain
  exact ⟨⟨⟨slashes.1, fun char member => controls char (.inl member)⟩,
      segments.1⟩,
    ⟨slashes.2.2, fun char member => controls char (.inr (.inr member))⟩,
      segments.2⟩

theorem isIdChar_plain {char : Char} (allowed : isIdChar char = true) :
    char ≠ '\\' ∧ isControl char = false := by
  simp only [isIdChar, Bool.or_eq_true, Bool.and_eq_true,
    decide_eq_true_eq] at allowed
  have range : 45 ≤ char.toNat ∧ char.toNat ≤ 122 := by
    rcases allowed with (((upper | lower) | digit) | rfl) | rfl
    · exact ⟨Nat.le_trans (by decide) upper.1,
        Nat.le_trans upper.2 (by decide)⟩
    · exact ⟨Nat.le_trans (by decide) lower.1, lower.2⟩
    · exact ⟨Nat.le_trans (by decide) digit.1,
        Nat.le_trans digit.2 (by decide)⟩
    · decide
    · decide
  constructor
  · rintro rfl
    revert allowed
    decide
  · simp only [isControl, Bool.or_eq_false_iff, Bool.and_eq_false_iff,
      decide_eq_false_iff_not]
    omega

theorem isPlainKey_uploadId_iff {uploadId : Text}
    (valid : isUploadId uploadId = true) :
    isPlainKey uploadId = true ↔ uploadId.getLast? ≠ some '\n' := by
  constructor
  · intro plain newline
    obtain ⟨front, rfl⟩ := List.getLast?_eq_some_iff.mp newline
    simp only [isPlainKey, Bool.and_eq_true, Bool.not_eq_true',
      List.any_eq_false] at plain
    exact plain.1.2 '\n' (by simp) rfl
  · intro ends
    have slashless := isUploadId_no_slash valid
    simp only [isUploadId, if_neg ends, Bool.and_eq_true,
      decide_eq_true_eq] at valid
    obtain ⟨⟨long, -⟩, chars⟩ := valid
    have each {char : Char} (member : char ∈ uploadId) :=
      isIdChar_plain (List.all_eq_true.mp chars char member)
    simp only [isPlainKey, Bool.and_eq_true, decide_eq_true_eq,
      Bool.not_eq_true', List.any_eq_false,
      List.splitOn_eq_singleton slashless, List.all_cons, List.all_nil]
    refine ⟨⟨fun member => (each member).1 rfl, ?_⟩, ?_, trivial⟩
    · intro char member
      rw [(each member).2]
      exact Bool.false_ne_true
    · simp only [isPlainSegment, List.mem_cons, List.not_mem_nil, or_false,
        decide_eq_true_eq, not_or]
      refine ⟨?_, ?_, ?_⟩
      · rintro rfl
        simp at long
      · rintro rfl
        simp at long
      · rintro rfl
        simp at long

theorem isPlainKey_member_iff {name member : Text}
    (accepted : safeMemberPath name = some member) :
    isPlainKey member = true ↔ member.any isUpperControl = false := by
  unfold safeMemberPath at accepted
  split at accepted
  · cases accepted
  split at accepted
  · cases accepted
  split at accepted
  · cases accepted
  split at accepted
  · cases accepted
  rename_i straight
  split at accepted
  · cases accepted
  rename_i printable
  split at accepted
  · cases accepted
  rename_i segments
  rw [List.intercalate_splitOn] at accepted
  obtain rfl := Option.some.inj accepted
  have control (char : Char) (member : char ∈ name) :
      isControl char = isUpperControl char := by
    have printed : ¬(char.toNat < 0x20 ∨ char.toNat = 0x7F) := by
      intro low
      refine printable (List.any_eq_true.mpr ⟨char, member, ?_⟩)
      simpa using low
    simp only [isControl, isUpperControl]
    have low : decide (char.toNat < 32) = false := by
      simp only [decide_eq_false_iff_not]
      omega
    have from127 : (127 ≤ char.toNat) ↔ (128 ≤ char.toNat) := by omega
    rw [low, Bool.false_or]
    simp only [from127]
  have plain : (name.splitOn '/').all isPlainSegment = true := by
    apply List.all_eq_true.mpr
    intro segment member
    refine decide_eq_true fun dotted => segments ?_
    exact List.any_eq_true.mpr ⟨segment, member, decide_eq_true dotted⟩
  simp only [isPlainKey, plain, straight, Bool.and_true, not_false_eq_true,
    decide_true, Bool.true_and, Bool.not_eq_true']
  rw [List.any_eq_false, List.any_eq_false]
  refine forall_congr' fun char => forall_congr' fun member => ?_
  rw [control char member]

theorem stagingKey_plain_iff {company : Company} {uploadId member : Text} :
    isPlainKey (stagingKey (tenantToken company) uploadId member) = true ↔
      isPlainKey uploadId = true ∧ isPlainKey member = true := by
  have parts : stagingKey (tenantToken company) uploadId member =
      stripRight stagingRoot ++ '/' :: (tenantToken company ++ '/' ::
        (uploadId ++ '/' :: member)) := by
    simp only [stagingKey, List.append_assoc, List.singleton_append]
    rfl
  have root : isPlainKey (stripRight stagingRoot) = true := by decide
  rw [parts, isPlainKey_append_iff, isPlainKey_append_iff,
    isPlainKey_append_iff]
  simp only [root, tenantToken_plain company, true_and]

theorem admittedKey_plain_iff {company : Company} {uploadId member : Text} :
    isPlainKey (admittedKey (artifactPrefix company) uploadId member) =
        true ↔
      isPlainKey uploadId = true ∧ isPlainKey member = true := by
  have parts : admittedKey (artifactPrefix company) uploadId member =
      tenantToken company ++ '/' :: (stripRight admittedRoot ++ '/' ::
        (uploadId ++ '/' :: member)) := by
    simp only [admittedKey, artifactPrefix, List.append_assoc,
      List.singleton_append]
    rfl
  have root : isPlainKey (stripRight admittedRoot) = true := by decide
  rw [parts, isPlainKey_append_iff, isPlainKey_append_iff,
    isPlainKey_append_iff]
  simp only [root, tenantToken_plain company, true_and]

/-! ## Keys and their parts -/

/-- Two texts of one length in front, and then two without a slash. -/
theorem cut_unique {first other second otherSecond third otherThird : Text}
    (lengths : first.length = other.length) (slashless : '/' ∉ second)
    (otherSlashless : '/' ∉ otherSecond)
    (same : first ++ (second ++ '/' :: third) =
      other ++ (otherSecond ++ '/' :: otherThird)) :
    first = other ∧ second = otherSecond ∧ third = otherThird := by
  obtain ⟨firsts, rest⟩ := List.append_inj same lengths
  have cut {text tail : Text} (slashless : '/' ∉ text) :
      (text ++ '/' :: tail).takeWhile (· ≠ '/') = text := by
    have all : ∀ char ∈ text, decide (char ≠ '/') = true := by
      intro char member
      exact decide_eq_true fun slash => slashless (slash ▸ member)
    rw [List.takeWhile_append_of_pos all]
    simp
  have seconds := congrArg (List.takeWhile (· ≠ '/')) rest
  rw [cut slashless, cut otherSlashless] at seconds
  subst seconds
  have thirds := List.append_cancel_left rest
  exact ⟨firsts, rfl, (List.cons.inj thirds).2⟩

theorem tenantToken_length (company : Company) :
    (tenantToken company).length = 43 := by
  have digits := company.length
  simp [tenantToken, grouped, digits]

theorem tenantToken_injective {company other : Company}
    (same : tenantToken company = tenantToken other) : company = other :=
  artifactPrefix_disjoint (show artifactPrefix company <+:
    artifactPrefix other by rw [artifactPrefix, same, artifactPrefix])
    List.prefix_rfl

theorem keys_distinct {company other : Company}
    {uploadId otherId member otherMember : Text}
    (valid : isUploadId uploadId = true) (otherValid : isUploadId otherId = true)
    (same : stagingKey (tenantToken company) uploadId member =
        stagingKey (tenantToken other) otherId otherMember ∨
      admittedKey (artifactPrefix company) uploadId member =
        admittedKey (artifactPrefix other) otherId otherMember) :
    company = other ∧ uploadId = otherId ∧ member = otherMember := by
  have lengths : (tenantToken company).length = (tenantToken other).length := by
    rw [tenantToken_length, tenantToken_length]
  have slashless := isUploadId_no_slash valid
  have otherSlashless := isUploadId_no_slash otherValid
  rcases same with staged | admitted
  · have shape (token uploadId member : Text) :
        stagingKey token uploadId member =
          (stagingRoot ++ token ++ ['/']) ++ (uploadId ++ '/' :: member) := by
      simp [stagingKey]
    rw [shape, shape] at staged
    obtain ⟨fronts, ids, members⟩ := cut_unique (by simp [lengths]) slashless
      otherSlashless staged
    have tokens := List.append_cancel_right
      ((List.append_assoc _ _ _).symm.trans
        (fronts.trans (List.append_assoc _ _ _)) |> List.append_cancel_left)
    exact ⟨tenantToken_injective tokens, ids, members⟩
  · have shape (company : Company) (uploadId member : Text) :
        admittedKey (artifactPrefix company) uploadId member =
          (tenantToken company ++ ('/' :: admittedRoot)) ++
            (uploadId ++ '/' :: member) := by
      simp [admittedKey, artifactPrefix]
    rw [shape, shape] at admitted
    obtain ⟨fronts, ids, members⟩ := cut_unique (by simp [lengths]) slashless
      otherSlashless admitted
    exact ⟨tenantToken_injective (List.append_cancel_right fronts), ids,
      members⟩

/-- The keys of an accepted member of an accepted upload are as they should be
exactly if the upload id does not end with a newline and the member has no
control character from 0x80 on. -/
theorem keysHold_iff {company : Company} {uploadId name member : Text}
    (valid : isUploadId uploadId = true)
    (accepted : safeMemberPath name = some member) :
    KeysHold company uploadId member ↔
      uploadId.getLast? ≠ some '
' ∧ member.any isUpperControl = false := by
  rw [← isPlainKey_uploadId_iff valid, ← isPlainKey_member_iff accepted]
  constructor
  · intro hold
    exact stagingKey_plain_iff.mp hold.staged
  · intro plain
    have admitted : isPlainKey (admittedKey (artifactPrefix company) uploadId
        member) = true :=
      admittedKey_plain_iff.mpr plain
    have stripped : stripLeft (admittedKey (artifactPrefix company) uploadId
        member) = admittedKey (artifactPrefix company) uploadId member := rfl
    refine ⟨stagingKey_plain_iff.mpr plain, admitted, ?_, ?_, ?_⟩
    · rw [ownsKey_iff, stripped]
      refine ⟨by simp [admittedKey, artifactPrefix], nofun, admitted, ?_⟩
      simp only [admittedKey, List.append_assoc]
      exact List.prefix_append _ _
    · rintro other ⟨rest, same⟩
      rw [artifactPrefix, tenantToken, stagingKey, stagingRoot] at same
      cases same
    · exact fun _ _ _ _ otherValid _ same =>
        keys_distinct valid otherValid same

/-! ## A newline -/

def plainId : Text := .replicate 16 'A'

def sampleCompany : Company := .uniform 'a' isLowerHex_a

/-- An upload id with a newline at its end is accepted, and its keys are not
plain. -/
theorem keys_with_newline :
    ¬∀ (company : Company) (uploadId name member : Text),
      isUploadId uploadId = true → safeMemberPath name = some member →
        KeysHold company uploadId member := by
  intro hold
  have accepted : isUploadId (plainId ++ ['
']) = true ∧
      safeMemberPath ['m'] = some ['m'] := by
    decide
  have kept := (hold sampleCompany _ _ _ accepted.1 accepted.2).staged
  have plain := (isPlainKey_uploadId_iff accepted.1).mp
    (stagingKey_plain_iff.mp kept).1
  exact plain (by decide)

/-- The keys of a plain upload. -/
theorem keysHold_plain : KeysHold sampleCompany plainId ['m'] :=
  (keysHold_iff (by decide) (show safeMemberPath ['m'] = some ['m'] by
    decide)).mpr (by decide)

end IndustryFlow.Tracking
