import IndustryFlow.SqlProxy.Wire

/-!
# What the handshake accepts

The body of a StartupMessage, split at its NULs, is pairs of a key and a value
up to the first empty key.  The parser reads exactly those pairs, and it stops
there whether or not anything follows; the message is well formed when one last
empty token does (`startup_exact_iff`).
-/

namespace IndustryFlow.SqlWire

/-! ## Texts and their bytes -/

theorem utf8_encode (text : String) : utf8 (encode text) = some text := by
  have bytes : (⟨(encode text).toArray⟩ : ByteArray) = text.toUTF8 := by
    rw [encode, Array.toArray_toList]
  have valid : text.toUTF8.IsValidUTF8 := text.isValidUTF8
  rw [utf8, bytes, String.fromUTF8?, dif_pos valid]
  rfl

theorem encode_eq_nil {text : String} (empty : encode text = []) :
    text = "" := by
  have same := utf8_encode text
  rw [empty] at same
  have nothing : utf8 [] = some "" := utf8_encode ""
  exact Option.some.inj (same.symm.trans nothing)

/-- A byte of a character other than NUL is not NUL. -/
theorem utf8EncodeChar_ne_zero {char : Char} (other : char ≠ '\x00') :
    (0 : UInt8) ∉ String.utf8EncodeChar char := by
  have apart {number : Nat} (positive : number % 256 ≠ 0) :
      (0 : UInt8) ≠ UInt8.ofNat number := by
    intro same
    have zero := congrArg UInt8.toNat same
    rw [UInt8.toNat_ofNat'] at zero
    exact positive zero.symm
  have value : char.val.toNat ≠ 0 := by
    intro zero
    apply other
    apply Char.ext
    exact UInt32.toNat_inj.mp zero
  rw [String.utf8EncodeChar]
  intro member
  split at member
  · next small =>
      rw [List.mem_singleton] at member
      exact apart (by omega) member
  · split at member
    · simp only [List.mem_cons, List.not_mem_nil, or_false] at member
      rcases member with same | same
      · exact apart (by omega) same
      · exact apart (by omega) same
    · split at member
      · simp only [List.mem_cons, List.not_mem_nil, or_false] at member
        rcases member with same | same | same
        · exact apart (by omega) same
        · exact apart (by omega) same
        · exact apart (by omega) same
      · simp only [List.mem_cons, List.not_mem_nil, or_false] at member
        rcases member with same | same | same | same
        · exact apart (by omega) same
        · exact apart (by omega) same
        · exact apart (by omega) same
        · exact apart (by omega) same

theorem zero_not_mem_encode {text : String} (plain : '\x00' ∉ text.toList) :
    (0 : UInt8) ∉ encode text := by
  have bytes : encode text = text.toList.flatMap String.utf8EncodeChar := by
    rw [encode]
    change text.toByteArray.data.toList = _
    rw [← String.utf8Encode_toList, List.utf8Encode,
      List.data_toByteArray]
  rw [bytes, List.mem_flatMap]
  rintro ⟨char, member, zero⟩
  apply utf8EncodeChar_ne_zero _ zero
  rintro rfl
  exact plain member

/-! ## Tokens -/

/-- The pairs before the first empty key. -/
def pairsOf : List Bytes → List (Bytes × Bytes)
  | [] => []
  | key :: rest =>
      if key = [] then []
      else
        match rest with
        | [] => []
        | value :: rest => (key, value) :: pairsOf rest

/-- What follows the first empty key. -/
def afterKeys : List Bytes → Option (List Bytes)
  | [] => none
  | key :: rest =>
      if key = [] then some rest
      else
        match rest with
        | [] => none
        | _ :: rest => afterKeys rest

def Decodable (pairs : List (Bytes × Bytes)) : Prop :=
  ∀ pair ∈ pairs, (utf8 pair.1).isSome ∧ (utf8 pair.2).isSome

instance (pairs : List (Bytes × Bytes)) : Decidable (Decodable pairs) :=
  inferInstanceAs (Decidable (∀ _ ∈ _, _))

def textOf (bytes : Bytes) : String :=
  (utf8 bytes).getD ""

/-- The parameters of pairs. -/
def addPairs (params : Params) (pairs : List (Bytes × Bytes)) : Params :=
  pairs.foldl
    (fun params pair => setParam params (textOf pair.1) (textOf pair.2))
    params

theorem pairsOf_end (rest : List Bytes) : pairsOf ([] :: rest) = [] := by
  cases rest with
  | nil => rfl
  | cons token rest => rfl

theorem afterKeys_end (rest : List Bytes) :
    afterKeys ([] :: rest) = some rest := by
  cases rest with
  | nil => rfl
  | cons token rest => rfl

theorem readParams_end (rest : List Bytes) (params : Params) :
    readParams ([] :: rest) params = .ok params := by
  cases rest with
  | nil => rfl
  | cons token rest => rfl

theorem pairsOf_cons {key : Bytes} (nonempty : key ≠ []) (value : Bytes)
    (rest : List Bytes) :
    pairsOf (key :: value :: rest) = (key, value) :: pairsOf rest := by
  rw [pairsOf, if_neg nonempty]

theorem afterKeys_cons {key : Bytes} (nonempty : key ≠ []) (value : Bytes)
    (rest : List Bytes) :
    afterKeys (key :: value :: rest) = afterKeys rest := by
  rw [afterKeys, if_neg nonempty]

theorem readParams_cons {key : Bytes} (nonempty : key ≠ []) (value : Bytes)
    (rest : List Bytes) (params : Params) :
    readParams (key :: value :: rest) params = (do
      let value ← decode value
      let key ← decode key
      readParams rest (setParam params key value)) := by
  rw [readParams, if_neg nonempty]

/-- The tokens of some pairs. -/
def tokensOf (pairs : List (Bytes × Bytes)) : List Bytes :=
  pairs.flatMap fun pair => [pair.1, pair.2]

/-- The bytes of some pairs. -/
def packPairs (pairs : List (Bytes × Bytes)) : Bytes :=
  pairs.flatMap fun pair => pair.1 ++ [0] ++ pair.2 ++ [0]

/-- Keys that are not empty, and no NUL. -/
structure IsPair (pair : Bytes × Bytes) : Prop where
  nonempty : pair.1 ≠ []
  key : (0 : UInt8) ∉ pair.1
  value : (0 : UInt8) ∉ pair.2

theorem pairsOf_keys (tokens : List Bytes) :
    ∀ pair ∈ pairsOf tokens, pair.1 ≠ [] ∧ pair.1 ∈ tokens ∧
      pair.2 ∈ tokens := by
  induction tokens using pairsOf.induct with
  | case1 => exact nofun
  | case2 rest =>
      rw [pairsOf_end]
      exact nofun
  | case3 key nonempty =>
      rw [pairsOf, if_neg nonempty]
      exact nofun
  | case4 key nonempty value rest induction =>
      rw [pairsOf_cons nonempty]
      intro pair member
      rcases List.mem_cons.mp member with rfl | later
      · exact ⟨nonempty, List.mem_cons_self,
          List.mem_cons_of_mem _ List.mem_cons_self⟩
      · obtain ⟨some_key, first, second⟩ := induction pair later
        exact ⟨some_key, List.mem_cons_of_mem _ (List.mem_cons_of_mem _ first),
          List.mem_cons_of_mem _ (List.mem_cons_of_mem _ second)⟩

/-- The tokens are the pairs, an empty key, and what follows. -/
theorem tokens_eq {tokens after : List Bytes}
    (found : afterKeys tokens = some after) :
    tokens = tokensOf (pairsOf tokens) ++ [] :: after := by
  induction tokens using pairsOf.induct with
  | case1 => cases found
  | case2 rest =>
      rw [afterKeys_end] at found
      cases found
      rw [pairsOf_end]
      rfl
  | case3 key nonempty =>
      rw [afterKeys, if_neg nonempty] at found
      cases found
  | case4 key nonempty value rest induction =>
      rw [afterKeys_cons nonempty] at found
      rw [pairsOf_cons nonempty]
      exact congrArg (fun tokens => key :: value :: tokens) (induction found)

theorem pairsOf_tokens {pairs : List (Bytes × Bytes)}
    (nonempty : ∀ pair ∈ pairs, pair.1 ≠ []) (after : List Bytes) :
    pairsOf (tokensOf pairs ++ [] :: after) = pairs ∧
      afterKeys (tokensOf pairs ++ [] :: after) = some after := by
  induction pairs with
  | nil =>
      exact ⟨pairsOf_end after, afterKeys_end after⟩
  | cons pair pairs induction =>
      obtain ⟨same, rest⟩ := induction fun other member =>
        nonempty other (List.mem_cons_of_mem _ member)
      have key := nonempty pair List.mem_cons_self
      have tokens : tokensOf (pair :: pairs) ++ [] :: after =
          pair.1 :: pair.2 :: (tokensOf pairs ++ [] :: after) := rfl
      rw [tokens, pairsOf_cons key, afterKeys_cons key, same, rest]
      exact ⟨rfl, rfl⟩

/-! ## The loop -/

/-- The parser reads the pairs before the first empty key. -/
theorem readParams_eq (tokens : List Bytes) (params : Params) :
    (¬Decodable (pairsOf tokens) →
      readParams tokens params = .error .unicodeDecode) ∧
    (Decodable (pairsOf tokens) → afterKeys tokens = none →
      ∃ error, readParams tokens params = .error (.protocol error)) ∧
    (Decodable (pairsOf tokens) → (afterKeys tokens).isSome →
      readParams tokens params =
        .ok (addPairs params (pairsOf tokens))) := by
  induction tokens using pairsOf.induct generalizing params with
  | case1 =>
      refine ⟨fun never => absurd nofun never, fun _ _ => ⟨_, rfl⟩, ?_⟩
      exact fun _ => nofun
  | case2 rest =>
      rw [pairsOf_end, afterKeys_end, readParams_end]
      exact ⟨fun never => absurd nofun never, fun _ => nofun, fun _ _ => rfl⟩
  | case3 key nonempty =>
      rw [pairsOf, afterKeys, readParams, if_neg nonempty, if_neg nonempty,
        if_neg nonempty]
      exact ⟨fun never => absurd nofun never, fun _ _ => ⟨_, rfl⟩,
        fun _ => nofun⟩
  | case4 key nonempty value rest induction =>
      rw [pairsOf_cons nonempty, afterKeys_cons nonempty,
        readParams_cons nonempty, decode, decode, Decodable, List.forall_mem_cons, ← Decodable]
      cases valueRead : utf8 value with
      | none =>
          refine ⟨fun _ => rfl, fun both => ?_, fun both => ?_⟩
          · exact absurd both.1.2 (by simp)
          · exact absurd both.1.2 (by simp)
      | some valueText =>
          cases keyRead : utf8 key with
          | none =>
              refine ⟨fun _ => rfl, fun both => ?_, fun both => ?_⟩
              · exact absurd both.1.1 (by simp)
              · exact absurd both.1.1 (by simp)
          | some keyText =>
              obtain ⟨undecoded, unended, ended⟩ :=
                induction (setParam params keyText valueText)
              refine ⟨fun never => ?_, fun both => ?_, fun both found => ?_⟩
              · exact undecoded fun rest => never ⟨⟨rfl, rfl⟩, rest⟩
              · exact unended both.2
              · have same := ended both.2 found
                rw [addPairs, List.foldl_cons, ← addPairs, textOf, textOf,
                  keyRead, valueRead]
                exact same

/-! ## Well-formed messages -/

/-- The protocol version, pairs in valid UTF-8 and one final NUL. -/
structure WellFormed (data : Bytes) (params : Params)
    (pairs : List (Bytes × Bytes)) : Prop where
  data : data = packInt protocolVersion3 ++ packPairs pairs ++ [0]
  isPair : ∀ pair ∈ pairs, IsPair pair
  decodable : Decodable pairs
  params : params = addPairs [] pairs

/-- The code and the final NUL of a StartupMessage. -/
def IsStartup (data : Bytes) : Prop :=
  4 ≤ data.length ∧ unpackInt (data.take 4) = protocolVersion3 ∧
    (data.drop 4).getLast? = some 0

instance (data : Bytes) : Decidable (IsStartup data) :=
  inferInstanceAs (Decidable (_ ∧ _))

/-- Nothing but one final NUL follows the parameters, which are valid
UTF-8. -/
def Clean (data : Bytes) : Prop :=
  Decodable (pairsOf ((data.drop 4).splitOn 0)) ∧
    ∀ after ∈ afterKeys ((data.drop 4).splitOn 0), after = [[]]

instance (data : Bytes) : Decidable (Clean data) :=
  inferInstanceAs (Decidable (_ ∧ _))

theorem splitOn_pairs {pairs : List (Bytes × Bytes)}
    (isPair : ∀ pair ∈ pairs, IsPair pair) :
    (packPairs pairs ++ [0]).splitOn 0 = tokensOf pairs ++ [[], []] := by
  induction pairs with
  | nil => rfl
  | cons pair pairs induction =>
      obtain ⟨-, key, value⟩ := isPair pair List.mem_cons_self
      have rest := induction fun other member =>
        isPair other (List.mem_cons_of_mem _ member)
      have bytes : packPairs (pair :: pairs) ++ [0] =
          pair.1 ++ 0 :: (pair.2 ++ 0 :: (packPairs pairs ++ [0])) := by
        rw [packPairs, List.flatMap_cons, ← packPairs]
        simp only [List.append_assoc, List.cons_append, List.nil_append]
      rw [bytes, List.splitOn_append_cons_self_of_not_mem key,
        List.splitOn_append_cons_self_of_not_mem value, rest]
      rfl

theorem packPairs_eq (pairs : List (Bytes × Bytes)) :
    packPairs pairs ++ [0] =
      [0].intercalate (tokensOf pairs ++ [[], []]) := by
  induction pairs with
  | nil => rfl
  | cons pair pairs induction =>
      have tokens : tokensOf (pair :: pairs) ++ [[], []] =
          pair.1 :: pair.2 :: (tokensOf pairs ++ [[], []]) := rfl
      obtain ⟨first, rest, same⟩ : ∃ first rest,
          tokensOf pairs ++ [[], []] = first :: rest :=
        List.exists_cons_of_ne_nil (by simp)
      rw [tokens, same, List.intercalate_cons_cons,
        List.intercalate_cons_cons, ← same, ← induction, packPairs,
        List.flatMap_cons, ← packPairs]
      simp only [List.append_assoc]

theorem not_mem_of_mem_splitOn {separator : UInt8} {bytes token : Bytes}
    (member : token ∈ bytes.splitOn separator) : separator ∉ token := by
  induction bytes generalizing token with
  | nil =>
      rw [List.splitOn_nil, List.mem_singleton] at member
      rw [member]
      exact List.not_mem_nil
  | cons byte bytes induction =>
      rw [List.splitOn_cons_eq_if_modifyHead] at member
      split at member
      · rcases List.mem_cons.mp member with rfl | later
        · exact List.not_mem_nil
        · exact induction later
      · next other =>
          obtain ⟨first, rest, split⟩ :=
            List.exists_cons_of_ne_nil (List.splitOn_ne_nil separator bytes)
          rw [split, List.modifyHead_cons] at member
          rw [split] at induction
          rcases List.mem_cons.mp member with rfl | later
          · intro inside
            rcases List.mem_cons.mp inside with rfl | deeper
            · exact other (beq_self_eq_true _)
            · exact induction List.mem_cons_self deeper
          · exact induction (List.mem_cons_of_mem _ later)

theorem packInt_version : packInt protocolVersion3 = [0, 3, 0, 0] := by
  decide

theorem unpackInt_version {bytes : Bytes} (length : bytes.length = 4)
    (code : unpackInt bytes = protocolVersion3) : bytes = [0, 3, 0, 0] := by
  match bytes, length with
  | [first, second, third, fourth], _ =>
      simp only [unpackInt, List.foldl_cons, List.foldl_nil, Nat.zero_mul,
        Nat.zero_add, protocolVersion3] at code
      have one := first.toNat_lt
      have two := second.toNat_lt
      have three := third.toNat_lt
      have four := fourth.toNat_lt
      have values : first.toNat = 0 ∧ second.toNat = 3 ∧ third.toNat = 0 ∧
          fourth.toNat = 0 := by
        omega
      obtain ⟨first_eq, second_eq, third_eq, fourth_eq⟩ := values
      have one_eq : first = 0 := UInt8.toNat_inj.mp first_eq
      have two_eq : second = 3 := UInt8.toNat_inj.mp second_eq
      have three_eq : third = 0 := UInt8.toNat_inj.mp third_eq
      have four_eq : fourth = 0 := UInt8.toNat_inj.mp fourth_eq
      rw [one_eq, two_eq, three_eq, four_eq]

/-- The tokens of a well-formed message. -/
theorem WellFormed.split {data : Bytes} {params : Params}
    {pairs : List (Bytes × Bytes)} (formed : WellFormed data params pairs) :
    IsStartup data ∧
      pairsOf ((data.drop 4).splitOn 0) = pairs ∧
        afterKeys ((data.drop 4).splitOn 0) = some [[]] := by
  have data_eq := formed.data
  rw [packInt_version, List.append_assoc] at data_eq
  have rest : data.drop 4 = packPairs pairs ++ [0] := by
    rw [data_eq]
    rfl
  have tokens := splitOn_pairs formed.isPair
  rw [← rest] at tokens
  obtain ⟨same, after⟩ := pairsOf_tokens
    (fun pair member => (formed.isPair pair member).nonempty) [[]]
  rw [tokens]
  refine ⟨⟨?_, ?_, ?_⟩, same, after⟩
  · rw [data_eq]
    exact Nat.le_add_left 4 _
  · rw [data_eq]
    rfl
  · rw [rest]
    exact List.getLast?_concat

/-- What the parser makes of a StartupMessage. -/
theorem parseStartupPacket_eq {data : Bytes} (startup : IsStartup data) :
    parseStartupPacket data =
      (readParams ((data.drop 4).splitOn 0) []).map fun params =>
        (protocolVersion3, params) := by
  obtain ⟨long, code, ended⟩ := startup
  rw [parseStartupPacket, if_neg (Nat.not_lt.mpr long)]
  dsimp only
  rw [code, if_neg (by decide), if_neg (by simp), ended, if_neg (by simp)]

/-- Every other packet is one of the three requests or refused. -/
theorem parseStartupPacket_other {data : Bytes} (other : ¬IsStartup data) :
    (unpackInt (data.take 4) ∈ requestCodes ∧
        parseStartupPacket data = .ok (unpackInt (data.take 4), [])) ∨
      ∃ error, parseStartupPacket data = .error (.protocol error) := by
  rw [parseStartupPacket]
  split
  · exact .inr ⟨_, rfl⟩
  · next long =>
      dsimp only
      split
      · next request => exact .inl ⟨request, rfl⟩
      · split
        · exact .inr ⟨_, rfl⟩
        · next version =>
            split
            · exact .inr ⟨_, rfl⟩
            · next ended =>
                exact absurd ⟨Nat.not_lt.mp long, not_not.mp version,
                  not_not.mp ended⟩ other

/-- A well-formed message of a clean packet. -/
theorem Clean.wellFormed {data : Bytes} (startup : IsStartup data)
    (clean : Clean data)
    (found : (afterKeys ((data.drop 4).splitOn 0)).isSome) :
    WellFormed data (addPairs [] (pairsOf ((data.drop 4).splitOn 0)))
      (pairsOf ((data.drop 4).splitOn 0)) := by
  obtain ⟨decodable, ended⟩ := clean
  obtain ⟨after, known⟩ := Option.isSome_iff_exists.mp found
  cases ended after known
  have tokens := tokens_eq known
  have keys := pairsOf_keys ((data.drop 4).splitOn 0)
  refine ⟨?_, ?_, decodable, rfl⟩
  · have whole : [0].intercalate ((data.drop 4).splitOn 0) = data.drop 4 :=
      List.intercalate_splitOn 0
    have version := unpackInt_version
      (by rw [List.length_take, Nat.min_eq_left startup.1]) startup.2.1
    have again := packPairs_eq (pairsOf ((data.drop 4).splitOn 0))
    rw [← tokens, whole] at again
    rw [packInt_version, List.append_assoc, again, ← version,
      List.take_append_drop]
  · intro pair member
    obtain ⟨nonempty, key, value⟩ := keys pair member
    exact ⟨nonempty, not_mem_of_mem_splitOn key,
      not_mem_of_mem_splitOn value⟩

/-! ## The codec -/

/-- A StartupMessage is read if and only if it is well formed, and everything
else is one of the three requests or a `ProtocolError`. -/
def StartupExact (data : Bytes) : Prop :=
  (∀ code params, parseStartupPacket data = .ok (code, params) →
    (code ∈ requestCodes ∧ unpackInt (data.take 4) = code ∧ params = []) ∨
      (code = protocolVersion3 ∧ ∃ pairs, WellFormed data params pairs)) ∧
  ∀ raised, parseStartupPacket data = .error raised →
    (∃ error, raised = .protocol error) ∧
      ∀ params pairs, ¬WellFormed data params pairs

theorem startup_exact_iff (data : Bytes) :
    StartupExact data ↔ (IsStartup data → Clean data) := by
  by_cases startup : IsStartup data
  · have parsed := parseStartupPacket_eq startup
    obtain ⟨undecoded, unended, ended⟩ :=
      readParams_eq ((data.drop 4).splitOn 0) []
    constructor
    · rintro ⟨accepted, refused⟩ -
      by_cases decodable : Decodable (pairsOf ((data.drop 4).splitOn 0))
      · refine ⟨decodable, fun after found => ?_⟩
        rw [ended decodable (by rw [found]; rfl)] at parsed
        rcases accepted _ _ parsed with ⟨request, -⟩ | ⟨-, pairs, formed⟩
        · exact absurd request (by decide)
        · have last := formed.split.2.2
          rw [found] at last
          exact Option.some.inj last
      · rw [undecoded decodable] at parsed
        obtain ⟨⟨error, same⟩, -⟩ := refused _ parsed
        cases same
    · intro clean
      have cleaned := clean startup
      cases found : afterKeys ((data.drop 4).splitOn 0) with
      | none =>
          obtain ⟨error, raised⟩ := unended cleaned.1 found
          rw [raised] at parsed
          constructor
          · intro code params accepted
            rw [parsed] at accepted
            cases accepted
          · intro other refused
            rw [parsed] at refused
            cases refused
            refine ⟨⟨error, rfl⟩, fun params pairs formed => ?_⟩
            rw [formed.split.2.2] at found
            cases found
      | some after =>
          have formed := cleaned.wellFormed startup (by rw [found]; rfl)
          rw [ended cleaned.1 (by rw [found]; rfl)] at parsed
          constructor
          · intro code params accepted
            rw [parsed] at accepted
            cases accepted
            exact .inr ⟨rfl, _, formed⟩
          · intro other refused
            rw [parsed] at refused
            cases refused
  · refine ⟨fun _ yes => absurd yes startup, fun _ => ?_⟩
    rcases parseStartupPacket_other startup with
      ⟨request, parsed⟩ | ⟨error, parsed⟩
    · constructor
      · intro code params accepted
        rw [parsed] at accepted
        cases accepted
        exact .inl ⟨request, rfl, rfl⟩
      · intro raised refused
        rw [parsed] at refused
        cases refused
    · constructor
      · intro code params accepted
        rw [parsed] at accepted
        cases accepted
      · intro raised refused
        rw [parsed] at refused
        cases refused
        refine ⟨⟨error, rfl⟩, fun params pairs formed => ?_⟩
        exact startup formed.split.1

/-- The password is returned, or a `ProtocolError` raised. -/
def PasswordTotal (payload : Bytes) : Prop :=
  ∀ raised, parsePasswordMessage payload = .error raised →
    ∃ error, raised = .protocol error

/-- A terminated password is valid UTF-8. -/
def PasswordClean (payload : Bytes) : Prop :=
  payload.getLast? = some 0 → (utf8 payload.dropLast).isSome

theorem password_total_iff (payload : Bytes) :
    PasswordTotal payload ↔ PasswordClean payload := by
  rw [PasswordTotal, parsePasswordMessage]
  split
  · next unended =>
      refine ⟨fun _ ended => absurd ended unended, fun _ raised refused => ?_⟩
      cases refused
      exact ⟨_, rfl⟩
  · next ended =>
      rw [decode]
      cases read : utf8 payload.dropLast with
      | none =>
          constructor
          · intro total
            obtain ⟨error, same⟩ := total _ rfl
            cases same
          · intro clean
            have valid := clean (not_not.mp ended)
            rw [read] at valid
            cases valid
      | some text =>
          refine ⟨fun _ _ => ?_, fun _ _ => nofun⟩
          rw [read]
          rfl

/-- Texts without NUL under distinct keys that are not empty. -/
structure Proper (params : Params) : Prop where
  distinct : (params.map Prod.fst).Nodup
  nonempty : ∀ param ∈ params, param.1 ≠ ""
  key : ∀ param ∈ params, '\x00' ∉ param.1.toList
  value : ∀ param ∈ params, '\x00' ∉ param.2.toList

theorem addPairs_encode {params more : Params}
    (distinct : ((params ++ more).map Prod.fst).Nodup) :
    addPairs params (more.map fun param =>
      (encode param.1, encode param.2)) = params ++ more := by
  induction more generalizing params with
  | nil => rw [List.append_nil, List.map_nil, addPairs, List.foldl_nil]
  | cons param more induction =>
      have absent : param.1 ∉ params.map Prod.fst := by
        rw [List.map_append, List.map_cons, List.nodup_append] at distinct
        intro present
        exact distinct.2.2 _ present _ List.mem_cons_self rfl
      have added : setParam params param.1 param.2 = params ++ [param] := by
        rw [setParam, if_neg absent]
      rw [List.map_cons, addPairs, List.foldl_cons, ← addPairs, textOf,
        textOf, utf8_encode, utf8_encode, Option.getD_some, Option.getD_some,
        added, induction]
      · rw [List.append_assoc, List.singleton_append]
      · rw [List.append_assoc, List.singleton_append]
        exact distinct

/-- What the proxy builds for a map of parameters is read back as it. -/
theorem parse_startupBody {params : Params} (proper : Proper params) :
    parseStartupPacket (startupBody params) =
      .ok (protocolVersion3, params) := by
  have formed : WellFormed (startupBody params) params
      (params.map fun param => (encode param.1, encode param.2)) := by
    refine ⟨?_, ?_, ?_, ?_⟩
    · rw [startupBody, packPairs, List.flatMap_map]
      rfl
    · intro pair member
      obtain ⟨param, inside, rfl⟩ := List.mem_map.mp member
      refine ⟨fun empty => ?_, ?_, ?_⟩
      · exact proper.nonempty param inside (encode_eq_nil empty)
      · exact zero_not_mem_encode (proper.key param inside)
      · exact zero_not_mem_encode (proper.value param inside)
    · intro pair member
      obtain ⟨param, inside, rfl⟩ := List.mem_map.mp member
      rw [utf8_encode, utf8_encode]
      exact ⟨rfl, rfl⟩
    · have distinct : (([] ++ params : Params).map Prod.fst).Nodup :=
        proper.distinct
      exact (addPairs_encode distinct).symm
  obtain ⟨startup, pairs, after⟩ := formed.split
  have read := (readParams_eq ((startupBody params).drop 4 |>.splitOn 0)
    []).2.2 (by rw [pairs]; exact formed.decodable) (by rw [after]; rfl)
  rw [pairs, ← formed.params] at read
  rw [parseStartupPacket_eq startup, read]
  rfl

/-! ## The connection -/

/-- The packet that ends the requests for encryption, and what follows it. -/
def negotiated (stream : Bytes) : Option (Bytes × Bytes) :=
  match _packet : readStartupPacket stream with
  | .error _ => none
  | .ok (body, left) =>
      if 4 ≤ body.length ∧ unpackInt (body.take 4) ∈
          [sslRequestCode, gssencRequestCode] then
        negotiated left
      else some (body, left)
termination_by stream.length
decreasing_by exact readStartupPacket_shorter _packet

/-- What the stream has to have for no other exception to escape: parameters
that are valid UTF-8 and, behind parameters that end, a password that is. -/
def StreamClean (stream : Bytes) : Prop :=
  ∀ body left, negotiated stream = some (body, left) → IsStartup body →
    Decodable (pairsOf ((body.drop 4).splitOn 0)) ∧
      ((afterKeys ((body.drop 4).splitOn 0)).isSome →
        ∀ payload rest, readRegularMessage left =
          .ok (msgPassword, payload, rest) → PasswordClean payload)

theorem readExactly_error {count : Nat} {stream : Bytes} {raised : Raised}
    (read : readExactly count stream = .error raised) :
    raised ≠ .unicodeDecode := by
  rw [readExactly] at read
  split at read
  · cases read
    intro same
    cases same
  · cases read

theorem readStartupPacket_error {stream : Bytes} {raised : Raised}
    (read : readStartupPacket stream = .error raised) :
    raised ≠ .unicodeDecode := by
  simp only [readStartupPacket] at read
  cases first : readExactly 4 stream with
  | error found =>
      rw [first] at read
      cases read
      exact readExactly_error first
  | ok found =>
      obtain ⟨header, left⟩ := found
      rw [first] at read
      change (if unpackInt header < 4 ∨ 2 ^ 20 < unpackInt header then
          Except.error (.protocol (.startupLength (unpackInt header)))
        else readExactly (unpackInt header - 4) left) = _ at read
      split at read
      · cases read
        intro same
        cases same
      · exact readExactly_error read

theorem readRegularMessage_error {stream : Bytes} {raised : Raised}
    (read : readRegularMessage stream = .error raised) :
    raised ≠ .unicodeDecode := by
  simp only [readRegularMessage] at read
  cases first : readExactly 1 stream with
  | error found =>
      rw [first] at read
      cases read
      exact readExactly_error first
  | ok found =>
      obtain ⟨type, left⟩ := found
      rw [first] at read
      cases second : readExactly 4 left with
      | error found =>
          simp only [bind, Except.bind, second] at read
          cases read
          exact readExactly_error second
      | ok found =>
          obtain ⟨header, left⟩ := found
          simp only [bind, Except.bind, second] at read
          split at read
          · cases read
            nofun
          · split at read
            · next found third =>
                cases read
                exact readExactly_error third
            · cases read

theorem negotiated_error {stream : Bytes} {raised : Raised}
    (read : readStartupPacket stream = .error raised) :
    negotiated stream = none := by
  rw [negotiated]
  split
  · rfl
  · next again => cases read.symm.trans again

theorem negotiated_ok {stream body left : Bytes}
    (read : readStartupPacket stream = .ok (body, left)) :
    negotiated stream = if 4 ≤ body.length ∧ unpackInt (body.take 4) ∈
        [sslRequestCode, gssencRequestCode] then negotiated left
      else some (body, left) := by
  rw [negotiated]
  split
  · next again => cases read.symm.trans again
  · next again =>
      cases read.symm.trans again
      rfl

theorem readStartup_error {stream : Bytes} {raised : Raised}
    (read : readStartupPacket stream = .error raised) :
    readStartup stream = .error raised := by
  rw [readStartup]
  split
  · next again =>
      cases read.symm.trans again
      rfl
  · next again => cases read.symm.trans again

theorem readStartup_ok {stream body left : Bytes}
    (read : readStartupPacket stream = .ok (body, left)) :
    readStartup stream =
      match parseStartupPacket body with
      | .error raised => .error raised
      | .ok (code, params) =>
          if code = sslRequestCode ∨ code = gssencRequestCode then
            readStartup left
          else .ok (⟨code, params, body⟩, left) := by
  rw [readStartup]
  split
  · next again => cases read.symm.trans again
  · next again =>
      cases read.symm.trans again
      rfl

/-- The code that a packet is accepted for is its own. -/
theorem parsed_code {data : Bytes} {code : Nat} {params : Params}
    (parsed : parseStartupPacket data = .ok (code, params)) :
    4 ≤ data.length ∧ code = unpackInt (data.take 4) := by
  rw [parseStartupPacket] at parsed
  split at parsed
  · cases parsed
  · next long =>
      refine ⟨Nat.not_lt.mp long, ?_⟩
      dsimp only at parsed
      split at parsed
      · cases parsed
        rfl
      · split at parsed
        · cases parsed
        · split at parsed
          · cases parsed
          · cases read : readParams ((data.drop 4).splitOn 0) [] with
            | error raised =>
                rw [read] at parsed
                cases parsed
            | ok found =>
                rw [read] at parsed
                cases parsed
                rfl

/-- A request for encryption is read as one. -/
theorem parsed_request {data : Bytes} (long : 4 ≤ data.length)
    (request : unpackInt (data.take 4) ∈
      [sslRequestCode, gssencRequestCode]) :
    parseStartupPacket data = .ok (unpackInt (data.take 4), []) := by
  have listed : unpackInt (data.take 4) ∈ requestCodes :=
    List.mem_append_left [cancelRequestCode] request
  rw [parseStartupPacket, if_neg (Nat.not_lt.mpr long)]
  dsimp only
  rw [if_pos listed]

/-- The startup packet that is parsed is the one that ends the requests for
encryption. -/
theorem readStartup_negotiated (stream : Bytes) :
    (negotiated stream = none ∧ ∃ raised,
      readStartup stream = .error raised ∧ raised ≠ .unicodeDecode) ∨
    ∃ body left, negotiated stream = some (body, left) ∧
      ¬(4 ≤ body.length ∧
        unpackInt (body.take 4) ∈ [sslRequestCode, gssencRequestCode]) ∧
      readStartup stream = (parseStartupPacket body).map fun parsed =>
        (⟨parsed.1, parsed.2, body⟩, left) := by
  induction length : stream.length using Nat.strongRecOn generalizing stream
    with
  | ind count induction =>
      cases read : readStartupPacket stream with
      | error raised =>
          left
          exact ⟨negotiated_error read, raised, readStartup_error read,
            readStartupPacket_error read⟩
      | ok packet =>
          obtain ⟨body, rest⟩ := packet
          have shorter := readStartupPacket_shorter read
          rw [negotiated_ok read, readStartup_ok read]
          by_cases request : 4 ≤ body.length ∧ unpackInt (body.take 4) ∈
              [sslRequestCode, gssencRequestCode]
          · rw [if_pos request, parsed_request request.1 request.2]
            have code := request.2
            simp only [List.mem_cons, List.not_mem_nil, or_false] at code
            dsimp only
            rw [if_pos code]
            exact induction rest.length (by omega) rest rfl
          · right
            rw [if_neg request]
            refine ⟨body, rest, rfl, request, ?_⟩
            cases parsed : parseStartupPacket body with
            | error raised => rfl
            | ok accepted =>
                obtain ⟨code, params⟩ := accepted
                obtain ⟨long, same⟩ := parsed_code parsed
                dsimp only
                rw [if_neg]
                · rfl
                · intro either
                  apply request
                  rw [← same]
                  exact ⟨long, by simpa using either⟩

/-- The connection is closed, refused or served. -/
def Handled (serveConnection : String → Bool) (stream : Bytes) : Prop :=
  ∃ ending, handleClient serveConnection stream = .ok ending

theorem handled_iff_handshake (serveConnection : String → Bool)
    (stream : Bytes) :
    Handled serveConnection stream ↔
      handshake stream ≠ .error .unicodeDecode := by
  rw [Handled, handleClient]
  split
  · next raised =>
      rw [raised]
      constructor
      · rintro ⟨ending, same⟩
        cases same
      · exact fun never => absurd rfl never
  · next raised other same =>
      rw [same]
      refine ⟨fun _ again => ?_, fun _ => ⟨_, rfl⟩⟩
      cases again
      exact other rfl
  · next same =>
      rw [same]
      exact ⟨fun _ => nofun, fun _ => ⟨_, rfl⟩⟩
  · next handle same =>
      rw [same]
      exact ⟨fun _ => nofun, fun _ => ⟨_, rfl⟩⟩

theorem handle_clean_iff (left : Bytes) :
    requestHandle left ≠ .error .unicodeDecode ↔
      ∀ payload rest, readRegularMessage left =
        .ok (msgPassword, payload, rest) → PasswordClean payload := by
  simp only [requestHandle]
  cases read : readRegularMessage left with
  | error raised =>
      refine ⟨fun _ _ _ => nofun, fun _ same => ?_⟩
      cases same
      exact readRegularMessage_error read rfl
  | ok message =>
      obtain ⟨type, payload, rest⟩ := message
      simp only [bind, Except.bind]
      by_cases password : type = msgPassword
      · rw [if_neg (not_not.mpr password), password]
        constructor
        · intro decoded other after same
          cases same
          rw [← password_total_iff]
          intro raised refused
          cases raised with
          | protocol error => exact ⟨error, rfl⟩
          | unicodeDecode => exact absurd refused decoded
          | incompleteRead =>
              rw [parsePasswordMessage, decode] at refused
              split at refused
              · cases refused
              · split at refused
                · cases refused
                · cases refused
        · intro clean raised
          have total := (password_total_iff payload).mpr
            (clean payload rest rfl)
          obtain ⟨error, same⟩ := total _ raised
          cases same
      · rw [if_pos password]
        refine ⟨fun _ other after same => ?_, fun _ => nofun⟩
        cases same
        exact absurd rfl password

theorem parseCancelRequest_error {data : Bytes} {raised : Raised}
    (refused : parseCancelRequest data = .error raised) :
    raised ≠ .unicodeDecode := by
  rw [parseCancelRequest] at refused
  split at refused
  · cases refused
    nofun
  · split at refused
    · cases refused
      nofun
    · cases refused

theorem handled_iff (serveConnection : String → Bool) (stream : Bytes) :
    Handled serveConnection stream ↔ StreamClean stream := by
  rw [handled_iff_handshake]
  simp only [handshake]
  rcases readStartup_negotiated stream with
    ⟨none, raised, refused, other⟩ | ⟨body, left, found, other, read⟩
  · rw [refused]
    constructor
    · intro _ body left found
      rw [none] at found
      cases found
    · intro _ same
      cases same
      exact other rfl
  · rw [read]
    have clean_iff : StreamClean stream ↔ (IsStartup body →
        Decodable (pairsOf ((body.drop 4).splitOn 0)) ∧
          ((afterKeys ((body.drop 4).splitOn 0)).isSome →
            ∀ payload rest, readRegularMessage left =
              .ok (msgPassword, payload, rest) → PasswordClean payload)) := by
      constructor
      · exact fun clean => clean body left found
      · intro clean other_body other_left again
        rw [found] at again
        cases again
        exact clean
    rw [clean_iff]
    by_cases startup : IsStartup body
    · obtain ⟨undecoded, unended, ended⟩ :=
        readParams_eq ((body.drop 4).splitOn 0) []
      rw [parseStartupPacket_eq startup]
      by_cases decodable : Decodable (pairsOf ((body.drop 4).splitOn 0))
      · cases terminated : afterKeys ((body.drop 4).splitOn 0) with
        | none =>
            obtain ⟨error, raised⟩ := unended decodable terminated
            rw [raised]
            refine ⟨fun _ _ => ⟨decodable, nofun⟩, fun _ same => ?_⟩
            cases same
        | some after =>
            rw [ended decodable (by rw [terminated]; rfl)]
            have version : protocolVersion3 ≠ cancelRequestCode := by decide
            simp only [Except.map, bind, Except.bind, version, if_false]
            rw [← handle_clean_iff left]
            cases requestHandle left with
            | error raised =>
                constructor
                · intro decoded _
                  refine ⟨decodable, fun _ same => decoded ?_⟩
                  cases same
                  rfl
                · intro clean same
                  cases same
                  exact (clean startup).2 rfl rfl
            | ok handle =>
                constructor
                · exact fun _ _ => ⟨decodable, fun _ => nofun⟩
                · exact fun _ => nofun
      · rw [undecoded decodable]
        constructor
        · exact fun never => absurd rfl never
        · exact fun clean => absurd (clean startup).1 decodable
    · refine ⟨fun _ yes => absurd yes startup, fun _ => ?_⟩
      rcases parseStartupPacket_other startup with
        ⟨request, parsed⟩ | ⟨error, parsed⟩
      · obtain ⟨long, -⟩ := parsed_code parsed
        have cancel : unpackInt (body.take 4) = cancelRequestCode := by
          simp only [requestCodes, List.mem_cons, List.not_mem_nil,
            or_false] at request
          rcases request with ssl | gss | cancel
          · exact absurd ⟨long, by rw [ssl]; decide⟩ other
          · exact absurd ⟨long, by rw [gss]; decide⟩ other
          · exact cancel
        rw [parsed]
        simp only [Except.map, bind, Except.bind, cancel, if_true]
        cases answered : parseCancelRequest body with
        | error raised =>
            intro same
            cases same
            exact parseCancelRequest_error answered rfl
        | ok found => exact nofun
      · rw [parsed]
        exact nofun

/-! ## The handshake -/

/-- The startup packet is read exactly, the password and the connection are
total, for the bytes that are clean and for no others; and what is built is
read back. -/
theorem handshake_exact (serveConnection : String → Bool)
    (data payload stream : Bytes) :
    (StartupExact data ↔ (IsStartup data → Clean data)) ∧
      (PasswordTotal payload ↔ PasswordClean payload) ∧
      (Handled serveConnection stream ↔ StreamClean stream) ∧
      ∀ params, Proper params → parseStartupPacket (startupBody params) =
        .ok (protocolVersion3, params) :=
  ⟨startup_exact_iff data, password_total_iff payload,
    handled_iff serveConnection stream, fun _ => parse_startupBody⟩

theorem handshake_exact_user :
    parseStartupPacket (startupBody [("user", "a")]) =
      .ok (protocolVersion3, [("user", "a")]) := by
  apply (handshake_exact (fun _ => true) [] [] []).2.2.2
  constructor
  · decide
  · decide
  · decide
  · decide

/-- A version and one byte that is not UTF-8, and a packet of it. -/
def strayByte : Bytes :=
  [0, 3, 0, 0, 255, 0, 0, 0]

def strayPacket : Bytes :=
  [0, 0, 0, 12] ++ strayByte

/-- Bytes behind the terminator are accepted, so is a message without one, and
what is not UTF-8 raises another exception, which no handler catches. -/
theorem handshake_slips :
    ¬StartupExact [0, 3, 0, 0, 0, 97, 0] ∧
      ¬StartupExact [0, 3, 0, 0, 97, 0, 98, 0] ∧
      ¬StartupExact strayByte ∧
      ¬PasswordTotal [255, 0] ∧
      ¬Handled (fun _ => true) strayPacket := by
  have dirty : IsStartup strayByte ∧
      ¬Decodable (pairsOf ((strayByte.drop 4).splitOn 0)) := by
    decide +kernel
  refine ⟨?_, ?_, ?_, ?_, ?_⟩
  · rw [startup_exact_iff]
    decide +kernel
  · rw [startup_exact_iff]
    decide +kernel
  · rw [startup_exact_iff]
    exact fun clean => dirty.2 (clean dirty.1).1
  · rw [password_total_iff, PasswordClean]
    decide +kernel
  · rw [handled_iff]
    intro clean
    have read : readStartupPacket strayPacket = .ok (strayByte, []) := by
      decide +kernel
    have found : negotiated strayPacket = some (strayByte, []) := by
      rw [negotiated_ok read, if_neg (by decide +kernel)]
    exact dirty.2 (clean strayByte [] found dirty.1).1

end IndustryFlow.SqlWire
