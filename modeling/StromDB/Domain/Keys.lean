import StromDB.Domain.Seal
import StromDB.Lib.Decimal

namespace StromDB

open Checked Decimal Text List

variable (width : Nat) (input : String) (object : TableObjectId) (batch : BatchId) (generation : SealGeneration) (n : Nat)

def REVERSE_ORDINAL_DIGITS : Nat := 20
def GENERATION_DIGITS : Nat := 20
def TABLE_ORDINAL_DIGITS : Nat := 10
def SEAL_SEGMENT : String := "seal"
def TABLE_SEGMENT : String := "table"
def WAL_SEGMENT : String := "wal"
def NAMESPACE_VERSION : String := "v1"

inductive KeySpellingError where
  | shape
  | unsupportedNamespace
  | reverseOrdinal
  | zeroCoordinate
  | tableStore
  | tableCoordinate
  | invalidTableIdentity
deriving DecidableEq, Repr

def KeySpellingError.toText : KeySpellingError → String
  | .shape => "durable key has the wrong segment shape"
  | .unsupportedNamespace => "durable key namespace version is unsupported"
  | .reverseOrdinal => "durable key reverse ordinal is not a fixed-width 20-digit u64"
  | .zeroCoordinate => "durable key spells reserved coordinate zero"
  | .tableStore => "table key store spelling is not canonical"
  | .tableCoordinate => "table key coordinate does not have its canonical fixed-width decimal spelling"
  | .invalidTableIdentity => "table key fresh identity violates its generation ordering"

def parseDigits (failure : KeySpellingError) (input : Chars) (digits : Nat) : Except KeySpellingError Nat :=
  if byteLength input ≠ digits ∨ !input.all Char.isDigit then .error failure
  else if value input < 2 ^ 64 then .ok (value input)
  else .error failure

def parseReverseOrdinal (input : Chars) : Except KeySpellingError Nat := parseDigits .reverseOrdinal input REVERSE_ORDINAL_DIGITS

def parseFixedU64 (input : Chars) (digits : Nat) : Except KeySpellingError Nat := parseDigits .tableCoordinate input digits

def nextSegment : List Chars → Except KeySpellingError (Chars × List Chars)
  | [] => .error .shape
  | segment :: rest => .ok (segment, rest)

def parseNamespaceHead (segments : List Chars) (expectedKind : String) : Except KeySpellingError (List Chars) :=
  if segments.head? ≠ some expectedKind.toList then .error .shape
  else if segments.tail.head? ≠ some NAMESPACE_VERSION.toList then .error .unsupportedNamespace
  else .ok segments.tail.tail

def parseKey (input : String) (expectedKind : String) : Except KeySpellingError Nat := do
  let rest ← parseNamespaceHead (splitChar '/' input.toList) expectedKind
  let (reverseOrdinal, rest) ← nextSegment rest
  if rest.head?.isSome then .error .shape
  else do
    let reversed ← parseReverseOrdinal reverseOrdinal
    .ok (2 ^ 64 - 1 - reversed)

def SealKey.fromStr (input : String) : Except KeySpellingError SealGeneration := do
  let ordinal ← parseKey input SEAL_SEGMENT
  (SealGeneration.tryFrom ordinal).mapError fun _ => .zeroCoordinate

def WalKey.fromStr (input : String) : Except KeySpellingError BatchId := do
  let ordinal ← parseKey input WAL_SEGMENT
  (BatchId.tryFrom ordinal).mapError fun _ => .zeroCoordinate

def parseStore (input : Chars) : Except KeySpellingError StoreKind :=
  if input = "directory".toList then .ok .directory
  else if input = "ledger".toList then .ok .ledger
  else if input = "tally".toList then .ok .tally
  else if input = "annals".toList then .ok .annals
  else .error .tableStore

def splitAttempt (attempt : Chars) : Except KeySpellingError (Chars × Chars) :=
  match splitOnce '-' attempt with
  | none => .error .tableCoordinate
  | some (owner, counter) => if counter.contains '-' then .error .tableCoordinate else .ok (owner, counter)

def parseOrdinal (input : Chars) : Except KeySpellingError Nat := do
  let ordinal ← parseFixedU64 input TABLE_ORDINAL_DIGITS
  if ordinal < 2 ^ 32 then .ok ordinal else .error .tableCoordinate

def TableKey.fromStr (input : String) : Except KeySpellingError TableObjectId := do
  let rest ← parseNamespaceHead (splitChar '/' input.toList) TABLE_SEGMENT
  let (storeSegment, rest) ← nextSegment rest
  let store ← parseStore storeSegment
  let (birthSegment, rest) ← nextSegment rest
  let birth ← parseFixedU64 birthSegment GENERATION_DIGITS
  let (attempt, rest) ← nextSegment rest
  let (ownerPart, counterPart) ← splitAttempt attempt
  let owner ← parseFixedU64 ownerPart GENERATION_DIGITS
  let counter ← parseFixedU64 counterPart GENERATION_DIGITS
  let (ordinalSegment, rest) ← nextSegment rest
  let ordinal ← parseOrdinal ordinalSegment
  if rest.head?.isSome then .error .shape
  else do
    let birth ← (SealGeneration.tryFrom birth).mapError fun _ => .zeroCoordinate
    let owner ← (SealGeneration.tryFrom owner).mapError fun _ => .zeroCoordinate
    let fresh ← (FreshIdentity.new birth ⟨owner, counter⟩ ordinal).mapError fun _ => .invalidTableIdentity
    .ok ⟨fresh, store⟩

structure TableObjectId.InRange (object : TableObjectId) : Prop where
  counter : object.fresh.attempt.localCounter < 2 ^ 64
  ordinal : object.fresh.ordinal < 2 ^ 32

def KEY_BYTES_MAX : Nat := 1024

inductive ObjectKeyError where
  | empty
  | tooLong (bytesActual : Nat)
  | forbiddenCharacter (character : Char)
  | emptySegment
  | relativeSegment
deriving DecidableEq, Repr

def isKeyCharacter (c : Char) : Bool := ('a' ≤ c && c ≤ 'z') || c.isDigit || c = '-' || c = '_' || c = '.'

def validateKeySegments : List Chars → Except ObjectKeyError Unit
  | [] => .ok ()
  | segment :: rest =>
    if segment.isEmpty then .error .emptySegment
    else if segment = ".".toList ∨ segment = "..".toList then .error .relativeSegment
    else
      match segment.find? fun c => !isKeyCharacter c with
      | some character => .error (.forbiddenCharacter character)
      | none => validateKeySegments rest

def validateObjectKey (raw : String) : Except ObjectKeyError Unit :=
  if raw.toList.isEmpty then .error .empty
  else if byteLength raw.toList > KEY_BYTES_MAX then .error (.tooLong (byteLength raw.toList))
  else validateKeySegments (splitChar '/' raw.toList)

structure ObjectKey where
  text : String
  valid : validateObjectKey text = .ok ()
deriving DecidableEq, Repr

def ObjectKey.tryFrom (raw : String) : Except ObjectKeyError ObjectKey :=
  match checked : validateObjectKey raw with
  | .ok () => .ok ⟨raw, checked⟩
  | .error error => .error error

theorem byteLength_digits {text : Chars} (digits : ∀ c ∈ text, c.isDigit = true) : byteLength text = text.length := by
  induction text with
  | nil => rfl
  | cons c rest ih =>
    have range := isDigit_iff.mp (digits c mem_cons_self)
    have one : c.utf8Size = 1 := Char.utf8Size_eq_one_iff.mpr (UInt32.le_iff_toNat_le.mpr (Nat.le_trans range.2 (by decide)))
    rw [byteLength_cons, one, ih fun d member => digits d (mem_cons_of_mem _ member), length_cons]
    omega

theorem numeral_avoids (separator : Char) (other : separator.isDigit = false) : separator ∉ Decimal.numeral width n := by
  intro member
  rw [isDigit_numeral width n separator member] at other
  cases other

theorem parseDigits_ok_iff {failure : KeySpellingError} {input : Chars} {digits n : Nat} :
    parseDigits failure input digits = .ok n ↔ n < 2 ^ 64 ∧ n < 10 ^ digits ∧ input = Decimal.numeral digits n := by
  unfold parseDigits
  constructor
  · intro parsed
    split at parsed
    · cases parsed
    rename_i shape
    split at parsed
    · rename_i range
      cases parsed
      simp only [not_or, not_not, Bool.not_eq_true', Bool.not_eq_false, all_eq_true] at shape
      rw [byteLength_digits shape.2] at shape
      refine ⟨range, ?_, ?_⟩
      · rw [← shape.1]
        exact value_lt shape.2
      · rw [← shape.1, numeral_value shape.2]
    · cases parsed
  · rintro ⟨range, fits, rfl⟩
    have all := isDigit_numeral digits n
    have same : value (Decimal.numeral digits n) = n := by rw [value_numeral, Nat.mod_eq_of_lt fits]
    have shape : ¬ (byteLength (Decimal.numeral digits n) ≠ digits ∨ (!(Decimal.numeral digits n).all Char.isDigit) = true) := by
      rw [byteLength_digits all, length_numeral]
      simpa using all
    rw [if_neg shape, same, if_pos range]

theorem zeroPadded_toList (fits : n < 10 ^ width) (wide : 0 < width) : (zeroPadded width n).toList = Decimal.numeral width n := by
  rw [← padded_toDigits fits wide]
  simp [zeroPadded, ← String.length_toList]

theorem nextSegment_ok_iff (segments rest : List Chars) (segment : Chars) :
    nextSegment segments = .ok (segment, rest) ↔ segments = segment :: rest := by
  cases segments <;> simp [nextSegment]

theorem parseNamespaceHead_ok_iff {segments rest : List Chars} {expectedKind : String} :
    parseNamespaceHead segments expectedKind = .ok rest ↔
      segments = expectedKind.toList :: NAMESPACE_VERSION.toList :: rest := by
  unfold parseNamespaceHead
  constructor
  · intro parsed
    split at parsed
    · cases parsed
    rename_i kind
    split at parsed
    · cases parsed
    rename_i version
    cases parsed
    obtain ⟨rest, rfl⟩ := head?_eq_some_iff.mp (not_not.mp kind)
    obtain ⟨rest, rfl⟩ := head?_eq_some_iff.mp (not_not.mp version)
    rfl
  · rintro rfl
    rw [if_neg (by simp), if_neg (by simp)]
    rfl

theorem parseStore_ok_iff {input : Chars} {store : StoreKind} : parseStore input = .ok store ↔ input = (storeName store).toList := by
  unfold parseStore
  constructor
  · intro parsed
    split at parsed
    · cases parsed
      assumption
    split at parsed
    · cases parsed
      assumption
    split at parsed
    · cases parsed
      assumption
    split at parsed
    · cases parsed
      assumption
    · cases parsed
  · rintro rfl
    cases store <;> rfl

theorem splitAttempt_ok_iff (attempt owner counter : Chars) (clean : '-' ∉ owner) :
    splitAttempt attempt = .ok (owner, counter) ↔ attempt = owner ++ '-' :: counter ∧ '-' ∉ counter := by
  unfold splitAttempt
  constructor
  · intro split
    split at split
    · cases split
    rename_i found
    split at split
    · cases split
    rename_i absent
    cases split
    exact ⟨splitOnce_eq_some found, by simpa using absent⟩
  · rintro ⟨rfl, absent⟩
    rw [splitOnce_append '-' owner counter clean]
    simpa using absent

theorem SealGeneration.tryFrom_ok_iff (generation : SealGeneration) :
    SealGeneration.tryFrom n = .ok generation ↔ generation.get = n := by
  obtain ⟨raw⟩ := generation
  rw [SealGeneration.get, ← NonZeroU64.new_eq_some_iff, SealGeneration.tryFrom]
  cases NonZeroU64.new n <;> simp

theorem BatchId.tryFrom_ok_iff (batch : BatchId) : BatchId.tryFrom n = .ok batch ↔ batch.get = n := by
  obtain ⟨raw⟩ := batch
  rw [BatchId.get, ← NonZeroU64.new_eq_some_iff, BatchId.tryFrom]
  cases NonZeroU64.new n <;> simp

def coordinateSegments (kind : String) (ordinal : Nat) : List Chars :=
  [kind.toList, NAMESPACE_VERSION.toList, Decimal.numeral REVERSE_ORDINAL_DIGITS (2 ^ 64 - 1 - ordinal)]

theorem reverseOrdinal_toList (ordinal : Nat) :
    (reverseOrdinal ordinal).toList = Decimal.numeral REVERSE_ORDINAL_DIGITS (2 ^ 64 - 1 - ordinal) :=
  zeroPadded_toList 20 _ (by omega) (by decide)

theorem sealKey_toList : (sealKey generation).toList = joined '/' (coordinateSegments SEAL_SEGMENT generation.get) := by
  rw [sealKey, String.toList_append, reverseOrdinal_toList]
  rfl

theorem walKey_toList : (walKey batch).toList = joined '/' (coordinateSegments WAL_SEGMENT batch.get) := by
  rw [walKey, String.toList_append, reverseOrdinal_toList]
  rfl

theorem coordinateSegments_clean {kind : String} {ordinal : Nat} (clean : '/' ∉ kind.toList) :
    ∀ part ∈ coordinateSegments kind ordinal, '/' ∉ part := by
  intro part member
  simp only [coordinateSegments, mem_cons, not_mem_nil, or_false] at member
  rcases member with rfl | rfl | rfl
  · exact clean
  · decide
  · exact numeral_avoids _ _ '/' (by decide)

theorem parseKey_ok_iff (kind : String) (ordinal : Nat) (clean : '/' ∉ kind.toList) :
    parseKey input kind = .ok ordinal ↔ ordinal < 2 ^ 64 ∧ input.toList = joined '/' (coordinateSegments kind ordinal) := by
  rw [← splitChar_eq_iff '/' input.toList _ (by simp [coordinateSegments]) (coordinateSegments_clean clean)]
  simp only [parseKey, bind_ok_iff, parseNamespaceHead_ok_iff, Prod.exists, nextSegment_ok_iff]
  constructor
  · rintro ⟨rest, split, segment, tail, rfl, parsed⟩
    split at parsed
    · cases parsed
    rename_i last
    obtain ⟨reversed, numeral, done⟩ := bind_ok parsed
    obtain ⟨range, _, rfl⟩ := parseDigits_ok_iff.mp numeral
    cases done
    have empty : tail = [] := by simpa using last
    refine ⟨by omega, ?_⟩
    rw [split, empty, coordinateSegments, show 2 ^ 64 - 1 - (2 ^ 64 - 1 - reversed) = reversed by omega]
  · rintro ⟨range, split⟩
    refine ⟨_, split, _, _, rfl, ?_⟩
    refine bind_ok_iff.mpr ⟨2 ^ 64 - 1 - ordinal, parseDigits_ok_iff.mpr ⟨by omega, ?_, rfl⟩, ?_⟩
    · simp only [REVERSE_ORDINAL_DIGITS]
      omega
    · rw [show 2 ^ 64 - 1 - (2 ^ 64 - 1 - ordinal) = ordinal by omega]

theorem SealKey.fromStr_ok_iff : SealKey.fromStr input = .ok generation ↔ input = sealKey generation := by
  simp only [SealKey.fromStr, bind_ok_iff, mapError_ok_iff, SealGeneration.tryFrom_ok_iff]
  constructor
  · rintro ⟨_, parsed, rfl⟩
    apply String.toList_injective
    rw [((parseKey_ok_iff _ _ _ (by decide)).mp parsed).2, sealKey_toList]
  · rintro rfl
    exact ⟨_, (parseKey_ok_iff _ _ _ (by decide)).mpr ⟨generation.raw.bounded, sealKey_toList generation⟩, rfl⟩

theorem WalKey.fromStr_ok_iff : WalKey.fromStr input = .ok batch ↔ input = walKey batch := by
  simp only [WalKey.fromStr, bind_ok_iff, mapError_ok_iff, BatchId.tryFrom_ok_iff]
  constructor
  · rintro ⟨_, parsed, rfl⟩
    apply String.toList_injective
    rw [((parseKey_ok_iff _ _ _ (by decide)).mp parsed).2, walKey_toList]
  · rintro rfl
    exact ⟨_, (parseKey_ok_iff _ _ _ (by decide)).mpr ⟨batch.raw.bounded, walKey_toList batch⟩, rfl⟩

def attemptSegment (attempt : AttemptId) : Chars :=
  Decimal.numeral GENERATION_DIGITS attempt.ownerClaim.get ++ '-' :: Decimal.numeral GENERATION_DIGITS attempt.localCounter

def tableSegments (object : TableObjectId) : List Chars :=
  [TABLE_SEGMENT.toList, NAMESPACE_VERSION.toList, (storeName object.store).toList,
    Decimal.numeral GENERATION_DIGITS object.fresh.birthGeneration.get, attemptSegment object.fresh.attempt,
    Decimal.numeral TABLE_ORDINAL_DIGITS object.fresh.ordinal]

theorem tableKey_toList (range : object.InRange) : (tableKey object).toList = joined '/' (tableSegments object) := by
  have birth := object.fresh.birthGeneration.raw.bounded
  have owner := object.fresh.attempt.ownerClaim.raw.bounded
  have counter := range.counter
  have ordinal := range.ordinal
  have generation : ∀ n, n < 2 ^ 64 → (zeroPadded 20 n).toList = Decimal.numeral GENERATION_DIGITS n :=
    fun n small => zeroPadded_toList 20 n (by omega) (by decide)
  have last : (zeroPadded 10 object.fresh.ordinal).toList = Decimal.numeral TABLE_ORDINAL_DIGITS object.fresh.ordinal :=
    zeroPadded_toList 10 _ (by omega) (by decide)
  simp only [tableKey, String.toList_append, generation _ birth, generation _ owner, generation _ counter, last,
    SealGeneration.get, tableSegments, attemptSegment, joined, append_assoc]
  rfl

theorem tableSegments_clean : ∀ part ∈ tableSegments object, '/' ∉ part := by
  intro part member
  simp only [tableSegments, mem_cons, not_mem_nil, or_false] at member
  rcases member with rfl | rfl | rfl | rfl | rfl | rfl
  · decide
  · decide
  · cases object.store <;> decide
  · exact numeral_avoids _ _ '/' (by decide)
  · simp only [attemptSegment, mem_append, mem_cons, not_or]
    exact ⟨numeral_avoids _ _ '/' (by decide), by decide, numeral_avoids _ _ '/' (by decide)⟩
  · exact numeral_avoids _ _ '/' (by decide)

theorem parseOrdinal_ok_iff {input : Chars} {ordinal : Nat} :
    parseOrdinal input = .ok ordinal ↔ ordinal < 2 ^ 32 ∧ input = Decimal.numeral TABLE_ORDINAL_DIGITS ordinal := by
  simp only [parseOrdinal, parseFixedU64, bind_ok_iff, parseDigits_ok_iff]
  constructor
  · rintro ⟨n, ⟨_, _, rfl⟩, done⟩
    split at done
    · rename_i small
      cases done
      exact ⟨small, rfl⟩
    · cases done
  · rintro ⟨small, rfl⟩
    refine ⟨ordinal, ⟨by omega, ?_, rfl⟩, by rw [if_pos small]⟩
    simp only [TABLE_ORDINAL_DIGITS]
    omega

theorem TableKey.fromStr_ok_iff : TableKey.fromStr input = .ok object ↔ object.InRange ∧ input = tableKey object := by
  constructor
  · intro parsed
    simp only [TableKey.fromStr, bind_ok_iff, parseNamespaceHead_ok_iff, Prod.exists, nextSegment_ok_iff,
      parseStore_ok_iff, parseFixedU64, parseDigits_ok_iff, parseOrdinal_ok_iff] at parsed
    obtain ⟨_, split, _, _, rfl, store, rfl, _, _, rfl, birth, ⟨_, _, rfl⟩, attempt, _, rfl, ownerPart, counterPart, cut,
      owner, ⟨_, _, rfl⟩, counter, ⟨counterRange, _, rfl⟩, _, tail, rfl, ordinal, ⟨ordinalRange, rfl⟩, parsed⟩ := parsed
    split at parsed
    · cases parsed
    rename_i last
    simp only [bind_ok_iff, mapError_ok_iff, SealGeneration.tryFrom_ok_iff] at parsed
    obtain ⟨birthGeneration, rfl, ownerClaim, rfl, fresh, made, done⟩ := parsed
    cases done
    have empty : tail = [] := by simpa using last
    have whole := ((splitAttempt_ok_iff _ _ _ (numeral_avoids _ _ '-' (by decide))).mp cut).1
    unfold FreshIdentity.new at made
    split at made
    · cases made
      refine ⟨⟨counterRange, ordinalRange⟩, String.toList_injective ?_⟩
      rw [tableKey_toList _ ⟨counterRange, ordinalRange⟩,
        ← splitChar_eq_iff '/' _ _ (by simp [tableSegments]) (tableSegments_clean _), split, empty, whole]
      rfl
    · cases made
  rintro ⟨range, rfl⟩
  have split := (splitChar_eq_iff '/' (tableKey object).toList _ (by simp [tableSegments]) (tableSegments_clean object)).mpr
    (tableKey_toList object range)
  have twenty : ∀ n, n < 2 ^ 64 → parseFixedU64 (Decimal.numeral GENERATION_DIGITS n) GENERATION_DIGITS = .ok n := by
    intro n small
    refine parseDigits_ok_iff.mpr ⟨small, ?_, rfl⟩
    simp only [GENERATION_DIGITS]
    omega
  have cut := (splitAttempt_ok_iff (attemptSegment object.fresh.attempt) _ _ (numeral_avoids _ _ '-' (by decide))).mpr
    ⟨rfl, numeral_avoids _ _ '-' (by decide)⟩
  have birth : SealGeneration.tryFrom object.fresh.birthGeneration.get = .ok object.fresh.birthGeneration :=
    (SealGeneration.tryFrom_ok_iff _ _).mpr rfl
  have owner : SealGeneration.tryFrom object.fresh.attempt.ownerClaim.get = .ok object.fresh.attempt.ownerClaim :=
    (SealGeneration.tryFrom_ok_iff _ _).mpr rfl
  have fresh : FreshIdentity.new object.fresh.birthGeneration object.fresh.attempt object.fresh.ordinal = .ok object.fresh := by
    rw [FreshIdentity.new, dif_pos object.fresh.predates]
  have birthRange : object.fresh.birthGeneration.get < 2 ^ 64 := object.fresh.birthGeneration.raw.bounded
  have ownerRange : object.fresh.attempt.ownerClaim.get < 2 ^ 64 := object.fresh.attempt.ownerClaim.raw.bounded
  simp only [TableKey.fromStr, split, tableSegments, parseNamespaceHead_ok_iff.mpr rfl, nextSegment, ok_bind,
    parseStore_ok_iff.mpr rfl, twenty _ birthRange, cut, twenty _ ownerRange, twenty _ range.counter,
    parseOrdinal_ok_iff.mpr ⟨range.ordinal, rfl⟩, birth, owner, fresh, Except.mapError]
  rfl

structure KeySegment (segment : Chars) : Prop where
  characters : ∀ c ∈ segment, isKeyCharacter c = true
  solid : ∃ c ∈ segment, c ≠ '.'

theorem KeySegment.checked (segment : Chars) (characters : segment.all isKeyCharacter = true)
    (solid : (segment.any fun c => decide (c ≠ '.')) = true) : KeySegment segment where
  characters := all_eq_true.mp characters
  solid := by
    obtain ⟨c, member, other⟩ := any_eq_true.mp solid
    exact ⟨c, member, of_decide_eq_true other⟩

theorem validateKeySegments_ok {segments : List Chars} (legal : ∀ segment ∈ segments, KeySegment segment) :
    validateKeySegments segments = .ok () := by
  induction segments with
  | nil => rfl
  | cons segment rest ih =>
    obtain ⟨characters, c, member, other⟩ := legal segment mem_cons_self
    have nonempty : segment.isEmpty = false := by
      cases segment with
      | nil => cases member
      | cons _ _ => rfl
    have absolute : ¬ (segment = ".".toList ∨ segment = "..".toList) := by
      rintro (rfl | rfl)
      · have dots : (".".toList.all (· == '.')) = true := by decide
        exact other (beq_iff_eq.mp (all_eq_true.mp dots c member))
      · have dots : ("..".toList.all (· == '.')) = true := by decide
        exact other (beq_iff_eq.mp (all_eq_true.mp dots c member))
    have known : (segment.find? fun d => !isKeyCharacter d) = none := by
      rw [find?_eq_none]
      intro d here
      simp [characters d here]
    rw [validateKeySegments, nonempty, if_neg (by simp), if_neg absolute, known]
    exact ih fun other member => legal other (mem_cons_of_mem _ member)

theorem numeral_segment (wide : 0 < width) : KeySegment (Decimal.numeral width n) where
  characters := by
    intro c member
    simp [isKeyCharacter, isDigit_numeral width n c member]
  solid := by
    have long : 0 < (Decimal.numeral width n).length := by rwa [length_numeral]
    obtain ⟨c, member⟩ := exists_mem_of_length_pos long
    refine ⟨c, member, ?_⟩
    rintro rfl
    exact numeral_avoids width n '.' (by decide) member

theorem byteLength_numeral : byteLength (Decimal.numeral width n) = width := by
  rw [byteLength_digits (isDigit_numeral width n), length_numeral]

theorem ObjectKey.tryFrom_ok_iff (raw : String) (key : ObjectKey) : ObjectKey.tryFrom raw = .ok key ↔ raw = key.text := by
  unfold ObjectKey.tryFrom
  split
  · obtain ⟨held, _⟩ := key
    simp
  · rename_i failed
    simp only [reduceCtorEq, false_iff]
    rintro rfl
    rw [key.valid] at failed
    cases failed

theorem ObjectKey.exists_of_segments {raw : String} {segments : List Chars} (spelled : raw.toList = joined '/' segments)
    (nonempty : segments ≠ []) (clean : ∀ part ∈ segments, '/' ∉ part) (legal : ∀ segment ∈ segments, KeySegment segment)
    (fits : byteLength raw.toList ≤ KEY_BYTES_MAX) : ∃ key, ObjectKey.tryFrom raw = .ok key ∧ key.text = raw := by
  have split := (splitChar_eq_iff '/' raw.toList segments nonempty clean).mpr spelled
  have some : raw.toList.isEmpty = false := by
    cases held : raw.toList with
    | cons _ _ => rfl
    | nil =>
      rw [held] at split
      obtain ⟨_, member, _⟩ := (legal [] (by simp [← split, splitChar])).solid
      cases member
  have valid : validateObjectKey raw = .ok () := by
    rw [validateObjectKey, some, if_neg (by simp), if_neg (Nat.not_lt.mpr fits), split]
    exact validateKeySegments_ok legal
  exact ⟨⟨raw, valid⟩, (ObjectKey.tryFrom_ok_iff _ _).mpr rfl, rfl⟩

theorem coordinate_objectKey {raw kind : String} {ordinal : Nat} (spelled : raw.toList = joined '/' (coordinateSegments kind ordinal))
    (clean : '/' ∉ kind.toList) (legal : KeySegment kind.toList) (short : byteLength kind.toList ≤ 16) :
    ∃ key, ObjectKey.tryFrom raw = .ok key ∧ key.text = raw := by
  refine ObjectKey.exists_of_segments spelled (by simp [coordinateSegments]) (coordinateSegments_clean clean) ?_ ?_
  · intro segment member
    simp only [coordinateSegments, mem_cons, not_mem_nil, or_false] at member
    rcases member with rfl | rfl | rfl
    · exact legal
    · exact .checked _ (by decide) (by decide)
    · exact numeral_segment _ _ (by decide)
  · have version : byteLength NAMESPACE_VERSION.toList = 2 := by decide
    have slash : Char.utf8Size '/' = 1 := by decide
    simp only [spelled, coordinateSegments, joined, byteLength_append, byteLength_cons, byteLength_numeral, version, slash,
      REVERSE_ORDINAL_DIGITS, KEY_BYTES_MAX]
    omega

theorem table_objectKey (range : object.InRange) :
    ∃ key, ObjectKey.tryFrom (tableKey object) = .ok key ∧ key.text = tableKey object := by
  refine ObjectKey.exists_of_segments (tableKey_toList object range) (by simp [tableSegments]) (tableSegments_clean object) ?_ ?_
  · intro segment member
    simp only [tableSegments, mem_cons, not_mem_nil, or_false] at member
    rcases member with rfl | rfl | rfl | rfl | rfl | rfl
    · exact .checked _ (by decide) (by decide)
    · exact .checked _ (by decide) (by decide)
    · cases object.store <;> exact .checked _ (by decide) (by decide)
    · exact numeral_segment _ _ (by decide)
    · refine ⟨?_, '-', by simp [attemptSegment], by decide⟩
      intro c here
      simp only [attemptSegment, mem_append, mem_cons] at here
      rcases here with owner | rfl | counter
      · exact (numeral_segment _ _ (by decide)).characters c owner
      · decide
      · exact (numeral_segment _ _ (by decide)).characters c counter
    · exact numeral_segment _ _ (by decide)
  have first : byteLength TABLE_SEGMENT.toList = 5 := by decide
  have version : byteLength NAMESPACE_VERSION.toList = 2 := by decide
  have slash : Char.utf8Size '/' = 1 := by decide
  have dash : Char.utf8Size '-' = 1 := by decide
  have store : byteLength (storeName object.store).toList ≤ 9 := by cases object.store <;> decide
  simp only [tableKey_toList object range, tableSegments, attemptSegment, joined, byteLength_append, byteLength_cons,
    byteLength_numeral, first, version, slash, dash, GENERATION_DIGITS, TABLE_ORDINAL_DIGITS, KEY_BYTES_MAX]
  omega

theorem coordinate_lt (kind : String) (a b : Nat) (less : a < b) (range : b < 2 ^ 64) :
    joined '/' (coordinateSegments kind b) < joined '/' (coordinateSegments kind a) := by
  have numerals : Decimal.numeral REVERSE_ORDINAL_DIGITS (2 ^ 64 - 1 - b) <
      Decimal.numeral REVERSE_ORDINAL_DIGITS (2 ^ 64 - 1 - a) := by
    refine numeral_lt (by omega) ?_
    simp only [REVERSE_ORDINAL_DIGITS]
    omega
  exact append_left_lt (cons_lt_cons_iff.mpr (Or.inr ⟨rfl,
    append_left_lt (cons_lt_cons_iff.mpr (Or.inr ⟨rfl, numerals⟩))⟩))

theorem sealKey_lt (a b : SealGeneration) (less : a < b) : sealKey b < sealKey a := by
  have order := coordinate_lt SEAL_SEGMENT a.get b.get less b.raw.bounded
  rw [← sealKey_toList, ← sealKey_toList] at order
  exact order

theorem walKey_lt (a b : BatchId) (less : a < b) : walKey b < walKey a := by
  have order := coordinate_lt WAL_SEGMENT a.get b.get less b.raw.bounded
  rw [← walKey_toList, ← walKey_toList] at order
  exact order

theorem ObjectKey.text_injective (a b : ObjectKey) (same : a.text = b.text) : a = b := by
  cases a
  cases same
  rfl

theorem seal_legal : ∃ key, ObjectKey.tryFrom (sealKey generation) = .ok key ∧ key.text = sealKey generation :=
  coordinate_objectKey (sealKey_toList generation) (by decide) (.checked _ (by decide) (by decide)) (by decide)

theorem wal_legal : ∃ key, ObjectKey.tryFrom (walKey batch) = .ok key ∧ key.text = walKey batch :=
  coordinate_objectKey (walKey_toList batch) (by decide) (.checked _ (by decide) (by decide)) (by decide)

theorem sealKey_head : (sealKey generation).toList.head? = some 's' := by
  rw [sealKey_toList]
  rfl

theorem walKey_head : (walKey batch).toList.head? = some 'w' := by
  rw [walKey_toList]
  rfl

theorem tableKey_head (range : object.InRange) : (tableKey object).toList.head? = some 't' := by
  rw [tableKey_toList object range]
  rfl

theorem walKey_injective {a b : BatchId} (same : walKey a = walKey b) : a = b := by
  have parsed := (WalKey.fromStr_ok_iff (walKey a) a).mpr rfl
  rw [same, (WalKey.fromStr_ok_iff (walKey b) b).mpr rfl] at parsed
  cases parsed
  rfl

end StromDB
