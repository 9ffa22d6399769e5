import StromDB.Domain.Codec

namespace StromDB

variable [Rkyv]

inductive SstEncodeError where
  | storeMismatch
  | emptyTable
  | rowsNotStrictlyOrdered
  | serialization
  | encodedBytesOverMax
  | resourceBound
deriving DecidableEq, Repr

inductive SstDecodeError where
  | encodedBytesOverMax (bytesActual : Nat)
  | malformedArchive
  | invalidBody
  | identityMismatch
  | storeMismatch
  | resourceBound
deriving DecidableEq, Repr

def SstDecodeError.toText : SstDecodeError → String
  | .encodedBytesOverMax bytesActual => "SST is " ++ toString bytesActual ++ " bytes; the bound is 134217728"
  | .malformedArchive => "SST archive is structurally malformed"
  | .invalidBody => "SST body violates a domain invariant"
  | .identityMismatch => "SST body identity differs from the durable table key"
  | .storeMismatch => "table key names the wrong store for this SST root"
  | .resourceBound => "SST exceeds a decoded resource bound"

structure EncodedTable where
  key : TableObjectId
  table : TableRef
  object : SstObject
  sameKey : table.object = key
  sameFresh : object.fresh = key.fresh
  sameLength : table.objectBytes.get = tableLength object
deriving DecidableEq

def EncodedTable.fromEncoded (key : TableObjectId) (object : SstObject) (sameFresh : object.fresh = key.fresh)
    (bounded : tableLength object ≤ SST_OBJECT_BYTES_MAX) : EncodedTable where
  key := key
  table := {
    object := key
    objectBytes := ⟨tableLength object, tableLength_positive object, by
      have limit : SST_OBJECT_BYTES_MAX < 2 ^ 64 := by decide
      omega⟩
    bounded := bounded }
  object := object
  sameKey := rfl
  sameFresh := sameFresh
  sameLength := rfl

section

variable {K V : Type} [Ord K]

def strictlyOrdered : List (K × V) → Bool
  | [] => true
  | [_] => true
  | (a, _) :: (b, value) :: rest => compare a b = .lt && strictlyOrdered ((b, value) :: rest)

def checkEncodeRows (rowArchivedBytes : Nat) (rows : List (K × V)) : Except SstEncodeError Unit :=
  if rows = [] then .error .emptyTable
  else if rows.length > PARTITION_PATH_OCCUPANCIES_MAX_V2 then .error .resourceBound
  else if rows.length * rowArchivedBytes > SST_OBJECT_BYTES_MAX then .error .encodedBytesOverMax
  else if !strictlyOrdered rows then .error .rowsNotStrictlyOrdered
  else .ok ()

def checkDecodedRows (rowBytes : V → Nat) : Option K → Nat → List (K × V) → Except SstDecodeError Unit
  | _, _, [] => .ok ()
  | previous, residentBytes, (key, value) :: rest =>
    if previous.any fun previousKey => compare previousKey key ≠ .lt then .error .invalidBody
    else if residentBytes + rowBytes value > PARTITION_RESIDENT_LOGICAL_BYTES_MAX_V2 then .error .resourceBound
    else checkDecodedRows rowBytes (some key) (residentBytes + rowBytes value) rest

def decodeRows (rowBytes : V → Nat) (expectedPartition : PartitionId) (expected : TableObjectId) (object : SstObject)
    (rows : List (K × V)) : Except SstDecodeError (List (K × V)) :=
  if object.partition ≠ expectedPartition ∨ object.fresh ≠ expected.fresh then .error .identityMismatch
  else if rows = [] then .error .invalidBody
  else if rows.length > PARTITION_PATH_OCCUPANCIES_MAX_V2 then .error .resourceBound
  else
    match checkDecodedRows rowBytes none 0 rows with
    | .ok () => .ok rows
    | .error error => .error error

end

def encodeSst {K V : Type} [Ord K] (store : StoreKind) (rowArchivedBytes : Nat)
    (root : List (K × V) → DecodedTable) (partition : PartitionId) (key : TableObjectId) (rows : List (K × V)) :
    Except SstEncodeError EncodedTable :=
  if key.store ≠ store then .error .storeMismatch
  else
    match checkEncodeRows rowArchivedBytes rows with
    | .error error => .error error
    | .ok () =>
      if bounded : tableLength ⟨partition, key.fresh, root rows⟩ ≤ SST_OBJECT_BYTES_MAX then
        .ok (EncodedTable.fromEncoded key ⟨partition, key.fresh, root rows⟩ rfl bounded)
      else .error .encodedBytesOverMax

def encodeDirectory (partition : PartitionId) (key : TableObjectId) (rows : List (StreamPath × DirectoryEntry)) :
    Except SstEncodeError EncodedTable :=
  encodeSst .directory Rkyv.directoryRowSize .directory partition key rows

def encodeLedger (partition : PartitionId) (key : TableObjectId) (rows : List (StreamUid × LedgerCell)) :
    Except SstEncodeError EncodedTable :=
  encodeSst .ledger Rkyv.ledgerRowSize .ledger partition key rows

def directoryRowResidentBytes (_ : DirectoryEntry) : Nat := DIRECTORY_ROW_LOGICAL_BYTES_MAX

def ledgerRowResidentBytes : LedgerCell → Nat
  | .value _ => LEDGER_VALUE_ROW_LOGICAL_BYTES_MAX
  | .delete => LEDGER_DELETE_ROW_LOGICAL_BYTES

omit [Rkyv] in
theorem directoryRowResidentBytes_le (entry : DirectoryEntry) :
    directoryRowResidentBytes entry ≤ LEDGER_VALUE_ROW_LOGICAL_BYTES_MAX := by
  simp [directoryRowResidentBytes, DIRECTORY_ROW_LOGICAL_BYTES_MAX, LEDGER_VALUE_ROW_LOGICAL_BYTES_MAX]

theorem ledgerRowResidentBytes_le (cell : LedgerCell) : ledgerRowResidentBytes cell ≤ LEDGER_VALUE_ROW_LOGICAL_BYTES_MAX := by
  cases cell <;> simp [ledgerRowResidentBytes, LEDGER_VALUE_ROW_LOGICAL_BYTES_MAX, LEDGER_DELETE_ROW_LOGICAL_BYTES]

-- A root of the other store does not validate as an archive of this one.
def decodeDirectorySst (expectedPartition : PartitionId) (expected : TableObjectId) (object : SstObject) :
    Except SstDecodeError (List (StreamPath × DirectoryEntry)) :=
  if tableLength object > SST_OBJECT_BYTES_MAX then .error (.encodedBytesOverMax (tableLength object))
  else if expected.store ≠ .directory then .error .storeMismatch
  else
    match object.rows with
    | .directory rows => decodeRows directoryRowResidentBytes expectedPartition expected object rows
    | .ledger _ => .error .malformedArchive

def decodeLedgerSst (expectedPartition : PartitionId) (expected : TableObjectId) (object : SstObject) :
    Except SstDecodeError (List (StreamUid × LedgerCell)) :=
  if tableLength object > SST_OBJECT_BYTES_MAX then .error (.encodedBytesOverMax (tableLength object))
  else if expected.store ≠ .ledger then .error .storeMismatch
  else
    match object.rows with
    | .ledger rows => decodeRows ledgerRowResidentBytes expectedPartition expected object rows
    | .directory _ => .error .malformedArchive

section

variable {K V : Type} [Ord K]

omit [Rkyv] in
theorem checkEncodeRows_ok_iff (rowArchivedBytes : Nat) (rows : List (K × V)) (u : Unit) :
    checkEncodeRows rowArchivedBytes rows = .ok u ↔
      rows ≠ [] ∧ rows.length ≤ PARTITION_PATH_OCCUPANCIES_MAX_V2 ∧
        rows.length * rowArchivedBytes ≤ SST_OBJECT_BYTES_MAX ∧ strictlyOrdered rows = true := by
  unfold checkEncodeRows
  split
  · simp_all
  split
  · simp only [reduceCtorEq, false_iff]
    omega
  split
  · simp only [reduceCtorEq, false_iff]
    omega
  split
  · simp_all
  · simp_all

section

variable {rowBytes : V → Nat}

omit [Rkyv] in
theorem checkDecodedRows_ok {rowMax : Nat} (rowBound : ∀ value, rowBytes value ≤ rowMax)
    (rows : List (K × V)) : ∀ (previous : Option K) (residentBytes : Nat),
    (∀ key value, previous = some key → strictlyOrdered ((key, value) :: rows) = true) →
    (previous = none → strictlyOrdered rows = true) →
    residentBytes + rows.length * rowMax ≤ PARTITION_RESIDENT_LOGICAL_BYTES_MAX_V2 →
    checkDecodedRows rowBytes previous residentBytes rows = .ok () := by
  induction rows with
  | nil =>
    intro _ _ _ _ _
    rfl
  | cons row rest ih =>
    obtain ⟨key, value⟩ := row
    intro previous residentBytes after first fits
    have charged := rowBound value
    have ordered : (previous.any fun previousKey => compare previousKey key ≠ .lt) = false := by
      cases previous with
      | none => rfl
      | some previousKey =>
        have step := after previousKey value rfl
        rw [strictlyOrdered, Bool.and_eq_true, decide_eq_true_eq] at step
        simp [step.1]
    have tail : strictlyOrdered ((key, value) :: rest) = true := by
      cases previous with
      | none => exact first rfl
      | some previousKey =>
        have step := after previousKey value rfl
        rw [strictlyOrdered, Bool.and_eq_true] at step
        exact step.2
    rw [List.length_cons, Nat.add_mul] at fits
    rw [checkDecodedRows, ordered, if_neg (by simp), if_neg (by omega)]
    refine ih (some key) (residentBytes + rowBytes value) ?_ (by simp) (by omega)
    intro nextKey nextValue same
    cases same
    cases rest with
    | nil => rfl
    | cons row rest => exact tail

omit [Rkyv] in
theorem checkDecodedRows_bounded (rowBound : ∀ value, rowBytes value ≤ LEDGER_VALUE_ROW_LOGICAL_BYTES_MAX)
    (rows : List (K × V)) (bounded : rows.length ≤ PARTITION_PATH_OCCUPANCIES_MAX_V2) (ordered : strictlyOrdered rows = true) :
    checkDecodedRows rowBytes none 0 rows = .ok () := by
  refine checkDecodedRows_ok rowBound rows none 0 (by simp) (fun _ => ordered) ?_
  simp only [PARTITION_PATH_OCCUPANCIES_MAX_V2] at bounded
  simp only [LEDGER_VALUE_ROW_LOGICAL_BYTES_MAX, PARTITION_RESIDENT_LOGICAL_BYTES_MAX_V2]
  omega

theorem decodeRows_ok (rowBound : ∀ value, rowBytes value ≤ LEDGER_VALUE_ROW_LOGICAL_BYTES_MAX)
    (partition : PartitionId) (key : TableObjectId) (object : SstObject) (rows : List (K × V))
    (samePartition : object.partition = partition) (sameFresh : object.fresh = key.fresh) (nonempty : rows ≠ [])
    (bounded : rows.length ≤ PARTITION_PATH_OCCUPANCIES_MAX_V2) (ordered : strictlyOrdered rows = true) :
    decodeRows rowBytes partition key object rows = .ok rows := by
  rw [decodeRows, if_neg (by simp [samePartition, sameFresh]), if_neg nonempty, if_neg (Nat.not_lt.mpr bounded),
    checkDecodedRows_bounded rowBound rows bounded ordered]

omit [Rkyv] in
theorem checkDecodedRows_ordered {rows : List (K × V)} : ∀ (previous : Option K) (residentBytes : Nat),
    checkDecodedRows rowBytes previous residentBytes rows = .ok () → strictlyOrdered rows = true ∧
      ∀ key first, previous = some key → rows.head? = some first → compare key first.1 = .lt := by
  induction rows with
  | nil =>
    intro _ _ _
    exact ⟨rfl, by simp⟩
  | cons row rest ih =>
    obtain ⟨key, value⟩ := row
    intro previous residentBytes checked
    unfold checkDecodedRows at checked
    split at checked
    · cases checked
    rename_i above
    split at checked
    · cases checked
    obtain ⟨ordered, next⟩ := ih (some key) _ checked
    refine ⟨?_, ?_⟩
    · cases rest with
      | nil => rfl
      | cons second rest =>
        rw [strictlyOrdered, Bool.and_eq_true, decide_eq_true_eq]
        exact ⟨next key second rfl rfl, ordered⟩
    · rintro other _ rfl ⟨⟩
      simpa using above

theorem decodeRows_ok_cases {partition : PartitionId} {key : TableObjectId} {object : SstObject}
    {rows decoded : List (K × V)} (done : decodeRows rowBytes partition key object rows = .ok decoded) :
    decoded ≠ [] ∧ strictlyOrdered decoded = true := by
  unfold decodeRows at done
  split at done
  · cases done
  split at done
  · cases done
  rename_i nonempty
  split at done
  · cases done
  split at done
  · rename_i checked
    cases done
    exact ⟨nonempty, (checkDecodedRows_ordered none 0 checked).1⟩
  · cases done

end

end

theorem encodeSst_ok_cases {K V : Type} [Ord K] {store : StoreKind} {rowArchivedBytes : Nat}
    {root : List (K × V) → DecodedTable} {partition : PartitionId} {key : TableObjectId} {rows : List (K × V)}
    {encoded : EncodedTable} (done : encodeSst store rowArchivedBytes root partition key rows = .ok encoded) :
    key.store = store ∧ encoded.key = key ∧ encoded.object = ⟨partition, key.fresh, root rows⟩ ∧ rows ≠ [] ∧
      rows.length ≤ PARTITION_PATH_OCCUPANCIES_MAX_V2 ∧ strictlyOrdered rows = true := by
  unfold encodeSst at done
  split at done
  · cases done
  rename_i sameStore
  split at done
  · cases done
  rename_i checked
  obtain ⟨nonempty, bounded, _, ordered⟩ := (checkEncodeRows_ok_iff _ _ _).mp checked
  split at done
  · cases done
    exact ⟨not_not.mp sameStore, rfl, rfl, nonempty, bounded, ordered⟩
  · cases done

theorem decodeDirectorySst_encoded {partition : PartitionId} {key : TableObjectId}
    {rows : List (StreamPath × DirectoryEntry)} {encoded : EncodedTable} (done : encodeDirectory partition key rows = .ok encoded) :
    decodeDirectorySst partition key encoded.object = .ok rows := by
  obtain ⟨store, _, object, nonempty, bounded, ordered⟩ := encodeSst_ok_cases done
  have fits := encoded.table.bounded
  rw [encoded.sameLength] at fits
  rw [decodeDirectorySst, if_neg (Nat.not_lt.mpr fits), if_neg (by simp [store]), object]
  exact decodeRows_ok directoryRowResidentBytes_le _ _ _ _ rfl rfl nonempty bounded ordered

theorem decodeLedgerSst_encoded {partition : PartitionId} {key : TableObjectId}
    {rows : List (StreamUid × LedgerCell)} {encoded : EncodedTable} (done : encodeLedger partition key rows = .ok encoded) :
    decodeLedgerSst partition key encoded.object = .ok rows := by
  obtain ⟨store, _, object, nonempty, bounded, ordered⟩ := encodeSst_ok_cases done
  have fits := encoded.table.bounded
  rw [encoded.sameLength] at fits
  rw [decodeLedgerSst, if_neg (Nat.not_lt.mpr fits), if_neg (by simp [store]), object]
  exact decodeRows_ok ledgerRowResidentBytes_le _ _ _ _ rfl rfl nonempty bounded ordered

end StromDB
