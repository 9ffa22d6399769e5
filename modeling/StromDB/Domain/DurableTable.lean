import StromDB.Domain.Durable
import StromDB.Domain.Sst

namespace StromDB

open Archive Checked Text

namespace Durable

structure ArchivedSst (Row : Type) where
  partition : ArchivedPartitionId
  fresh : ArchivedFreshIdentity
  rows : List Row
deriving DecidableEq, Countable

structure ArchivedStreamRecord where
  contentType : String
  expiry : ArchivedExpiry
  lifecycle : StreamLifecycle
  createdAt : BatchId
deriving DecidableEq, Countable

inductive ArchivedLedgerCell where
  | value (record : ArchivedStreamRecord)
  | delete
deriving DecidableEq, Countable

def ArchivedLedgerCell.isValue : ArchivedLedgerCell → Bool
  | .value _ => true
  | .delete => false

variable [Rkyv]

def archivedRecord (record : StreamRecord) : ArchivedStreamRecord :=
  ⟨record.contentType.asStr, record.expiry.archived, record.lifecycle, record.createdAt⟩

def archivedCell : LedgerCell → ArchivedLedgerCell
  | .value record => .value (archivedRecord record)
  | .delete => .delete

def decodeRecord (archived : ArchivedStreamRecord) : Except DecodeError StreamRecord := do
  let contentType ← decodeContentType archived.contentType
  let expiry ← ExpiryPolicy.tryFrom archived.expiry
  .ok ⟨contentType, expiry, archived.lifecycle, archived.createdAt⟩

def decodeCell : ArchivedLedgerCell → Except DecodeError LedgerCell
  | .value record => do
    let record ← decodeRecord record
    .ok (.value record)
  | .delete => .ok .delete

theorem decodeRecord_exact : Exact archivedRecord decodeRecord := by
  rintro ⟨contentType, expiry, lifecycle, createdAt⟩ record
  simp only [decodeRecord, bind_ok_iff, decodeContentType_exact contentType, ExpiryPolicy.tryFrom_exact expiry, Except.ok.injEq]
  constructor
  · rintro ⟨_, rfl, _, rfl, rfl⟩
    rfl
  · intro same
    cases same
    exact ⟨_, rfl, _, rfl, rfl⟩

theorem decodeCell_exact : Exact archivedCell decodeCell := by
  intro archived cell
  cases archived with
  | value record =>
    simp only [decodeCell, bind_ok_iff, decodeRecord_exact record, Except.ok.injEq]
    constructor
    · rintro ⟨_, rfl, rfl⟩
      rfl
    · intro same
      cases cell <;> cases same
      exact ⟨_, rfl, rfl⟩
  | delete => cases cell <;> simp [decodeCell, archivedCell]

def archivedDirectoryRow (row : StreamPath × DirectoryEntry) : String × DirectoryEntry := (row.1.text, row.2)

def archivedLedgerRow (row : StreamUid × LedgerCell) : StreamUid × ArchivedLedgerCell := (row.1, archivedCell row.2)

def decodeDirectoryRows : Option String → Nat → List (String × DirectoryEntry) →
    Except SstDecodeError (List (StreamPath × DirectoryEntry))
  | _, _, [] => .ok []
  | previous, residentBytes, (path, entry) :: rest =>
    if path.toList = [] ∨ byteLength path.toList > STREAM_PATH_BYTES_MAX then .error .invalidBody
    else if previous.any fun previousKey => compare previousKey path ≠ .lt then .error .invalidBody
    else if residentBytes + DIRECTORY_ROW_LOGICAL_BYTES_MAX > PARTITION_RESIDENT_LOGICAL_BYTES_MAX_V2 then .error .resourceBound
    else do
      let key ← (StreamPath.fromStr path).mapError fun _ => .invalidBody
      let rows ← decodeDirectoryRows (some path) (residentBytes + DIRECTORY_ROW_LOGICAL_BYTES_MAX) rest
      .ok ((key, entry) :: rows)

def archivedCellBytes (cell : ArchivedLedgerCell) : Nat :=
  if cell.isValue then LEDGER_VALUE_ROW_LOGICAL_BYTES_MAX else LEDGER_DELETE_ROW_LOGICAL_BYTES

def decodeLedgerRows : Option StreamUid → Nat → List (StreamUid × ArchivedLedgerCell) →
    Except SstDecodeError (List (StreamUid × LedgerCell))
  | _, _, [] => .ok []
  | previous, residentBytes, (uid, cell) :: rest =>
    if previous.any fun previousUid => compare previousUid uid ≠ .lt then .error .invalidBody
    else if residentBytes + archivedCellBytes cell > PARTITION_RESIDENT_LOGICAL_BYTES_MAX_V2 then .error .resourceBound
    else do
      let decoded ← (decodeCell cell).mapError fun _ => .invalidBody
      let rows ← decodeLedgerRows (some uid) (residentBytes + archivedCellBytes cell) rest
      .ok ((uid, decoded) :: rows)

omit [Rkyv] in
theorem StreamPath.text_nonempty (path : StreamPath) : path.text.toList ≠ [] := by
  intro empty
  have valid := path.valid
  have bad : validateSegments 0 (splitChar '/' []) = .error .emptySegment := by decide
  simp only [validateStreamPath, empty, bad] at valid
  split at valid
  · cases valid
  · split at valid <;> cases valid

omit [Rkyv] in
theorem decodeDirectoryRows_archived (rows : List (StreamPath × DirectoryEntry)) :
    ∀ (previous : Option StreamPath) (residentBytes : Nat),
    decodeDirectoryRows (previous.map StreamPath.text) residentBytes (rows.map archivedDirectoryRow) =
      (checkDecodedRows directoryRowResidentBytes previous residentBytes rows).map fun _ => rows := by
  induction rows with
  | nil => exact fun _ _ => rfl
  | cons row rest ih =>
    obtain ⟨path, entry⟩ := row
    intro previous residentBytes
    have shape : ¬ (path.text.toList = [] ∨ byteLength path.text.toList > STREAM_PATH_BYTES_MAX) :=
      not_or.mpr ⟨StreamPath.text_nonempty path, Nat.not_lt.mpr path.bytesLen_le⟩
    have order : ((previous.map StreamPath.text).any fun previousKey => compare previousKey path.text ≠ .lt) =
        previous.any fun previousKey => compare previousKey path ≠ .lt := by
      cases previous <;> rfl
    have parsed : StreamPath.fromStr path.text = .ok path := StreamPath.fromStr_ok_iff.mpr rfl
    have later := ih (some path) (residentBytes + DIRECTORY_ROW_LOGICAL_BYTES_MAX)
    simp only [Option.map_some] at later
    rw [List.map_cons, archivedDirectoryRow, decodeDirectoryRows, if_neg shape, order, checkDecodedRows, directoryRowResidentBytes]
    split
    · rfl
    by_cases charged : residentBytes + DIRECTORY_ROW_LOGICAL_BYTES_MAX > PARTITION_RESIDENT_LOGICAL_BYTES_MAX_V2
    · rw [if_pos charged, if_pos charged]
      rfl
    · rw [if_neg charged, if_neg charged, parsed, later]
      cases checkDecodedRows directoryRowResidentBytes (some path) (residentBytes + DIRECTORY_ROW_LOGICAL_BYTES_MAX) rest <;> rfl

omit [Rkyv] in
theorem decodeDirectoryRows_ok_iff (archived : List (String × DirectoryEntry)) : ∀ (previous : Option StreamPath) (residentBytes : Nat)
    (rows : List (StreamPath × DirectoryEntry)),
    decodeDirectoryRows (previous.map StreamPath.text) residentBytes archived = .ok rows ↔
      archived = rows.map archivedDirectoryRow ∧ checkDecodedRows directoryRowResidentBytes previous residentBytes rows = .ok () := by
  induction archived with
  | nil =>
    intro previous residentBytes rows
    cases rows <;> simp [decodeDirectoryRows, checkDecodedRows]
  | cons row rest ih =>
    obtain ⟨text, entry⟩ := row
    intro previous residentBytes rows
    have order : ∀ path : StreamPath, ((previous.map StreamPath.text).any fun previousKey => compare previousKey path.text ≠ .lt) =
        previous.any fun previousKey => compare previousKey path ≠ .lt := by
      intro path
      cases previous <;> rfl
    constructor
    · intro decoded
      unfold decodeDirectoryRows at decoded
      split at decoded
      · cases decoded
      split at decoded
      · cases decoded
      rename_i above
      split at decoded
      · cases decoded
      rename_i charged
      simp only [bind_ok_iff, mapError_ok_iff, StreamPath.fromStr_ok_iff, Except.ok.injEq] at decoded
      obtain ⟨path, rfl, tail, later, rfl⟩ := decoded
      obtain ⟨same, checked⟩ := (ih (some path) _ tail).mp later
      refine ⟨by rw [same, List.map_cons]; rfl, ?_⟩
      rw [order path] at above
      rw [checkDecodedRows, if_neg above]
      exact (if_neg charged).trans checked
    · rintro ⟨same, checked⟩
      rw [same, decodeDirectoryRows_archived, checked]
      rfl

theorem archivedCellBytes_archived (cell : LedgerCell) : archivedCellBytes (archivedCell cell) = ledgerRowResidentBytes cell := by
  cases cell <;> rfl

theorem decodeLedgerRows_archived (rows : List (StreamUid × LedgerCell)) : ∀ (previous : Option StreamUid) (residentBytes : Nat),
    decodeLedgerRows previous residentBytes (rows.map archivedLedgerRow) =
      (checkDecodedRows ledgerRowResidentBytes previous residentBytes rows).map fun _ => rows := by
  induction rows with
  | nil => exact fun _ _ => rfl
  | cons row rest ih =>
    obtain ⟨uid, cell⟩ := row
    intro previous residentBytes
    simp only [List.map_cons, archivedLedgerRow, decodeLedgerRows, archivedCellBytes_archived, checkDecodedRows,
      decodeCell_exact.roundtrip, Except.mapError, ok_bind, ih]
    split
    · rfl
    split
    · rfl
    cases checkDecodedRows ledgerRowResidentBytes (some uid) (residentBytes + ledgerRowResidentBytes cell) rest <;> rfl

theorem decodeLedgerRows_ok_iff (archived : List (StreamUid × ArchivedLedgerCell)) :
    ∀ (previous : Option StreamUid) (residentBytes : Nat)
    (rows : List (StreamUid × LedgerCell)), decodeLedgerRows previous residentBytes archived = .ok rows ↔
      archived = rows.map archivedLedgerRow ∧ checkDecodedRows ledgerRowResidentBytes previous residentBytes rows = .ok () := by
  induction archived with
  | nil =>
    intro previous residentBytes rows
    cases rows <;> simp [decodeLedgerRows, checkDecodedRows]
  | cons row rest ih =>
    obtain ⟨uid, cell⟩ := row
    intro previous residentBytes rows
    constructor
    · intro decoded
      unfold decodeLedgerRows at decoded
      split at decoded
      · cases decoded
      rename_i above
      split at decoded
      · cases decoded
      rename_i charged
      simp only [bind_ok_iff, mapError_ok_iff, decodeCell_exact cell, Except.ok.injEq] at decoded
      obtain ⟨decodedCell, rfl, tail, later, rfl⟩ := decoded
      rw [archivedCellBytes_archived] at charged later
      obtain ⟨same, checked⟩ := (ih (some uid) _ tail).mp later
      refine ⟨by rw [same, List.map_cons]; rfl, ?_⟩
      rw [checkDecodedRows, if_neg above, if_neg charged, checked]
    · rintro ⟨same, checked⟩
      rw [same, decodeLedgerRows_archived, checked]
      rfl

def SstEncodeError.ofEncode : EncodeError → SstEncodeError
  | .serialization => .serialization
  | .encodedBytesOverMax _ => .encodedBytesOverMax

def checkDecodeBound (bytes : Bytes) : Except SstDecodeError Unit :=
  (decodeBound bytes SST_OBJECT_BYTES_MAX).mapError fun error => .encodedBytesOverMax error.bytesActual

section

variable {K V Row : Type} [Ord K] (archiver : Archiver (ArchivedSst Row)) (store : StoreKind) (archive : K × V → Row)

def archivedSst (partition : PartitionId) (fresh : FreshIdentity) (rows : List (K × V)) : ArchivedSst Row :=
  ⟨partition.archived, fresh.archived, rows.map archive⟩

def encodeSst (rowArchivedBytes : Nat) (room : Bytes → Bytes → Bool) (partition : PartitionId) (expected : TableObjectId)
    (rows : List (K × V)) : Except SstEncodeError Bytes :=
  if expected.store ≠ store then .error .storeMismatch
  else do
    checkEncodeRows rowArchivedBytes rows
    (encode archiver room (archivedSst archive partition expected.fresh rows) SST_OBJECT_BYTES_MAX).mapError SstEncodeError.ofEncode

def decodeSst (decodeRows : List Row → Except SstDecodeError (List (K × V))) (expectedPartition : PartitionId)
    (expected : TableObjectId) (bytes : Bytes) : Except SstDecodeError (List (K × V)) := do
  checkDecodeBound bytes
  if expected.store ≠ store then .error .storeMismatch
  else
    match archiver.access bytes with
    | none => .error .malformedArchive
    | some root => do
      let partition ← (PartitionId.tryFrom root.partition).mapError fun _ => .invalidBody
      let fresh ← (FreshIdentity.tryFrom root.fresh).mapError fun _ => .invalidBody
      if partition ≠ expectedPartition ∨ fresh ≠ expected.fresh then .error .identityMismatch
      else if root.rows.isEmpty then .error .invalidBody
      else if root.rows.length > PARTITION_PATH_OCCUPANCIES_MAX_V2 then .error .resourceBound
      else decodeRows root.rows

variable (rowBytes : V → Nat) (decodeRows : List Row → Except SstDecodeError (List (K × V)))
    (loop : ∀ archived rows, decodeRows archived = .ok rows ↔
      archived = rows.map archive ∧ checkDecodedRows rowBytes none 0 rows = .ok ())

include loop

omit [Rkyv] in
theorem decodeSst_ok_iff (expectedPartition : PartitionId) (expected : TableObjectId) (bytes : Bytes) (rows : List (K × V)) :
    decodeSst archiver store decodeRows expectedPartition expected bytes = .ok rows ↔ bytes.length ≤ SST_OBJECT_BYTES_MAX ∧
      expected.store = store ∧ archiver.access bytes = some (archivedSst archive expectedPartition expected.fresh rows) ∧ rows ≠ [] ∧
      rows.length ≤ PARTITION_PATH_OCCUPANCIES_MAX_V2 ∧ checkDecodedRows rowBytes none 0 rows = .ok () := by
  simp only [decodeSst, checkDecodeBound, bind_ok_iff, mapError_ok_iff, decodeBound_ok_iff]
  constructor
  · rintro ⟨_, fits, decoded⟩
    split at decoded
    · cases decoded
    rename_i sameStore
    split at decoded
    · cases decoded
    rename_i root found
    simp only [bind_ok_iff, mapError_ok_iff] at decoded
    obtain ⟨partition, first, fresh, second, decoded⟩ := decoded
    rw [PartitionId.tryFrom_exact] at first
    rw [FreshIdentity.tryFrom_exact] at second
    split at decoded
    · cases decoded
    rename_i here
    simp only [not_or, not_not] at here
    obtain ⟨rfl, rfl⟩ := here
    split at decoded
    · cases decoded
    rename_i nonempty
    split at decoded
    · cases decoded
    rename_i bounded
    obtain ⟨same, checked⟩ := (loop _ _).mp decoded
    refine ⟨fits, not_not.mp sameStore, ?_, ?_, ?_, checked⟩
    · rw [found, archivedSst, ← first, ← second, ← same]
    · rintro rfl
      simp [same] at nonempty
    · rw [same, List.length_map] at bounded
      omega
  rintro ⟨fits, rfl, found, nonempty, bounded, checked⟩
  refine ⟨(), fits, ?_⟩
  have done := (loop _ rows).mpr ⟨rfl, checked⟩
  have some : (rows.map archive).isEmpty = false := by simpa using nonempty
  have short : ¬ (rows.map archive).length > PARTITION_PATH_OCCUPANCIES_MAX_V2 := by
    rw [List.length_map]
    omega
  simp only [found, archivedSst, PartitionId.tryFrom_exact.roundtrip, FreshIdentity.tryFrom_exact.roundtrip, Except.mapError,
    ok_bind, ne_eq, not_true_eq_false, or_self, if_false, some, Bool.false_eq_true, if_neg short, done]

omit [Rkyv] in
theorem decodeSst_encoded (rowBound : ∀ value, rowBytes value ≤ LEDGER_VALUE_ROW_LOGICAL_BYTES_MAX) (rowArchivedBytes : Nat)
    (room : Bytes → Bytes → Bool) (partition : PartitionId) (key : TableObjectId) (rows : List (K × V)) (bytes : Bytes)
    (encoded : encodeSst archiver store archive rowArchivedBytes room partition key rows = .ok bytes) :
    decodeSst archiver store decodeRows partition key bytes = .ok rows := by
  unfold encodeSst at encoded
  split at encoded
  · cases encoded
  rename_i sameStore
  simp only [bind_ok_iff, mapError_ok_iff, checkEncodeRows_ok_iff] at encoded
  obtain ⟨_, ⟨nonempty, bounded, _, ordered⟩, written⟩ := encoded
  obtain ⟨rfl, fits⟩ := encode_ok written
  have checked := checkDecodedRows_bounded rowBound rows bounded ordered
  exact (decodeSst_ok_iff archiver store archive rowBytes decodeRows loop _ _ _ _).mpr
    ⟨fits, not_not.mp sameStore, archiver.accessed _, nonempty, bounded, checked⟩

omit [Rkyv] in
theorem decodeSst_elsewhere (rowArchivedBytes : Nat) (room : Bytes → Bytes → Bool) (partition other : PartitionId)
    (key expected : TableObjectId) (rows : List (K × V)) (bytes : Bytes)
    (encoded : encodeSst archiver store archive rowArchivedBytes room partition key rows = .ok bytes)
    (elsewhere : other ≠ partition ∨ expected.fresh ≠ key.fresh) :
    ∃ error, decodeSst archiver store decodeRows other expected bytes = .error error := by
  cases decoded : decodeSst archiver store decodeRows other expected bytes with
  | error error => exact ⟨error, rfl⟩
  | ok found =>
    obtain ⟨_, _, root, _⟩ := (decodeSst_ok_iff archiver store archive rowBytes decodeRows loop _ _ _ _).mp decoded
    unfold encodeSst at encoded
    split at encoded
    · cases encoded
    simp only [bind_ok_iff, mapError_ok_iff] at encoded
    obtain ⟨_, _, written⟩ := encoded
    obtain ⟨rfl, _⟩ := encode_ok written
    rw [archiver.output_accessed] at root
    simp only [archivedSst, Option.some.injEq, ArchivedSst.mk.injEq] at root
    have samePartition := PartitionId.tryFrom_exact.injective _ _ _ _ root.1
    have sameFresh := FreshIdentity.tryFrom_exact.injective _ _ _ _ root.2.1
    rcases elsewhere with differs | differs
    · exact absurd samePartition.symm differs
    · exact absurd sameFresh.symm differs

omit [Rkyv] in
theorem decodeSst_ordered (expectedPartition : PartitionId) (expected : TableObjectId) (bytes : Bytes) (rows : List (K × V))
    (decoded : decodeSst archiver store decodeRows expectedPartition expected bytes = .ok rows) :
    rows ≠ [] ∧ strictlyOrdered rows = true := by
  obtain ⟨_, _, _, nonempty, _, checked⟩ := (decodeSst_ok_iff archiver store archive rowBytes decodeRows loop _ _ _ _).mp decoded
  exact ⟨nonempty, (checkDecodedRows_ordered none 0 checked).1⟩

end

section

variable {K V Row : Type} [Ord K] (archiver : Archiver (ArchivedSst Row)) (store : StoreKind) (archive : K × V → Row)
    (root : List (K × V) → DecodedTable)

theorem encodeSst_output (rowArchivedBytes : Nat) (partition : PartitionId) (key : TableObjectId) (rows : List (K × V))
    (sized : (archiver.output (archivedSst archive partition key.fresh rows)).length = tableLength ⟨partition, key.fresh, root rows⟩) :
    encodeSst archiver store archive rowArchivedBytes (fun _ _ => true) partition key rows =
      (StromDB.encodeSst store rowArchivedBytes root partition key rows).map
        fun _ => archiver.output (archivedSst archive partition key.fresh rows) := by
  unfold encodeSst StromDB.encodeSst
  split
  · rfl
  cases checkEncodeRows rowArchivedBytes rows with
  | error error => rfl
  | ok _ =>
    simp only [ok_bind]
    split
    case isTrue bounded =>
      rw [encode_room (by omega)]
      rfl
    case isFalse exceeds =>
      rw [encode_over (by omega)]
      rfl

theorem decodeSst_output (rowBytes : V → Nat) (decode : List Row → Except SstDecodeError (List (K × V)))
    (loop : ∀ rows, decode (rows.map archive) = (checkDecodedRows rowBytes none 0 rows).map fun _ => rows) (partition : PartitionId)
    (fresh : FreshIdentity) (rows : List (K × V)) (expectedPartition : PartitionId) (expected : TableObjectId)
    (sized : (archiver.output (archivedSst archive partition fresh rows)).length = tableLength ⟨partition, fresh, root rows⟩) :
    decodeSst archiver store decode expectedPartition expected (archiver.output (archivedSst archive partition fresh rows)) =
      if tableLength ⟨partition, fresh, root rows⟩ > SST_OBJECT_BYTES_MAX then
        .error (.encodedBytesOverMax (tableLength ⟨partition, fresh, root rows⟩))
      else if expected.store ≠ store then .error .storeMismatch
      else StromDB.decodeRows rowBytes expectedPartition expected ⟨partition, fresh, root rows⟩ rows := by
  rw [← sized]
  split
  case isTrue exceeds => simp [decodeSst, checkDecodeBound, decodeBound, if_pos exceeds, Except.mapError]
  case isFalse fits =>
    have bound : checkDecodeBound (archiver.output (archivedSst archive partition fresh rows)) = .ok () := by
      simp [checkDecodeBound, decodeBound, if_neg fits, Except.mapError]
    have empty : (rows.map archive).isEmpty = true ↔ rows = [] := by simp
    rw [decodeSst, bound, ok_bind, archiver.output_accessed]
    simp only [archivedSst, PartitionId.tryFrom_exact.roundtrip, FreshIdentity.tryFrom_exact.roundtrip, Except.mapError, ok_bind, empty,
      List.length_map, loop, StromDB.decodeRows]
    cases checkDecodedRows rowBytes none 0 rows <;> rfl

end

def encodeDirectorySst (archiver : Archiver (ArchivedSst (String × DirectoryEntry))) (room : Bytes → Bytes → Bool)
    (partition : PartitionId) (expected : TableObjectId) (rows : List (StreamPath × DirectoryEntry)) : Except SstEncodeError Bytes :=
  encodeSst archiver .directory archivedDirectoryRow Rkyv.directoryRowSize room partition expected rows

def decodeDirectorySst (archiver : Archiver (ArchivedSst (String × DirectoryEntry))) (expectedPartition : PartitionId)
    (expected : TableObjectId) (bytes : Bytes) : Except SstDecodeError (List (StreamPath × DirectoryEntry)) :=
  decodeSst archiver .directory (decodeDirectoryRows none 0) expectedPartition expected bytes

def encodeLedgerSst (archiver : Archiver (ArchivedSst (StreamUid × ArchivedLedgerCell))) (room : Bytes → Bytes → Bool)
    (partition : PartitionId) (expected : TableObjectId) (rows : List (StreamUid × LedgerCell)) : Except SstEncodeError Bytes :=
  encodeSst archiver .ledger archivedLedgerRow Rkyv.ledgerRowSize room partition expected rows

def decodeLedgerSst (archiver : Archiver (ArchivedSst (StreamUid × ArchivedLedgerCell))) (expectedPartition : PartitionId)
    (expected : TableObjectId) (bytes : Bytes) : Except SstDecodeError (List (StreamUid × LedgerCell)) :=
  decodeSst archiver .ledger (decodeLedgerRows none 0) expectedPartition expected bytes

end Durable

end StromDB
