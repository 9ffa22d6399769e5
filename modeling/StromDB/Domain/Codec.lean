import StromDB.Domain.Seal

namespace StromDB

section

variable [Jiff]

inductive DecodedTable where
  | directory (rows : List (StreamPath × DirectoryEntry))
  | ledger (rows : List (StreamUid × LedgerCell))
deriving DecidableEq

structure SstObject where
  partition : PartitionId
  fresh : FreshIdentity
  rows : DecodedTable
deriving DecidableEq

def DecodedTable.estimatedEncodedBytes : DecodedTable → Nat
  | .directory rows => rows.length * DIRECTORY_ROW_ENCODED_BYTES_MAX
  | .ledger rows =>
    (rows.map fun row =>
      match row.2 with
      | .value _ => LEDGER_VALUE_ROW_ENCODED_BYTES_MAX
      | .delete => LEDGER_DELETE_ROW_ENCODED_BYTES_MAX).sum

end

-- Durable bytes are modelled by the value they archive: decoding undoes
-- encoding, and equal bytes are equal values. What is left of rkyv is the length
-- of an archive, and the laws are the estimates that the code plans with.
class Rkyv extends Jiff where
  walLength : WalObject → Nat
  sealLength : Seal → Nat
  tableLength : SstObject → Nat
  directoryRowSize : Nat
  ledgerRowSize : Nat
  walLength_le : ∀ object : WalObject, walLength object ≤
    WAL_RUN_FIXED_ENCODED_BYTES_MAX + (object.facts.map OperationFact.estimatedEncodedBytes).sum
  sealLength_le : ∀ sealed : Seal, sealed.tables.length ≤ PARTITION_BOOTSTRAP_OBJECTS_MAX_V2 →
    sealLength sealed ≤ SEAL_ENCODED_BYTES_MAX
  tableLength_positive : ∀ object, 0 < tableLength object
  tableLength_le : ∀ object : SstObject, tableLength object ≤ SST_ARCHIVE_FIXED_BYTES_MAX + object.rows.estimatedEncodedBytes
  directoryRowSize_le : directoryRowSize ≤ DIRECTORY_ROW_ENCODED_BYTES_MAX
  ledgerRowSize_le : ledgerRowSize ≤ LEDGER_DELETE_ROW_ENCODED_BYTES_MAX

export Rkyv (walLength sealLength tableLength walLength_le sealLength_le tableLength_positive tableLength_le)

inductive EncodeError where
  | serialization
  | encodedBytesOverMax (bytesMax : Nat)
deriving DecidableEq, Repr

def EncodeError.toText : EncodeError → String
  | .serialization => "domain value could not be archived"
  | .encodedBytesOverMax bytesMax => "encoded value exceeds the " ++ toString bytesMax ++ "-byte bound"

inductive DecodeError where
  | encodedBytesOverMax (bytesMax bytesActual : Nat)
  | malformedArchive
  | invalidBody
  | identityMismatch
deriving DecidableEq, Repr

def DecodeError.toText : DecodeError → String
  | .encodedBytesOverMax bytesMax bytesActual =>
    "encoded value is " ++ toString bytesActual ++ " bytes; the bound is " ++ toString bytesMax
  | .malformedArchive => "archive is structurally malformed"
  | .invalidBody => "archive violates a domain invariant"
  | .identityMismatch => "body identity differs from the durable location"

variable [Rkyv]

structure EncodedWal where
  object : WalObject
  bounded : walLength object ≤ WAL_ENCODED_BYTES_MAX
deriving DecidableEq

def EncodedWal.new (object : WalObject) : Except EncodeError EncodedWal :=
  if bounded : walLength object ≤ WAL_ENCODED_BYTES_MAX then .ok ⟨object, bounded⟩
  else .error (.encodedBytesOverMax WAL_ENCODED_BYTES_MAX)

def decodeWal (expectedPartition : PartitionId) (expectedBatch : BatchId) (object : WalObject) : Except DecodeError WalObject :=
  if walLength object > WAL_ENCODED_BYTES_MAX then .error (.encodedBytesOverMax WAL_ENCODED_BYTES_MAX (walLength object))
  else if object.partition ≠ expectedPartition ∨ object.batch ≠ expectedBatch then .error .identityMismatch
  else .ok object

inductive SealCandidateError where
  | notGenesis
  | notAuthority
  | encode (error : EncodeError)
deriving DecidableEq, Repr

def SealCandidateError.toText : SealCandidateError → String
  | .notGenesis => "a genesis candidate must name the genesis generation"
  | .notAuthority => "an authority candidate must advance beyond the genesis generation"
  | .encode error => error.toText

structure EncodedGenesisSeal where
  sealed : Seal
  first : sealed.generation = SealGeneration.genesis
  bounded : sealLength sealed ≤ SEAL_ENCODED_BYTES_MAX
deriving DecidableEq, Repr

structure EncodedAuthoritySeal where
  sealed : Seal
  advanced : sealed.generation ≠ SealGeneration.genesis
  bounded : sealLength sealed ≤ SEAL_ENCODED_BYTES_MAX
deriving DecidableEq, Repr

def EncodedGenesisSeal.tryFrom (sealed : Seal) : Except SealCandidateError EncodedGenesisSeal :=
  if first : sealed.generation = SealGeneration.genesis then
    if bounded : sealLength sealed ≤ SEAL_ENCODED_BYTES_MAX then .ok ⟨sealed, first, bounded⟩
    else .error (.encode (.encodedBytesOverMax SEAL_ENCODED_BYTES_MAX))
  else .error .notGenesis

def EncodedAuthoritySeal.tryFrom (sealed : Seal) : Except SealCandidateError EncodedAuthoritySeal :=
  if first : sealed.generation = SealGeneration.genesis then .error .notAuthority
  else if bounded : sealLength sealed ≤ SEAL_ENCODED_BYTES_MAX then .ok ⟨sealed, first, bounded⟩
  else .error (.encode (.encodedBytesOverMax SEAL_ENCODED_BYTES_MAX))

def decodeSeal (expectedGeneration : SealGeneration) (sealed : Seal) : Except DecodeError Seal :=
  if sealLength sealed > SEAL_ENCODED_BYTES_MAX then .error (.encodedBytesOverMax SEAL_ENCODED_BYTES_MAX (sealLength sealed))
  else if sealed.generation ≠ expectedGeneration then .error .identityMismatch
  else
    match Seal.new sealed.partition sealed.generation sealed.replay sealed.directory sealed.ledger with
    | .ok decoded => .ok decoded
    | .error _ => .error .invalidBody

theorem EncodedWal.new_ok_iff {object : WalObject} {result : EncodedWal} :
    EncodedWal.new object = .ok result ↔ result.object = object := by
  obtain ⟨held, bounded⟩ := result
  unfold EncodedWal.new
  split
  case isTrue => simp [eq_comm]
  case isFalse exceeds =>
    simp only [reduceCtorEq, false_iff]
    rintro rfl
    exact exceeds bounded

theorem decodeWal_ok {partition : PartitionId} {batch : BatchId} {object : WalObject}
    (bounded : walLength object ≤ WAL_ENCODED_BYTES_MAX) (samePartition : object.partition = partition)
    (sameBatch : object.batch = batch) : decodeWal partition batch object = .ok object := by
  rw [decodeWal, if_neg (Nat.not_lt.mpr bounded), if_neg (by simp [samePartition, sameBatch])]

theorem EncodedAuthoritySeal.tryFrom_ok_iff (sealed : Seal) (result : EncodedAuthoritySeal) :
    EncodedAuthoritySeal.tryFrom sealed = .ok result ↔ result.sealed = sealed := by
  obtain ⟨held, advanced, bounded⟩ := result
  unfold EncodedAuthoritySeal.tryFrom
  split
  case isTrue first =>
    simp only [reduceCtorEq, false_iff]
    rintro rfl
    exact advanced first
  case isFalse =>
    split
    case isTrue => simp [eq_comm]
    case isFalse exceeds =>
      simp only [reduceCtorEq, false_iff]
      rintro rfl
      exact exceeds bounded

theorem decodeSeal_ok {generation : SealGeneration} {sealed : Seal} (legal : sealed.Legal)
    (bounded : sealLength sealed ≤ SEAL_ENCODED_BYTES_MAX) (same : sealed.generation = generation) :
    decodeSeal generation sealed = .ok sealed := by
  rw [decodeSeal, if_neg (Nat.not_lt.mpr bounded), if_neg (by simp [same])]
  have built := (Seal.new_ok_iff sealed.partition sealed.generation sealed.replay sealed.directory sealed.ledger sealed).mpr
    ⟨rfl, legal⟩
  rw [built]

end StromDB
