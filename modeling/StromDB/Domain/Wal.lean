import StromDB.Domain.Stream

namespace StromDB

def SEAL_ENCODED_BYTES_MAX : Nat := 1024 * 1024
def WAL_ENCODED_BYTES_MAX : Nat := 4 * 1024 * 1024
def WAL_RUN_FACTS_MAX : Nat := 4096
def WAL_RUN_FIXED_ENCODED_BYTES_MAX : Nat := 128
def WAL_FACT_ENCODED_FIXED_BYTES_MAX : Nat := 128
def WRITER_PENDING_COMMANDS_MAX : Nat := 4096
def TREE_RUNS_MAX : Nat := 16
def RUN_TABLES_MAX : Nat := 4096
def SST_OBJECT_BYTES_MAX : Nat := 128 * 1024 * 1024
def SST_TABLE_TARGET_BYTES : Nat := 64 * 1024 * 1024
def SST_ARCHIVE_FIXED_BYTES_MAX : Nat := 256
def DIRECTORY_ROW_ENCODED_BYTES_MAX : Nat := 1024
def LEDGER_VALUE_ROW_ENCODED_BYTES_MAX : Nat := 2048
def LEDGER_DELETE_ROW_ENCODED_BYTES_MAX : Nat := 64
def PARTITION_PATH_OCCUPANCIES_MAX_V2 : Nat := 10000000
def PARTITION_RESIDENT_LOGICAL_BYTES_MAX_V2 : Nat := 16 * 1024 * 1024 * 1024
def PARTITION_BOOTSTRAP_OBJECTS_MAX_V2 : Nat := 1024
def PARTITION_BOOTSTRAP_BYTES_MAX_V2 : Nat := 32 * 1024 * 1024 * 1024
def WAL_SUFFIX_COORDINATES_MAX_V2 : Nat := 1024
def WAL_SUFFIX_CHECKPOINT_SPAN_TRIGGER : Nat := 512
def DIRECTORY_ROW_LOGICAL_BYTES_MAX : Nat := 525
def LEDGER_VALUE_ROW_LOGICAL_BYTES_MAX : Nat := 1035
def LEDGER_DELETE_ROW_LOGICAL_BYTES : Nat := 9

structure PartitionId where
  octets : List UInt8
  sixteen : octets.length = 16
  nonNil : octets ≠ List.replicate 16 0
deriving DecidableEq, Repr

inductive DirectoryEntry where
  | live (uid : StreamUid)
  | tombstone (uid : StreamUid)
deriving DecidableEq, Repr

variable [Jiff]

structure StreamRecord where
  contentType : StreamContentType
  expiry : ExpiryPolicy
  lifecycle : StreamLifecycle
  createdAt : BatchId
deriving DecidableEq

inductive LedgerCell where
  | value (record : StreamRecord)
  | delete
deriving DecidableEq

inductive OperationFact where
  | streamCreated (path : StreamPath) (uid : StreamUid) (contentType : StreamContentType) (expiry : ExpiryPolicy)
      (lifecycle : StreamLifecycle)
  | streamClosed (path : StreamPath) (uid : StreamUid)
  | streamDeleted (path : StreamPath) (uid : StreamUid)
deriving DecidableEq

namespace OperationFact

-- The additions saturate in the source. They stay below 1024, see
-- estimatedEncodedBytes_le.
def estimatedEncodedBytes : OperationFact → Nat
  | .streamCreated path _ contentType _ _ =>
    WAL_FACT_ENCODED_FIXED_BYTES_MAX + (path.bytesLen + Text.byteLength contentType.asStr.toList)
  | .streamClosed path _ => WAL_FACT_ENCODED_FIXED_BYTES_MAX + path.bytesLen
  | .streamDeleted path _ => WAL_FACT_ENCODED_FIXED_BYTES_MAX + path.bytesLen

theorem estimatedEncodedBytes_le (fact : OperationFact) :
    fact.estimatedEncodedBytes ≤ WAL_FACT_ENCODED_FIXED_BYTES_MAX + STREAM_PATH_BYTES_MAX + CONTENT_TYPE_BYTES_MAX := by
  cases fact with
  | streamCreated path uid contentType expiry lifecycle =>
    have pathBound := path.bytesLen_le
    have typeBound := contentType.bytesLen_le
    simp only [estimatedEncodedBytes]
    omega
  | streamClosed path uid | streamDeleted path uid =>
    have pathBound := path.bytesLen_le
    simp only [estimatedEncodedBytes]
    omega

def path : OperationFact → StreamPath
  | .streamCreated path _ _ _ _ => path
  | .streamClosed path _ => path
  | .streamDeleted path _ => path

def contentType : OperationFact → Option StreamContentType
  | .streamCreated _ _ contentType _ _ => some contentType
  | .streamClosed _ _ => none
  | .streamDeleted _ _ => none

end OperationFact

inductive WalFactsError where
  | empty
  | overMax (factsActual : Nat)
deriving DecidableEq, Repr

structure WalFacts where
  facts : List OperationFact
  nonempty : facts ≠ []
  bounded : facts.length ≤ WAL_RUN_FACTS_MAX
deriving DecidableEq

def WalFacts.tryFrom (facts : List OperationFact) : Except WalFactsError WalFacts :=
  if empty : facts = [] then .error .empty
  else if exceeds : facts.length > WAL_RUN_FACTS_MAX then .error (.overMax facts.length)
  else .ok ⟨facts, empty, Nat.le_of_not_gt exceeds⟩

theorem WalFacts.tryFrom_ok_iff (facts : List OperationFact) (result : WalFacts) :
    WalFacts.tryFrom facts = .ok result ↔ result.facts = facts := by
  obtain ⟨rows, nonempty, bounded⟩ := result
  unfold WalFacts.tryFrom
  split
  case isTrue empty =>
    simp only [reduceCtorEq, false_iff]
    rintro rfl
    exact nonempty empty
  case isFalse =>
    split
    case isTrue exceeds =>
      simp only [reduceCtorEq, false_iff]
      rintro rfl
      omega
    case isFalse => simp [eq_comm]

inductive WalBody where
  | run (facts : WalFacts)
  | fence
deriving DecidableEq

structure WalObject where
  partition : PartitionId
  batch : BatchId
  owner : OwnerToken
  body : WalBody
deriving DecidableEq

def WalBody.isFence : WalBody → Bool
  | .run _ => false
  | .fence => true

def WalObject.facts (object : WalObject) : List OperationFact :=
  match object.body with
  | .run facts => facts.facts
  | .fence => []

end StromDB
