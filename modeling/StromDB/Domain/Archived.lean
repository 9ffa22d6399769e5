import StromDB.Domain.Codec
import StromDB.Domain.ContentType
import StromDB.Lib.Archive

namespace StromDB

open Archive Checked

instance : Countable NonZeroU64 := Function.Injective.countable NonZeroU64.get_injective
deriving instance Countable for SealGeneration, BatchId, StreamUid, OwnerToken, AttemptId
deriving instance Countable for StoreKind, WalReplayPoint, StreamLifecycle, DirectoryEntry

-- The fields of an archive as checked access shows them. A coordinate is
-- already nonzero there, and an enumeration already has one of its values, so
-- these keep their domain types; every other field is raw.
@[ext] structure ArchivedPartitionId where
  octets : List UInt8
  sixteen : octets.length = 16

instance : DecidableEq ArchivedPartitionId := fun a b => decidable_of_iff' (a.octets = b.octets) ArchivedPartitionId.ext_iff

instance : Countable ArchivedPartitionId :=
  Function.Injective.countable (f := ArchivedPartitionId.octets) fun a b same => by
    cases a
    cases b
    simpa using same

structure ArchivedFreshIdentity where
  birthGeneration : SealGeneration
  attempt : AttemptId
  ordinal : Nat
deriving DecidableEq, Countable

structure ArchivedTableRef where
  fresh : ArchivedFreshIdentity
  store : StoreKind
  objectBytes : NonZeroU64
deriving DecidableEq, Countable

structure ArchivedSeal where
  partition : ArchivedPartitionId
  generation : SealGeneration
  replay : WalReplayPoint
  directory : List (List ArchivedTableRef)
  ledger : List (List ArchivedTableRef)
deriving DecidableEq, Countable

inductive ArchivedExpiry where
  | none
  | slidingTtl (seconds : Nat)
  | absoluteExpiry (unixNanoseconds : Int)
deriving DecidableEq, Countable

inductive ArchivedFact where
  | streamCreated (path : String) (uid : StreamUid) (contentType : String) (expiry : ArchivedExpiry) (lifecycle : StreamLifecycle)
  | streamClosed (path : String) (uid : StreamUid)
  | streamDeleted (path : String) (uid : StreamUid)
deriving DecidableEq, Countable

inductive ArchivedWalBody where
  | run (facts : List ArchivedFact)
  | fence
deriving DecidableEq, Countable

structure ArchivedWalObject where
  partition : ArchivedPartitionId
  batch : BatchId
  owner : OwnerToken
  body : ArchivedWalBody
deriving DecidableEq, Countable

def PartitionId.archived (partition : PartitionId) : ArchivedPartitionId := ⟨partition.octets, partition.sixteen⟩

def PartitionId.tryFrom (archived : ArchivedPartitionId) : Except DecodeError PartitionId :=
  if nil : archived.octets = List.replicate 16 0 then .error .invalidBody else .ok ⟨archived.octets, archived.sixteen, nil⟩

def FreshIdentity.archived (fresh : FreshIdentity) : ArchivedFreshIdentity := ⟨fresh.birthGeneration, fresh.attempt, fresh.ordinal⟩

def FreshIdentity.tryFrom (archived : ArchivedFreshIdentity) : Except DecodeError FreshIdentity :=
  (FreshIdentity.new archived.birthGeneration archived.attempt archived.ordinal).mapError fun _ => .invalidBody

inductive ExpiresAtRangeError where
  | expiresAtRangeError
deriving DecidableEq, Repr

def decodeContentType (archived : String) : Except DecodeError StreamContentType := do
  let _ ← (validateCanonical archived).mapError fun _ => .invalidBody
  (StreamContentType.fromStr archived).mapError fun _ => .invalidBody

def decodeStreamPath (archived : String) : Except DecodeError StreamPath :=
  (StreamPath.fromStr archived).mapError fun _ => .invalidBody

theorem PartitionId.tryFrom_exact : Exact PartitionId.archived PartitionId.tryFrom := by
  rintro ⟨octets, sixteen⟩ ⟨held, long, nonNil⟩
  unfold PartitionId.tryFrom PartitionId.archived
  split
  case isTrue nil =>
    simp only [reduceCtorEq, false_iff]
    rintro same
    cases same
    exact nonNil nil
  case isFalse => simp

theorem FreshIdentity.tryFrom_exact : Exact FreshIdentity.archived FreshIdentity.tryFrom := by
  rintro ⟨birthGeneration, attempt, ordinal⟩ ⟨birth, held, number, predates⟩
  rw [FreshIdentity.tryFrom, mapError_ok_iff, FreshIdentity.new]
  split
  case isTrue => simp [FreshIdentity.archived]
  case isFalse other =>
    simp only [reduceCtorEq, false_iff]
    intro same
    cases same
    exact other predates

theorem decodeContentType_exact : Exact StreamContentType.asStr decodeContentType := by
  intro archived contentType
  simp only [decodeContentType, bind_ok_iff, mapError_ok_iff]
  constructor
  · rintro ⟨_, accepted, decoded⟩
    obtain ⟨held, parsed, same⟩ := StreamContentType.exists_of_validateCanonical _ _ accepted
    rw [parsed] at decoded
    cases decoded
    exact same
  · rintro rfl
    exact ⟨_, contentType.validateCanonical_asStr, contentType.fromStr_asStr⟩

theorem StreamPath.fromStr_ok_iff {text : String} {path : StreamPath} : StreamPath.fromStr text = .ok path ↔ text = path.text := by
  unfold StreamPath.fromStr
  split
  · rename_i valid
    obtain ⟨held, _⟩ := path
    simp
  · rename_i error failed
    simp only [reduceCtorEq, false_iff]
    rintro rfl
    rw [path.valid] at failed
    cases failed

theorem decodeStreamPath_exact : Exact StreamPath.text decodeStreamPath := by
  intro archived path
  rw [decodeStreamPath, mapError_ok_iff, StreamPath.fromStr_ok_iff]

def TableRef.archived (table : TableRef) : ArchivedTableRef := ⟨table.object.fresh.archived, table.object.store, table.objectBytes⟩

def decodeTableRef (archived : ArchivedTableRef) : Except DecodeError TableRef := do
  let fresh ← FreshIdentity.tryFrom archived.fresh
  (TableRef.new ⟨fresh, archived.store⟩ archived.objectBytes).mapError fun _ => .invalidBody

def SortedRun.archived (run : SortedRun) : List ArchivedTableRef := run.tables.map TableRef.archived

def decodeRun (archived : List ArchivedTableRef) : Except DecodeError SortedRun :=
  if archived.length = 0 ∨ archived.length > RUN_TABLES_MAX then .error .invalidBody
  else do
    let tables ← archived.mapM decodeTableRef
    (SortedRun.tryFrom tables).mapError fun _ => .invalidBody

def TreeVersion.archived (tree : TreeVersion) : List (List ArchivedTableRef) := tree.runs.map SortedRun.archived

def decodeTree (archived : List (List ArchivedTableRef)) : Except DecodeError TreeVersion :=
  if archived.length > TREE_RUNS_MAX then .error .invalidBody
  else do
    let runs ← archived.mapM decodeRun
    (TreeVersion.tryFrom runs).mapError fun _ => .invalidBody

def Seal.archived (sealed : Seal) : ArchivedSeal :=
  ⟨sealed.partition.archived, sealed.generation, sealed.replay, sealed.directory.archived, sealed.ledger.archived⟩

def decodeArchivedSeal (archived : ArchivedSeal) (partition : PartitionId) (generation : SealGeneration) :
    Except DecodeError Seal := do
  let directory ← decodeTree archived.directory
  let ledger ← decodeTree archived.ledger
  (Seal.new partition generation archived.replay directory ledger).mapError fun _ => .invalidBody

theorem TableRef.new_ok_iff {object : TableObjectId} {objectBytes : NonZeroU64} {table : TableRef} :
    TableRef.new object objectBytes = .ok table ↔ table.object = object ∧ table.objectBytes = objectBytes := by
  obtain ⟨held, length, bounded⟩ := table
  unfold TableRef.new
  split
  case isTrue => simp [eq_comm]
  case isFalse exceeds =>
    simp only [reduceCtorEq, false_iff, not_and]
    rintro rfl rfl
    exact exceeds bounded

theorem decodeTableRef_exact : Exact TableRef.archived decodeTableRef := by
  rintro ⟨fresh, store, objectBytes⟩ table
  simp only [decodeTableRef, bind_ok_iff, FreshIdentity.tryFrom_exact fresh, mapError_ok_iff, TableRef.new_ok_iff]
  constructor
  · rintro ⟨held, rfl, object, length⟩
    simp only [TableRef.archived, object, length]
  · intro same
    cases same
    exact ⟨table.object.fresh, rfl, rfl, rfl⟩

theorem SortedRun.tryFrom_ok_iff (tables : List TableRef) (run : SortedRun) :
    SortedRun.tryFrom tables = .ok run ↔ run.tables = tables := by
  obtain ⟨held, nonempty, bounded⟩ := run
  unfold SortedRun.tryFrom
  split
  case isTrue empty =>
    simp only [reduceCtorEq, false_iff]
    rintro rfl
    exact nonempty empty
  case isFalse =>
    split
    case isTrue exceeds =>
      simp only [reduceCtorEq, false_iff]
      rintro rfl
      omega
    case isFalse => simp [eq_comm]

theorem decodeRun_exact : Exact SortedRun.archived decodeRun := by
  refine Exact.gated _ _ (Exact.collect _ _ decodeTableRef_exact SortedRun.tables SortedRun.tryFrom SortedRun.tryFrom_ok_iff
    .invalidBody) (fun archived => archived.length = 0 ∨ archived.length > RUN_TABLES_MAX) .invalidBody ?_
  intro run
  have nonempty := run.nonempty
  have bounded := run.bounded
  simp only [List.length_map, List.length_eq_zero_iff, not_or]
  exact ⟨nonempty, Nat.not_lt.mpr bounded⟩

theorem TreeVersion.tryFrom_ok_iff (runs : List SortedRun) (tree : TreeVersion) :
    TreeVersion.tryFrom runs = .ok tree ↔ tree.runs = runs := by
  obtain ⟨held, bounded⟩ := tree
  unfold TreeVersion.tryFrom
  split
  case isTrue exceeds =>
    simp only [reduceCtorEq, false_iff]
    rintro rfl
    omega
  case isFalse => simp [eq_comm]

theorem decodeTree_exact : Exact TreeVersion.archived decodeTree := by
  refine Exact.gated _ _ (Exact.collect _ _ decodeRun_exact TreeVersion.runs TreeVersion.tryFrom TreeVersion.tryFrom_ok_iff
    .invalidBody) (fun archived => archived.length > TREE_RUNS_MAX) .invalidBody ?_
  intro tree
  rw [List.length_map]
  exact Nat.not_lt.mpr tree.bounded

theorem decodeArchivedSeal_ok_iff {archived : ArchivedSeal} {partition : PartitionId} {generation : SealGeneration} {sealed : Seal} :
    decodeArchivedSeal archived partition generation = .ok sealed ↔ sealed.partition = partition ∧ sealed.generation = generation ∧
      archived.replay = sealed.replay ∧ archived.directory = sealed.directory.archived ∧
      archived.ledger = sealed.ledger.archived ∧ sealed.Legal := by
  simp only [decodeArchivedSeal, bind_ok_iff, decodeTree_exact archived.directory, decodeTree_exact archived.ledger,
    mapError_ok_iff, Seal.new_ok_iff]
  constructor
  · rintro ⟨directory, first, ledger, second, same, legal⟩
    cases same
    exact ⟨rfl, rfl, rfl, first, second, legal⟩
  · rintro ⟨rfl, rfl, replay, first, second, legal⟩
    exact ⟨sealed.directory, first, sealed.ledger, second, by rw [replay], legal⟩

variable [Jiff]

def ExpiresAt.tryFrom (unixNanoseconds : Int) : Except ExpiresAtRangeError ExpiresAt :=
  match Jiff.fromNanosecond unixNanoseconds with
  | some timestamp => .ok ⟨timestamp⟩
  | none => .error .expiresAtRangeError

def ExpiryPolicy.archived : ExpiryPolicy → ArchivedExpiry
  | .none => .none
  | .slidingTtl seconds => .slidingTtl seconds.get
  | .absoluteExpiry expiresAt => .absoluteExpiry expiresAt.nanosecond

def ExpiryPolicy.tryFrom : ArchivedExpiry → Except DecodeError ExpiryPolicy
  | .none => .ok .none
  | .slidingTtl seconds =>
    match NonZeroU64.new seconds with
    | .some ttl => .ok (.slidingTtl ttl)
    | .none => .error .invalidBody
  | .absoluteExpiry unixNanoseconds =>
    ((ExpiresAt.tryFrom unixNanoseconds).map .absoluteExpiry).mapError fun _ => .invalidBody

theorem ExpiresAt.tryFrom_exact : Exact ExpiresAt.nanosecond ExpiresAt.tryFrom := by
  rintro unixNanoseconds ⟨held⟩
  have exact := Jiff.fromNanosecond_eq_some unixNanoseconds held
  unfold ExpiresAt.tryFrom ExpiresAt.nanosecond
  split
  case h_1 timestamp found => simpa [found] using exact
  case h_2 found => simpa [found] using exact

theorem ExpiryPolicy.tryFrom_exact : Exact ExpiryPolicy.archived ExpiryPolicy.tryFrom := by
  intro archived policy
  cases archived with
  | none => cases policy <;> simp [tryFrom, ExpiryPolicy.archived]
  | slidingTtl seconds =>
    have exact := NonZeroU64.new_eq_some_iff seconds
    simp only [tryFrom]
    cases found : NonZeroU64.new seconds with
    | none => cases policy <;> simp_all [ExpiryPolicy.archived, eq_comm]
    | some ttl =>
      cases policy with
      | slidingTtl held => simpa [found, ExpiryPolicy.archived, eq_comm] using exact held
      | _ => simp [ExpiryPolicy.archived]
  | absoluteExpiry unixNanoseconds =>
    have exact := ExpiresAt.tryFrom_exact unixNanoseconds
    rw [tryFrom, mapError_ok_iff]
    cases found : ExpiresAt.tryFrom unixNanoseconds with
    | error error | ok expiresAt => cases policy <;> simp_all [ExpiryPolicy.archived, Except.map]

def OperationFact.archived : OperationFact → ArchivedFact
  | .streamCreated path uid contentType expiry lifecycle =>
    .streamCreated path.text uid contentType.asStr expiry.archived lifecycle
  | .streamClosed path uid => .streamClosed path.text uid
  | .streamDeleted path uid => .streamDeleted path.text uid

def decodeFact : ArchivedFact → Except DecodeError OperationFact
  | .streamCreated path uid contentType expiry lifecycle => do
    let path ← decodeStreamPath path
    let contentType ← decodeContentType contentType
    let expiry ← ExpiryPolicy.tryFrom expiry
    .ok (.streamCreated path uid contentType expiry lifecycle)
  | .streamClosed path uid => do
    let path ← decodeStreamPath path
    .ok (.streamClosed path uid)
  | .streamDeleted path uid => do
    let path ← decodeStreamPath path
    .ok (.streamDeleted path uid)

def WalBody.archived : WalBody → ArchivedWalBody
  | .run facts => .run (facts.facts.map OperationFact.archived)
  | .fence => .fence

def decodeFacts (factsArchived : List ArchivedFact) : Except DecodeError WalFacts :=
  if factsArchived.length = 0 ∨ factsArchived.length > WAL_RUN_FACTS_MAX then .error .invalidBody
  else do
    let decodedFacts ← factsArchived.mapM decodeFact
    (WalFacts.tryFrom decodedFacts).mapError fun _ => .invalidBody

def decodeBody : ArchivedWalBody → Except DecodeError WalBody
  | .run factsArchived => do
    let facts ← decodeFacts factsArchived
    .ok (.run facts)
  | .fence => .ok .fence

def WalObject.archived (object : WalObject) : ArchivedWalObject :=
  ⟨object.partition.archived, object.batch, object.owner, object.body.archived⟩

theorem decodeFact_exact : Exact OperationFact.archived decodeFact := by
  intro archived fact
  cases archived with
  | streamCreated path uid contentType expiry lifecycle =>
    simp only [decodeFact, bind_ok_iff, decodeStreamPath_exact path, decodeContentType_exact contentType,
      ExpiryPolicy.tryFrom_exact expiry, Except.ok.injEq]
    constructor
    · rintro ⟨_, rfl, _, rfl, _, rfl, rfl⟩
      rfl
    · intro same
      cases fact <;> cases same
      exact ⟨_, rfl, _, rfl, _, rfl, rfl⟩
  | streamClosed path uid | streamDeleted path uid =>
    simp only [decodeFact, bind_ok_iff, decodeStreamPath_exact path, Except.ok.injEq]
    constructor
    · rintro ⟨_, rfl, rfl⟩
      rfl
    · intro same
      cases fact <;> cases same
      exact ⟨_, rfl, rfl⟩

theorem decodeFacts_exact : Exact (fun facts : WalFacts => facts.facts.map OperationFact.archived) decodeFacts := by
  refine Exact.gated _ _ (Exact.collect _ _ decodeFact_exact WalFacts.facts WalFacts.tryFrom WalFacts.tryFrom_ok_iff .invalidBody)
    (fun archived => archived.length = 0 ∨ archived.length > WAL_RUN_FACTS_MAX) .invalidBody ?_
  intro facts
  have nonempty := facts.nonempty
  have bounded := facts.bounded
  simp only [List.length_map, List.length_eq_zero_iff, not_or]
  exact ⟨nonempty, Nat.not_lt.mpr bounded⟩

theorem decodeBody_exact : Exact WalBody.archived decodeBody := by
  intro archived body
  cases archived with
  | run factsArchived =>
    simp only [decodeBody, bind_ok_iff, decodeFacts_exact factsArchived, Except.ok.injEq]
    constructor
    · rintro ⟨facts, rfl, rfl⟩
      rfl
    · intro same
      cases body <;> cases same
      exact ⟨_, rfl, rfl⟩
  | fence => cases body <;> simp [decodeBody, WalBody.archived]

end StromDB
