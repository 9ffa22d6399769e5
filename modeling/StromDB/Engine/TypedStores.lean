import StromDB.Domain.DurableTable
import StromDB.Engine.Adapter
import StromDB.Engine.Task

namespace StromDB

open Archive Checked Client Durable

variable [Rkyv]

namespace Durable

structure CandidateBytes (bytesMax : Nat) where
  bytes : Bytes
  nonempty : bytes ≠ []
  bounded : bytes.length ≤ bytesMax
deriving DecidableEq

structure EncodedWal where
  partition : PartitionId
  batch : BatchId
  bytes : CandidateBytes WAL_ENCODED_BYTES_MAX
deriving DecidableEq

structure EncodedSeal where
  sealed : Seal
  bytes : CandidateBytes SEAL_ENCODED_BYTES_MAX
deriving DecidableEq

structure EncodedGenesisSeal where
  encoded : EncodedSeal
  first : encoded.sealed.generation = SealGeneration.genesis
deriving DecidableEq

structure EncodedAuthoritySeal where
  encoded : EncodedSeal
  advanced : encoded.sealed.generation ≠ SealGeneration.genesis
deriving DecidableEq

@[ext] structure EncodedTable where
  key : TableObjectId
  table : TableRef
  bytes : CandidateBytes SST_OBJECT_BYTES_MAX
  sameKey : table.object = key
  sameLength : table.objectBytes.get = bytes.bytes.length

instance : DecidableEq EncodedTable := fun a b =>
  decidable_of_iff' (a.key = b.key ∧ a.table = b.table ∧ a.bytes = b.bytes) EncodedTable.ext_iff

end Durable

def objectKey (spelling : String) : Checked ObjectKey :=
  expectOk "canonical storage-domain spelling is always a valid ObjectKey" (ObjectKey.tryFrom spelling)

def createTyped (spelling : String) (bytes : Bytes) (unfit : String) : StoreProgram (Except TypedStoreError CreateEvidence) := do
  let key ← .expect (objectKey spelling)
  let body ← .expect (expectOk unfit (PutBody.tryFrom bytes))
  let evidence ← createIfAbsent key body
  pure (evidence.mapError typedStoreError)

namespace SealStore

def createSeal (generation : SealGeneration) (bytes : Bytes) : StoreProgram (Except TypedStoreError CreateEvidence) :=
  createTyped (sealKey generation) bytes "an encoded Seal fits the adapter PUT bound"

def establishGenesis (candidate : Durable.EncodedGenesisSeal) : StoreProgram (Except TypedStoreError GenesisEstablishment) := do
  let evidence ← createSeal candidate.encoded.sealed.generation candidate.encoded.bytes.bytes
  pure (evidence.map establishGenesisOutcome)

def publishAuthority (candidate : Durable.EncodedAuthoritySeal) : StoreProgram (Except TypedStoreError SealPublication) := do
  let evidence ← createSeal candidate.encoded.sealed.generation candidate.encoded.bytes.bytes
  pure (evidence.map publishAuthorityOutcome)

end SealStore

namespace WalStore

structure ObservedWal where
  object : WalObject
  validator : Etag
  bytes : PutBody
deriving DecidableEq

structure AuthorizedWalRunDelete where
  batch : BatchId
  validator : Etag
deriving DecidableEq

inductive WalDeleteRefusal where
  | fence (batch : BatchId)
deriving DecidableEq, Repr

def ObservedWal.intoRunDelete (observed : ObservedWal) : Except WalDeleteRefusal AuthorizedWalRunDelete :=
  match observed.object.body with
  | .run _ => .ok ⟨observed.object.batch, observed.validator⟩
  | .fence => .error (.fence observed.object.batch)

def createWal (candidate : Durable.EncodedWal) : StoreProgram (Except TypedStoreError CreateEvidence) :=
  createTyped (walKey candidate.batch) candidate.bytes.bytes "an encoded WAL fits the adapter PUT bound"

variable (archiver : Archiver ArchivedWalObject)

def observeWal (partition : PartitionId) (batch : BatchId) :
    Except StoreError (Option RawObject) → Except TypedStoreError (Option ObservedWal)
  | .error error => .error (typedStoreError error)
  | .ok none => .ok none
  | .ok (some observed) =>
    match Durable.decodeWal archiver partition batch observed.body with
    | .error source =>
      .error (.contradiction ("WAL body at " ++ walKey batch ++ " failed checked decode for " ++ partition.display ++ "/" ++
        batch.debug ++ ": " ++ source.toText))
    | .ok object =>
      match PutBody.tryFrom observed.body with
      | .error source =>
        .error (.contradiction ("decoded WAL body at " ++ walKey batch ++ " cannot be retained for exact reconciliation: " ++
          source.toText))
      | .ok bytes => .ok (some ⟨object, observed.etag, bytes⟩)

def readWal (partition : PartitionId) (batch : BatchId) : StoreProgram (Except TypedStoreError (Option ObservedWal)) := do
  let key ← .expect (objectKey (walKey batch))
  let observed ← read key WAL_ENCODED_BYTES_MAX
  pure (observeWal archiver partition batch observed)

def reconcileObserved (candidate : Durable.EncodedWal) :
    Except TypedStoreError (Option ObservedWal) → Except TypedStoreError WalEstablishment
  | .error error => .error error
  | .ok (some observed) => if observed.bytes.bytes = candidate.bytes.bytes then .ok .durable else .ok .occupied
  | .ok none => .ok .unresolvedAbsent

def establishWal (candidate : Durable.EncodedWal) : StoreProgram (Except TypedStoreError WalEstablishment) := do
  match ← createWal candidate with
  | .error error => pure (.error error)
  | .ok .direct | .ok .durableMatch => pure (.ok .durable)
  | .ok .notOurs => pure (.ok .occupied)
  | .ok .unresolved => do
    let observed ← readWal archiver candidate.partition candidate.batch
    pure (reconcileObserved candidate observed)

def deleteRun (proof : AuthorizedWalRunDelete) : StoreProgram (Except TypedStoreError Unit) := do
  let key ← .expect (objectKey (walKey proof.batch))
  let deleted ← deleteIdempotent key
  pure (deleted.mapError typedStoreError)

end WalStore

namespace TableStore

inductive CandidateTableEvidence where
  | same
  | foreign
  | absent
deriving DecidableEq, Repr

def createTable (candidate : Durable.EncodedTable) : StoreProgram (Except TypedStoreError CreateEvidence) :=
  createTyped (tableKey candidate.key) candidate.bytes.bytes "an encoded SST fits the adapter PUT bound"

def candidateEvidence (candidate : Durable.EncodedTable) : Option RawObject → CandidateTableEvidence
  | some observed => if observed.body = candidate.bytes.bytes then .same else .foreign
  | none => .absent

def reconcileTable (candidate : Durable.EncodedTable) : StoreProgram (Except TypedStoreError CandidateTableEvidence) := do
  let key ← .expect (objectKey (tableKey candidate.key))
  let observed ← read key candidate.table.objectBytes.get
  pure ((observed.mapError typedStoreError).map (candidateEvidence candidate))

def failed : TypedStoreError → TableEstablishment
  | .retryable _ => .abandoned
  | .rejected _ => .abandoned
  | .contradiction detail => .contradiction detail

def reconciled : Except TypedStoreError CandidateTableEvidence → TableEstablishment
  | .ok .same => .established
  | .ok .foreign => .contradiction "an unresolved fresh checkpoint table contains foreign bytes"
  | .ok .absent => .abandoned
  | .error error => failed error

def establishTable (candidate : Durable.EncodedTable) : StoreProgram TableEstablishment := do
  match ← createTable candidate with
  | .ok .direct | .ok .durableMatch => pure .established
  | .ok .notOurs => pure (.contradiction "foreign bytes occupy a fresh checkpoint table identity")
  | .ok .unresolved => do
    let evidence ← reconcileTable candidate
    pure (reconciled evidence)
  | .error error => pure (failed error)

def deleteTable (object : TableObjectId) : StoreProgram (Except TypedStoreError Unit) := do
  let key ← .expect (objectKey (tableKey object))
  let deleted ← deleteIdempotent key
  pure (deleted.mapError typedStoreError)

end TableStore

omit [Rkyv] in
theorem PutBody.tryFrom_ok {bytes : Bytes} (nonempty : bytes ≠ []) (fits : bytes.length ≤ PUT_BYTES_MAX) :
    PutBody.tryFrom bytes = .ok ⟨bytes, nonempty, fits⟩ := by
  rw [PutBody.tryFrom, dif_neg nonempty, dif_neg (Nat.not_lt.mpr fits)]

omit [Rkyv] in
theorem objectKey_ok {spelling : String} {key : ObjectKey} (spelled : key.text = spelling) : objectKey spelling = .ok key := by
  rw [objectKey, expectOk_ok_iff, ObjectKey.tryFrom_ok_iff, spelled]

omit [Rkyv] in
theorem PutBody.tryFrom_bytes {raw : Bytes} {body : PutBody} (kept : PutBody.tryFrom raw = .ok body) : body.bytes = raw := by
  unfold PutBody.tryFrom at kept
  split at kept
  · cases kept
  split at kept
  · cases kept
  cases kept
  rfl

theorem WalStore.observeWal_some {archiver : Archiver ArchivedWalObject} {partition : PartitionId} {batch : BatchId}
    {reply : Except StoreError (Option RawObject)} {observed : WalStore.ObservedWal}
    (decoded : WalStore.observeWal archiver partition batch reply = .ok (some observed)) :
    ∃ raw, reply = .ok (some raw) ∧ Durable.decodeWal archiver partition batch raw.body = .ok observed.object ∧
      raw.body = observed.bytes.bytes := by
  unfold WalStore.observeWal at decoded
  split at decoded
  · cases decoded
  · cases decoded
  rename_i raw
  refine ⟨raw, rfl, ?_⟩
  split at decoded
  · cases decoded
  rename_i object found
  split at decoded
  · cases decoded
  rename_i bytes kept
  cases decoded
  exact ⟨found, (PutBody.tryFrom_bytes kept).symm⟩

end StromDB
