import StromDB.Protocol.Bootstrap

namespace StromDB

variable [Rkyv]

-- The three namespaces of one store root. A key names one slot, and a slot holds
-- the value that its bytes archive.
structure ObjectStore where
  seals : OrdMap SealGeneration Seal
  wal : OrdMap BatchId WalObject
  tables : TableObjectId → Option SstObject

def ObjectStore.empty : ObjectStore := ⟨∅, ∅, fun _ => none⟩

inductive Request where
  | createSeal (candidate : Seal)
  | createWal (candidate : WalObject)
  | createTable (candidate : EncodedTable)
  | getSeal (generation : SealGeneration)
  | getWal (batch : BatchId)
  | getTable (object : TableObjectId)
  | listSeals
  | listWal
  | deleteWal (batch : BatchId)
  | deleteTable (object : TableObjectId)
deriving DecidableEq

inductive Reply where
  | created
  | alreadyExists
  | gotSeal (observed : Option Seal)
  | gotWal (observed : Option WalObject)
  | gotTable (observed : Option SstObject)
  | newestSeal (newest : Option SealGeneration)
  | newestWal (newest : Option BatchId)
  | deleted
deriving DecidableEq

-- What the client of a request sees: the reply, a transport failure that says
-- nothing about the effect, or a definite refusal.
inductive Response where
  | answer (reply : Reply)
  | failed (detail : String)
  | refused (detail : String)
deriving DecidableEq

def Request.mutates : Request → Bool
  | .createSeal _ => true
  | .createWal _ => true
  | .createTable _ => true
  | .deleteWal _ => true
  | .deleteTable _ => true
  | _ => false

-- Keys spell reverse ordinals, so a list page of one key is the newest one.
def ObjectStore.execute (store : ObjectStore) : Request → ObjectStore × Reply
  | .createSeal candidate =>
    if store.seals.contains candidate.generation then (store, .alreadyExists)
    else ({ store with seals := store.seals.insert candidate.generation candidate }, .created)
  | .createWal candidate =>
    if store.wal.contains candidate.batch then (store, .alreadyExists)
    else ({ store with wal := store.wal.insert candidate.batch candidate }, .created)
  | .createTable candidate =>
    if (store.tables candidate.key).isSome then (store, .alreadyExists)
    else
      ({ store with tables := fun object => if object = candidate.key then some candidate.object else store.tables object },
        .created)
  | .getSeal generation => (store, .gotSeal store.seals[generation]?)
  | .getWal batch => (store, .gotWal store.wal[batch]?)
  | .getTable object => (store, .gotTable (store.tables object))
  | .listSeals => (store, .newestSeal store.seals.greatest)
  | .listWal => (store, .newestWal store.wal.greatest)
  | .deleteWal batch => ({ store with wal := store.wal.erase batch }, .deleted)
  | .deleteTable object =>
    ({ store with tables := fun other => if other = object then none else store.tables other }, .deleted)

inductive CreateEvidence where
  | direct
  | durableMatch
  | notOurs
  | unresolved
deriving DecidableEq, Repr

inductive TableEstablishment where
  | established
  | abandoned
  | contradiction (detail : String)
deriving DecidableEq, Repr

inductive Call where
  | newestGeneration
  | readSeal (generation : SealGeneration)
  | createSeal (candidate : Seal)
  | compareSeal (candidate : Seal)
  | readTable (partition : PartitionId) (table : TableRef)
  | newestSurvivingBatch
  | readWal (partition : PartitionId) (batch : BatchId)
  | createWal (candidate : EncodedWal)
  | compareWal (candidate : EncodedWal)
  | reconcileWal (candidate : EncodedWal)
  | createTable (candidate : EncodedTable)
  | compareTable (candidate : EncodedTable)
  | reconcileTable (candidate : EncodedTable)
  | deleteRun (batch : BatchId)
  | deleteTable (object : TableObjectId)
deriving DecidableEq

inductive CallResult where
  | newestGeneration (result : Except TypedStoreError (Option SealGeneration))
  | readSeal (result : Except TypedStoreError (Option Seal))
  | createSeal (result : Except TypedStoreError CreateEvidence)
  | readTable (result : Except TypedStoreError DecodedTable)
  | newestSurvivingBatch (result : Except TypedStoreError (Option BatchId))
  | readWal (result : Except TypedStoreError (Option WalObject))
  | establishWal (result : Except TypedStoreError WalEstablishment)
  | establishTable (result : TableEstablishment)
  | delete (result : Except TypedStoreError Unit)
deriving DecidableEq

inductive CallStep where
  | wait (call : Call)
  | done (result : CallResult)
deriving DecidableEq

def Call.request : Call → Request
  | .newestGeneration => .listSeals
  | .readSeal generation => .getSeal generation
  | .createSeal candidate => .createSeal candidate
  | .compareSeal candidate => .getSeal candidate.generation
  | .readTable _ table => .getTable table.object
  | .newestSurvivingBatch => .listWal
  | .readWal _ batch => .getWal batch
  | .createWal candidate => .createWal candidate.object
  | .compareWal candidate => .getWal candidate.object.batch
  | .reconcileWal candidate => .getWal candidate.object.batch
  | .createTable candidate => .createTable candidate
  | .compareTable candidate => .getTable candidate.key
  | .reconcileTable candidate => .getTable candidate.key
  | .deleteRun batch => .deleteWal batch
  | .deleteTable object => .deleteTable object

def oversized (key : String) (bytesMax bytesActual : Nat) : TypedStoreError :=
  .contradiction ("object " ++ key ++ " is " ++ toString bytesActual ++ " bytes; the bound is " ++ toString bytesMax)

def decodeSealBody (generation : SealGeneration) : Option Seal → Except TypedStoreError (Option Seal)
  | none => .ok none
  | some body =>
    if sealLength body > SEAL_ENCODED_BYTES_MAX then
      .error (oversized (sealKey generation) SEAL_ENCODED_BYTES_MAX (sealLength body))
    else
      match decodeSeal generation body with
      | .ok sealed => .ok (some sealed)
      | .error source =>
        .error (.contradiction ("Seal body at " ++ sealKey generation ++ " failed checked decode for " ++
          generation.debug ++ ": " ++ source.toText))

def decodeWalBody (partition : PartitionId) (batch : BatchId) : Option WalObject → Except TypedStoreError (Option WalObject)
  | none => .ok none
  | some body =>
    if walLength body > WAL_ENCODED_BYTES_MAX then
      .error (oversized (walKey batch) WAL_ENCODED_BYTES_MAX (walLength body))
    else
      match decodeWal partition batch body with
      | .ok object => .ok (some object)
      | .error source =>
        .error (.contradiction ("WAL body at " ++ walKey batch ++ " failed checked decode for " ++ partition.display ++
          "/" ++ batch.debug ++ ": " ++ source.toText))

def decodeTableRows (partition : PartitionId) (object : TableObjectId) (body : SstObject) : Except TypedStoreError DecodedTable :=
  match object.store with
  | .directory =>
    match decodeDirectorySst partition object body with
    | .ok rows => .ok (.directory rows)
    | .error source =>
      .error (.contradiction ("Directory table " ++ tableKey object ++ " failed checked decode: " ++ source.toText))
  | .ledger =>
    match decodeLedgerSst partition object body with
    | .ok rows => .ok (.ledger rows)
    | .error source =>
      .error (.contradiction ("Ledger table " ++ tableKey object ++ " failed checked decode: " ++ source.toText))
  | _ => .error (.contradiction ("table " ++ tableKey object ++ " names a store with no resident decoder"))

def decodeTableBody (partition : PartitionId) (table : TableRef) : Option SstObject → Except TypedStoreError DecodedTable
  | none => .error (.contradiction ("Seal-selected table " ++ tableKey table.object ++ " is absent"))
  | some body =>
    if tableLength body > table.objectBytes.get then
      .error (oversized (tableKey table.object) table.objectBytes.get (tableLength body))
    else if tableLength body ≠ table.objectBytes.get then
      .error (.contradiction ("table " ++ tableKey table.object ++ " has " ++ toString (tableLength body) ++
        " bytes; its Seal records " ++ toString table.objectBytes.get))
    else decodeTableRows partition table.object body

def operationError : Response → TypedStoreError
  | .answer _ => .retryable ""
  | .failed detail => .retryable detail
  | .refused detail => .rejected detail

def occupantEvidence {α : Type} [DecidableEq α] (candidate : α) : Option α → CreateEvidence
  | none => .unresolved
  | some occupant => if occupant = candidate then .durableMatch else .notOurs

def walEvidence (candidate : EncodedWal) : CreateEvidence → CallStep
  | .direct => .done (.establishWal (.ok .durable))
  | .durableMatch => .done (.establishWal (.ok .durable))
  | .notOurs => .done (.establishWal (.ok .occupied))
  | .unresolved => .wait (.reconcileWal candidate)

def tableEvidence (candidate : EncodedTable) : CreateEvidence → CallStep
  | .direct => .done (.establishTable .established)
  | .durableMatch => .done (.establishTable .established)
  | .notOurs => .done (.establishTable (.contradiction "foreign bytes occupy a fresh checkpoint table identity"))
  | .unresolved => .wait (.reconcileTable candidate)

def reconcileWalRead (candidate : EncodedWal) : Except TypedStoreError (Option WalObject) → Except TypedStoreError WalEstablishment
  | .error error => .error error
  | .ok none => .ok .unresolvedAbsent
  | .ok (some observed) => if observed = candidate.object then .ok .durable else .ok .occupied

def reconcileTableRead (candidate : EncodedTable) : Option SstObject → TableEstablishment
  | none => .abandoned
  | some body =>
    if tableLength body > candidate.table.objectBytes.get then
      .contradiction ("object " ++ tableKey candidate.key ++ " is " ++ toString (tableLength body) ++
        " bytes; the bound is " ++ toString candidate.table.objectBytes.get)
    else if body = candidate.object then .established
    else .contradiction "an unresolved fresh checkpoint table contains foreign bytes"

def Call.resume (call : Call) (response : Response) : Option CallStep :=
  match call, response with
  | .newestGeneration, .answer (.newestSeal newest) => some (.done (.newestGeneration (.ok newest)))
  | .newestGeneration, .answer _ => none
  | .newestGeneration, other => some (.done (.newestGeneration (.error (operationError other))))
  | .readSeal generation, .answer (.gotSeal observed) => some (.done (.readSeal (decodeSealBody generation observed)))
  | .readSeal _, .answer _ => none
  | .readSeal _, other => some (.done (.readSeal (.error (operationError other))))
  | .createSeal _, .answer .created => some (.done (.createSeal (.ok .direct)))
  | .createSeal candidate, .answer .alreadyExists => some (.wait (.compareSeal candidate))
  | .createSeal _, .answer _ => none
  | .createSeal _, .failed _ => some (.done (.createSeal (.ok .unresolved)))
  | .createSeal _, .refused detail => some (.done (.createSeal (.error (.rejected detail))))
  | .compareSeal candidate, .answer (.gotSeal observed) =>
    some (.done (.createSeal (.ok (occupantEvidence candidate observed))))
  | .compareSeal _, .answer _ => none
  | .compareSeal _, _ => some (.done (.createSeal (.ok .unresolved)))
  | .readTable partition table, .answer (.gotTable observed) =>
    some (.done (.readTable (decodeTableBody partition table observed)))
  | .readTable _ _, .answer _ => none
  | .readTable _ _, other => some (.done (.readTable (.error (operationError other))))
  | .newestSurvivingBatch, .answer (.newestWal newest) => some (.done (.newestSurvivingBatch (.ok newest)))
  | .newestSurvivingBatch, .answer _ => none
  | .newestSurvivingBatch, other => some (.done (.newestSurvivingBatch (.error (operationError other))))
  | .readWal partition batch, .answer (.gotWal observed) => some (.done (.readWal (decodeWalBody partition batch observed)))
  | .readWal _ _, .answer _ => none
  | .readWal _ _, other => some (.done (.readWal (.error (operationError other))))
  | .createWal candidate, .answer .created => some (walEvidence candidate .direct)
  | .createWal candidate, .answer .alreadyExists => some (.wait (.compareWal candidate))
  | .createWal _, .answer _ => none
  | .createWal candidate, .failed _ => some (walEvidence candidate .unresolved)
  | .createWal _, .refused detail => some (.done (.establishWal (.error (.rejected detail))))
  | .compareWal candidate, .answer (.gotWal observed) =>
    some (walEvidence candidate (occupantEvidence candidate.object observed))
  | .compareWal _, .answer _ => none
  | .compareWal candidate, _ => some (walEvidence candidate .unresolved)
  | .reconcileWal candidate, .answer (.gotWal observed) =>
    some (.done (.establishWal (reconcileWalRead candidate
      (decodeWalBody candidate.object.partition candidate.object.batch observed))))
  | .reconcileWal _, .answer _ => none
  | .reconcileWal _, other => some (.done (.establishWal (.error (operationError other))))
  | .createTable candidate, .answer .created => some (tableEvidence candidate .direct)
  | .createTable candidate, .answer .alreadyExists => some (.wait (.compareTable candidate))
  | .createTable _, .answer _ => none
  | .createTable candidate, .failed _ => some (tableEvidence candidate .unresolved)
  | .createTable _, .refused _ => some (.done (.establishTable .abandoned))
  | .compareTable candidate, .answer (.gotTable observed) =>
    some (tableEvidence candidate (occupantEvidence candidate.object observed))
  | .compareTable _, .answer _ => none
  | .compareTable candidate, _ => some (tableEvidence candidate .unresolved)
  | .reconcileTable candidate, .answer (.gotTable observed) =>
    some (.done (.establishTable (reconcileTableRead candidate observed)))
  | .reconcileTable _, .answer _ => none
  | .reconcileTable _, _ => some (.done (.establishTable .abandoned))
  | .deleteRun _, .answer .deleted => some (.done (.delete (.ok ())))
  | .deleteRun _, .answer _ => none
  | .deleteRun _, other => some (.done (.delete (.error (operationError other))))
  | .deleteTable _, .answer .deleted => some (.done (.delete (.ok ())))
  | .deleteTable _, .answer _ => none
  | .deleteTable _, other => some (.done (.delete (.error (operationError other))))

end StromDB
