import StromDB.Domain.Sst
import StromDB.Protocol.Forest
import StromDB.Protocol.Suffix

namespace StromDB

open Checked

variable [Rkyv]

structure AuthoredClaim where
  generation : SealGeneration
deriving DecidableEq, Repr

def AuthoredClaim.owner (claim : AuthoredClaim) : OwnerToken := ⟨claim.generation⟩

structure WriterRecovery where
  claim : AuthoredClaim
  sealed : Seal
  base : Forest
  durable : Forest
  durableBatch : BatchId
deriving DecidableEq

inductive BootstrapExit where
  | retryable (detail : String)
  | fenced (observed : SealGeneration)
  | contradiction (detail : String)
deriving DecidableEq, Repr

inductive BootstrapEvent where
  | started (genesisPartition : PartitionId)
  | headObserved (observed : Option SealGeneration)
  | genesisEstablished (establishment : GenesisEstablishment)
  | sealRead (observed : Option Seal)
  | claimPublished (publication : SealPublication)
  | tableRead (table : TableRef) (decoded : DecodedTable)
  | walTailObserved (listedTail : Option BatchId)
  | walRead (observed : Option WalObject)
  | fenceEstablished (establishment : WalEstablishment)
  | storeFailed (error : TypedStoreError)
deriving DecidableEq

inductive BootstrapEffect where
  | observeHead
  | establishGenesis (candidate : EncodedGenesisSeal)
  | readSeal (generation : SealGeneration)
  | publishClaim (candidate : EncodedAuthoritySeal)
  | readTable (partition : PartitionId) (table : TableRef)
  | observeWalTail
  | readWal (partition : PartitionId) (batch : BatchId)
  | establishFence (candidate : EncodedWal)
deriving DecidableEq

inductive BootstrapStep where
  | effect (effect : BootstrapEffect)
  | complete (recovery : WriterRecovery)
  | exit (exit : BootstrapExit)
deriving DecidableEq

structure PlannedTable where
  table : TableRef
  startsRun : Bool
deriving DecidableEq, Repr

structure ClaimedBootstrap where
  claim : AuthoredClaim
  sealed : Seal
deriving DecidableEq

structure LoadedBootstrap where
  claimed : ClaimedBootstrap
  base : Forest
  durable : Forest
deriving DecidableEq

structure Replay where
  loaded : LoadedBootstrap
  next : BatchId
  fence : TakeoverFence
  owner : Option OwnerToken
deriving DecidableEq

structure MergedRows where
  directory : OrdMap StreamPath DirectoryEntry
  ledger : OrdMap StreamUid StreamRecord
  residentBytes : Nat
deriving DecidableEq

def MergedRows.empty : MergedRows := ⟨∅, ∅, 0⟩

structure BaseLoad where
  claimed : ClaimedBootstrap
  remaining : List PlannedTable
  merged : MergedRows
  previousDirectory : Option StreamPath
  previousLedger : Option StreamUid
deriving DecidableEq

inductive BootstrapState where
  | initial
  | discoveringHead (genesisPartition : PartitionId)
  | establishingGenesis (genesisPartition : PartitionId)
  | readingSeal (generation : SealGeneration)
  | publishingClaim (candidate : Seal) (sources : List PlannedTable)
  | readingTable (load : BaseLoad) (source : PlannedTable)
  | observingWalTail (loaded : LoadedBootstrap) (occupied : Option BatchId)
  | readingWalTail (loaded : LoadedBootstrap) (fence : TakeoverFence) (listedTail : BatchId)
  | establishingFence (loaded : LoadedBootstrap) (fence : TakeoverFence)
  | replaying (replay : Replay)
  | refreshingAnomaly (claim : AuthoredClaim) (detail : String)
  | refreshingFinal (recovery : WriterRecovery)
  | complete
deriving DecidableEq

namespace Bootstrap

abbrev Transition := BootstrapState × BootstrapStep

def effect (state : BootstrapState) (effect : BootstrapEffect) : Transition := (state, .effect effect)

def complete (recovery : WriterRecovery) : Transition := (.complete, .complete recovery)

def exit (exit : BootstrapExit) : Transition := (.complete, .exit exit)

def refreshAnomaly (claim : AuthoredClaim) (detail : String) : Transition :=
  effect (.refreshingAnomaly claim detail) .observeHead

-- An event that does not complete the effect of the current state stops the
-- process. The source prints the state into the panic text too.
def unexpected {α : Type} (event : String) : Checked α := .error ("bootstrap state cannot receive " ++ event)

def bootstrapSourceBound : BootstrapExit :=
  .contradiction "Seal-selected table sources exceed a V2 aggregate bootstrap bound"

def residentBound : BootstrapExit :=
  .contradiction "merged Directory and Ledger rows exceed the V2 resident logical-byte bound"

def mapForestError (error : ForestContradiction) : BootstrapExit :=
  .contradiction ("merged Directory and Ledger rows disagree: " ++ error.toText)

def storeExit : TypedStoreError → BootstrapExit
  | .retryable detail => .retryable detail
  | .rejected detail => .contradiction detail
  | .contradiction detail => .contradiction detail

def treeSources (tree : TreeVersion) : List PlannedTable :=
  tree.runs.reverse.flatMap fun run => run.tables.zipIdx.map fun (table, index) => ⟨table, index = 0⟩

-- The counters of the source cannot overflow: a Seal selects at most 2^17 tables
-- of at most 2^27 bytes each.
def planBootstrapSources (sealed : Seal) : Except BootstrapExit (List PlannedTable) :=
  if sealed.tables.length > PARTITION_BOOTSTRAP_OBJECTS_MAX_V2 ∨
      (sealed.tables.map fun table => table.objectBytes.get).sum > PARTITION_BOOTSTRAP_BYTES_MAX_V2 then
    .error bootstrapSourceBound
  else .ok (treeSources sealed.directory ++ treeSources sealed.ledger)

@[irreducible] def addResidentBytes (current additional : Nat) : Except BootstrapExit Nat :=
  if current + additional > PARTITION_RESIDENT_LOGICAL_BYTES_MAX_V2 then .error residentBound
  else .ok (current + additional)

def mergeDirectoryRows : List (StreamPath × DirectoryEntry) → MergedRows → Except BootstrapExit MergedRows
  | [], merged => .ok merged
  | (key, entry) :: rest, merged =>
    if merged.directory.contains key then
      mergeDirectoryRows rest { merged with directory := merged.directory.insert key entry }
    else
      match addResidentBytes merged.residentBytes DIRECTORY_ROW_LOGICAL_BYTES_MAX with
      | .error exit => .error exit
      | .ok residentBytes =>
        mergeDirectoryRows rest { merged with directory := merged.directory.insert key entry, residentBytes }

def mergeLedgerRows : List (StreamUid × LedgerCell) → MergedRows → Checked (Except BootstrapExit MergedRows)
  | [], merged => pure (.ok merged)
  | (uid, .value record) :: rest, merged =>
    if merged.ledger.contains uid then
      mergeLedgerRows rest { merged with ledger := merged.ledger.insert uid record }
    else
      match addResidentBytes merged.residentBytes LEDGER_VALUE_ROW_LOGICAL_BYTES_MAX with
      | .error exit => pure (.error exit)
      | .ok residentBytes => mergeLedgerRows rest { merged with ledger := merged.ledger.insert uid record, residentBytes }
  | (uid, .delete) :: rest, merged => do
    if merged.ledger.contains uid then
      require (LEDGER_VALUE_ROW_LOGICAL_BYTES_MAX ≤ merged.residentBytes)
        "resident accounting removes only an existing record"
      mergeLedgerRows rest { merged with
        ledger := merged.ledger.erase uid
        residentBytes := merged.residentBytes - LEDGER_VALUE_ROW_LOGICAL_BYTES_MAX }
    else mergeLedgerRows rest merged

def overlaps {K V : Type} [Ord K] (previousLast : Option K) (first : K × V) : Bool :=
  previousLast.any fun previous => compare previous first.1 ≠ .lt

def mergeDirectoryTable (merged : MergedRows) (previousLast : Option StreamPath) (rows : List (StreamPath × DirectoryEntry)) :
    Checked (Except BootstrapExit (MergedRows × Option StreamPath)) := do
  let first ← expect "checked SST decoding produces a nonempty table" rows.head?
  if overlaps previousLast first then
    pure (.error (.contradiction "Directory tables within one sorted run overlap or are unordered"))
  else
    match mergeDirectoryRows rows merged with
    | .error exit => pure (.error exit)
    | .ok merged => pure (.ok (merged, rows.getLast?.map Prod.fst))

def mergeLedgerTable (merged : MergedRows) (previousLast : Option StreamUid) (rows : List (StreamUid × LedgerCell)) :
    Checked (Except BootstrapExit (MergedRows × Option StreamUid)) := do
  let first ← expect "checked SST decoding produces a nonempty table" rows.head?
  if overlaps previousLast first then
    pure (.error (.contradiction "Ledger tables within one sorted run overlap or are unordered"))
  else
    match ← mergeLedgerRows rows merged with
    | .error exit => pure (.error exit)
    | .ok merged => pure (.ok (merged, rows.getLast?.map Prod.fst))

def batchOne : Except BootstrapExit BatchId :=
  match BatchId.tryFrom 1 with
  | .ok batch => .ok batch
  | .error _ => .error (.contradiction "batch one must be a legal WAL coordinate")

def maxBatch : Option BatchId → Option BatchId → Option BatchId
  | none, other => other
  | some batch, none => some batch
  | some batch, some other => if batch ≤ other then some other else some batch

def planFenceCandidate (cut listedTail : Option BatchId) : Except BootstrapExit BatchId :=
  match maxBatch cut listedTail with
  | some tail =>
    match tail.successor with
    | .ok candidate => .ok candidate
    | .error _ => .error (.retryable "WAL coordinate space is exhausted before takeover")
  | none => batchOne

def mapTakeoverFenceError : TakeoverFenceError → BootstrapExit
  | .noRunCoordinate => .retryable "WAL coordinate space has no RUN coordinate after the takeover FENCE"
  | .notAfterCut => .contradiction "takeover FENCE is not strictly after the Seal replay cut"
  | .spanExceeded span =>
    .retryable ("WAL suffix through takeover FENCE spans " ++ toString span ++ " coordinates; the bound is 1024")

def replayStart : WalReplayPoint → Except BootstrapExit BatchId
  | .genesis => batchOne
  | .through batch _ =>
    match batch.successor with
    | .ok next => .ok next
    | .error _ => .error (.retryable "Seal replay cut occupies the final WAL coordinate")

def foldReplayFacts (batch : BatchId) : List OperationFact → Forest → Checked (Forest × Option String)
  | [], forest => pure (forest, none)
  | fact :: rest, forest => do
    match ← forest.strictFold batch fact with
    | (forest, .ok _) => foldReplayFacts batch rest forest
    | (forest, .error contradiction) =>
      pure (forest, some ("fact in WAL RUN " ++ batch.debug ++ " contradicts recovered state: " ++ contradiction.toText))

def genesisSeal (partition : PartitionId) : Except SealError Seal :=
  Seal.new partition SealGeneration.genesis .genesis TreeVersion.empty TreeVersion.empty

def establishGenesis (partition : PartitionId) : Checked Transition := do
  let genesis ← expectOk "canonical empty genesis satisfies every Seal invariant" (genesisSeal partition)
  match EncodedGenesisSeal.tryFrom genesis with
  | .ok encoded => pure (effect (.establishingGenesis partition) (.establishGenesis encoded))
  | .error source =>
    pure (exit (.contradiction ("canonical genesis could not be encoded: " ++ source.toText)))

def handleAnomalyHead (claim : AuthoredClaim) (detail : String) : Option SealGeneration → Transition
  | some observed =>
    if claim.generation < observed then exit (.fenced observed)
    else if observed = claim.generation then exit (.contradiction detail)
    else
      exit (.contradiction ("Seal head regressed from authored claim " ++ claim.generation.debug ++ " to " ++
        observed.debug ++ " while classifying: " ++ detail))
  | none => exit (.contradiction ("Seal namespace became empty while classifying replay anomaly: " ++ detail))

def handleFinalHead (recovery : WriterRecovery) : Option SealGeneration → Transition
  | some observed =>
    if observed = recovery.claim.generation then complete recovery
    else if recovery.claim.generation < observed then exit (.fenced observed)
    else
      exit (.contradiction ("final Seal refresh regressed from " ++ recovery.claim.generation.debug ++ " to " ++
        observed.debug))
  | none => exit (.contradiction "Seal namespace is empty during final refresh")

def handleHead (state : BootstrapState) (observed : Option SealGeneration) : Checked Transition :=
  match state with
  | .discoveringHead genesisPartition =>
    match observed with
    | some generation => pure (effect (.readingSeal generation) (.readSeal generation))
    | none => establishGenesis genesisPartition
  | .refreshingAnomaly claim detail => pure (handleAnomalyHead claim detail observed)
  | .refreshingFinal recovery => pure (handleFinalHead recovery observed)
  | _ => unexpected "HeadObserved"

def handleGenesis (state : BootstrapState) (establishment : GenesisEstablishment) : Checked Transition :=
  match state with
  | .establishingGenesis genesisPartition =>
    match establishment with
    | .established => pure (effect (.readingSeal SealGeneration.genesis) (.readSeal SealGeneration.genesis))
    | .lostRace => pure (effect (.discoveringHead genesisPartition) .observeHead)
    | .unresolved => pure (exit (.retryable "canonical genesis create is unresolved"))
  | _ => unexpected "GenesisEstablished"

def handleSeal (state : BootstrapState) (observed : Option Seal) : Checked Transition :=
  match state with
  | .readingSeal generation =>
    match observed with
    | none => pure (exit (.contradiction ("newest Seal " ++ generation.debug ++ " is absent")))
    | some head => do
      require (generation = head.generation) "a Seal read completion retains its exact issued generation"
      match planBootstrapSources head with
      | .error error => pure (exit error)
      | .ok sources =>
        match head.claimSuccessor with
        | .error source =>
          pure (exit (.contradiction ("newest Seal cannot form an exact claim successor: " ++ source.toText)))
        | .ok candidate =>
          match EncodedAuthoritySeal.tryFrom candidate with
          | .ok encoded => pure (effect (.publishingClaim candidate sources) (.publishClaim encoded))
          | .error source =>
            pure (exit (.contradiction ("claim Seal could not be encoded: " ++ source.toText)))
  | _ => unexpected "SealRead"

def readNextTable (load : BaseLoad) : Transition :=
  match load.remaining with
  | [] =>
    match Forest.tryFrom load.merged.directory load.merged.ledger with
    | .error error => exit (mapForestError error)
    | .ok forest => effect (.observingWalTail ⟨load.claimed, forest, forest⟩ none) .observeWalTail
  | source :: remaining =>
    effect (.readingTable { load with remaining } source) (.readTable load.claimed.sealed.partition source.table)

def handleClaim (state : BootstrapState) (publication : SealPublication) : Checked Transition :=
  match state with
  | .publishingClaim candidate sources =>
    match publication with
    | .authored =>
      pure (readNextTable {
        claimed := ⟨⟨candidate.generation⟩, candidate⟩
        remaining := sources
        merged := MergedRows.empty
        previousDirectory := none
        previousLedger := none })
    | .noAuthority => pure (exit (.fenced candidate.generation))
    | .unresolved =>
      pure (exit (.retryable ("claim create at " ++ candidate.generation.debug ++ " is unresolved")))
  | _ => unexpected "ClaimPublished"

def mergeTable (load : BaseLoad) (source : PlannedTable) : DecodedTable → Checked (Except BootstrapExit BaseLoad)
  | .directory rows => do
    require (source.table.object.store = .directory)
      "a typed Directory completion matches its requested table store"
    let previous := if source.startsRun then none else load.previousDirectory
    match ← mergeDirectoryTable load.merged previous rows with
    | .error exit => pure (.error exit)
    | .ok (merged, last) => pure (.ok { load with merged, previousDirectory := last })
  | .ledger rows => do
    require (source.table.object.store = .ledger) "a typed Ledger completion matches its requested table store"
    let previous := if source.startsRun then none else load.previousLedger
    match ← mergeLedgerTable load.merged previous rows with
    | .error exit => pure (.error exit)
    | .ok (merged, last) => pure (.ok { load with merged, previousLedger := last })

def handleTable (state : BootstrapState) (table : TableRef) (decoded : DecodedTable) : Checked Transition :=
  match state with
  | .readingTable load source => do
    require (source.table = table) "a table read completion retains its exact issued identity"
    match ← mergeTable load source decoded with
    | .ok load => pure (readNextTable load)
    | .error error => pure (exit error)
  | _ => unexpected "TableRead"

def establishFence (loaded : LoadedBootstrap) (fence : TakeoverFence) : Transition :=
  match EncodedWal.new ⟨loaded.claimed.sealed.partition, fence.batch, loaded.claimed.claim.owner, .fence⟩ with
  | .ok encoded => effect (.establishingFence loaded fence) (.establishFence encoded)
  | .error source => exit (.contradiction ("takeover FENCE could not be encoded: " ++ source.toText))

def tailAboveCut (cut listedTail : Option BatchId) : Option BatchId :=
  listedTail.filter fun tail => cut.all fun cut => cut < tail

def placeFence (loaded : LoadedBootstrap) (listedTail : Option BatchId) (candidate : BatchId) : Transition :=
  match boundTakeoverFence loaded.claimed.sealed.replay.batch candidate with
  | .error error => exit (mapTakeoverFenceError error)
  | .ok fence =>
    match tailAboveCut loaded.claimed.sealed.replay.batch listedTail with
    | some tail => effect (.readingWalTail loaded fence tail) (.readWal loaded.claimed.sealed.partition tail)
    | none => establishFence loaded fence

def handleWalTail (state : BootstrapState) (listedTail : Option BatchId) : Checked Transition :=
  match state with
  | .observingWalTail loaded occupied =>
    match planFenceCandidate loaded.claimed.sealed.replay.batch listedTail with
    | .error error => pure (exit error)
    | .ok candidate =>
      match occupied with
      | some occupied =>
        if candidate ≤ occupied then
          pure (exit (.contradiction ("WAL list did not advance past occupied FENCE candidate " ++ occupied.debug)))
        else pure (placeFence loaded listedTail candidate)
      | none => pure (placeFence loaded listedTail candidate)
  | _ => unexpected "WalTailObserved"

def handleTailRead (loaded : LoadedBootstrap) (fence : TakeoverFence) (listedTail : BatchId) :
    Option WalObject → Checked Transition
  | none =>
    pure (exit (.retryable ("listed WAL tail " ++ listedTail.debug ++ " disappeared before FENCE placement")))
  | some observed => do
    require (listedTail = observed.batch) "a WAL read completion retains its exact issued batch"
    require (loaded.claimed.sealed.partition = observed.partition)
      "a WAL read completion retains its exact issued partition"
    if loaded.claimed.claim.owner ≤ observed.owner then
      pure (refreshAnomaly loaded.claimed.claim ("listed WAL tail " ++ listedTail.debug ++ " has owner " ++
        observed.owner.debug ++ ", not older than the authored owner"))
    else pure (establishFence loaded fence)

def handleFence (state : BootstrapState) (establishment : WalEstablishment) : Checked Transition :=
  match state with
  | .establishingFence loaded fence =>
    match establishment with
    | .durable =>
      match replayStart loaded.claimed.sealed.replay with
      | .error error => pure (exit error)
      | .ok next =>
        pure (effect (.replaying ⟨loaded, next, fence, loaded.claimed.sealed.replay.owner⟩)
          (.readWal loaded.claimed.sealed.partition next))
    | .occupied => pure (effect (.observingWalTail loaded (some fence.batch)) .observeWalTail)
    | .unresolvedAbsent =>
      pure (exit (.retryable ("takeover FENCE create at " ++ fence.batch.debug ++
        " is unresolved and absent on reconciliation")))
  | _ => unexpected "FenceEstablished"

def replayObject (replay : Replay) (observed : WalObject) : Checked (Except String Replay) :=
  match observed.body with
  | .fence =>
    if replay.owner.any fun current => observed.owner ≤ current then
      pure (.error ("FENCE at " ++ replay.next.debug ++ " does not strictly increase the replay owner"))
    else pure (.ok { replay with owner := some observed.owner })
  | .run facts =>
    if replay.owner = some observed.owner then do
      match ← foldReplayFacts replay.next facts.facts replay.loaded.durable with
      | (_, some detail) => pure (.error detail)
      | (durable, none) => pure (.ok { replay with loaded := { replay.loaded with durable } })
    else pure (.error ("RUN at " ++ replay.next.debug ++ " does not match the replay owner"))

def advanceReplay (replay : Replay) : Checked Transition :=
  if replay.next = replay.fence.batch then do
    require (some replay.loaded.claimed.claim.owner = replay.owner)
      "replay ends under the authored takeover owner"
    pure (effect (.refreshingFinal {
      claim := replay.loaded.claimed.claim
      sealed := replay.loaded.claimed.sealed
      base := replay.loaded.base
      durable := replay.loaded.durable
      durableBatch := replay.fence.batch }) .observeHead)
  else
    match replay.next.successor with
    | .error _ => pure (exit (.contradiction "WAL replay coordinate is exhausted before the FENCE"))
    | .ok next =>
      pure (effect (.replaying { replay with next }) (.readWal replay.loaded.claimed.sealed.partition next))

def handleReplayRead (replay : Replay) : Option WalObject → Checked Transition
  | none =>
    pure (refreshAnomaly replay.loaded.claimed.claim
      ("WAL coordinate " ++ replay.next.debug ++ " is absent below the FENCE"))
  | some observed => do
    require (replay.next = observed.batch) "a replay completion retains its exact issued batch"
    require (replay.loaded.claimed.sealed.partition = observed.partition)
      "a replay completion retains its exact issued partition"
    require (replay.next = replay.fence.batch → observed.body = .fence)
      "the established takeover coordinate reads back as a FENCE"
    require (replay.next = replay.fence.batch → replay.loaded.claimed.claim.owner = observed.owner)
      "the established takeover FENCE retains the authored owner"
    match ← replayObject replay observed with
    | .error detail => pure (refreshAnomaly replay.loaded.claimed.claim detail)
    | .ok replay => advanceReplay replay

def handleWalRead (state : BootstrapState) (observed : Option WalObject) : Checked Transition :=
  match state with
  | .readingWalTail loaded fence listedTail => handleTailRead loaded fence listedTail observed
  | .replaying replay => handleReplayRead replay observed
  | _ => unexpected "WalRead"

def handleStoreFailure (state : BootstrapState) (error : TypedStoreError) : Checked Transition :=
  match state, error with
  | .readingWalTail loaded _ _, .contradiction detail => pure (refreshAnomaly loaded.claimed.claim detail)
  | .replaying replay, .contradiction detail => pure (refreshAnomaly replay.loaded.claimed.claim detail)
  | .initial, _ => unexpected "StoreFailed"
  | .complete, _ => unexpected "StoreFailed"
  | _, error => pure (exit (storeExit error))

def handle (state : BootstrapState) : BootstrapEvent → Checked Transition
  | .started genesisPartition => do
    require (state = .initial) "bootstrap starts exactly once before receiving completions"
    pure (effect (.discoveringHead genesisPartition) .observeHead)
  | .headObserved observed => handleHead state observed
  | .genesisEstablished establishment => handleGenesis state establishment
  | .sealRead observed => handleSeal state observed
  | .claimPublished publication => handleClaim state publication
  | .tableRead table decoded => handleTable state table decoded
  | .walTailObserved listedTail => handleWalTail state listedTail
  | .walRead observed => handleWalRead state observed
  | .fenceEstablished establishment => handleFence state establishment
  | .storeFailed error => handleStoreFailure state error

end Bootstrap

end StromDB
