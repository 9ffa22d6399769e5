import StromDB.Lib.Chunk
import StromDB.Protocol.Writer

namespace StromDB

open Checked

variable [Rkyv]

structure ChunkAccounting where
  tables : Nat
  bytes : Nat
deriving DecidableEq, Repr

def ledgerRowBytes : LedgerCell → Nat
  | .value _ => LEDGER_VALUE_ROW_ENCODED_BYTES_MAX
  | .delete => LEDGER_DELETE_ROW_ENCODED_BYTES_MAX

def forEachChunk {Row : Type} (rowBytes : Row → Nat) (rows : List Row) : Checked (List (List Row × Nat)) := do
  require (rows.all fun row => SST_ARCHIVE_FIXED_BYTES_MAX + rowBytes row ≤ SST_TABLE_TARGET_BYTES)
    "one worst-case encoded row fits the checkpoint table target"
  pure (Chunk.chunks SST_ARCHIVE_FIXED_BYTES_MAX SST_TABLE_TARGET_BYTES rowBytes rows)

abbrev RowsFit {Row : Type} (rowBytes : Row → Nat) (rows : List Row) : Prop :=
  ∀ row ∈ rows, SST_ARCHIVE_FIXED_BYTES_MAX + rowBytes row ≤ SST_TABLE_TARGET_BYTES

def accountRows (rows : List Nat) : Checked ChunkAccounting := do
  let chunks ← forEachChunk id rows
  pure ⟨chunks.length, (chunks.map Prod.snd).sum⟩

def directoryRowSizes (delta : ForestDelta) : List Nat := delta.directory.map fun _ => DIRECTORY_ROW_ENCODED_BYTES_MAX

def ledgerRowSizes (delta : ForestDelta) : List Nat := delta.ledger.map fun row => ledgerRowBytes row.2

-- The counters of the source are machine words; their overflow needs more rows
-- than a partition holds.
def selectDelta (source : Seal) (directory ledger : ChunkAccounting) : Bool :=
  source.directory.runs.length + (if directory.tables ≠ 0 then 1 else 0) ≤ TREE_RUNS_MAX &&
  source.ledger.runs.length + (if ledger.tables ≠ 0 then 1 else 0) ≤ TREE_RUNS_MAX &&
  source.tables.length + (directory.tables + ledger.tables) ≤ PARTITION_BOOTSTRAP_OBJECTS_MAX_V2 &&
  (source.tables.map fun table => table.objectBytes.get).sum + (directory.bytes + ledger.bytes) ≤
    PARTITION_BOOTSTRAP_BYTES_MAX_V2

def canAppendDelta (source : Seal) (delta : ForestDelta) : Checked Bool := do
  let directory ← accountRows (directoryRowSizes delta)
  let ledger ← accountRows (ledgerRowSizes delta)
  pure (selectDelta source directory ledger)

def assertFullPlan (directory ledger : ChunkAccounting) : Checked Unit := do
  require (directory.tables + ledger.tables ≤ PARTITION_BOOTSTRAP_OBJECTS_MAX_V2)
    "encoded chunking keeps a maximum-capacity full base inside the object bound"
  require (directory.bytes + ledger.bytes ≤ PARTITION_BOOTSTRAP_BYTES_MAX_V2)
    "encoded chunking keeps a maximum-capacity full base inside the byte bound"

def planCheckpoint (source : Seal) (snapshot : Forest) (delta : ForestDelta) : Checked (ForestDelta × Option Seal) := do
  if ← canAppendDelta source delta then pure (delta, some source)
  else
    let cells := snapshot.checkpointCells
    let directory ← accountRows (directoryRowSizes cells)
    let ledger ← accountRows (ledgerRowSizes cells)
    assertFullPlan directory ledger
    pure (cells, none)

def nextTableKey (generation : SealGeneration) (attempt : AttemptId) (ordinal : Nat) (store : StoreKind) :
    Checked (TableObjectId × Nat) := do
  require (ordinal + 1 < 2 ^ 32) "a checkpoint table ordinal fits in u32"
  let fresh ← expectOk "checkpoint planning constructs a valid fresh table identity"
    (FreshIdentity.new generation attempt ordinal)
  pure (⟨fresh, store⟩, ordinal + 1)

def buildTables {Row : Type} (generation : SealGeneration) (attempt : AttemptId) (store : StoreKind)
    (encode : TableObjectId → List Row → Except SstEncodeError EncodedTable) (unencodable undercounted : String) :
    List (List Row × Nat) → Nat → Checked (List EncodedTable × Nat)
  | [], ordinal => pure ([], ordinal)
  | (rows, estimate) :: rest, ordinal => do
    let (key, next) ← nextTableKey generation attempt ordinal store
    let encoded ← expectOk unencodable (encode key rows)
    require (encoded.table.objectBytes.get ≤ estimate) undercounted
    let (tables, last) ← buildTables generation attempt store encode unencodable undercounted rest next
    pure (encoded :: tables, last)

def carriedRuns : Option TreeVersion → List SortedRun
  | some carried => carried.runs
  | none => []

def buildManifest (carried : Option TreeVersion) (tables : List TableRef) : Checked TreeVersion := do
  if tables = [] then
    expectOk "checkpoint planning constructs a legal tree version" (TreeVersion.tryFrom (carriedRuns carried))
  else
    let fresh ← expectOk "checkpoint tables form one legal sorted run" (SortedRun.tryFrom tables)
    expectOk "checkpoint planning constructs a legal tree version"
      (TreeVersion.tryFrom (fresh :: carriedRuns carried))

def buildDirectoryTree (partition : PartitionId) (generation : SealGeneration) (attempt : AttemptId) (ordinal : Nat)
    (rows : List (StreamPath × DirectoryEntry)) (carried : Option TreeVersion) :
    Checked (List EncodedTable × TreeVersion × Nat) := do
  let chunks ← forEachChunk (fun _ => DIRECTORY_ROW_ENCODED_BYTES_MAX) rows
  let (tables, ordinal) ← buildTables generation attempt .directory (encodeDirectory partition)
    "planned Directory rows fit the durable table encoding"
    "Directory encoded accounting dominates the exact frozen table length" chunks ordinal
  let tree ← buildManifest carried (tables.map EncodedTable.table)
  pure (tables, tree, ordinal)

def buildLedgerTree (partition : PartitionId) (generation : SealGeneration) (attempt : AttemptId) (ordinal : Nat)
    (rows : List (StreamUid × LedgerCell)) (carried : Option TreeVersion) :
    Checked (List EncodedTable × TreeVersion × Nat) := do
  let chunks ← forEachChunk (fun row => ledgerRowBytes row.2) rows
  let (tables, ordinal) ← buildTables generation attempt .ledger (encodeLedger partition)
    "planned Ledger rows fit the durable table encoding"
    "Ledger encoded accounting dominates the exact frozen table length" chunks ordinal
  let tree ← buildManifest carried (tables.map EncodedTable.table)
  pure (tables, tree, ordinal)

def assembleCheckpointSeal (partition : PartitionId) (generation : SealGeneration) (cut : BatchId) (owner : OwnerToken)
    (directory ledger : TreeVersion) : Checked (Seal × EncodedAuthoritySeal) := do
  let successor ← expectOk "checkpoint planning constructs a valid exact-successor Seal"
    (Seal.new partition generation (.through cut owner) directory ledger)
  let encoded ← expectOk "a planned checkpoint Seal fits the durable encoding bound"
    (EncodedAuthoritySeal.tryFrom successor)
  pure (successor, encoded)

def prepareCheckpoint [OrdMap.Differ] (input : CheckpointInput) : Checked (Except String (List EncodedTable × PreparedCheckpoint)) :=
  match input.source.generation.successor with
  | .error exhausted => pure (.error exhausted.toText)
  | .ok generation => do
    let delta ← input.snapshot.deltaSince input.base
    let (cells, carried) ← planCheckpoint input.source input.snapshot delta
    let (directoryTables, directory, ordinal) ← buildDirectoryTree input.source.partition generation
      input.ticket.attempt 0 cells.directory (carried.map Seal.directory)
    let (ledgerTables, ledger, _) ← buildLedgerTree input.source.partition generation
      input.ticket.attempt ordinal cells.ledger (carried.map Seal.ledger)
    let (successor, encoded) ← assembleCheckpointSeal input.source.partition generation input.ticket.cut
      ⟨input.ticket.attempt.ownerClaim⟩ directory ledger
    let prepared ← PreparedCheckpoint.new input.ticket input.source successor input.snapshot encoded
    pure (.ok (directoryTables ++ ledgerTables, prepared))

end StromDB
