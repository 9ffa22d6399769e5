import StromDB.Engine.Chunking
import StromDB.Properties.Formats

namespace StromDB

-- The chunks of a row sequence: what each of them is, that the callback is run
-- over them in turn until it answers false, and what the planner counts.
structure Chunked {Row : Type} (rowBytes : Row → Nat) (rows : List Row) (pieces : List (List Row × Nat)) : Prop where
  nonempty : ∀ piece ∈ pieces, piece.1 ≠ []
  whole : (pieces.map Prod.fst).flatten = rows
  estimate : ∀ piece ∈ pieces, piece.2 = 256 + (piece.1.map rowBytes).sum
  within : ∀ piece ∈ pieces, piece.2 ≤ 64 * 1024 * 1024
  full : pieces.IsChain fun piece next => ∃ row more, next.1 = row :: more ∧ 64 * 1024 * 1024 < piece.2 + rowBytes row
  emitted : ∀ (State : Type) (emit : State → List Row → Nat → Checked (State × Bool)) (state : State),
    Emitting.forEachChunk rowBytes emit state rows = emitUntil (fun state piece => emit state piece.1 piece.2) state pieces
  stopped : ∀ (State : Type) (emit : State → List Row → Nat → Checked (State × Bool)) (state middle after : State)
    (before rest : List (List Row × Nat)) (piece : List Row × Nat), pieces = before ++ piece :: rest →
    emitUntil (fun state piece => emit state piece.1 piece.2) state before = .ok (middle, true) →
    emit middle piece.1 piece.2 = .ok (after, false) → Emitting.forEachChunk rowBytes emit state rows = .ok (after, false)
  counted : ∀ accounting, Emitting.accountRows (rows.map rowBytes) = .ok accounting →
    accounting = ⟨pieces.length, (pieces.map Prod.snd).sum⟩
  countable : (pieces.map Prod.snd).sum < 2 ^ 64 → ∃ accounting, Emitting.accountRows (rows.map rowBytes) = .ok accounting

theorem chunked_planned [Rkyv] {Row : Type} {rowBytes : Row → Nat} {rows : List Row}
    (fits : RowsFit rowBytes rows) :
    Chunked rowBytes rows (Emitting.plannedChunks rowBytes rows) where
  nonempty := Chunk.chunks_nonempty _ _ rowBytes rows
  whole := Chunk.chunks_flatten _ _ rowBytes rows
  estimate := Chunk.chunks_bytes _ _ rowBytes rows
  within := Chunk.chunks_within _ _ rowBytes rows (by decide) fits
  full := Chunk.chunks_full _ _ rowBytes rows
  emitted := fun _ emit state => Emitting.forEachChunk_eq rowBytes emit state rows fits
  stopped := by
    intro State emit state middle after before rest piece shape reached refused
    rw [Emitting.forEachChunk_eq rowBytes emit state rows fits, shape]
    exact emitUntil_stops _ before rest piece state middle after reached refused
  counted := Emitting.accountRows_eq rowBytes rows fits
  countable := Emitting.accountRows_ok rowBytes rows fits

-- The tables of a finished tree, one for each planned chunk and no longer than
-- its estimate, as many and as large as the planner counted.
def BuiltAsPlanned [Rkyv] {Row State : Type} (rowBytes : Row → Nat)
    (encode : TableObjectId → List Row → Except SstEncodeError EncodedTable)
    (emit : State → EncodedTable → Checked (State × Bool)) (rows : List Row) (ordinal last : Nat) (state after : State) : Prop :=
  ∃ pieces tables, Chunked rowBytes rows pieces ∧ emitUntil emit state tables = .ok (after, true) ∧ last = ordinal + tables.length ∧
    List.Forall₂ (fun piece table => (∃ key, encode key piece.1 = .ok table) ∧ table.table.objectBytes.get ≤ piece.2) pieces tables ∧
    ∀ accounting, Emitting.accountRows (rows.map rowBytes) = .ok accounting →
      accounting.tables = tables.length ∧ accounting.bytes = (pieces.map Prod.snd).sum

theorem buildTree_as_planned [Rkyv] {Row State : Type} {generation : SealGeneration} {attempt : AttemptId} {store : StoreKind}
    {encode : TableObjectId → List Row → Except SstEncodeError EncodedTable} {unencodable undercounted : String}
    {emit : State → EncodedTable → Checked (State × Bool)} {rowBytes : Row → Nat} {ordinal last : Nat} {rows : List Row}
    {carried : Option TreeVersion} {state after : State} {tree : TreeVersion}
    (fits : RowsFit rowBytes rows)
    (done : Emitting.buildTree generation attempt store encode unencodable undercounted emit rowBytes ordinal rows carried state =
      .ok (after, last, some tree)) : BuiltAsPlanned rowBytes encode emit rows ordinal last state after := by
  obtain ⟨tables, built, _, emitted⟩ := (Emitting.buildTree_finished_iff _ _ _ _ _ _ _ _ _ _ _ _ _ _ _ fits).mp done
  obtain ⟨ended, each⟩ := Emitting.buildTables_each _ _ _ _ _ _ _ _ _ _ built
  have planned := chunked_planned fits
  refine ⟨_, tables, planned, emitted, ended, each, fun accounting counted => ?_⟩
  rw [planned.counted accounting counted, ← each.length_eq]
  exact ⟨rfl, rfl⟩

-- What the builders ask of their input beyond the sizes of its rows, on the
-- planner's count of the tables: rows in key order, an attempt older than the
-- generation, and room for the ordinals, the new run and the tree.
structure Buildable {K V : Type} [Ord K] (rowBytes : K × V → Nat) (generation : SealGeneration) (attempt : AttemptId) (ordinal : Nat)
    (rows : List (K × V)) (carried : Option TreeVersion) (accounting : ChunkAccounting) : Prop where
  counted : Emitting.accountRows (rows.map rowBytes) = .ok accounting
  ordered : strictlyOrdered rows = true
  predates : attempt.ownerClaim < generation
  ordinals : ordinal + accounting.tables < 2 ^ 32
  few : accounting.tables ≤ RUN_TABLES_MAX
  room : (carriedRuns carried).length + (if accounting.tables ≠ 0 then 1 else 0) ≤ TREE_RUNS_MAX

theorem buildTree_finishes [Rkyv] {K V State : Type} [Ord K] [Std.TransOrd K] {wrap : List (K × V) → DecodedTable} {store : StoreKind}
    {rowBytes : K × V → Nat} {partition : PartitionId} {encode : TableObjectId → List (K × V) → Except SstEncodeError EncodedTable}
    (encodes : Encodes wrap store rowBytes partition encode) {generation : SealGeneration} {attempt : AttemptId}
    (unencodable undercounted : String) {emit : State → EncodedTable → Checked (State × Bool)}
    (accepts : ∀ state table, ∃ next, emit state table = .ok (next, true)) {ordinal : Nat} {rows : List (K × V)}
    {carried : Option TreeVersion} (state : State) {accounting : ChunkAccounting}
    (buildable : Buildable rowBytes generation attempt ordinal rows carried accounting) :
    ∃ after tree, Emitting.buildTree generation attempt store encode unencodable undercounted emit rowBytes ordinal rows carried state =
      .ok (after, ordinal + accounting.tables, some tree) := by
  have fits : RowsFit rowBytes rows := fun row _ => encodes.small row
  have count : accounting.tables = (rowChunks rowBytes rows).length :=
    congrArg ChunkAccounting.tables (Emitting.accountRows_eq rowBytes rows fits accounting buildable.counted)
  obtain ⟨tables, tree, _, built, manifest, _⟩ := buildTree_ok encodes generation attempt buildable.predates unencodable undercounted
    ordinal rows buildable.ordered carried (count ▸ buildable.ordinals) (count ▸ buildable.few) (count ▸ buildable.room)
  obtain ⟨after, emitted⟩ := emitUntil_accepts emit accepts tables state
  rw [← count] at built
  exact ⟨after, tree, (Emitting.buildTree_finished_iff _ _ _ _ _ _ _ _ _ _ _ _ _ _ _ fits).mpr ⟨tables, built, manifest, emitted⟩⟩

theorem chunk_planning_exact [Rkyv] :
    (∀ (Row : Type) (rowBytes : Row → Nat) (rows : List Row), (∀ row ∈ rows, 256 + rowBytes row ≤ 64 * 1024 * 1024) →
      ∃ pieces, Chunked rowBytes rows pieces) ∧
    (∀ (State : Type) (emit : State → EncodedTable → Checked (State × Bool)) (partition : PartitionId) (generation : SealGeneration)
      (attempt : AttemptId) (ordinal : Nat) (rows : List (StreamPath × DirectoryEntry)) (carried : Option TreeVersion) (state : State),
      (∀ after last tree,
        Emitting.buildDirectoryTree emit partition generation attempt ordinal rows carried state = .ok (after, last, some tree) →
          BuiltAsPlanned (fun _ => DIRECTORY_ROW_ENCODED_BYTES_MAX) (encodeDirectory partition) emit rows ordinal last state after) ∧
      ∀ accounting, Buildable (fun _ => DIRECTORY_ROW_ENCODED_BYTES_MAX) generation attempt ordinal rows carried accounting →
        (∀ state table, ∃ next, emit state table = .ok (next, true)) →
        ∃ after tree, Emitting.buildDirectoryTree emit partition generation attempt ordinal rows carried state =
          .ok (after, ordinal + accounting.tables, some tree)) ∧
    ∀ (State : Type) (emit : State → EncodedTable → Checked (State × Bool)) (partition : PartitionId) (generation : SealGeneration)
      (attempt : AttemptId) (ordinal : Nat) (rows : List (StreamUid × LedgerCell)) (carried : Option TreeVersion) (state : State),
      (∀ after last tree,
        Emitting.buildLedgerTree emit partition generation attempt ordinal rows carried state = .ok (after, last, some tree) →
          BuiltAsPlanned (fun row => ledgerRowBytes row.2) (encodeLedger partition) emit rows ordinal last state after) ∧
      ∀ accounting, Buildable (fun row => ledgerRowBytes row.2) generation attempt ordinal rows carried accounting →
        (∀ state table, ∃ next, emit state table = .ok (next, true)) →
        ∃ after tree, Emitting.buildLedgerTree emit partition generation attempt ordinal rows carried state =
          .ok (after, ordinal + accounting.tables, some tree) := by
  refine ⟨fun Row rowBytes rows fits => ⟨_, chunked_planned fits⟩, ?_, ?_⟩
  · intro State emit partition generation attempt ordinal rows carried state
    have encodes := directory_encodes partition
    exact ⟨fun after last tree => buildTree_as_planned fun row _ => encodes.small row,
      fun accounting buildable accepts => buildTree_finishes encodes _ _ accepts state buildable⟩
  · intro State emit partition generation attempt ordinal rows carried state
    have encodes := ledger_encodes partition
    exact ⟨fun after last tree => buildTree_as_planned fun row _ => encodes.small row,
      fun accounting buildable accepts => buildTree_finishes encodes _ _ accepts state buildable⟩

attribute [local instance] plainRkyv

def takeTable (taken : List EncodedTable) (table : EncodedTable) : Checked (List EncodedTable × Bool) := pure (taken ++ [table], true)

theorem takeTable_accepts (taken : List EncodedTable) (table : EncodedTable) : ∃ next, takeTable taken table = .ok (next, true) :=
  ⟨_, rfl⟩

theorem chunk_planning_exact_rows :
    (∃ pieces, Chunked id [32 * 1024 * 1024, 32 * 1024 * 1024, 5] pieces ∧ pieces.length = 2) ∧
    ∃ entries cells directory ledger,
      Emitting.buildDirectoryTree takeTable firstPartition ⟨.three⟩ ⟨⟨.two⟩, 0⟩ 0 [(samplePath, .live firstUid)] none [] =
        .ok (entries, 1, some directory) ∧
      BuiltAsPlanned (fun _ => DIRECTORY_ROW_ENCODED_BYTES_MAX) (encodeDirectory firstPartition) takeTable
        [(samplePath, .live firstUid)] 0 1 [] entries ∧
      Emitting.buildLedgerTree takeTable firstPartition ⟨.three⟩ ⟨⟨.two⟩, 0⟩ 1 deletedCells none entries =
        .ok (cells, 2, some ledger) ∧
      BuiltAsPlanned (fun row => ledgerRowBytes row.2) (encodeLedger firstPartition) takeTable deletedCells 1 2 entries cells := by
  constructor
  · obtain ⟨pieces, chunked⟩ := chunk_planning_exact.1 Nat id [32 * 1024 * 1024, 32 * 1024 * 1024, 5] (by decide)
    have counted : Emitting.accountRows [32 * 1024 * 1024, 32 * 1024 * 1024, 5] = .ok ⟨2, 67109381⟩ := by decide +kernel
    exact ⟨pieces, chunked, (congrArg ChunkAccounting.tables (chunked.counted _ counted)).symm⟩
  · obtain ⟨entriesPlanned, entriesBuilt⟩ := chunk_planning_exact.2.1 _ takeTable firstPartition ⟨.three⟩ ⟨⟨.two⟩, 0⟩ 0
      [(samplePath, .live firstUid)] none []
    obtain ⟨entries, directory, entriesDone⟩ := entriesBuilt ⟨1, 256 + DIRECTORY_ROW_ENCODED_BYTES_MAX⟩
      ⟨by decide +kernel, by decide +kernel, by decide, by decide, by decide, by decide⟩ takeTable_accepts
    obtain ⟨cellsPlanned, cellsBuilt⟩ := chunk_planning_exact.2.2 _ takeTable firstPartition ⟨.three⟩ ⟨⟨.two⟩, 0⟩ 1
      deletedCells none entries
    obtain ⟨cells, ledger, cellsDone⟩ := cellsBuilt ⟨1, 256 + (deletedCells.map fun row => ledgerRowBytes row.2).sum⟩
      ⟨by decide +kernel, by decide +kernel, by decide, by decide, by decide, by decide⟩ takeTable_accepts
    exact ⟨entries, cells, directory, ledger, entriesDone, entriesPlanned _ _ _ entriesDone, cellsDone,
      cellsPlanned _ _ _ cellsDone⟩

end StromDB
