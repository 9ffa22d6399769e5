import StromDB.Engine.Materialize
import StromDB.Engine.Prepare

namespace StromDB

open Checked List Option Forest OrdMap

variable [Rkyv]

namespace Forest

theorem Grows.pathCount_le {base forest : Forest} (grows : Grows base forest) : base.pathCount ≤ forest.pathCount :=
  size_le_of_keys grows

theorem Consistent.uid_le {forest : Forest} (consistent : forest.Consistent) (uid : StreamUid)
    (held : forest.ledger[uid]?.isSome) : uid.get ≤ forest.pathCount := by
  obtain ⟨record, found⟩ := isSome_iff_exists.mp held
  obtain ⟨path, here⟩ := consistent.live uid record found
  exact consistent.range path _ here

structure Cells (base forest : Forest) (cells : ForestDelta) : Prop where
  directoryOrdered : strictlyOrdered cells.directory = true
  ledgerOrdered : strictlyOrdered cells.ledger = true
  directory : OrdMap.patch (directoryCells cells.directory) base.directory = forest.directory
  ledger : OrdMap.patch (ledgerCells cells.ledger) base.ledger = forest.ledger
  numbered : ∀ row ∈ cells.ledger, row.1.get ≤ forest.pathCount

theorem deltaDirectory_ok (forest : Forest) (items : List (OrdMap.DiffItem StreamPath DirectoryEntry))
    (values : ∀ item ∈ items, item.cell.isSome) :
    ∃ rows, forest.deltaDirectory items = .ok rows ∧ directoryCells rows = items.map fun item => (item.key, item.cell) := by
  induction items with
  | nil => exact ⟨[], rfl, rfl⟩
  | cons item rest ih =>
    obtain ⟨rows, done, same⟩ := ih fun other member => values other (mem_cons_of_mem _ member)
    cases item with
    | add key entry => exact ⟨(key, entry) :: rows, by simp [deltaDirectory, done], congrArg ((key, some entry) :: ·) same⟩
    | update key old entry =>
      exact ⟨(key, entry) :: rows, by simp [deltaDirectory, done], congrArg ((key, some entry) :: ·) same⟩
    | remove key entry => cases values _ mem_cons_self

omit [Rkyv] in
theorem keys_directoryCells (rows : List (StreamPath × DirectoryEntry)) : (directoryCells rows).map Prod.fst = rows.map Prod.fst := by
  simp [directoryCells, Function.comp_def]

theorem keys_ledgerCells (rows : List (StreamUid × LedgerCell)) : (ledgerCells rows).map Prod.fst = rows.map Prod.fst := by
  simp [ledgerCells, Function.comp_def]

theorem ledgerCells_delta (items : List (OrdMap.DiffItem StreamUid StreamRecord)) :
    ledgerCells (items.map deltaLedger) = items.map fun item => (item.key, item.cell) := by
  rw [ledgerCells, List.map_map]
  apply List.map_congr_left
  intro item _
  cases item <;> rfl

theorem deltaSince_diff [Differ] {base forest : Forest} (grows : Grows base forest) : ∃ delta, forest.deltaSince base = .ok delta ∧
    directoryCells delta.directory = (OrdMap.diff base.directory forest.directory).map (fun item => (item.key, item.cell)) ∧
    delta.ledger = (OrdMap.diff base.ledger forest.ledger).map deltaLedger := by
  have values : ∀ item ∈ diff base.directory forest.directory, item.cell.isSome := by
    intro item member
    obtain ⟨_, cell, differs⟩ := diffAt_eq_some _ _ _ _ ((mem_diff _ _ item).mp member)
    rw [cell]
    by_cases held : base.directory[item.key]?.isSome
    · exact grows _ held
    · rw [not_isSome_iff_eq_none] at held
      rw [held] at differs
      exact isSome_iff_ne_none.mpr (Ne.symm differs)
  obtain ⟨rows, done, same⟩ := deltaDirectory_ok forest _ values
  exact ⟨⟨rows, (diff base.ledger forest.ledger).map deltaLedger⟩, by simp [deltaSince, done], same, rfl⟩

theorem deltaSince_ok [Differ] {base forest : Forest} (before : base.Consistent) (after : forest.Consistent)
    (grows : Grows base forest) : ∃ delta, forest.deltaSince base = .ok delta ∧ Cells base forest delta := by
  obtain ⟨⟨rows, cells⟩, done, same, rfl⟩ := deltaSince_diff grows
  refine ⟨_, done, ?_, ?_, ?_, ?_, ?_⟩
  · rw [strictlyOrdered_iff, ← keys_directoryCells, same]
    simpa [Function.comp_def] using diff_keys_ordered base.directory forest.directory
  · rw [strictlyOrdered_iff, ← keys_ledgerCells, ledgerCells_delta]
    simpa [Function.comp_def] using diff_keys_ordered base.ledger forest.ledger
  · rw [same]
    exact patch_diff base.directory forest.directory
  · rw [ledgerCells_delta]
    exact patch_diff base.ledger forest.ledger
  intro row member
  obtain ⟨item, here, rfl⟩ := List.mem_map.mp member
  have found := (mem_diff _ _ item).mp here
  have key : (deltaLedger item).1 = item.key := by cases item <;> rfl
  rw [key]
  have differs := (diffAt_eq_some _ _ _ item found).2.2
  by_cases held : forest.ledger[item.key]?.isSome
  · exact after.uid_le _ held
  · refine Nat.le_trans (before.uid_le _ ?_) (grows.pathCount_le)
    rw [not_isSome_iff_eq_none] at held
    rw [held] at differs
    exact isSome_iff_ne_none.mpr differs

theorem checkpointCells_cells {forest : Forest} (consistent : forest.Consistent) :
    Cells Forest.empty forest forest.checkpointCells where
  directoryOrdered := strictlyOrdered_iff.mpr (toList_keys_ordered forest.directory)
  ledgerOrdered := by
    rw [strictlyOrdered_iff]
    simpa [checkpointCells, Function.comp_def] using toList_keys_ordered forest.ledger
  directory := patch_toList forest.directory
  ledger := by
    have whole := patch_toList forest.ledger
    simpa [checkpointCells, ledgerCells, LedgerCell.toOption, Function.comp_def, empty] using whole
  numbered := by
    intro row member
    obtain ⟨⟨uid, record⟩, here, rfl⟩ := List.mem_map.mp member
    have found := Std.ExtTreeMap.mem_toList_iff_getElem?_eq_some.mp here
    exact consistent.uid_le uid (by rw [found]; rfl)

end Forest

section

variable {K V : Type} [Ord K]

theorem encodeSst_ok (store : StoreKind) (rowArchivedBytes : Nat) (root : List (K × V) → DecodedTable)
    (partition : PartitionId) (key : TableObjectId) (rows : List (K × V)) (sameStore : key.store = store) (nonempty : rows ≠ [])
    (few : rows.length ≤ PARTITION_PATH_OCCUPANCIES_MAX_V2) (archived : rows.length * rowArchivedBytes ≤ SST_OBJECT_BYTES_MAX)
    (ordered : strictlyOrdered rows = true) (bounded : tableLength ⟨partition, key.fresh, root rows⟩ ≤ SST_OBJECT_BYTES_MAX) :
    ∃ encoded, encodeSst store rowArchivedBytes root partition key rows = .ok encoded ∧
      encoded.table.objectBytes.get = tableLength ⟨partition, key.fresh, root rows⟩ := by
  refine ⟨EncodedTable.fromEncoded key ⟨partition, key.fresh, root rows⟩ rfl bounded, ?_, rfl⟩
  rw [encodeSst, if_neg (by simp [sameStore]), (checkEncodeRows_ok_iff _ _ ()).mpr ⟨nonempty, few, archived, ordered⟩]
  exact dif_pos bounded

-- What one encoder and its row estimate have to satisfy for a chunk to become a
-- table no longer than its estimate.
structure Encodes (wrap : List (K × V) → DecodedTable) (store : StoreKind) (rowBytes : K × V → Nat) (partition : PartitionId)
    (encode : TableObjectId → List (K × V) → Except SstEncodeError EncodedTable) : Prop where
  small : ∀ row, SST_ARCHIVE_FIXED_BYTES_MAX + rowBytes row ≤ SST_TABLE_TARGET_BYTES
  done : ∀ key rows, key.store = store → rows ≠ [] → strictlyOrdered rows = true →
    SST_ARCHIVE_FIXED_BYTES_MAX + (rows.map rowBytes).sum ≤ SST_TABLE_TARGET_BYTES →
    ∃ encoded, encode key rows = .ok encoded ∧
      encoded.table.objectBytes.get ≤ SST_ARCHIVE_FIXED_BYTES_MAX + (rows.map rowBytes).sum
  read : ∀ key rows encoded, encode key rows = .ok encoded → encoded.key = key ∧
    decodeTableBody partition encoded.table (some encoded.object) = .ok (wrap rows)

omit [Rkyv] [Ord K] in
theorem length_mul_le_sum (rows : List (K × V)) (rowBytes : K × V → Nat) (least : Nat) (bound : ∀ row, least ≤ rowBytes row) :
    rows.length * least ≤ (rows.map rowBytes).sum := by
  induction rows with
  | nil => simp
  | cons row rest ih =>
    have here := bound row
    simp only [length_cons, map_cons, sum_cons, Nat.add_mul]
    omega

theorem encodes_of_bounds (store : StoreKind) (rowArchivedBytes : Nat) (wrap : List (K × V) → DecodedTable)
    (rowBytes : K × V → Nat) (partition : PartitionId)
    (small : ∀ row, SST_ARCHIVE_FIXED_BYTES_MAX + rowBytes row ≤ SST_TABLE_TARGET_BYTES)
    (least : ∀ row, LEDGER_DELETE_ROW_ENCODED_BYTES_MAX ≤ rowBytes row) (archived : ∀ row, rowArchivedBytes ≤ rowBytes row)
    (estimated : ∀ rows, (wrap rows).estimatedEncodedBytes = (rows.map rowBytes).sum)
    (read : ∀ key rows encoded, encodeSst store rowArchivedBytes wrap partition key rows = .ok encoded →
      encoded.key = key ∧ decodeTableBody partition encoded.table (some encoded.object) = .ok (wrap rows)) :
    Encodes wrap store rowBytes partition (encodeSst store rowArchivedBytes wrap partition) where
  small := small
  done := by
    intro key rows sameStore nonempty ordered within
    have counted := length_mul_le_sum rows rowBytes _ least
    have packed := length_mul_le_sum rows rowBytes _ archived
    have whole := tableLength_le ⟨partition, key.fresh, wrap rows⟩
    rw [estimated] at whole
    simp only [SST_ARCHIVE_FIXED_BYTES_MAX, SST_TABLE_TARGET_BYTES, LEDGER_DELETE_ROW_ENCODED_BYTES_MAX] at within counted whole
    obtain ⟨encoded, done, size⟩ := encodeSst_ok store rowArchivedBytes wrap partition key rows sameStore nonempty
      (by simp only [PARTITION_PATH_OCCUPANCIES_MAX_V2]; omega) (by simp only [SST_OBJECT_BYTES_MAX]; omega) ordered
      (by simp only [SST_OBJECT_BYTES_MAX]; omega)
    refine ⟨encoded, done, ?_⟩
    simp only [SST_ARCHIVE_FIXED_BYTES_MAX]
    omega
  read := read

end

theorem decodeTableBody_length (partition : PartitionId) (encoded : EncodedTable) :
    decodeTableBody partition encoded.table (some encoded.object) =
      decodeTableRows partition encoded.key encoded.object := by
  rw [decodeTableBody, if_neg (by rw [encoded.sameLength]; omega), if_neg (by rw [encoded.sameLength]; simp), encoded.sameKey]

abbrev directoryBytes (_ : StreamPath × DirectoryEntry) : Nat := DIRECTORY_ROW_ENCODED_BYTES_MAX

abbrev ledgerBytes (row : StreamUid × LedgerCell) : Nat := ledgerRowBytes row.2

theorem directory_encodes (partition : PartitionId) :
    Encodes DecodedTable.directory .directory directoryBytes partition (encodeDirectory partition) := by
  refine encodes_of_bounds _ _ _ _ partition ?_ ?_ ?_ ?_ ?_
  · simp [directoryBytes, DIRECTORY_ROW_ENCODED_BYTES_MAX, SST_ARCHIVE_FIXED_BYTES_MAX, SST_TABLE_TARGET_BYTES]
  · simp [directoryBytes, DIRECTORY_ROW_ENCODED_BYTES_MAX, LEDGER_DELETE_ROW_ENCODED_BYTES_MAX]
  · intro row
    exact Rkyv.directoryRowSize_le
  · simp [DecodedTable.estimatedEncodedBytes]
  · intro key rows encoded done
    obtain ⟨store, same, _⟩ := encodeSst_ok_cases done
    refine ⟨same, ?_⟩
    rw [decodeTableBody_length, same, decodeTableRows, store, decodeDirectorySst_encoded done]

theorem ledger_encodes (partition : PartitionId) :
    Encodes DecodedTable.ledger .ledger ledgerBytes partition (encodeLedger partition) := by
  have least : ∀ row : StreamUid × LedgerCell, LEDGER_DELETE_ROW_ENCODED_BYTES_MAX ≤ ledgerBytes row := by
    rintro ⟨uid, cell⟩
    cases cell <;> simp [ledgerBytes, ledgerRowBytes, LEDGER_VALUE_ROW_ENCODED_BYTES_MAX, LEDGER_DELETE_ROW_ENCODED_BYTES_MAX]
  refine encodes_of_bounds _ _ _ _ partition ?_ least ?_ ?_ ?_
  · rintro ⟨uid, cell⟩
    cases cell <;> simp [ledgerBytes, ledgerRowBytes, SST_ARCHIVE_FIXED_BYTES_MAX, SST_TABLE_TARGET_BYTES,
      LEDGER_VALUE_ROW_ENCODED_BYTES_MAX, LEDGER_DELETE_ROW_ENCODED_BYTES_MAX]
  · intro row
    exact Nat.le_trans Rkyv.ledgerRowSize_le (least row)
  · intro rows
    refine congrArg sum (map_congr_left fun row _ => ?_)
    cases cell : row.2 <;> simp [ledgerBytes, ledgerRowBytes, cell]
  · intro key rows encoded done
    obtain ⟨store, same, _⟩ := encodeSst_ok_cases done
    refine ⟨same, ?_⟩
    rw [decodeTableBody_length, same, decodeTableRows, store, decodeLedgerSst_encoded done]

def tableId (generation : SealGeneration) (attempt : AttemptId) (predates : attempt.ownerClaim < generation) (store : StoreKind)
    (ordinal : Nat) : TableObjectId :=
  ⟨⟨generation, attempt, ordinal, predates⟩, store⟩

section

variable {K V : Type} [Ord K] [Std.TransOrd K] {wrap : List (K × V) → DecodedTable} {store : StoreKind} {rowBytes : K × V → Nat}
  {partition : PartitionId} {encode : TableObjectId → List (K × V) → Except SstEncodeError EncodedTable}

omit [Rkyv] in
theorem nextTableKey_ok {generation : SealGeneration} {attempt : AttemptId} (predates : attempt.ownerClaim < generation)
    (ordinal : Nat) (fits : ordinal + 1 < 2 ^ 32) :
    nextTableKey generation attempt ordinal store = .ok (tableId generation attempt predates store ordinal, ordinal + 1) := by
  simp only [nextTableKey, require, fits, if_true, ok_bind, FreshIdentity.new, predates, dif_pos,
    expectOk]
  rfl

def Creates (partition : PartitionId) (wrap : List (K × V) → DecodedTable) (piece : List (K × V) × Nat)
    (table : EncodedTable) : Prop :=
  decodeTableBody partition table.table (some table.object) = .ok (wrap piece.1) ∧ table.table.objectBytes.get ≤ piece.2

omit [Std.TransOrd K] in
theorem buildTables_ok (encodes : Encodes wrap store rowBytes partition encode) (generation : SealGeneration)
    (attempt : AttemptId) (predates : attempt.ownerClaim < generation) (unencodable undercounted : String)
    (chunks : List (List (K × V) × Nat)) : ∀ ordinal, ordinal + chunks.length < 2 ^ 32 →
    (∀ piece ∈ chunks, piece.1 ≠ [] ∧ strictlyOrdered piece.1 = true ∧
      piece.2 = SST_ARCHIVE_FIXED_BYTES_MAX + (piece.1.map rowBytes).sum ∧ piece.2 ≤ SST_TABLE_TARGET_BYTES) →
    ∃ tables, buildTables generation attempt store encode unencodable undercounted chunks ordinal =
        .ok (tables, ordinal + chunks.length) ∧
      List.Forall₂ (Creates partition wrap) chunks tables ∧
      tables.map EncodedTable.key = (List.range' ordinal chunks.length).map (tableId generation attempt predates store) := by
  induction chunks with
  | nil => exact fun ordinal _ _ => ⟨[], rfl, .nil, rfl⟩
  | cons piece rest ih =>
    intro ordinal fits pieces
    rw [length_cons] at fits
    obtain ⟨nonempty, ordered, estimate, within⟩ := pieces piece mem_cons_self
    obtain ⟨encoded, done, size⟩ := encodes.done (tableId generation attempt predates store ordinal) piece.1 rfl nonempty ordered
      (estimate ▸ within)
    obtain ⟨sameKey, decoded⟩ := encodes.read _ _ _ done
    obtain ⟨tables, built, created, keys⟩ := ih (ordinal + 1) (by omega) fun other member =>
      pieces other (mem_cons_of_mem _ member)
    have counted : encoded.table.objectBytes.get ≤ piece.2 := estimate ▸ size
    refine ⟨encoded :: tables, ?_, .cons ⟨decoded, counted⟩ created, ?_⟩
    · simp only [buildTables, nextTableKey_ok predates ordinal (by omega), ok_bind, done,
        expectOk, require, counted, if_true, built, pure_eq_ok, length_cons]
      rw [Nat.add_right_comm, Nat.add_assoc]
    · rw [map_cons, keys, length_cons, range'_succ, map_cons, sameKey]

omit [Rkyv] in
theorem buildManifest_ok (carried : Option TreeVersion) (tables : List TableRef) (few : tables.length ≤ RUN_TABLES_MAX)
    (runs : (carriedRuns carried).length + (if tables.length ≠ 0 then 1 else 0) ≤ TREE_RUNS_MAX) :
    ∃ tree, buildManifest carried tables = .ok tree ∧
      ((tables = [] ∧ tree.runs = carriedRuns carried) ∨
        ∃ run : SortedRun, run.tables = tables ∧ tree.runs = run :: carriedRuns carried) := by
  rw [buildManifest]
  by_cases empty : tables = []
  · subst empty
    have bounded : (carriedRuns carried).length ≤ TREE_RUNS_MAX := by simpa using runs
    simp [TreeVersion.tryFrom, Nat.not_lt.mpr bounded, expectOk]
  · have some : tables.length ≠ 0 := by simpa using empty
    rw [if_pos some] at runs
    have bounded : ¬ TREE_RUNS_MAX < (carriedRuns carried).length + 1 := Nat.not_lt.mpr runs
    simp [SortedRun.tryFrom, TreeVersion.tryFrom, empty, Nat.not_lt.mpr few, bounded, expectOk]

def rowChunks (rowBytes : K × V → Nat) (rows : List (K × V)) : List (List (K × V) × Nat) :=
  Chunk.chunks SST_ARCHIVE_FIXED_BYTES_MAX SST_TABLE_TARGET_BYTES rowBytes rows

-- One tree of a checkpoint: its created tables, one for each chunk of the rows,
-- in front of the carried runs.
structure TreeBuilt (partition : PartitionId) (wrap : List (K × V) → DecodedTable) (rowBytes : K × V → Nat)
    (key : Nat → TableObjectId) (ordinal : Nat) (rows : List (K × V)) (carried : List SortedRun) (tables : List EncodedTable)
    (tree : TreeVersion) : Prop where
  ordered : strictlyOrdered rows = true
  created : List.Forall₂ (Creates partition wrap) (rowChunks rowBytes rows) tables
  keys : tables.map EncodedTable.key = (List.range' ordinal tables.length).map key
  runs : (tables = [] ∧ tree.runs = carried) ∨
    ∃ run : SortedRun, run.tables = tables.map EncodedTable.table ∧ tree.runs = run :: carried

theorem buildTree_ok (encodes : Encodes wrap store rowBytes partition encode) (generation : SealGeneration)
    (attempt : AttemptId) (predates : attempt.ownerClaim < generation) (unencodable undercounted : String) (ordinal : Nat)
    (rows : List (K × V)) (ordered : strictlyOrdered rows = true) (carried : Option TreeVersion)
    (fits : ordinal + (rowChunks rowBytes rows).length < 2 ^ 32) (few : (rowChunks rowBytes rows).length ≤ RUN_TABLES_MAX)
    (room : (carriedRuns carried).length + (if (rowChunks rowBytes rows).length ≠ 0 then 1 else 0) ≤ TREE_RUNS_MAX) :
    ∃ tables tree, forEachChunk rowBytes rows = .ok (rowChunks rowBytes rows) ∧
      buildTables generation attempt store encode unencodable undercounted (rowChunks rowBytes rows) ordinal =
        .ok (tables, ordinal + (rowChunks rowBytes rows).length) ∧
      buildManifest carried (tables.map EncodedTable.table) = .ok tree ∧
      TreeBuilt partition wrap rowBytes (tableId generation attempt predates store) ordinal rows (carriedRuns carried) tables tree := by
  have pieces : ∀ piece ∈ rowChunks rowBytes rows, piece.1 ≠ [] ∧ strictlyOrdered piece.1 = true ∧
      piece.2 = SST_ARCHIVE_FIXED_BYTES_MAX + (piece.1.map rowBytes).sum ∧ piece.2 ≤ SST_TABLE_TARGET_BYTES := by
    intro piece member
    refine ⟨Chunk.chunks_nonempty _ _ _ rows piece member, ?_, Chunk.chunks_bytes _ _ _ rows piece member,
      Chunk.chunks_within _ _ _ rows (by decide) (fun row _ => encodes.small row) piece member⟩
    have whole := Chunk.chunks_flatten SST_ARCHIVE_FIXED_BYTES_MAX SST_TABLE_TARGET_BYTES rowBytes rows
    have part : piece.1.Sublist rows := by
      rw [← whole]
      exact sublist_flatten_of_mem (mem_map_of_mem member)
    rw [strictlyOrdered_iff] at ordered ⊢
    exact ordered.sublist (part.map Prod.fst)
  obtain ⟨tables, built, created, keys⟩ :=
    buildTables_ok encodes generation attempt predates unencodable undercounted (rowChunks rowBytes rows) ordinal fits pieces
  have length : (rowChunks rowBytes rows).length = tables.length := created.length_eq
  obtain ⟨tree, manifest, runs⟩ := buildManifest_ok carried (tables.map EncodedTable.table)
    (by simpa [← length] using few) (by simpa [← length] using room)
  refine ⟨tables, tree, ?_, built, manifest, ordered, created, length ▸ keys, ?_⟩
  · have small : RowsFit rowBytes rows := fun row _ =>
      encodes.small row
    rw [forEachChunk, (require_ok_iff _ _ ()).mpr (by simpa using small)]
    rfl
  · simpa using runs

section

variable {key : Nat → TableObjectId} {ordinal : Nat} {rows : List (K × V)} {carried : List SortedRun} {tables : List EncodedTable}
  {tree : TreeVersion} (built : TreeBuilt partition wrap rowBytes key ordinal rows carried tables tree)

include built

omit [Std.TransOrd K] in
theorem TreeBuilt.tables_eq : tree.tables = tables.map EncodedTable.table ++ carried.flatMap SortedRun.tables := by
  rcases built.runs with ⟨none, same⟩ | ⟨run, fresh, same⟩
  · simp [TreeVersion.tables, same, none]
  · simp [TreeVersion.tables, same, fresh]

omit [Std.TransOrd K] in
theorem TreeBuilt.bytes_le :
    (tables.map fun table => table.table.objectBytes.get).sum ≤ ((rowChunks rowBytes rows).map Prod.snd).sum := by
  have created := built.created
  clear built
  generalize rowChunks rowBytes rows = pieces at created
  induction created with
  | nil => simp
  | cons here _ ih =>
    have counted := here.2
    simp only [map_cons, sum_cons]
    omega

end

omit [Ord K] [Std.TransOrd K] in
theorem holds_of_creates {established : Tables} {pieces : List (List (K × V) × Nat)} {tables : List EncodedTable}
    (created : List.Forall₂ (Creates partition wrap) pieces tables)
    (durable : ∀ table ∈ tables, established table.key = some table.object) :
    List.Forall₂ (TableHolds established partition wrap) (tables.map EncodedTable.table) (pieces.map Prod.fst) := by
  induction created with
  | nil => exact .nil
  | @cons piece table pieces tables here _ ih =>
    refine .cons ?_ (ih fun other member => durable other (mem_cons_of_mem _ member))
    rw [TableHolds, table.sameKey, durable table mem_cons_self]
    exact ⟨rfl, here.1⟩

omit [Std.TransOrd K] in
theorem TreeBuilt.holds {key : Nat → TableObjectId} {ordinal : Nat} {rows : List (K × V)} {carried : List SortedRun}
    {tables : List EncodedTable} {tree : TreeVersion}
    (built : TreeBuilt partition wrap rowBytes key ordinal rows carried tables tree) (established : Tables)
    (durable : ∀ table ∈ tables, established table.key = some table.object) (runs : List (List (List (K × V))))
    (held : List.Forall₂ (RunHolds established partition wrap) carried runs) :
    ∃ next, TreeHolds established partition wrap tree next ∧ treeRows next = treeRows runs ++ rows := by
  have whole := Chunk.chunks_flatten SST_ARCHIVE_FIXED_BYTES_MAX SST_TABLE_TARGET_BYTES rowBytes rows
  have nonempty := Chunk.chunks_nonempty SST_ARCHIVE_FIXED_BYTES_MAX SST_TABLE_TARGET_BYTES rowBytes rows
  have created := built.created
  rw [rowChunks] at created
  rcases built.runs with ⟨none, same⟩ | ⟨run, fresh, same⟩
  · subst none
    rw [forall₂_nil_right_iff.mp created] at whole
    refine ⟨runs, by rw [TreeHolds, same]; exact held, ?_⟩
    rw [← whole]
    simp
  refine ⟨(Chunk.chunks SST_ARCHIVE_FIXED_BYTES_MAX SST_TABLE_TARGET_BYTES rowBytes rows).map Prod.fst :: runs, ?_, ?_⟩
  · rw [TreeHolds, same]
    refine .cons ⟨?_, ?_, ?_⟩ held
    · rw [fresh]
      exact holds_of_creates created durable
    · intro part member
      obtain ⟨piece, here, rfl⟩ := List.mem_map.mp member
      exact nonempty piece here
    · rw [whole]
      exact built.ordered
  · rw [treeRows_cons, whole]

def accounting (rowBytes : K × V → Nat) (rows : List (K × V)) : ChunkAccounting :=
  ⟨(rowChunks rowBytes rows).length, ((rowChunks rowBytes rows).map Prod.snd).sum⟩

omit [Rkyv] [Ord K] [Std.TransOrd K] in
theorem accountRows_ok {rowBytes : K × V → Nat}
    (small : ∀ row, SST_ARCHIVE_FIXED_BYTES_MAX + rowBytes row ≤ SST_TABLE_TARGET_BYTES) (rows : List (K × V)) :
    accountRows (rows.map rowBytes) = .ok (accounting rowBytes rows) := by
  have fits : ∀ key value, (key, value) ∈ rows → SST_ARCHIVE_FIXED_BYTES_MAX + rowBytes (key, value) ≤ SST_TABLE_TARGET_BYTES :=
    fun key value _ => small (key, value)
  rw [accountRows, forEachChunk, (require_ok_iff _ _ ()).mpr (by simpa using fits), Chunk.chunks_sizes]
  simp [accounting, rowChunks, Function.comp_def]

end

def carriedTables (carried : Option Seal) : List TableRef :=
  (carriedRuns (carried.map Seal.directory)).flatMap SortedRun.tables ++
    (carriedRuns (carried.map Seal.ledger)).flatMap SortedRun.tables

-- What the planner decided: which trees the new runs are put in front of, with
-- room for them inside every bootstrap bound.
structure Plan (source : Seal) (base snapshot : Forest) (cells : ForestDelta) (carried : Option Seal) : Prop where
  origin : (carried = some source ∧ Forest.Cells base snapshot cells) ∨
    (carried = none ∧ Forest.Cells Forest.empty snapshot cells)
  directoryRoom : (carriedRuns (carried.map Seal.directory)).length +
    (if (rowChunks directoryBytes cells.directory).length ≠ 0 then 1 else 0) ≤ TREE_RUNS_MAX
  ledgerRoom : (carriedRuns (carried.map Seal.ledger)).length +
    (if (rowChunks ledgerBytes cells.ledger).length ≠ 0 then 1 else 0) ≤ TREE_RUNS_MAX
  objects : (carriedTables carried).length +
    ((rowChunks directoryBytes cells.directory).length + (rowChunks ledgerBytes cells.ledger).length) ≤
      PARTITION_BOOTSTRAP_OBJECTS_MAX_V2
  bytes : ((carriedTables carried).map fun table => table.objectBytes.get).sum +
    (((rowChunks directoryBytes cells.directory).map Prod.snd).sum + ((rowChunks ledgerBytes cells.ledger).map Prod.snd).sum) ≤
      PARTITION_BOOTSTRAP_BYTES_MAX_V2

omit [Rkyv] in
theorem sum_map_const {α : Type} (rows : List α) (n : Nat) : (rows.map fun _ => n).sum = rows.length * n := by
  simp

theorem ledgerBytes_le (rows : List (StreamUid × LedgerCell)) :
    (rows.map ledgerBytes).sum ≤ rows.length * LEDGER_VALUE_ROW_ENCODED_BYTES_MAX := by
  induction rows with
  | nil => simp
  | cons row rest ih =>
    obtain ⟨uid, cell⟩ := row
    cases cell <;> simp [ledgerBytes, ledgerRowBytes, LEDGER_VALUE_ROW_ENCODED_BYTES_MAX, LEDGER_DELETE_ROW_ENCODED_BYTES_MAX] at ih ⊢
      <;> omega

theorem full_bounds {directory : List (StreamPath × DirectoryEntry)} {ledger : List (StreamUid × LedgerCell)}
    (paths : directory.length ≤ PARTITION_PATH_OCCUPANCIES_MAX_V2) (records : ledger.length ≤ PARTITION_PATH_OCCUPANCIES_MAX_V2) :
    (rowChunks directoryBytes directory).length + (rowChunks ledgerBytes ledger).length ≤ PARTITION_BOOTSTRAP_OBJECTS_MAX_V2 ∧
      ((rowChunks directoryBytes directory).map Prod.snd).sum + ((rowChunks ledgerBytes ledger).map Prod.snd).sum ≤
        PARTITION_BOOTSTRAP_BYTES_MAX_V2 := by
  have directoryCount := Chunk.chunks_count SST_ARCHIVE_FIXED_BYTES_MAX SST_TABLE_TARGET_BYTES directoryBytes
    DIRECTORY_ROW_ENCODED_BYTES_MAX directory (fun _ _ => Nat.le_refl _)
  have ledgerCount := Chunk.chunks_count SST_ARCHIVE_FIXED_BYTES_MAX SST_TABLE_TARGET_BYTES ledgerBytes
    LEDGER_VALUE_ROW_ENCODED_BYTES_MAX ledger (by
      rintro ⟨uid, cell⟩ _
      cases cell <;> simp [ledgerBytes, ledgerRowBytes, LEDGER_VALUE_ROW_ENCODED_BYTES_MAX, LEDGER_DELETE_ROW_ENCODED_BYTES_MAX])
  have directorySum := Chunk.chunks_total SST_ARCHIVE_FIXED_BYTES_MAX SST_TABLE_TARGET_BYTES directoryBytes directory
  have ledgerSum := Chunk.chunks_total SST_ARCHIVE_FIXED_BYTES_MAX SST_TABLE_TARGET_BYTES ledgerBytes ledger
  have directoryRows : (directory.map directoryBytes).sum = directory.length * DIRECTORY_ROW_ENCODED_BYTES_MAX :=
    sum_map_const directory DIRECTORY_ROW_ENCODED_BYTES_MAX
  have ledgerRows := ledgerBytes_le ledger
  simp only [rowChunks]
  simp only [SST_ARCHIVE_FIXED_BYTES_MAX, SST_TABLE_TARGET_BYTES, DIRECTORY_ROW_ENCODED_BYTES_MAX,
    LEDGER_VALUE_ROW_ENCODED_BYTES_MAX, PARTITION_PATH_OCCUPANCIES_MAX_V2, PARTITION_BOOTSTRAP_OBJECTS_MAX_V2,
    PARTITION_BOOTSTRAP_BYTES_MAX_V2] at *
  omega

theorem planCheckpoint_ok (source : Seal) (base snapshot : Forest) (delta : ForestDelta)
    (cells : Forest.Cells base snapshot delta) (consistent : snapshot.Consistent) :
    ∃ chosen carried, planCheckpoint source snapshot delta = .ok (chosen, carried) ∧ Plan source base snapshot chosen carried := by
  have directoryAccount : ∀ delta : ForestDelta, accountRows (directoryRowSizes delta) =
      .ok (accounting directoryBytes delta.directory) := fun delta =>
    accountRows_ok (directory_encodes source.partition).small delta.directory
  have ledgerAccount : ∀ delta : ForestDelta, accountRows (ledgerRowSizes delta) = .ok (accounting ledgerBytes delta.ledger) :=
    fun delta => accountRows_ok (ledger_encodes source.partition).small delta.ledger
  rw [planCheckpoint, canAppendDelta, directoryAccount, ledgerAccount]
  simp only [ok_bind, pure_eq_ok]
  cases chosen : selectDelta source (accounting directoryBytes delta.directory) (accounting ledgerBytes delta.ledger) with
  | true =>
    simp only [selectDelta, Bool.and_eq_true, decide_eq_true_eq] at chosen
    obtain ⟨⟨⟨directoryRoom, ledgerRoom⟩, objects⟩, bytes⟩ := chosen
    exact ⟨delta, some source, rfl, .inl ⟨rfl, cells⟩, directoryRoom, ledgerRoom, objects, bytes⟩
  | false =>
    have paths : snapshot.checkpointCells.directory.length ≤ PARTITION_PATH_OCCUPANCIES_MAX_V2 := by
      simpa [checkpointCells, pathCount] using consistent.bounded
    have records : snapshot.checkpointCells.ledger.length ≤ PARTITION_PATH_OCCUPANCIES_MAX_V2 := by
      have few := size_le_of_numbered StreamUid.get_injective snapshot.pathCount
        StreamUid.positive (fun uid held => consistent.uid_le uid held)
      simpa [checkpointCells] using Nat.le_trans few consistent.bounded
    obtain ⟨objects, bytes⟩ := full_bounds paths records
    refine ⟨snapshot.checkpointCells, none, ?_, .inr ⟨rfl, checkpointCells_cells consistent⟩, ?_, ?_, ?_, ?_⟩
    · simp only [Bool.false_eq_true, if_false, directoryAccount, ledgerAccount, ok_bind, assertFullPlan,
        require, accounting, objects, bytes, if_true]
    · simp only [carriedRuns, map_none, length_nil, TREE_RUNS_MAX]
      split <;> omega
    · simp only [carriedRuns, map_none, length_nil, TREE_RUNS_MAX]
      split <;> omega
    · simpa [carriedTables, carriedRuns] using objects
    · simpa [carriedTables, carriedRuns] using bytes

-- The runs that a checkpoint of the given generation puts into a tree: at most
-- one fresh run, in front of all carried runs or of none.
def TreeAdvance (generation : SealGeneration) (source successor : TreeVersion) : Prop :=
  ∃ carried, (carried = source.runs ∨ carried = []) ∧
    (successor.runs = carried ∨ ∃ run : SortedRun, successor.runs = run :: carried ∧
      ∀ table ∈ run.tables, table.object.fresh.birthGeneration = generation)

def SourceBounds (sealed : Seal) : Prop :=
  sealed.tables.length ≤ PARTITION_BOOTSTRAP_OBJECTS_MAX_V2 ∧
    (sealed.tables.map fun table => table.objectBytes.get).sum ≤ PARTITION_BOOTSTRAP_BYTES_MAX_V2

structure CheckpointInput.Valid (input : CheckpointInput) : Prop where
  ticket : input.ticket.source = input.source.generation
  legal : input.source.Legal
  base : input.base.Consistent
  snapshot : input.snapshot.Consistent
  grows : Forest.Grows input.base input.snapshot
  advances : input.source.replay.cut < input.ticket.cut.get
  owner : input.ticket.attempt.ownerClaim.get ≤ input.source.generation.get

structure Prepared (input : CheckpointInput) (created : List EncodedTable) (prepared : PreparedCheckpoint) : Prop where
  source : prepared.source = input.source
  snapshot : prepared.snapshot = input.snapshot
  candidate : prepared.candidate.sealed = prepared.successor
  partition : prepared.successor.partition = input.source.partition
  generation : prepared.successor.generation.get = input.source.generation.get + 1
  replay : prepared.successor.replay = .through input.ticket.cut ⟨input.ticket.attempt.ownerClaim⟩
  legal : prepared.successor.Legal
  bounds : SourceBounds prepared.successor
  directory : TreeAdvance prepared.successor.generation input.source.directory prepared.successor.directory
  ledger : TreeAdvance prepared.successor.generation input.source.ledger prepared.successor.ledger
  fresh : ∀ table ∈ created, table.key.fresh.birthGeneration = prepared.successor.generation ∧
    table.key.fresh.attempt = input.ticket.attempt
  keys : (created.map EncodedTable.key).Nodup
  content : ∀ established : Tables, Content established input.source input.base →
    (∀ table ∈ created, established table.key = some table.object) → Content established prepared.successor input.snapshot

section

variable {generation : SealGeneration} {attempt : AttemptId} (predates : attempt.ownerClaim < generation)

omit [Rkyv] in
theorem tableId_injective
    (store other : StoreKind) (a b : Nat)
    (same : tableId generation attempt predates store a = tableId generation attempt predates other b) : a = b := by
  simp only [tableId, TableObjectId.mk.injEq, FreshIdentity.mk.injEq] at same
  exact same.1.2.2

omit [Rkyv] in
theorem created_keys_nodup (n m : Nat) :
    ((List.range' 0 n).map (tableId generation attempt predates .directory) ++
      (List.range' n m).map (tableId generation attempt predates .ledger)).Nodup := by
  rw [nodup_append]
  refine ⟨?_, ?_, ?_⟩
  · exact List.Nodup.map (fun a b same => tableId_injective _ _ _ a b same) nodup_range'
  · exact List.Nodup.map (fun a b same => tableId_injective _ _ _ a b same) nodup_range'
  · intro first here second there same
    obtain ⟨a, below, rfl⟩ := List.mem_map.mp here
    obtain ⟨b, above, rfl⟩ := List.mem_map.mp there
    have equal := tableId_injective _ _ _ a b same
    simp only [mem_range'_1] at below above
    omega

end

section

variable {source : Seal} {carried : Option Seal} (origin : carried = some source ∨ carried = none)

include origin

omit [Rkyv] in
theorem carried_subset :
    (carriedTables carried).Sublist source.tables := by
  rcases origin with rfl | rfl
  · exact List.Sublist.refl _
  · exact nil_sublist _

omit [Rkyv] in
theorem carriedRuns_cases
    (tree : Seal → TreeVersion) : carriedRuns (carried.map tree) = (tree source).runs ∨ carriedRuns (carried.map tree) = [] := by
  rcases origin with rfl | rfl
  · exact .inl rfl
  · exact .inr rfl

end

theorem TreeBuilt.advance {K V : Type} [Ord K] {partition : PartitionId} {wrap : List (K × V) → DecodedTable}
    {rowBytes : K × V → Nat} {ordinal : Nat} {rows : List (K × V)} {carried : List SortedRun} {tables : List EncodedTable}
    {tree : TreeVersion} {generation : SealGeneration} {attempt : AttemptId} {predates : attempt.ownerClaim < generation}
    {store : StoreKind}
    (built : TreeBuilt partition wrap rowBytes (tableId generation attempt predates store) ordinal rows carried tables tree)
    (source : TreeVersion) (origin : carried = source.runs ∨ carried = []) : TreeAdvance generation source tree := by
  refine ⟨carried, origin, ?_⟩
  rcases built.runs with ⟨_, same⟩ | ⟨run, fresh, same⟩
  · exact .inl same
  refine .inr ⟨run, same, ?_⟩
  intro table member
  rw [fresh] at member
  obtain ⟨encoded, here, rfl⟩ := List.mem_map.mp member
  have key : encoded.key ∈ tables.map EncodedTable.key := mem_map_of_mem here
  rw [built.keys] at key
  obtain ⟨index, _, same⟩ := List.mem_map.mp key
  rw [encoded.sameKey, ← same]
  rfl

structure TreesBuilt (source : Seal) (generation : SealGeneration) (attempt : AttemptId)
    (predates : attempt.ownerClaim < generation) (cells : ForestDelta) (carried : Option Seal)
    (directoryTables ledgerTables : List EncodedTable) (directory ledger : TreeVersion) : Prop where
  origin : carried = some source ∨ carried = none
  directory : TreeBuilt source.partition DecodedTable.directory directoryBytes (tableId generation attempt predates .directory) 0
    cells.directory (carriedRuns (carried.map Seal.directory)) directoryTables directory
  ledger : TreeBuilt source.partition DecodedTable.ledger ledgerBytes (tableId generation attempt predates .ledger)
    directoryTables.length cells.ledger (carriedRuns (carried.map Seal.ledger)) ledgerTables ledger

theorem objects_of_created (tables : List EncodedTable) :
    (tables.map EncodedTable.table).map TableRef.object = tables.map EncodedTable.key := by
  rw [List.map_map]
  apply List.map_congr_left
  intro table _
  exact table.sameKey

section

variable {source : Seal} {generation : SealGeneration} {attempt : AttemptId} {predates : attempt.ownerClaim < generation}
  {cells : ForestDelta} {carried : Option Seal} {directoryTables ledgerTables : List EncodedTable} {directory ledger : TreeVersion}
  (built : TreesBuilt source generation attempt predates cells carried directoryTables ledgerTables directory ledger)

include built

theorem TreesBuilt.tables_perm :
    (directory.tables ++ ledger.tables).Perm
      ((directoryTables ++ ledgerTables).map EncodedTable.table ++ carriedTables carried) := by
  rw [built.directory.tables_eq, built.ledger.tables_eq, carriedTables, map_append, append_assoc, append_assoc]
  refine List.Perm.append_left _ ?_
  rw [← append_assoc, ← append_assoc]
  exact List.Perm.append_right _ perm_append_comm

theorem TreesBuilt.keys_eq :
    (directoryTables ++ ledgerTables).map EncodedTable.key =
      (List.range' 0 directoryTables.length).map (tableId generation attempt predates .directory) ++
        (List.range' directoryTables.length ledgerTables.length).map (tableId generation attempt predates .ledger) := by
  rw [map_append, built.directory.keys, built.ledger.keys]

theorem TreesBuilt.keys_fresh
    (table : EncodedTable) (member : table ∈ directoryTables ++ ledgerTables) :
    table.key.fresh.birthGeneration = generation ∧ table.key.fresh.attempt = attempt := by
  have key : table.key ∈ (directoryTables ++ ledgerTables).map EncodedTable.key := mem_map_of_mem member
  rw [built.keys_eq, mem_append, List.mem_map, List.mem_map] at key
  rcases key with ⟨_, _, same⟩ | ⟨_, _, same⟩ <;> rw [← same] <;> exact ⟨rfl, rfl⟩

theorem TreesBuilt.legal
    (legal : source.Legal) (next : generation.get = source.generation.get + 1) (partition : PartitionId) (cut : BatchId) :
    (⟨partition, generation, .through cut ⟨attempt.ownerClaim⟩, directory, ledger⟩ : Seal).Legal := by
  have kept := carried_subset built.origin
  have positive := source.generation.positive
  refine ⟨?_, predates, ?_, ?_, ?_, ?_⟩
  · intro first
    simp only at first
    rw [first] at next
    have one : SealGeneration.genesis.get = 1 := rfl
    omega
  · intro table member
    simp only [built.directory.tables_eq, mem_append, List.mem_map] at member
    rcases member with ⟨encoded, here, rfl⟩ | here
    · have key : encoded.key ∈ directoryTables.map EncodedTable.key := mem_map_of_mem here
      rw [built.directory.keys] at key
      obtain ⟨_, _, same⟩ := List.mem_map.mp key
      rw [encoded.sameKey, ← same]
      rfl
    · rcases carriedRuns_cases built.origin Seal.directory with same | same
      · rw [same] at here
        exact legal.directoryStore table here
      · simp [same] at here
  · intro table member
    simp only [built.ledger.tables_eq, mem_append, List.mem_map] at member
    rcases member with ⟨encoded, here, rfl⟩ | here
    · have key : encoded.key ∈ ledgerTables.map EncodedTable.key := mem_map_of_mem here
      rw [built.ledger.keys] at key
      obtain ⟨_, _, same⟩ := List.mem_map.mp key
      rw [encoded.sameKey, ← same]
      rfl
    · rcases carriedRuns_cases built.origin Seal.ledger with same | same
      · rw [same] at here
        exact legal.ledgerStore table here
      · simp [same] at here
  · intro table member
    have here := (built.tables_perm.mem_iff).mp member
    rw [mem_append, List.mem_map] at here
    rcases here with ⟨encoded, created, rfl⟩ | here
    · rw [encoded.sameKey, (built.keys_fresh encoded created).1]
    · have born := legal.births table (kept.subset here)
      simp only
      omega
  rw [Seal.tables, (built.tables_perm.map _).nodup_iff, map_append, objects_of_created, nodup_append]
  refine ⟨?_, (kept.map _).nodup legal.distinct, ?_⟩
  · rw [built.keys_eq]
    exact created_keys_nodup predates _ _
  · intro fresh here old there same
    obtain ⟨encoded, created, rfl⟩ := List.mem_map.mp here
    obtain ⟨table, carriedHere, rfl⟩ := List.mem_map.mp there
    have born := legal.births table (kept.subset carriedHere)
    rw [← same, (built.keys_fresh encoded created).1] at born
    omega

section

variable (base snapshot : Forest) (plan : Plan source base snapshot cells carried)

include plan

theorem TreesBuilt.bounds (partition : PartitionId) (replay : WalReplayPoint) :
    SourceBounds ⟨partition, generation, replay, directory, ledger⟩ := by
  have directoryLength := built.directory.created.length_eq
  have ledgerLength := built.ledger.created.length_eq
  have objects := plan.objects
  have bytes := plan.bytes
  have directorySum := built.directory.bytes_le
  have ledgerSum := built.ledger.bytes_le
  constructor
  · rw [Seal.tables, built.tables_perm.length_eq]
    simp only [List.length_append, List.length_map]
    omega
  · rw [Seal.tables, (built.tables_perm.map _).sum_nat]
    simp only [List.map_append, List.map_map, List.sum_append, Function.comp_def]
    omega

theorem TreesBuilt.selects (established : Tables)
    (directoryRuns : List (List (List (StreamPath × DirectoryEntry)))) (ledgerRuns : List (List (List (StreamUid × LedgerCell))))
    (directories : TreeHolds established source.partition DecodedTable.directory source.directory directoryRuns)
    (ledgers : TreeHolds established source.partition DecodedTable.ledger source.ledger ledgerRuns)
    (sameDirectory : OrdMap.patch (directoryCells (treeRows directoryRuns)) ∅ = base.directory)
    (sameLedger : OrdMap.patch (ledgerCells (treeRows ledgerRuns)) ∅ = base.ledger)
    (durable : ∀ table ∈ directoryTables ++ ledgerTables, established table.key = some table.object) :
    ∃ nextDirectory nextLedger,
      TreeHolds established source.partition DecodedTable.directory directory nextDirectory ∧
      TreeHolds established source.partition DecodedTable.ledger ledger nextLedger ∧
      OrdMap.patch (directoryCells (treeRows nextDirectory)) ∅ = snapshot.directory ∧
      OrdMap.patch (ledgerCells (treeRows nextLedger)) ∅ = snapshot.ledger ∧
      ∀ row ∈ treeRows nextLedger, row ∈ treeRows ledgerRuns ∨ row ∈ cells.ledger := by
  have first : ∀ table ∈ directoryTables, established table.key = some table.object := fun table member =>
    durable table (mem_append_left _ member)
  have second : ∀ table ∈ ledgerTables, established table.key = some table.object := fun table member =>
    durable table (mem_append_right _ member)
  rcases plan.origin with ⟨rfl, rows⟩ | ⟨rfl, rows⟩
  · obtain ⟨nextDirectory, heldDirectory, directoryRows⟩ := built.directory.holds established first directoryRuns directories
    obtain ⟨nextLedger, heldLedger, ledgerRows⟩ := built.ledger.holds established second ledgerRuns ledgers
    refine ⟨nextDirectory, nextLedger, heldDirectory, heldLedger, ?_, ?_, ?_⟩
    · rw [directoryRows, directoryCells_append, patch_append, sameDirectory]
      exact rows.directory
    · rw [ledgerRows, ledgerCells_append, patch_append, sameLedger]
      exact rows.ledger
    · intro row member
      rw [ledgerRows, mem_append] at member
      exact member
  obtain ⟨nextDirectory, heldDirectory, directoryRows⟩ := built.directory.holds established first [] .nil
  obtain ⟨nextLedger, heldLedger, ledgerRows⟩ := built.ledger.holds established second [] .nil
  refine ⟨nextDirectory, nextLedger, heldDirectory, heldLedger, ?_, ?_, ?_⟩
  · rw [directoryRows]
    exact rows.directory
  · rw [ledgerRows]
    exact rows.ledger
  · intro row member
    rw [ledgerRows] at member
    exact .inr member

theorem TreesBuilt.content (grows : Forest.Grows base snapshot) (replay : WalReplayPoint) (established : Tables)
    (content : Content established source base)
    (durable : ∀ table ∈ directoryTables ++ ledgerTables, established table.key = some table.object) :
    Content established ⟨source.partition, generation, replay, directory, ledger⟩ snapshot := by
  obtain ⟨directoryRuns, ledgerRuns, directories, ledgers, sameDirectory, sameLedger, numbered⟩ := content.rows
  obtain ⟨nextDirectory, nextLedger, heldDirectory, heldLedger, nextPaths, nextRecords, origin⟩ :=
    built.selects base snapshot plan established directoryRuns ledgerRuns directories ledgers sameDirectory sameLedger durable
  refine ⟨⟨nextDirectory, nextLedger, heldDirectory, heldLedger, nextPaths, nextRecords, ?_⟩⟩
  intro row member
  rcases origin row member with old | new
  · exact Nat.le_trans (numbered row old) (grows.pathCount_le)
  · rcases plan.origin with ⟨_, rows⟩ | ⟨_, rows⟩ <;> exact rows.numbered row new

end

end

theorem sealLength_bounded {sealed : Seal} (bounds : SourceBounds sealed) : sealLength sealed ≤ SEAL_ENCODED_BYTES_MAX :=
  sealLength_le sealed bounds.1

theorem assembleCheckpointSeal_ok (partition : PartitionId) (generation : SealGeneration) (cut : BatchId) (owner : OwnerToken)
    (directory ledger : TreeVersion) (successor : Seal)
    (same : successor = ⟨partition, generation, .through cut owner, directory, ledger⟩) (legal : successor.Legal)
    (bounds : SourceBounds successor) (advanced : successor.generation ≠ SealGeneration.genesis) :
    ∃ encoded, assembleCheckpointSeal partition generation cut owner directory ledger = .ok (successor, encoded) ∧
      encoded.sealed = successor := by
  have built := (Seal.new_ok_iff partition generation (.through cut owner) directory ledger successor).mpr ⟨same, legal⟩
  let encoded : EncodedAuthoritySeal := ⟨successor, advanced, sealLength_bounded bounds⟩
  refine ⟨encoded, ?_, rfl⟩
  have done := (EncodedAuthoritySeal.tryFrom_ok_iff successor encoded).mpr rfl
  simp [assembleCheckpointSeal, built, expectOk, done]

omit [Rkyv] in
theorem advances_batch {replay : WalReplayPoint} {cut : BatchId} (advances : replay.cut < cut.get) :
    (replay.batch.all fun sourceCut => sourceCut < cut) = true := by
  cases replay with
  | genesis => rfl
  | through batch owner => simpa [WalReplayPoint.batch, WalReplayPoint.cut] using advances

theorem prepareCheckpoint_planned [Differ] {input : CheckpointInput} (sourceLegal : input.source.Legal) (base : input.base.Consistent)
    (snapshot : input.snapshot.Consistent) (grows : Forest.Grows input.base input.snapshot)
    (owner : input.ticket.attempt.ownerClaim.get ≤ input.source.generation.get)
    (unexhausted : input.source.generation.get + 1 < 2 ^ 64) :
    ∃ (generation : SealGeneration) (predates : input.ticket.attempt.ownerClaim < generation) (cells : ForestDelta)
      (carried : Option Seal) (directoryTables ledgerTables : List EncodedTable) (directory ledger : TreeVersion)
      (encoded : EncodedAuthoritySeal),
      generation.get = input.source.generation.get + 1 ∧ input.source.generation.successor = .ok generation ∧
      Plan input.source input.base input.snapshot cells carried ∧
      TreesBuilt input.source generation input.ticket.attempt predates cells carried directoryTables ledgerTables directory ledger ∧
      encoded.sealed = ⟨input.source.partition, generation, .through input.ticket.cut ⟨input.ticket.attempt.ownerClaim⟩,
        directory, ledger⟩ ∧ encoded.sealed.Legal ∧ SourceBounds encoded.sealed ∧
      prepareCheckpoint input = (do
        let prepared ← PreparedCheckpoint.new input.ticket input.source encoded.sealed input.snapshot encoded
        pure (.ok (directoryTables ++ ledgerTables, prepared))) := by
  have positive := input.source.generation.positive
  let generation : SealGeneration := ⟨⟨input.source.generation.get + 1, by omega, unexhausted⟩⟩
  have next : generation.get = input.source.generation.get + 1 := rfl
  have succeeds : input.source.generation.successor = .ok generation := SealGeneration.successor_ok_iff.mpr next
  have predates : input.ticket.attempt.ownerClaim < generation := Nat.lt_succ_of_le owner
  obtain ⟨delta, deltaDone, deltaCells⟩ := deltaSince_ok base snapshot grows
  obtain ⟨cells, carried, planned, plan⟩ := planCheckpoint_ok input.source input.base input.snapshot delta deltaCells snapshot
  have objects := plan.objects
  simp only [PARTITION_BOOTSTRAP_OBJECTS_MAX_V2] at objects
  have ordered : strictlyOrdered cells.directory = true ∧ strictlyOrdered cells.ledger = true := by
    rcases plan.origin with ⟨_, rows⟩ | ⟨_, rows⟩ <;> exact ⟨rows.directoryOrdered, rows.ledgerOrdered⟩
  obtain ⟨directoryTables, directory, directoryChunks, directoryBuilt, directoryTree, directorySpec⟩ :=
    buildTree_ok (directory_encodes input.source.partition) generation input.ticket.attempt predates
      "planned Directory rows fit the durable table encoding"
      "Directory encoded accounting dominates the exact frozen table length" 0 cells.directory ordered.1
      (carried.map Seal.directory) (by omega) (by simp only [RUN_TABLES_MAX]; omega) plan.directoryRoom
  have count := directorySpec.created.length_eq
  obtain ⟨ledgerTables, ledger, ledgerChunks, ledgerBuilt, ledgerTree, ledgerSpec⟩ :=
    buildTree_ok (ledger_encodes input.source.partition) generation input.ticket.attempt predates
      "planned Ledger rows fit the durable table encoding"
      "Ledger encoded accounting dominates the exact frozen table length"
      (0 + (rowChunks directoryBytes cells.directory).length) cells.ledger ordered.2
      (carried.map Seal.ledger) (by omega) (by simp only [RUN_TABLES_MAX]; omega) plan.ledgerRoom
  have origin : carried = some input.source ∨ carried = none := by
    rcases plan.origin with ⟨same, _⟩ | ⟨same, _⟩
    · exact .inl same
    · exact .inr same
  have trees : TreesBuilt input.source generation input.ticket.attempt predates cells carried directoryTables ledgerTables
      directory ledger := ⟨origin, directorySpec, by rw [Nat.zero_add, count] at ledgerSpec; exact ledgerSpec⟩
  let successor : Seal := ⟨input.source.partition, generation, .through input.ticket.cut ⟨input.ticket.attempt.ownerClaim⟩,
    directory, ledger⟩
  have legal : successor.Legal := trees.legal sourceLegal next input.source.partition input.ticket.cut
  have bounds : SourceBounds successor := trees.bounds input.base input.snapshot plan _ _
  have advanced : successor.generation ≠ SealGeneration.genesis := by
    intro first
    have one : SealGeneration.genesis.get = 1 := rfl
    rw [← first] at one
    simp only [successor, next] at one
    omega
  obtain ⟨encoded, assembled, same⟩ := assembleCheckpointSeal_ok input.source.partition generation input.ticket.cut
    ⟨input.ticket.attempt.ownerClaim⟩ directory ledger successor rfl legal bounds advanced
  refine ⟨generation, predates, cells, carried, directoryTables, ledgerTables, directory, ledger, encoded, next, succeeds, plan,
    trees, same, same ▸ legal, same ▸ bounds, ?_⟩
  simp only [prepareCheckpoint, succeeds, deltaDone, ok_bind, planned, buildDirectoryTree, directoryChunks,
    directoryBuilt, directoryTree, buildLedgerTree, ledgerChunks, ledgerBuilt, ledgerTree, assembled, pure_eq_ok, same,
    successor]

theorem prepareCheckpoint_ok [Differ] {input : CheckpointInput} (valid : input.Valid)
    (unexhausted : input.source.generation.get + 1 < 2 ^ 64) :
    ∃ created prepared, prepareCheckpoint input = .ok (.ok (created, prepared)) ∧ Prepared input created prepared := by
  obtain ⟨generation, predates, cells, carried, directoryTables, ledgerTables, directory, ledger, encoded, next, succeeds, plan,
    trees, same, legal, bounds, planned⟩ := prepareCheckpoint_planned valid.legal valid.base valid.snapshot valid.grows
      valid.owner unexhausted
  refine ⟨directoryTables ++ ledgerTables, ⟨input.source, encoded.sealed, input.snapshot, encoded⟩, ?_, ?_⟩
  · have strict := advances_batch valid.advances
    simp only [planned, PreparedCheckpoint.new, require, valid.ticket, same, strict, succeeds, ok_bind,
      pure_eq_ok, if_true]
  refine ⟨rfl, rfl, rfl, ?_, ?_, ?_, legal, bounds, ?_, ?_, ?_, ?_, ?_⟩
  · rw [same]
  · rw [same]
    exact next
  · rw [same]
  · rw [same]
    exact trees.directory.advance input.source.directory (carriedRuns_cases trees.origin Seal.directory)
  · rw [same]
    exact trees.ledger.advance input.source.ledger (carriedRuns_cases trees.origin Seal.ledger)
  · rw [same]
    exact trees.keys_fresh
  · rw [trees.keys_eq]
    exact created_keys_nodup predates _ _
  · intro established content durable
    rw [same]
    exact trees.content input.base input.snapshot plan valid.grows _ established content durable

end StromDB
