import StromDB.Engine.Checkpoint

namespace StromDB

open Checked List

-- The preparation with the callback of the source: tables are handed out while
-- they are built, and a refused one ends the work.
namespace Emitting

section

variable {Row State : Type} (rowBytes : Row → Nat) (emit : State → List Row → Nat → Checked (State × Bool))

def chunkLoop : List Row → List Row → Nat → State → Checked (State × Bool)
  | [], chunk, bytes, state => if chunk = [] then pure (state, true) else emit state chunk bytes
  | row :: rest, chunk, bytes, state => do
    let additional := rowBytes row
    require (SST_ARCHIVE_FIXED_BYTES_MAX + additional ≤ SST_TABLE_TARGET_BYTES)
      "one worst-case encoded row fits the checkpoint table target"
    require (bytes + additional < 2 ^ 64) "a checkpoint table estimate fits in u64"
    if chunk ≠ [] ∧ bytes + additional > SST_TABLE_TARGET_BYTES then
      let (state, more) ← emit state chunk bytes
      if more then do
        require (SST_ARCHIVE_FIXED_BYTES_MAX + additional < 2 ^ 64) "a checkpoint table estimate fits in u64"
        chunkLoop rest [row] (SST_ARCHIVE_FIXED_BYTES_MAX + additional) state
      else pure (state, false)
    else do
      require (bytes + additional < 2 ^ 64) "a checkpoint table estimate fits in u64"
      chunkLoop rest (chunk ++ [row]) (bytes + additional) state

def forEachChunk (state : State) (rows : List Row) : Checked (State × Bool) :=
  chunkLoop rowBytes emit rows [] SST_ARCHIVE_FIXED_BYTES_MAX state

abbrev plannedChunks (rows : List Row) : List (List Row × Nat) :=
  Chunk.chunks SST_ARCHIVE_FIXED_BYTES_MAX SST_TABLE_TARGET_BYTES rowBytes rows

theorem chunkLoop_eq (rows : List Row) (fits : RowsFit rowBytes rows) :
    ∀ chunk bytes state, bytes ≤ SST_TABLE_TARGET_BYTES → (chunk = [] → bytes = SST_ARCHIVE_FIXED_BYTES_MAX) →
      chunkLoop rowBytes emit rows chunk bytes state =
        emitUntil (fun state piece => emit state piece.1 piece.2) state
          (Chunk.loop SST_ARCHIVE_FIXED_BYTES_MAX SST_TABLE_TARGET_BYTES rowBytes rows chunk bytes) := by
  induction rows with
  | nil =>
    intro chunk bytes state _ _
    rw [chunkLoop, Chunk.loop]
    split
    · rfl
    · rw [emitUntil_singleton]
  | cons row rest ih =>
    intro chunk bytes state within start
    have here := fits row mem_cons_self
    have later := ih fun other member => fits other (mem_cons_of_mem _ member)
    have word : SST_TABLE_TARGET_BYTES + SST_TABLE_TARGET_BYTES < 2 ^ 64 := by decide
    have one : SST_ARCHIVE_FIXED_BYTES_MAX + rowBytes row < 2 ^ 64 := by omega
    have both : bytes + rowBytes row < 2 ^ 64 := by omega
    rw [chunkLoop, Chunk.loop]
    simp only [require, if_pos here, if_pos one, if_pos both, ok_bind]
    split
    · simp only [later [row] _ _ here (by simp)]
      rfl
    · rename_i room
      refine later _ _ state ?_ (by simp)
      rcases Decidable.em (chunk = []) with empty | nonempty
      · rw [start empty]
        exact here
      · exact Nat.le_of_not_gt fun exceeds => room ⟨nonempty, exceeds⟩

theorem forEachChunk_eq (state : State) (rows : List Row)
    (fits : RowsFit rowBytes rows) :
    forEachChunk rowBytes emit state rows =
      emitUntil (fun state piece => emit state piece.1 piece.2) state
        (plannedChunks rowBytes rows) :=
  chunkLoop_eq rowBytes emit rows fits [] _ state (by decide) fun _ => rfl

end

def countTable {Row : Type} (accounting : ChunkAccounting) (_rows : List Row) (tableBytes : Nat) :
    Checked (ChunkAccounting × Bool) := do
  require (accounting.tables + 1 < 2 ^ 64) "a checkpoint table count fits in usize"
  require (accounting.bytes + tableBytes < 2 ^ 64) "a checkpoint byte estimate fits in u64"
  pure (⟨accounting.tables + 1, accounting.bytes + tableBytes⟩, true)

def accountRows (rows : List Nat) : Checked ChunkAccounting := do
  let (accounting, _) ← forEachChunk id countTable ⟨0, 0⟩ rows
  pure accounting

section

variable {Row : Type}

theorem countTable_ok_iff (accounting : ChunkAccounting) (rows : List Row) (tableBytes : Nat) (answer : ChunkAccounting × Bool) :
    countTable accounting rows tableBytes = .ok answer ↔
      accounting.tables + 1 < 2 ^ 64 ∧ accounting.bytes + tableBytes < 2 ^ 64 ∧
        (⟨accounting.tables + 1, accounting.bytes + tableBytes⟩, true) = answer := by
  simp [countTable, bind_ok_iff]

theorem count_eq {pieces : List (List Row × Nat)} : ∀ (start : ChunkAccounting) (answer : ChunkAccounting × Bool),
    emitUntil (fun accounting piece => countTable accounting piece.1 piece.2) start pieces = .ok answer →
      answer = (⟨start.tables + pieces.length, start.bytes + (pieces.map Prod.snd).sum⟩, true) := by
  induction pieces with
  | nil =>
    intro start answer run
    cases run
    simp
  | cons piece rest ih =>
    intro start answer run
    rw [emitUntil_cons, bind_ok_iff] at run
    obtain ⟨_, counted, run⟩ := run
    obtain ⟨_, _, rfl⟩ := (countTable_ok_iff _ _ _ _).mp counted
    rw [ih _ answer run]
    simp [Nat.add_assoc, Nat.add_comm 1]

theorem count_ok (pieces : List (List Row × Nat)) : ∀ start : ChunkAccounting, start.tables + pieces.length < 2 ^ 64 →
    start.bytes + (pieces.map Prod.snd).sum < 2 ^ 64 →
    ∃ answer, emitUntil (fun accounting piece => countTable accounting piece.1 piece.2) start pieces = .ok answer := by
  induction pieces with
  | nil => exact fun start _ _ => ⟨_, rfl⟩
  | cons piece rest ih =>
    intro start few small
    simp only [length_cons, map_cons, sum_cons] at few small
    have counted := (countTable_ok_iff start piece.1 piece.2 _).mpr ⟨by omega, by omega, rfl⟩
    rw [emitUntil_cons, counted]
    exact ih ⟨start.tables + 1, start.bytes + piece.2⟩ (by simp only; omega) (by simp only; omega)

variable (rowBytes : Row → Nat) (rows : List Row)
  (fits : RowsFit rowBytes rows)

include fits

theorem accountRows_run : accountRows (rows.map rowBytes) =
    (emitUntil (fun accounting piece => countTable accounting piece.1 piece.2) ⟨0, 0⟩
      ((plannedChunks rowBytes rows).map fun piece => (piece.1.map rowBytes, piece.2))).map Prod.fst := by
  have sizes : ∀ size ∈ rows.map rowBytes, SST_ARCHIVE_FIXED_BYTES_MAX + id size ≤ SST_TABLE_TARGET_BYTES := by
    intro size member
    obtain ⟨row, here, rfl⟩ := mem_map.mp member
    exact fits row here
  have same : plannedChunks id (rows.map rowBytes) = (plannedChunks rowBytes rows).map fun piece => (piece.1.map rowBytes, piece.2) :=
    Chunk.chunks_sizes _ _ rowBytes rows
  rw [accountRows, forEachChunk_eq id countTable _ _ sizes, same]
  rfl

theorem accountRows_eq (accounting : ChunkAccounting) (done : accountRows (rows.map rowBytes) = .ok accounting) :
    accounting = ⟨(plannedChunks rowBytes rows).length,
      ((plannedChunks rowBytes rows).map Prod.snd).sum⟩ := by
  rw [accountRows_run rowBytes rows fits] at done
  cases run : emitUntil (fun accounting piece => countTable accounting piece.1 piece.2) ⟨0, 0⟩
      ((plannedChunks rowBytes rows).map fun piece => (piece.1.map rowBytes, piece.2)) with
  | error message =>
    rw [run] at done
    cases done
  | ok answer =>
    rw [run] at done
    cases done
    rw [count_eq _ _ run]
    simp [Function.comp_def]

theorem accountRows_ok
    (small : ((plannedChunks rowBytes rows).map Prod.snd).sum < 2 ^ 64) :
    ∃ accounting, accountRows (rows.map rowBytes) = .ok accounting := by
  have total : ((plannedChunks rowBytes rows).map Prod.snd).sum = (plannedChunks rowBytes rows).length * 256 +
    (rows.map rowBytes).sum :=
    Chunk.chunks_total _ _ rowBytes rows
  rw [accountRows_run rowBytes rows fits]
  obtain ⟨answer, run⟩ := count_ok
    ((plannedChunks rowBytes rows).map fun piece => (piece.1.map rowBytes, piece.2))
    ⟨0, 0⟩ (by rw [length_map]; simp only; omega)
    (by simpa [Function.comp_def] using small)
  rw [run]
  exact ⟨answer.1, rfl⟩

end

variable [Rkyv]

structure Building (State : Type) where
  references : List TableRef
  ordinal : Nat
  state : State

section

variable {Row State : Type} (generation : SealGeneration) (attempt : AttemptId) (store : StoreKind)
  (encode : TableObjectId → List Row → Except SstEncodeError EncodedTable) (unencodable undercounted : String)
  (emit : State → EncodedTable → Checked (State × Bool))

def emitChunk (building : Building State) (rows : List Row) (estimate : Nat) : Checked (Building State × Bool) := do
  let (key, ordinal) ← nextTableKey generation attempt building.ordinal store
  let encoded ← expectOk unencodable (encode key rows)
  require (encoded.table.objectBytes.get ≤ estimate) undercounted
  let (state, more) ← emit building.state encoded
  pure (⟨building.references ++ [encoded.table], ordinal, state⟩, more)

def buildTree (rowBytes : Row → Nat) (ordinal : Nat) (rows : List Row) (carried : Option TreeVersion) (state : State) :
    Checked (State × Nat × Option TreeVersion) := do
  let (building, finished) ←
    forEachChunk rowBytes (emitChunk generation attempt store encode unencodable undercounted emit) ⟨[], ordinal, state⟩ rows
  if finished then do
    let tree ← buildManifest carried building.references
    pure (building.state, building.ordinal, some tree)
  else pure (building.state, building.ordinal, none)

theorem emitChunk_ok_iff (building after : Building State) (rows : List Row) (estimate : Nat) (more : Bool) :
    emitChunk generation attempt store encode unencodable undercounted emit building rows estimate = .ok (after, more) ↔
      ∃ key encoded, nextTableKey generation attempt building.ordinal store = .ok (key, after.ordinal) ∧ encode key rows = .ok encoded ∧
        encoded.table.objectBytes.get ≤ estimate ∧ emit building.state encoded = .ok (after.state, more) ∧
        after.references = building.references ++ [encoded.table] := by
  simp only [emitChunk, bind_ok_iff, expectOk_ok_iff, require_ok_iff, Prod.exists]
  constructor
  · rintro ⟨key, ordinal, keyed, encoded, done, _, counted, state, answer, emitted, same⟩
    cases same
    exact ⟨key, encoded, keyed, done, counted, emitted, rfl⟩
  · rintro ⟨key, encoded, keyed, done, counted, emitted, pushed⟩
    refine ⟨key, _, keyed, encoded, done, (), counted, _, _, emitted, ?_⟩
    rw [← pushed]
    rfl

theorem buildTables_cons_ok_iff (rows : List Row) (estimate ordinal last : Nat) (rest : List (List Row × Nat))
    (tables : List EncodedTable) :
    buildTables generation attempt store encode unencodable undercounted ((rows, estimate) :: rest) ordinal = .ok (tables, last) ↔
      ∃ key next encoded later, nextTableKey generation attempt ordinal store = .ok (key, next) ∧ encode key rows = .ok encoded ∧
        encoded.table.objectBytes.get ≤ estimate ∧
        buildTables generation attempt store encode unencodable undercounted rest next = .ok (later, last) ∧
        tables = encoded :: later := by
  simp only [buildTables, bind_ok_iff, expectOk_ok_iff, require_ok_iff, Prod.exists]
  constructor
  · rintro ⟨key, next, keyed, encoded, done, _, counted, later, _, built, same⟩
    cases same
    exact ⟨key, next, encoded, later, keyed, done, counted, built, rfl⟩
  · rintro ⟨key, next, encoded, later, keyed, done, counted, built, rfl⟩
    exact ⟨key, next, keyed, encoded, done, (), counted, later, last, built, rfl⟩

theorem emitUntil_emitChunk_iff (pieces : List (List Row × Nat)) : ∀ building after : Building State,
    emitUntil (fun building piece =>
        emitChunk generation attempt store encode unencodable undercounted emit building piece.1 piece.2) building pieces =
      .ok (after, true) ↔
    ∃ tables, buildTables generation attempt store encode unencodable undercounted pieces building.ordinal =
      .ok (tables, after.ordinal) ∧
      after.references = building.references ++ tables.map EncodedTable.table ∧
      emitUntil emit building.state tables = .ok (after.state, true) := by
  induction pieces with
  | nil =>
    intro building after
    constructor
    · intro run
      cases run
      exact ⟨[], rfl, by simp, rfl⟩
    · rintro ⟨tables, built, same, run⟩
      obtain ⟨references, ordinal, state⟩ := after
      cases built
      cases run
      rw [map_nil, append_nil] at same
      cases same
      rfl
  | cons piece rest ih =>
    intro building after
    rw [emitUntil_cons_finished]
    constructor
    · rintro ⟨middle, emitted, run⟩
      obtain ⟨key, encoded, keyed, done, counted, answered, pushed⟩ := (emitChunk_ok_iff _ _ _ _ _ _ _ _ _ _ _ _).mp emitted
      obtain ⟨tables, built, same, later⟩ := (ih middle after).mp run
      refine ⟨encoded :: tables, ?_, ?_, ?_⟩
      · exact (buildTables_cons_ok_iff _ _ _ _ _ _ _ _ _ _ _ _).mpr ⟨key, _, encoded, tables, keyed, done, counted, built, rfl⟩
      · rw [same, pushed, append_assoc]
        rfl
      · exact (emitUntil_cons_finished _ _ _ _ _).mpr ⟨_, answered, later⟩
    rintro ⟨tables, built, same, run⟩
    obtain ⟨key, next, encoded, later, keyed, done, counted, others, rfl⟩ :=
      (buildTables_cons_ok_iff _ _ _ _ _ _ _ _ _ _ _ _).mp built
    obtain ⟨state, answered, run⟩ := (emitUntil_cons_finished _ _ _ _ _).mp run
    refine ⟨⟨building.references ++ [encoded.table], next, state⟩, ?_, ?_⟩
    · exact (emitChunk_ok_iff _ _ _ _ _ _ _ _ _ _ _ _).mpr ⟨key, encoded, keyed, done, counted, answered, rfl⟩
    · refine (ih _ after).mpr ⟨later, others, ?_, run⟩
      rw [same, append_assoc]
      rfl

theorem buildTables_each (pieces : List (List Row × Nat)) : ∀ (ordinal last : Nat) (tables : List EncodedTable),
    buildTables generation attempt store encode unencodable undercounted pieces ordinal = .ok (tables, last) →
      last = ordinal + tables.length ∧
      List.Forall₂ (fun piece table => (∃ key, encode key piece.1 = .ok table) ∧
        table.table.objectBytes.get ≤ piece.2) pieces tables := by
  induction pieces with
  | nil =>
    intro ordinal last tables built
    cases built
    exact ⟨rfl, .nil⟩
  | cons piece rest ih =>
    intro ordinal last tables built
    obtain ⟨key, next, encoded, later, keyed, done, counted, others, rfl⟩ :=
      (buildTables_cons_ok_iff _ _ _ _ _ _ _ _ _ _ _ _).mp built
    obtain ⟨ended, each⟩ := ih next last later others
    have advanced : ordinal + 1 = next := by
      simp only [nextTableKey, bind_ok_iff] at keyed
      obtain ⟨_, _, fresh, _, same⟩ := keyed
      exact congrArg Prod.snd (Except.ok.inj same)
    refine ⟨?_, .cons ⟨⟨key, done⟩, counted⟩ each⟩
    rw [ended, ← advanced, length_cons, Nat.add_assoc, Nat.add_comm 1]

omit [Rkyv] in
theorem forEachChunk_planned {rowBytes : Row → Nat} {rows : List Row}
    (fits : RowsFit rowBytes rows) :
    StromDB.forEachChunk rowBytes rows = .ok (plannedChunks rowBytes rows) := by
  rw [StromDB.forEachChunk, (require_ok_iff _ _ ()).mpr (by simpa using fits)]
  rfl

theorem buildTree_finished_iff (rowBytes : Row → Nat) (ordinal last : Nat) (rows : List Row) (carried : Option TreeVersion)
    (state after : State) (tree : TreeVersion) (fits : RowsFit rowBytes rows) :
    buildTree generation attempt store encode unencodable undercounted emit rowBytes ordinal rows carried state =
        .ok (after, last, some tree) ↔
      ∃ tables, buildTables generation attempt store encode unencodable undercounted (plannedChunks rowBytes rows) ordinal =
          .ok (tables, last) ∧
        buildManifest carried (tables.map EncodedTable.table) = .ok tree ∧ emitUntil emit state tables = .ok (after, true) := by
  have run := emitUntil_emitChunk_iff generation attempt store encode unencodable undercounted emit (plannedChunks rowBytes rows)
    ⟨[], ordinal, state⟩
  rw [buildTree, forEachChunk_eq _ _ _ rows fits, bind_ok_iff]
  constructor
  · rintro ⟨⟨building, finished⟩, ended, same⟩
    cases finished with
    | false => cases same
    | true =>
      obtain ⟨manifest, made, same⟩ := bind_ok same
      cases same
      obtain ⟨tables, built, references, emitted⟩ := (run building).mp ended
      rw [references, nil_append] at made
      exact ⟨tables, built, made, emitted⟩
  · rintro ⟨tables, built, made, emitted⟩
    refine ⟨(⟨tables.map EncodedTable.table, last, after⟩, true), (run _).mpr ⟨tables, built, rfl, emitted⟩, ?_⟩
    simp [made]

end

section

variable {State : Type} (emit : State → EncodedTable → Checked (State × Bool))

def buildDirectoryTree (partition : PartitionId) (generation : SealGeneration) (attempt : AttemptId) (ordinal : Nat)
    (rows : List (StreamPath × DirectoryEntry)) (carried : Option TreeVersion) (state : State) :
    Checked (State × Nat × Option TreeVersion) :=
  buildTree generation attempt .directory (encodeDirectory partition) "planned Directory rows fit the durable table encoding"
    "Directory encoded accounting dominates the exact frozen table length" emit directoryBytes ordinal rows carried state

def buildLedgerTree (partition : PartitionId) (generation : SealGeneration) (attempt : AttemptId) (ordinal : Nat)
    (rows : List (StreamUid × LedgerCell)) (carried : Option TreeVersion) (state : State) :
    Checked (State × Nat × Option TreeVersion) :=
  buildTree generation attempt .ledger (encodeLedger partition) "planned Ledger rows fit the durable table encoding"
    "Ledger encoded accounting dominates the exact frozen table length" emit ledgerBytes ordinal rows carried state

def prepareCheckpoint [OrdMap.Differ] (input : CheckpointInput) (state : State) :
    Checked (State × Except String (Option PreparedCheckpoint)) :=
  match input.source.generation.successor with
  | .error exhausted => pure (state, .error exhausted.toText)
  | .ok generation => do
    let delta ← input.snapshot.deltaSince input.base
    let (cells, carried) ← planCheckpoint input.source input.snapshot delta
    let (state, ordinal, directory) ← buildDirectoryTree emit input.source.partition generation input.ticket.attempt 0
      cells.directory (carried.map Seal.directory) state
    match directory with
    | none => pure (state, .ok none)
    | some directory => do
      let (state, _, ledger) ← buildLedgerTree emit input.source.partition generation input.ticket.attempt ordinal
        cells.ledger (carried.map Seal.ledger) state
      match ledger with
      | none => pure (state, .ok none)
      | some ledger => do
        let (successor, encoded) ← assembleCheckpointSeal input.source.partition generation input.ticket.cut
          ⟨input.ticket.attempt.ownerClaim⟩ directory ledger
        let prepared ← PreparedCheckpoint.new input.ticket input.source successor input.snapshot encoded
        pure (state, .ok (some prepared))

variable (partition : PartitionId) (generation : SealGeneration) (attempt : AttemptId) (ordinal last : Nat)
  (carried : Option TreeVersion)
  (state after : State) (tree : TreeVersion)

theorem manifest_ok_iff (built : Checked (List EncodedTable × Nat)) (tables : List EncodedTable) :
    (do let (tables, ordinal) ← built
        let tree ← buildManifest carried (tables.map EncodedTable.table)
        pure (tables, tree, ordinal)) = .ok (tables, tree, last) ↔
      built = .ok (tables, last) ∧ buildManifest carried (tables.map EncodedTable.table) = .ok tree := by
  simp only [bind_ok_iff, Prod.exists]
  constructor
  · rintro ⟨_, _, made, _, manifest, same⟩
    cases same
    exact ⟨made, manifest⟩
  · rintro ⟨made, manifest⟩
    exact ⟨tables, last, made, tree, manifest, rfl⟩

theorem buildDirectoryTree_finished_iff (rows : List (StreamPath × DirectoryEntry)) :
    buildDirectoryTree emit partition generation attempt ordinal rows carried state = .ok (after, last, some tree) ↔
      ∃ tables, StromDB.buildDirectoryTree partition generation attempt ordinal rows carried = .ok (tables, tree, last) ∧
        emitUntil emit state tables = .ok (after, true) := by
  have fits : RowsFit directoryBytes rows := fun row _ =>
    (directory_encodes partition).small row
  rw [buildDirectoryTree, buildTree_finished_iff _ _ _ _ _ _ _ _ _ _ _ _ _ _ _ fits, StromDB.buildDirectoryTree,
    forEachChunk_planned fits, ok_bind]
  simp only [manifest_ok_iff, and_assoc]

theorem buildLedgerTree_finished_iff (rows : List (StreamUid × LedgerCell)) :
    buildLedgerTree emit partition generation attempt ordinal rows carried state = .ok (after, last, some tree) ↔
      ∃ tables, StromDB.buildLedgerTree partition generation attempt ordinal rows carried = .ok (tables, tree, last) ∧
        emitUntil emit state tables = .ok (after, true) := by
  have fits : RowsFit ledgerBytes rows := fun row _ =>
    (ledger_encodes partition).small row
  rw [buildLedgerTree, buildTree_finished_iff _ _ _ _ _ _ _ _ _ _ _ _ _ _ _ fits, StromDB.buildLedgerTree,
    forEachChunk_planned fits, ok_bind]
  simp only [manifest_ok_iff, and_assoc]

theorem prepareCheckpoint_finished_iff [OrdMap.Differ] (input : CheckpointInput) (prepared : PreparedCheckpoint) :
    prepareCheckpoint emit input state = .ok (after, .ok (some prepared)) ↔
      ∃ tables, StromDB.prepareCheckpoint input = .ok (.ok (tables, prepared)) ∧ emitUntil emit state tables = .ok (after, true) := by
  unfold prepareCheckpoint StromDB.prepareCheckpoint
  cases input.source.generation.successor with
  | error exhausted => simp
  | ok generation =>
    simp only [bind_ok_iff, Prod.exists]
    constructor
    · rintro ⟨delta, differed, cells, carried, planned, state₁, ordinal, directory, directoryBuilt, rest⟩
      cases directory with
      | none => cases rest
      | some directory =>
        simp only [bind_ok_iff, Prod.exists] at rest
        obtain ⟨state₂, last, ledger, ledgerBuilt, rest⟩ := rest
        cases ledger with
        | none => cases rest
        | some ledger =>
          simp only [bind_ok_iff, Prod.exists] at rest
          obtain ⟨successor, encoded, assembled, made, checked, same⟩ := rest
          cases same
          obtain ⟨first, firstBuilt, firstEmitted⟩ := (buildDirectoryTree_finished_iff _ _ _ _ _ _ _ _ _ _ _).mp directoryBuilt
          obtain ⟨second, secondBuilt, secondEmitted⟩ := (buildLedgerTree_finished_iff _ _ _ _ _ _ _ _ _ _ _).mp ledgerBuilt
          exact ⟨first ++ second,
            ⟨delta, differed, cells, carried, planned, first, directory, ordinal, firstBuilt, second, ledger, last, secondBuilt,
              successor, encoded, assembled, prepared, checked, rfl⟩,
            (emitUntil_append_finished emit first second state after).mpr ⟨_, firstEmitted, secondEmitted⟩⟩
    rintro ⟨tables, ⟨delta, differed, cells, carried, planned, first, directory, ordinal, firstBuilt, second, ledger, last, secondBuilt,
      successor, encoded, assembled, _, checked, same⟩, emitted⟩
    cases same
    obtain ⟨middle, firstEmitted, secondEmitted⟩ := (emitUntil_append_finished emit first second state after).mp emitted
    have directoryBuilt := (buildDirectoryTree_finished_iff emit _ _ _ _ _ _ state _ _ _).mpr ⟨first, firstBuilt, firstEmitted⟩
    have ledgerBuilt := (buildLedgerTree_finished_iff emit _ _ _ _ _ _ middle _ _ _).mpr ⟨second, secondBuilt, secondEmitted⟩
    refine ⟨delta, differed, cells, carried, planned, middle, ordinal, some directory, directoryBuilt, ?_⟩
    simp only [ledgerBuilt, ok_bind, assembled, checked]
    rfl

end

end Emitting

end StromDB
