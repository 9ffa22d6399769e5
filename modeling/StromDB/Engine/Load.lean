import StromDB.Engine.Merge

namespace StromDB

open List OrdMap

variable [Rkyv]

variable (tables : Tables) (partition : PartitionId)

namespace Bootstrap

def TableRows.read (tables : Tables) (partition : PartitionId) : TableRows where
  directory table :=
    match decodeTableBody partition table (tables table.object) with
    | .ok (.directory rows) => rows
    | _ => []
  ledger table :=
    match decodeTableBody partition table (tables table.object) with
    | .ok (.ledger rows) => rows
    | _ => []

section

variable {K V : Type} [Ord K] (tables : Tables) (partition : PartitionId) (wrap : List (K × V) → DecodedTable)
  (rows : TableRef → List (K × V))

structure RunReads (run : SortedRun) : Prop where
  held : ∀ table ∈ run.tables, TableHolds tables partition wrap table (rows table)
  nonempty : ∀ table ∈ run.tables, rows table ≠ []
  ordered : ∀ table ∈ run.tables, strictlyOrdered (rows table) = true
  chained : run.tables.IsChain (Joined rows)

omit [Ord K] in
theorem parts_eq (decodes : ∀ table part, TableHolds tables partition wrap table part → rows table = part) (refs : List TableRef)
    (parts : List (List (K × V))) (held : List.Forall₂ (TableHolds tables partition wrap) refs parts) : parts = refs.map rows := by
  induction held with
  | nil => rfl
  | cons here _ ih => rw [map_cons, ih, decodes _ _ here]

variable [Std.TransOrd K] (decodes : ∀ table part, TableHolds tables partition wrap table part → rows table = part)

include decodes

theorem runHolds_iff (run : SortedRun) (parts : List (List (K × V))) :
    RunHolds tables partition wrap run parts ↔ RunReads tables partition wrap rows run ∧ parts = run.tables.map rows := by
  constructor
  · intro holds
    have split := parts_eq tables partition wrap rows decodes run.tables parts holds.held
    subst split
    have held := holds.held
    have nonempty := holds.nonempty
    have sorted := strictlyOrdered_iff.mp holds.ordered
    rw [forall₂_map_right_iff, forall₂_same] at held
    rw [pairwise_map, pairwise_flatten, pairwise_map] at sorted
    refine ⟨⟨held, fun table member => nonempty _ (mem_map_of_mem member), ?_, ?_⟩, rfl⟩
    · intro table member
      exact strictlyOrdered_iff.mpr (pairwise_map.mpr (sorted.1 _ (mem_map_of_mem member)))
    · refine List.Pairwise.isChain (sorted.2.imp fun above last first final head => ?_)
      exact above last (mem_of_getLast? final) first (mem_of_head? head)
  rintro ⟨reads, rfl⟩
  have chain : Chained rows none run.tables := (chained_iff none).mpr ⟨by simp, reads.chained⟩
  refine ⟨?_, ?_, ?_⟩
  · rw [forall₂_map_right_iff, forall₂_same]
    exact reads.held
  · intro part member
    obtain ⟨table, here, rfl⟩ := mem_map.mp member
    exact reads.nonempty table here
  · rw [strictlyOrdered_iff, ← flatMap_def]
    exact (chain.ordered rows run.tables none reads.nonempty reads.ordered).1

theorem treeHolds_iff (tree : TreeVersion) (runs : List (List (List (K × V)))) :
    TreeHolds tables partition wrap tree runs ↔
      (∀ run ∈ tree.runs, RunReads tables partition wrap rows run) ∧ runs = tree.runs.map fun run => run.tables.map rows := by
  rw [TreeHolds]
  generalize tree.runs = list
  constructor
  · intro held
    induction held with
    | nil => simp
    | cons here _ ih =>
      obtain ⟨reads, rfl⟩ := (runHolds_iff tables partition wrap rows decodes _ _).mp here
      rw [map_cons, ← ih.2]
      exact ⟨forall_mem_cons.mpr ⟨reads, ih.1⟩, rfl⟩
  · rintro ⟨reads, rfl⟩
    rw [forall₂_map_right_iff, forall₂_same]
    exact fun run member => (runHolds_iff tables partition wrap rows decodes _ _).mpr ⟨reads run member, rfl⟩

end

omit [Rkyv] in
theorem treeRows_map {K V : Type} (rows : TableRef → List (K × V)) (tree : TreeVersion) :
    treeRows (tree.runs.map fun run => run.tables.map rows) = planRows rows tree := by
  rw [treeRows, planRows, ← map_reverse, map_map, flatMap_def]
  rfl

theorem read_directory (table : TableRef) (part : List (StreamPath × DirectoryEntry))
    (held : TableHolds tables partition DecodedTable.directory table part) :
    (TableRows.read tables partition).directory table = part := by
  simp only [TableRows.read, held.2]

theorem read_ledger (table : TableRef) (part : List (StreamUid × LedgerCell))
    (held : TableHolds tables partition DecodedTable.ledger table part) : (TableRows.read tables partition).ledger table = part := by
  simp only [TableRows.read, held.2]

section

theorem decodeTableBody_readable (table : TableRef) (body : Option SstObject) (decoded : DecodedTable)
    (done : decodeTableBody partition table body = .ok decoded) : Readable table decoded := by
  cases body with
  | none => cases done
  | some object =>
    rw [decodeTableBody] at done
    split at done
    · cases done
    split at done
    · cases done
    unfold decodeTableRows at done
    split at done
    · rename_i store
      split at done
      · rename_i rows accepted
        cases done
        refine ⟨store, ?_⟩
        unfold decodeDirectorySst at accepted
        split at accepted
        · cases accepted
        split at accepted
        · cases accepted
        split at accepted
        · exact decodeRows_ok_cases accepted
        · cases accepted
      · cases done
    · rename_i store
      split at done
      · rename_i rows accepted
        cases done
        refine ⟨store, ?_⟩
        unfold decodeLedgerSst at accepted
        split at accepted
        · cases accepted
        split at accepted
        · cases accepted
        split at accepted
        · exact decodeRows_ok_cases accepted
        · cases accepted
      · cases done
    · cases done

variable (tables : Tables) (sealed : Seal) (legal : sealed.Legal)

theorem proper_of_reads
    (directoryReads : ∀ run ∈ sealed.directory.runs, RunReads tables sealed.partition DecodedTable.directory
      (TableRows.read tables sealed.partition).directory run)
    (ledgerReads : ∀ run ∈ sealed.ledger.runs, RunReads tables sealed.partition DecodedTable.ledger
      (TableRows.read tables sealed.partition).ledger run) : (TableRows.read tables sealed.partition).Proper sealed := by
  refine ⟨?_, ?_, ?_, ?_⟩ <;> intro table selected <;> obtain ⟨run, inTree, inRun⟩ := mem_flatMap.mp selected
  · exact (directoryReads run inTree).nonempty table inRun
  · exact (directoryReads run inTree).ordered table inRun
  · exact (ledgerReads run inTree).nonempty table inRun
  · exact (ledgerReads run inTree).ordered table inRun

include legal

theorem reads_iff :
    ((∀ table ∈ sealed.tables, (tables table.object).isSome ∧
      decodeTableBody sealed.partition table (tables table.object) =
        .ok ((TableRows.read tables sealed.partition).decoded table)) ∧
      ¬ (TableRows.read tables sealed.partition).Overlapping sealed) ↔
    (∀ run ∈ sealed.directory.runs, RunReads tables sealed.partition DecodedTable.directory
      (TableRows.read tables sealed.partition).directory run) ∧
    ∀ run ∈ sealed.ledger.runs, RunReads tables sealed.partition DecodedTable.ledger
      (TableRows.read tables sealed.partition).ledger run := by
  have directories := (TableRows.read tables sealed.partition).decoded_directory sealed legal
  have ledgers := (TableRows.read tables sealed.partition).decoded_ledger sealed legal
  rw [TableRows.not_overlapping_iff]
  constructor
  · rintro ⟨decoded, directoryChained, ledgerChained⟩
    have heldDirectory : ∀ run ∈ sealed.directory.runs, ∀ table ∈ run.tables, TableHolds tables sealed.partition
        DecodedTable.directory table ((TableRows.read tables sealed.partition).directory table) := by
      intro run inTree table inRun
      have selected : table ∈ sealed.directory.tables := mem_flatMap.mpr ⟨run, inTree, inRun⟩
      rw [TableHolds, ← directories table selected]
      exact decoded table (mem_append_left _ selected)
    have heldLedger : ∀ run ∈ sealed.ledger.runs, ∀ table ∈ run.tables, TableHolds tables sealed.partition
        DecodedTable.ledger table ((TableRows.read tables sealed.partition).ledger table) := by
      intro run inTree table inRun
      have selected : table ∈ sealed.ledger.tables := mem_flatMap.mpr ⟨run, inTree, inRun⟩
      rw [TableHolds, ← ledgers table selected]
      exact decoded table (mem_append_right _ selected)
    refine ⟨fun run inTree => ⟨heldDirectory run inTree, ?_, ?_, directoryChained run inTree⟩,
      fun run inTree => ⟨heldLedger run inTree, ?_, ?_, ledgerChained run inTree⟩⟩
    · exact fun table inRun => (decodeTableBody_readable _ _ _ _ (heldDirectory run inTree table inRun).2).2.1
    · exact fun table inRun => (decodeTableBody_readable _ _ _ _ (heldDirectory run inTree table inRun).2).2.2
    · exact fun table inRun => (decodeTableBody_readable _ _ _ _ (heldLedger run inTree table inRun).2).2.1
    · exact fun table inRun => (decodeTableBody_readable _ _ _ _ (heldLedger run inTree table inRun).2).2.2
  rintro ⟨directoryReads, ledgerReads⟩
  refine ⟨?_, fun run inTree => (directoryReads run inTree).chained, fun run inTree => (ledgerReads run inTree).chained⟩
  intro table selected
  rcases mem_append.mp selected with here | here
  · obtain ⟨run, inTree, inRun⟩ := mem_flatMap.mp here
    rw [directories table here]
    exact (directoryReads run inTree).held table inRun
  · obtain ⟨run, inTree, inRun⟩ := mem_flatMap.mp here
    rw [ledgers table here]
    exact (ledgerReads run inTree).held table inRun

end

def mergeSources (tables : Tables) (partition : PartitionId) : List PlannedTable → BaseLoad → Checked (Except BootstrapExit BaseLoad)
  | [], load => pure (.ok load)
  | source :: rest, load =>
    match decodeTableBody partition source.table (tables source.table.object) with
    | .error error => pure (.error (storeExit error))
    | .ok decoded => do
      match ← mergeTable load source decoded with
      | .error exit => pure (.error exit)
      | .ok load => mergeSources tables partition rest load

theorem mergeSources_extend {before after : Tables} (kept : ∀ object body, before object = some body → after object = some body)
    (partition : PartitionId) (sources : List PlannedTable) : ∀ load final,
    mergeSources before partition sources load = .ok (.ok final) → mergeSources after partition sources load = .ok (.ok final) := by
  induction sources with
  | nil =>
    intro load final merged
    exact merged
  | cons source rest ih =>
    intro load final merged
    simp only [mergeSources] at merged ⊢
    cases found : before source.table.object with
    | none =>
      rw [found] at merged
      cases merged
    | some body =>
      rw [found] at merged
      rw [kept _ _ found]
      cases decoded : decodeTableBody partition source.table (some body) with
      | error error =>
        rw [decoded] at merged
        cases merged
      | ok rows =>
        rw [decoded] at merged
        obtain ⟨outcome, first, later⟩ := Checked.bind_ok merged
        simp only [first, Checked.ok_bind]
        cases outcome with
        | error exit => cases later
        | ok middle => exact ih middle final later

theorem mergeSources_append (first second : List PlannedTable) :
    ∀ load middle, mergeSources tables partition first load = .ok (.ok middle) →
      mergeSources tables partition (first ++ second) load = mergeSources tables partition second middle := by
  induction first with
  | nil =>
    intro load middle done
    cases done
    rfl
  | cons source rest ih =>
    intro load middle done
    simp only [mergeSources, cons_append] at done ⊢
    split at done
    · cases done
    rename_i decoded _
    cases merged : mergeTable load source decoded with
    | error message =>
      rw [merged] at done
      cases done
    | ok outcome =>
      rw [merged] at done
      cases outcome with
      | error exit => cases done
      | ok next => exact ih next middle done

theorem mergeSources_eq (decoded : TableRef → DecodedTable) (sources : List PlannedTable)
    (decodes : ∀ source ∈ sources, decodeTableBody partition source.table (tables source.table.object) = .ok (decoded source.table)) :
    ∀ load, mergeSources tables partition sources load = loadTables (sources.map fun source => (source, decoded source.table))
      load := by
  induction sources with
  | nil => exact fun _ => rfl
  | cons source rest ih =>
    intro load
    have later := ih fun other member => decodes other (mem_cons_of_mem _ member)
    simp only [mergeSources, decodes source mem_cons_self, map_cons, loadTables]
    cases mergeTable load source (decoded source.table) with
    | error message => rfl
    | ok outcome =>
      cases outcome with
      | error exit => rfl
      | ok next => exact later next

theorem mergeTable_remaining {load : BaseLoad} (remaining : List PlannedTable) (source : PlannedTable) (decoded : DecodedTable)
    (next : BaseLoad) (merged : mergeTable { load with remaining := [] } source decoded = .ok (.ok next)) :
    mergeTable { load with remaining } source decoded = .ok (.ok { next with remaining }) ∧ next.remaining = [] ∧
      next.claimed = load.claimed := by
  obtain ⟨claimed, empty⟩ := mergeTable_kept merged
  have planned := mergeTable_planned { load with remaining := [] } load.claimed remaining source decoded
  rw [merged] at planned
  refine ⟨planned.trans ?_, empty, claimed⟩
  rw [show load.claimed = next.claimed from claimed.symm]
  rfl

omit [Rkyv] in
theorem resident_fits {n directory ledger : Nat} (capacity : n ≤ PARTITION_PATH_OCCUPANCIES_MAX_V2) (few : directory ≤ n)
    (records : ledger ≤ n) :
    directory * DIRECTORY_ROW_LOGICAL_BYTES_MAX + ledger * LEDGER_VALUE_ROW_LOGICAL_BYTES_MAX ≤
      PARTITION_RESIDENT_LOGICAL_BYTES_MAX_V2 := by
  simp only [PARTITION_PATH_OCCUPANCIES_MAX_V2, DIRECTORY_ROW_LOGICAL_BYTES_MAX, LEDGER_VALUE_ROW_LOGICAL_BYTES_MAX,
    PARTITION_RESIDENT_LOGICAL_BYTES_MAX_V2] at *
  omega

omit [Rkyv] in
theorem directoryCells_values {rows : List (StreamPath × DirectoryEntry)} : ∀ row ∈ directoryCells rows, row.2.isSome := by
  intro row member
  obtain ⟨source, _, rfl⟩ := mem_map.mp member
  rfl

omit [Rkyv] in
theorem directory_prefix_size {first rows : List (StreamPath × DirectoryEntry)} (initial : first <+: rows) :
    (OrdMap.patch (directoryCells first) ∅).size ≤ (OrdMap.patch (directoryCells rows) ∅).size := by
  obtain ⟨rest, rfl⟩ := initial
  rw [directoryCells_append, patch_append]
  exact size_le_of_keys fun query here =>
    isSome_patch_values (directoryCells_values) query _ here

theorem ledger_prefix_size {n : Nat} {first rows : List (StreamUid × LedgerCell)} (initial : first <+: rows)
    (numbered : ∀ row ∈ rows, row.1.get ≤ n) : (OrdMap.patch (ledgerCells first) ∅).size ≤ n := by
  refine size_le_of_numbered StreamUid.get_injective n StreamUid.positive fun uid held => ?_
  by_contra above
  rw [get_patch_absent] at held
  · simp at held
  · rintro _ member rfl
    obtain ⟨row, here, rfl⟩ := mem_map.mp member
    exact above (numbered row (initial.subset here))

theorem content_loads (sealed : Seal) (forest : Forest) (content : Content tables sealed forest)
    (legal : sealed.Legal) (capacity : forest.pathCount ≤ PARTITION_PATH_OCCUPANCIES_MAX_V2) (load : BaseLoad)
    (start : load.merged = MergedRows.empty) :
    ∃ final, mergeSources tables sealed.partition (treeSources sealed.directory ++ treeSources sealed.ledger) load =
        .ok (.ok final) ∧
      final.merged.directory = forest.directory ∧ final.merged.ledger = forest.ledger ∧ final.claimed = load.claimed ∧
      final.remaining = load.remaining := by
  obtain ⟨directoryRuns, ledgerRuns, directories, ledgers, sameDirectory, sameLedger, numbered⟩ := content.rows
  obtain ⟨directoryReads, rfl⟩ := (treeHolds_iff tables sealed.partition DecodedTable.directory
    (TableRows.read tables sealed.partition).directory (read_directory tables sealed.partition) _ _).mp directories
  obtain ⟨ledgerReads, rfl⟩ := (treeHolds_iff tables sealed.partition DecodedTable.ledger
    (TableRows.read tables sealed.partition).ledger (read_ledger tables sealed.partition) _ _).mp ledgers
  rw [treeRows_map] at sameDirectory sameLedger numbered
  have size : (patch (directoryCells (planRows (TableRows.read tables sealed.partition).directory sealed.directory)) ∅).size =
      forest.pathCount := congrArg Std.ExtTreeMap.size sameDirectory
  have fits : (TableRows.read tables sealed.partition).Fits sealed := by
    refine ⟨fun run member => (directoryReads run member).chained, fun run member => (ledgerReads run member).chained, ?_, ?_⟩
    · intro first initial
      rw [foldl_writeDirectory]
      exact resident_fits capacity (size ▸ directory_prefix_size initial) (Nat.zero_le _)
    · intro first initial
      rw [foldl_writeLedger]
      exact resident_fits capacity (Nat.le_of_eq size) (ledger_prefix_size initial numbered)
  rcases plan_settles legal (proper_of_reads tables sealed directoryReads ledgerReads) load start with
    ⟨_, final, done, loaded⟩ | ⟨unfit, _⟩
  · refine ⟨final, ?_, (congrArg Forest.directory loaded.maps).trans sameDirectory,
      (congrArg Forest.ledger loaded.maps).trans sameLedger,
      loaded.claimed, loaded.remaining⟩
    rw [mergeSources_eq tables sealed.partition (TableRows.read tables sealed.partition).decoded, done]
    intro source member
    refine (((reads_iff tables sealed legal).mpr ⟨directoryReads, ledgerReads⟩).1 _ ?_).2
    exact mem_append.mpr ((mem_append.mp member).imp mem_treeSources mem_treeSources)
  · exact absurd fits unfit

end Bootstrap

end StromDB
