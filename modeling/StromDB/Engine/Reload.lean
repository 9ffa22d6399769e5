import StromDB.Engine.Checkpoint
import StromDB.Engine.Load

namespace StromDB

open Bootstrap Checked

variable [Rkyv]

-- A load, as it is meant: the stored tables decode, the runs are ordered, the
-- newest run wins, and the maps agree with each other.
structure Loads (tables : Tables) (sealed : Seal) (forest : Forest) : Prop where
  decoded : ∀ table ∈ sealed.tables, (tables table.object).isSome ∧
    decodeTableBody sealed.partition table (tables table.object) =
      .ok ((Bootstrap.TableRows.read tables sealed.partition).decoded table)
  ordered : ¬ (Bootstrap.TableRows.read tables sealed.partition).Overlapping sealed
  newest : ∃ (directory : OrdMap StreamPath DirectoryEntry) (ledger : OrdMap StreamUid StreamRecord),
    (∀ path : StreamPath, directory[path]? =
      newestRow (Bootstrap.TableRows.read tables sealed.partition).directory sealed.directory path) ∧
    (∀ uid : StreamUid, ledger[uid]? =
      (newestRow (Bootstrap.TableRows.read tables sealed.partition).ledger sealed.ledger uid).bind LedgerCell.toOption) ∧
    Forest.tryFrom directory ledger = .ok forest

section

open Bootstrap

variable (tables : Tables) (sealed : Seal) (legal : sealed.Legal)

include legal

theorem loads_iff (forest : Forest) : Loads tables sealed forest ↔ forest.Consistent ∧ ∃ directoryRuns ledgerRuns,
    TreeHolds tables sealed.partition DecodedTable.directory sealed.directory directoryRuns ∧
    TreeHolds tables sealed.partition DecodedTable.ledger sealed.ledger ledgerRuns ∧
    OrdMap.patch (directoryCells (treeRows directoryRuns)) ∅ = forest.directory ∧
    OrdMap.patch (ledgerCells (treeRows ledgerRuns)) ∅ = forest.ledger := by
  simp only [treeHolds_iff tables sealed.partition DecodedTable.directory (TableRows.read tables sealed.partition).directory
      (read_directory tables sealed.partition),
    treeHolds_iff tables sealed.partition DecodedTable.ledger (TableRows.read tables sealed.partition).ledger
      (read_ledger tables sealed.partition)]
  constructor
  · rintro ⟨decoded, ordered, directory, ledger, paths, records, accepted⟩
    obtain ⟨directoryReads, ledgerReads⟩ := (reads_iff tables sealed legal).mp ⟨decoded, ordered⟩
    have found := (TableRows.read tables sealed.partition).get_maps sealed
      (proper_of_reads tables sealed directoryReads ledgerReads) (fun run member => (directoryReads run member).chained)
      (fun run member => (ledgerReads run member).chained)
    obtain ⟨rfl, consistent⟩ := Forest.consistent_of_tryFrom accepted
    refine ⟨consistent, _, _, ⟨directoryReads, rfl⟩, ⟨ledgerReads, rfl⟩, ?_, ?_⟩
    · rw [treeRows_map]
      exact Std.ExtTreeMap.ext_getElem? fun path => (found.1 path).trans (paths path).symm
    · rw [treeRows_map]
      exact Std.ExtTreeMap.ext_getElem? fun uid => (found.2 uid).trans (records uid).symm
  rintro ⟨consistent, _, _, ⟨directoryReads, rfl⟩, ⟨ledgerReads, rfl⟩, sameDirectory, sameLedger⟩
  obtain ⟨decoded, ordered⟩ := (reads_iff tables sealed legal).mpr ⟨directoryReads, ledgerReads⟩
  have found := (TableRows.read tables sealed.partition).get_maps sealed
    (proper_of_reads tables sealed directoryReads ledgerReads) (fun run member => (directoryReads run member).chained)
    (fun run member => (ledgerReads run member).chained)
  rw [treeRows_map] at sameDirectory sameLedger
  refine ⟨decoded, ordered, forest.directory, forest.ledger, ?_, ?_, Forest.tryFrom_consistent consistent⟩
  · intro path
    rw [← sameDirectory]
    exact found.1 path
  · intro uid
    rw [← sameLedger]
    exact found.2 uid

end

theorem prepareCheckpoint_success [OrdMap.Differ] {input : CheckpointInput} {created : List EncodedTable}
    {prepared : PreparedCheckpoint}
    (done : prepareCheckpoint input = .ok (.ok (created, prepared))) :
    input.source.generation.get + 1 < 2 ^ 64 ∧ input.ticket.attempt.ownerClaim.get ≤ input.source.generation.get := by
  unfold prepareCheckpoint at done
  split at done
  · cases done
  rename_i generation succeeds
  have next := SealGeneration.successor_ok_iff.mp succeeds
  have bound := generation.raw.bounded
  obtain ⟨delta, _, done⟩ := bind_ok done
  obtain ⟨⟨cells, carried⟩, _, done⟩ := bind_ok done
  obtain ⟨⟨directoryTables, directory, ordinal⟩, _, done⟩ := bind_ok done
  obtain ⟨⟨ledgerTables, ledger, last⟩, _, done⟩ := bind_ok done
  obtain ⟨⟨successor, encoded⟩, assembled, _⟩ := bind_ok done
  obtain ⟨sealed, built, _⟩ := bind_ok assembled
  obtain ⟨rfl, legal⟩ := (Seal.new_ok_iff _ _ _ _ _ _).mp (expectOk_ok_iff.mp built)
  have owner : input.ticket.attempt.ownerClaim.get < generation.get := legal.replayOwner
  refine ⟨?_, by omega⟩
  rw [← next]
  exact bound

theorem PreparedCheckpoint.new_ok {ticket : CheckpointTicket} {source successor : Seal} {snapshot : Forest}
    {candidate : EncodedAuthoritySeal} {prepared : PreparedCheckpoint}
    (done : PreparedCheckpoint.new ticket source successor snapshot candidate = .ok prepared) :
    prepared = ⟨source, successor, snapshot, candidate⟩ := by
  simp only [PreparedCheckpoint.new, bind_ok_iff, pure_eq_ok, Except.ok.injEq] at done
  obtain ⟨_, _, _, _, _, _, _, _, _, _, _, _, rfl⟩ := done
  rfl

theorem prepareCheckpoint_loads [OrdMap.Differ] {input : CheckpointInput} (legal : input.source.Legal) (tables after : Tables)
    (loads : Loads tables input.source input.base) (folded : Forest.Folded input.base input.snapshot) (created : List EncodedTable)
    (prepared : PreparedCheckpoint) (done : prepareCheckpoint input = .ok (.ok (created, prepared)))
    (kept : ∀ table ∈ input.source.tables, ∀ body, tables table.object = some body → after table.object = some body)
    (emitted : ∀ table ∈ created, after table.key = some table.object) :
    Loads after prepared.successor input.snapshot ∧ prepared.successor.Legal ∧
      prepared.successor.replay = .through input.ticket.cut ⟨input.ticket.attempt.ownerClaim⟩ := by
  obtain ⟨unexhausted, owner⟩ := prepareCheckpoint_success done
  obtain ⟨base, directoryRuns, ledgerRuns, directories, ledgers, sameDirectory, sameLedger⟩ :=
    (loads_iff tables input.source legal input.base).mp loads
  have snapshot := folded.consistent input.base input.snapshot base
  obtain ⟨generation, predates, cells, carried, directoryTables, ledgerTables, directory, ledger, encoded, _, _, plan,
    trees, same, successorLegal, _, planned⟩ := prepareCheckpoint_planned legal base snapshot
      (folded.grows) owner unexhausted
  rw [planned] at done
  obtain ⟨checked, passed, done⟩ := bind_ok done
  cases done
  have shape := PreparedCheckpoint.new_ok passed
  rw [shape]
  refine ⟨?_, successorLegal, by rw [same]⟩
  obtain ⟨nextDirectory, nextLedger, heldDirectory, heldLedger, nextPaths, nextRecords, _⟩ :=
    trees.selects input.base input.snapshot plan after directoryRuns ledgerRuns
      (directories.extend fun table member => kept table (List.mem_append_left _ member))
      (ledgers.extend fun table member => kept table (List.mem_append_right _ member))
      sameDirectory sameLedger emitted
  refine (loads_iff after encoded.sealed successorLegal input.snapshot).mpr ⟨snapshot, nextDirectory, nextLedger, ?_⟩
  rw [same]
  exact ⟨heldDirectory, heldLedger, nextPaths, nextRecords⟩

theorem Loads.handled (tables : Tables) (sealed : Seal) (forest : Forest) (loads : Loads tables sealed forest)
    (legal : sealed.Legal) (sources : List PlannedTable) (planned : planBootstrapSources sealed = .ok sources)
    (fits : ¬ (Bootstrap.TableRows.read tables sealed.partition).Exceeding sealed) (claimed : ClaimedBootstrap) :
    handleAll
      (tableReads (sources.map fun source =>
        (source, (Bootstrap.TableRows.read tables sealed.partition).decoded source.table)))
      (readNextTable ⟨claimed, sources, MergedRows.empty, none, none⟩) =
        .ok (effect (.observingWalTail ⟨claimed, forest, forest⟩ none) .observeWalTail) := by
  obtain ⟨decoded, ordered, directory, ledger, paths, records, accepted⟩ := loads
  obtain ⟨directoryReads, ledgerReads⟩ := (Bootstrap.reads_iff tables sealed legal).mp ⟨decoded, ordered⟩
  have proper := Bootstrap.proper_of_reads tables sealed directoryReads ledgerReads
  have plan := planBootstrapSources_sources planned
  rcases plan_settles legal proper
    ⟨claimed, [], MergedRows.empty, none, none⟩ rfl with ⟨fit, final, done, loaded⟩ | ⟨unfit, _⟩
  · rw [← plan] at done
    have handled := loadTables_handled _ _ done
    have found := (Bootstrap.TableRows.read tables sealed.partition).get_maps sealed proper fit.directoryChained fit.ledgerChained
    rw [← loaded.maps] at found
    have sameDirectory : final.merged.directory = directory :=
      Std.ExtTreeMap.ext_getElem? fun path => (found.1 path).trans (paths path).symm
    have sameLedger : final.merged.ledger = ledger :=
      Std.ExtTreeMap.ext_getElem? fun uid => (found.2 uid).trans (records uid).symm
    simp only [List.map_map, Function.comp_def, List.map_id'] at handled
    rw [handled, readNextTable]
    simp only [sameDirectory, sameLedger, accepted, loaded.claimed]
  · exact absurd ((Bootstrap.TableRows.fits_iff _ sealed).mpr (by simp [ordered, fits])) unfit

end StromDB
