import StromDB.Properties.Writer

namespace StromDB

open Forest

theorem tryFrom_accepts [Jiff] (directory : OrdMap StreamPath DirectoryEntry) (ledger : OrdMap StreamUid StreamRecord) :
    (∀ forest, tryFrom directory ledger = .ok forest ↔ forest = ⟨directory, ledger⟩ ∧ directory.size ≤ 10000000 ∧
      ((entries directory).map fun entry => entry.uid.get).Perm (List.range' 1 directory.size) ∧
      ∀ uid : StreamUid, uid ∈ ledger.keys ↔ .live uid ∈ entries directory) ∧
    ∀ forest, Forest.Folded empty forest → tryFrom forest.directory forest.ledger = .ok forest := by
  constructor
  · intro forest
    have described := consistent_iff directory ledger
    constructor
    · intro accepted
      obtain ⟨rfl, consistent⟩ := consistent_of_tryFrom accepted
      exact ⟨rfl, described.mp consistent⟩
    · rintro ⟨rfl, shape⟩
      exact tryFrom_consistent (described.mpr shape)
  · intro forest folded
    exact tryFrom_consistent (folded.consistent empty forest Forest.Consistent.empty)

def firstBatch : BatchId := ⟨.min⟩

def firstUid : StreamUid := ⟨.min⟩

attribute [local instance] plainRkyv

def firstFact : OperationFact := .streamCreated samplePath firstUid .octetStream .none .opened

def oneStream : Forest :=
  ⟨(∅ : OrdMap StreamPath DirectoryEntry).insert samplePath (.live firstUid),
    (∅ : OrdMap StreamUid StreamRecord).insert firstUid ⟨.octetStream, .none, .opened, firstBatch⟩⟩

theorem oneStream_folded : Forest.Folded empty oneStream :=
  .fold empty oneStream firstBatch firstFact .applied .refl (by decide +kernel)

theorem tryFrom_accepts_oneStream : oneStream.directory.size = 1 ∧
    tryFrom oneStream.directory oneStream.ledger = .ok oneStream :=
  ⟨by decide +kernel, (tryFrom_accepts oneStream.directory oneStream.ledger).2 oneStream oneStream_folded⟩

section

open Bootstrap

variable [Rkyv] (sealed : Seal) (legal : sealed.Legal) (sources : List PlannedTable)
  (planned : planBootstrapSources sealed = .ok sources) (rows : TableRows) (proper : rows.Proper sealed) (load : BaseLoad)
  (start : load.merged = MergedRows.empty)

include legal planned proper start

theorem merge_newest_wins :
    ((¬ (rows.Overlapping sealed ∨ rows.Exceeding sealed) ∧
      ∃ final : BaseLoad, handleAll (tableReads (sources.map fun source => (source, rows.decoded source.table)))
          (readNextTable { load with remaining := sources }) = .ok (readNextTable { final with remaining := [] }) ∧
        (∀ path : StreamPath, final.merged.directory[path]? = newestRow rows.directory sealed.directory path) ∧
        ∀ uid : StreamUid, final.merged.ledger[uid]? =
          (newestRow rows.ledger sealed.ledger uid).bind LedgerCell.toOption) ∨
    ((rows.Overlapping sealed ∨ rows.Exceeding sealed) ∧
      ∃ first failure, first <+: tableReads (sources.map fun source => (source, rows.decoded source.table)) ∧
        handleAll first (readNextTable { load with remaining := sources }) = .ok (exit failure))) ∧
    ∀ first source rest middle, sources = first ++ source :: rest →
      loadTables (first.map fun source => (source, rows.decoded source.table)) load = .ok (.ok middle) →
      ∀ next, (∃ part, part <+: rows.directory source.table ∧ mergeDirectoryRows part middle.merged = .ok next) ∨
          (∃ part, part <+: rows.ledger source.table ∧ mergeLedgerRows part middle.merged = .ok (.ok next)) →
        next.residentBytes = 525 * next.directory.size + 1035 * next.ledger.size := by
  have plan := planBootstrapSources_sources planned
  have reads : (sources.map fun source => (source, rows.decoded source.table)).map Prod.fst = sources := by
    rw [List.map_map]
    exact List.map_id _
  constructor
  · have settled := plan_settles legal proper load start
    rw [← plan] at settled
    rcases settled with ⟨fits, final, done, loaded⟩ | ⟨unfit, failure, done⟩
    · have handled := loadTables_handled load _ done
      rw [reads] at handled
      obtain ⟨directories, ledgers⟩ := rows.get_maps sealed proper fits.directoryChained fits.ledgerChained
      rw [← loaded.maps] at directories ledgers
      exact .inl ⟨(rows.fits_iff sealed).mp fits, final, handled, directories, ledgers⟩
    · obtain ⟨first, initial, ended⟩ := loadTables_handled load _ done
      rw [reads] at ended
      rw [rows.fits_iff sealed, Classical.not_not] at unfit
      exact .inr ⟨unfit, first, failure, initial, ended⟩
  · intro first source rest middle split done next written
    have readable : ∀ read ∈ first.map (fun source => (source, rows.decoded source.table)), Readable read.1.table read.2 := by
      intro read member
      obtain ⟨other, here, rfl⟩ := List.mem_map.mp member
      refine rows.readable sealed legal proper other ?_
      rw [← plan, split]
      exact List.mem_append_left _ here
    have charged := loadTables_charged _ readable load middle (by rw [start]; exact Charged.empty) done
    rw [← accounted_iff]
    rcases written with ⟨part, _, merged⟩ | ⟨part, _, merged⟩
    · rcases mergeDirectoryRows_spec part middle.merged charged with
        ⟨_, other, same, accounted, _⟩ | ⟨_, failed⟩
      · rw [merged] at same
        cases same
        exact accounted
      · rw [merged] at failed
        cases failed
    · rcases mergeLedgerRows_spec part middle.merged charged with
        ⟨_, other, same, accounted, _⟩ | ⟨_, failed⟩
      · rw [merged] at same
        cases same
        exact accounted
      · rw [merged] at failed
        cases failed

end

def layeredTable (store : StoreKind) (ordinal : Nat) : TableRef :=
  ⟨⟨⟨⟨.three⟩, ⟨⟨.two⟩, 0⟩, ordinal, by decide⟩, store⟩, .min, by decide⟩

def layeredTree (store : StoreKind) (newer older : Nat) : TreeVersion :=
  ⟨[⟨[layeredTable store newer], by simp, by simp [RUN_TABLES_MAX]⟩, ⟨[layeredTable store older], by simp, by simp [RUN_TABLES_MAX]⟩],
    by simp [TREE_RUNS_MAX]⟩

def layeredSeal : Seal :=
  ⟨firstPartition, ⟨.three⟩, .through firstBatch ⟨⟨.two⟩⟩, layeredTree .directory 1 0,
    layeredTree .ledger 3 2⟩

def layeredRows : Bootstrap.TableRows where
  directory table := [(samplePath, if table.object.fresh.ordinal = 1 then .tombstone firstUid else .live firstUid)]
  ledger table :=
    [(firstUid, if table.object.fresh.ordinal = 3 then .delete else .value ⟨.octetStream, .none, .opened, firstBatch⟩)]

theorem layered_legal : layeredSeal.Legal :=
  ((Seal.new_ok_iff layeredSeal.partition layeredSeal.generation layeredSeal.replay layeredSeal.directory layeredSeal.ledger
    layeredSeal).mp (by decide +kernel)).2

theorem layered_proper : layeredRows.Proper layeredSeal where
  directoryNonempty := by simp [layeredRows]
  directoryOrdered := by simp [layeredRows, strictlyOrdered]
  ledgerNonempty := by simp [layeredRows]
  ledgerOrdered := by simp [layeredRows, strictlyOrdered]

theorem layered_chained {K V : Type} [Ord K] (rows : TableRef → List (K × V)) (store : StoreKind) (newer older : Nat) :
    ∀ run ∈ (layeredTree store newer older).runs, run.tables.IsChain (Bootstrap.Joined rows) := by
  intro run member
  rcases List.mem_cons.mp member with rfl | later
  · exact List.isChain_singleton _
  · rw [List.mem_singleton.mp later]
    exact List.isChain_singleton _

theorem layered_fits : ¬ (layeredRows.Overlapping layeredSeal ∨ layeredRows.Exceeding layeredSeal) := by
  rintro ((⟨run, member, broken⟩ | ⟨run, member, broken⟩) | (⟨first, initial, exceeds⟩ | ⟨first, initial, exceeds⟩))
  · exact broken (layered_chained _ .directory 1 0 run member)
  · exact broken (layered_chained _ .ledger 3 2 run member)
  · have small : ∀ first ∈ (Bootstrap.planRows layeredRows.directory layeredSeal.directory).inits,
        ¬ 16 * 2 ^ 30 < 525 * (OrdMap.patch (directoryCells first) ∅).size := by decide +kernel
    exact small first ((List.mem_inits _ _).mpr initial) exceeds
  · have small : ∀ first ∈ (Bootstrap.planRows layeredRows.ledger layeredSeal.ledger).inits, ¬ 16 * 2 ^ 30 <
        525 * (OrdMap.patch (directoryCells (Bootstrap.planRows layeredRows.directory layeredSeal.directory)) ∅).size +
          1035 * (OrdMap.patch (ledgerCells first) ∅).size := by decide +kernel
    exact small first ((List.mem_inits _ _).mpr initial) exceeds

theorem merge_newest_wins_layered : ∃ sources, Bootstrap.planBootstrapSources layeredSeal = .ok sources ∧
    ∃ final : BaseLoad, Bootstrap.handleAll
        (Bootstrap.tableReads (sources.map fun source => (source, layeredRows.decoded source.table)))
        (Bootstrap.readNextTable ⟨⟨⟨layeredSeal.generation⟩, layeredSeal⟩, sources, MergedRows.empty, none, none⟩) =
          .ok (Bootstrap.readNextTable { final with remaining := [] }) ∧
      final.merged.directory[samplePath]? = some (.tombstone firstUid) ∧ final.merged.ledger[firstUid]? = none := by
  refine ⟨_, rfl, ?_⟩
  rcases (merge_newest_wins layeredSeal layered_legal _ rfl layeredRows layered_proper
    ⟨⟨⟨layeredSeal.generation⟩, layeredSeal⟩, [], MergedRows.empty, none, none⟩ rfl).1 with
    ⟨_, final, handled, directory, ledger⟩ | ⟨unfit, _⟩
  · exact ⟨final, handled, (directory samplePath).trans (by decide +kernel), (ledger firstUid).trans (by decide +kernel)⟩
  · exact absurd unfit layered_fits

end StromDB
