import StromDB.Opening.Evidence

namespace StromDB

open List

variable [Rkyv]

namespace Bootstrap

def TableRows.ofReads (reads : List (PlannedTable × DecodedTable)) : TableRows where
  directory table :=
    match reads.find? fun read => read.1.table = table with
    | some (_, .directory rows) => rows
    | _ => []
  ledger table :=
    match reads.find? fun read => read.1.table = table with
    | some (_, .ledger rows) => rows
    | _ => []

section

variable {reads : List (PlannedTable × DecodedTable)} (distinct : (reads.map fun read => read.1.table).Nodup)

include distinct

theorem find_read
    (read : PlannedTable × DecodedTable) (member : read ∈ reads) :
    reads.find? (fun other => other.1.table = read.1.table) = some read := by
  induction reads with
  | nil => cases member
  | cons first rest ih =>
    rw [map_cons, nodup_cons] at distinct
    rcases mem_cons.mp member with rfl | later
    · exact find?_cons_of_pos (by simp)
    · have apart : first.1.table ≠ read.1.table := fun same =>
        distinct.1 (same ▸ mem_map_of_mem (f := fun read : PlannedTable × DecodedTable => read.1.table) later)
      rw [find?_cons_of_neg (by simpa using apart)]
      exact ih distinct.2 later

theorem ofReads_decoded
    (readable : ∀ read ∈ reads, Readable read.1.table read.2) (read : PlannedTable × DecodedTable) (member : read ∈ reads) :
    (TableRows.ofReads reads).decoded read.1.table = read.2 := by
  have found := find_read distinct read member
  have fits := readable read member
  obtain ⟨source, decoded⟩ := read
  cases decoded with
  | directory rows =>
    rw [TableRows.decoded, fits.1, if_neg (by decide), TableRows.ofReads]
    simp only [found]
  | ledger rows =>
    rw [TableRows.decoded, fits.1, if_pos rfl, TableRows.ofReads]
    simp only [found]

end

omit [Rkyv] in
theorem treeSources_tables (tree : TreeVersion) : ((treeSources tree).map fun source => source.table).Perm tree.tables := by
  have plain : (treeSources tree).map (fun source => source.table) = tree.runs.reverse.flatMap SortedRun.tables := by
    rw [treeSources, map_flatMap]
    congr 1
    funext run
    rw [map_map]
    exact zipIdx_map_fst 0 run.tables
  rw [plain, TreeVersion.tables]
  exact (reverse_perm tree.runs).flatMap_right _

omit [Rkyv] in
theorem plan_tables {sealed : Seal} {sources : List PlannedTable} (planned : planBootstrapSources sealed = .ok sources) :
    (sources.map fun source => source.table).Perm sealed.tables := by
  rw [planBootstrapSources_sources planned, map_append, Seal.tables]
  exact (treeSources_tables sealed.directory).append (treeSources_tables sealed.ledger)

omit [Rkyv] in
theorem plan_nodup {sealed : Seal} (legal : sealed.Legal) (sources : List PlannedTable)
    (planned : planBootstrapSources sealed = .ok sources) : (sources.map fun source => source.table).Nodup :=
  (plan_tables planned).nodup_iff.mpr (List.Nodup.of_map _ legal.distinct)

-- The tables were read in plan order, and the base is what the newest runs say.
structure BaseShown (source : Seal) (sources : List PlannedTable) (rows : TableRows) (claimed : ClaimedBootstrap) (base : Forest) :
    Prop where
  claims : Claims source sources claimed
  proper : rows.Proper source
  newest : ∃ (directory : OrdMap StreamPath DirectoryEntry) (ledger : OrdMap StreamUid StreamRecord),
    (∀ path : StreamPath, directory[path]? = newestRow rows.directory source.directory path) ∧
    (∀ uid : StreamUid, ledger[uid]? = (newestRow rows.ledger source.ledger uid).bind LedgerCell.toOption) ∧
    Forest.tryFrom directory ledger = .ok base

theorem proper_of_reads_all {sealed : Seal} (legal : sealed.Legal) (rows : TableRows)
    (readable : ∀ table ∈ sealed.tables, Readable table (rows.decoded table)) : rows.Proper sealed := by
  refine ⟨?_, ?_, ?_, ?_⟩ <;> intro table selected
  · have fits := readable table (mem_append_left _ selected)
    rw [rows.decoded_directory sealed legal table selected] at fits
    exact fits.2.1
  · have fits := readable table (mem_append_left _ selected)
    rw [rows.decoded_directory sealed legal table selected] at fits
    exact fits.2.2
  · have fits := readable table (mem_append_right _ selected)
    rw [rows.decoded_ledger sealed legal table selected] at fits
    exact fits.2.1
  · have fits := readable table (mem_append_right _ selected)
    rw [rows.decoded_ledger sealed legal table selected] at fits
    exact fits.2.2

theorem BaseRead.shown (claimed : ClaimedBootstrap) (base : Forest) (trace : List Exchange) (read : BaseRead claimed base trace) :
    ∃ source sources rows before, BaseShown source sources rows claimed base ∧ ClaimTrace source claimed before ∧
      trace = (sources.map fun planned => tableExchange claimed.sealed.partition (planned, rows.decoded planned.table)).reverse ++
        before := by
  obtain ⟨source, sources, reads, load, tables, rfl, empty, formed⟩ := read
  obtain ⟨before, claim, split⟩ := tables.exchanges
  have legal := tables.claims.legal
  have plan := tables.plan
  rw [empty, append_nil] at plan
  have distinct := plan_nodup legal sources tables.claims.planned
  rw [plan, map_map] at distinct
  have decoded := ofReads_decoded distinct tables.readable
  have again : reads = sources.map fun planned => (planned, (TableRows.ofReads reads).decoded planned.table) := by
    rw [plan, map_map]
    refine (map_id' reads).symm.trans (map_congr_left fun read member => ?_)
    simp only [Function.comp_apply]
    rw [decoded read member]
  have readable : ∀ table ∈ source.tables, Readable table ((TableRows.ofReads reads).decoded table) := by
    intro table selected
    have named := (plan_tables tables.claims.planned).mem_iff.mpr selected
    rw [plan, map_map] at named
    obtain ⟨read, member, rfl⟩ := mem_map.mp named
    rw [Function.comp_apply, decoded read member]
    exact tables.readable read member
  have proper := proper_of_reads_all legal (TableRows.ofReads reads) readable
  refine ⟨source, sources, TableRows.ofReads reads, before, ⟨tables.claims, proper, ?_⟩, claim, ?_⟩
  · have settled := plan_settles legal proper (startLoad load.claimed) rfl
    rw [← planBootstrapSources_sources tables.claims.planned, ← again] at settled
    rcases settled with ⟨fits, final, done, loaded⟩ | ⟨_, failure, done⟩
    · rw [tables.merged] at done
      cases done
      have found := (TableRows.ofReads reads).get_maps source proper fits.directoryChained fits.ledgerChained
      rw [← loaded.maps] at found
      exact ⟨load.merged.directory, load.merged.ledger, found.1, found.2, formed⟩
    · rw [tables.merged] at done
      cases done
  · rw [split]
    conv_lhs => rw [again]
    rw [map_map]
    rfl

-- Full evidence for a recovery, oldest exchange first. A round of placing the
-- FENCE lists the tail, reads it at most once where it is above the cut, and
-- finds its coordinate occupied.
structure Completed (recovery : WriterRecovery) (exchanges : List Exchange) (source : Seal) (sources : List PlannedTable)
    (rows : TableRows) (candidate : EncodedAuthoritySeal) (fence : EncodedWal) (objects : List WalObject)
    (discovery rounds : List Exchange) : Prop where
  exchanges : exchanges = discovery ++ (.readSeal source.generation, .sealRead (some source)) ::
    (.publishClaim candidate, .claimPublished .authored) ::
    (sources.map (fun planned => tableExchange recovery.sealed.partition (planned, rows.decoded planned.table)) ++
    (rounds ++ (.establishFence fence, .fenceEstablished .durable) ::
    (objects.map walExchange ++ [(.observeHead, .headObserved (some recovery.claim.generation))])))
  discovers : Discovers discovery
  head : discovery.getLast? = some (.observeHead, .headObserved (some source.generation)) ∨
    source.generation = SealGeneration.genesis ∧ ∃ genesis,
      discovery.getLast? = some (.establishGenesis genesis, .genesisEstablished .established)
  claim : source.claimSuccessor = .ok recovery.sealed ∧ candidate.sealed = recovery.sealed ∧
    recovery.claim.generation = recovery.sealed.generation
  planned : planBootstrapSources source = .ok sources
  once : (sources.map fun planned => planned.table).Nodup ∧ (sources.map fun planned => planned.table).Perm source.tables
  probes : ∃ last tries probe, Rounds ⟨recovery.claim, recovery.sealed⟩ last tries ∧
    Placed ⟨recovery.claim, recovery.sealed⟩ last recovery.durableBatch ∧ Probe ⟨recovery.claim, recovery.sealed⟩ probe ∧
    rounds = (probe ++ tries).reverse
  fence : fence.object = ⟨recovery.sealed.partition, recovery.durableBatch, recovery.claim.owner, .fence⟩
  span : recovery.sealed.replay.cut < recovery.durableBatch.get ∧
    recovery.durableBatch.get ≤ recovery.sealed.replay.cut + 1024
  coordinates : objects.map (fun object => object.batch.get) =
    List.range' (recovery.sealed.replay.cut + 1) (recovery.durableBatch.get - recovery.sealed.replay.cut)
  partition : ∀ object ∈ objects, object.partition = recovery.sealed.partition
  succession : Succession recovery.sealed.replay.owner objects ∧
    lastOwner recovery.sealed.replay.owner objects = some recovery.claim.owner
  base : BaseShown source sources rows ⟨recovery.claim, recovery.sealed⟩ recovery.base
  durable : foldLog objects recovery.base = some recovery.durable

theorem HeadFound.shown (generation : SealGeneration) (found : List Exchange) (head : HeadFound generation found) :
    Discovers found.reverse ∧ (found.reverse.getLast? = some (.observeHead, .headObserved (some generation)) ∨
      generation = SealGeneration.genesis ∧ ∃ genesis,
        found.reverse.getLast? = some (.establishGenesis genesis, .genesisEstablished .established)) := by
  cases head with
  | listed earlier discovers =>
    refine ⟨?_, .inl (by simp)⟩
    intro exchange member
    rcases mem_cons.mp (mem_reverse.mp member) with rfl | later
    · exact .inl rfl
    · exact discovers exchange later
  | made candidate earlier first discovers =>
    refine ⟨?_, .inr ⟨first, candidate, by simp⟩⟩
    intro exchange member
    rcases mem_cons.mp (mem_reverse.mp member) with rfl | later
    · exact .inr ⟨candidate, rfl⟩
    · exact discovers exchange later

theorem FinalEvidence.completed {recovery : WriterRecovery} {earlier : List Exchange} (evidence : FinalEvidence recovery earlier) :
    ∃ source sources rows candidate fence objects discovery rounds,
      Completed recovery (((.observeHead, .headObserved (some recovery.claim.generation)) :: earlier).reverse)
        source sources rows candidate fence objects discovery rounds := by
  obtain ⟨objects, closing, replayed, number, ⟨fence, probe, _, object, probed, ⟨last, tries, before, rounds, placed, read, rfl⟩,
    rfl⟩, rfl⟩ := evidence
  obtain ⟨source, sources, rows, _, shown, ⟨candidate, found, same, head⟩, rfl⟩ := read.shown
  obtain ⟨discovers, observed⟩ := head.shown
  refine ⟨source, sources, rows, candidate, fence, objects, found.reverse, (probe ++ tries).reverse, ?_, discovers, observed,
    ⟨shown.claims.successor, same, shown.claims.same⟩, shown.claims.planned,
    ⟨plan_nodup shown.claims.legal sources shown.claims.planned, plan_tables shown.claims.planned⟩,
    ⟨last, tries, probe, rounds, placed, probed, rfl⟩, object, ⟨placed.above, placed.near⟩, ?_, replayed.partition,
    ⟨replayed.succession, replayed.owner.symm⟩, shown,
    replayed.durable⟩
  · simp
  · rw [number, Nat.add_sub_cancel_left]
    exact replayed.coordinates

end Bootstrap

end StromDB
