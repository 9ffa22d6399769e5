import StromDB.Progress.Cycles
import StromDB.Properties.Recovery

namespace StromDB

open List

section

variable [Rkyv] [OrdMap.Differ] (sys : System) (reached : ReachableSystem sys)

include reached

theorem suffix_replayable (sealed : Seal) (newest : sys.store.head = some sealed) : ∃ suffix base final,
    (∀ i object, suffix[i]? = some object ↔
      ∃ batch : BatchId, batch.get = sealed.replay.cut + 1 + i ∧ sys.store.wal[batch]? = some object) ∧
    EpochLog.Walks (fun object : WalObject => object.owner.get) (fun object => object.body.isFence) sealed.replay.ownerNumber suffix ∧
    Bootstrap.valueOf sys.store.tables sealed = .ok (.ok base) ∧ foldLog suffix base = some final := by
  have ok := reached.ok sys
  obtain ⟨member, _⟩ := (ok.head_iff sys sealed).mp newest
  obtain ⟨base, folded, content⟩ := ok.view.chain.content sealed member
  obtain ⟨whole, total⟩ := ok.view.log.folds
  refine ⟨sys.view.log.drop sealed.replay.cut, base, whole, ?_, ?_, ?_, ?_⟩
  · intro i object
    rw [List.getElem?_drop]
    constructor
    · intro found
      have number := ok.view.log.coordinates _ _ found
      refine ⟨object.batch, by omega, ok.stored.live object (List.mem_of_getElem? found) ?_⟩
      intro gone
      have below := ok.collected_le_cut sys sealed newest _ gone
      omega
    · rintro ⟨batch, number, held⟩
      obtain ⟨rfl, stale | ⟨inLog, _⟩⟩ := ok.stored.wal batch object held
      · have below := ok.collected_le_cut sys sealed newest _ (ok.view.residue.stale object stale).2.1
        omega
      · have found := ok.view.log.get_mem object inLog
        rwa [number, show sealed.replay.cut + 1 + i - 1 = sealed.replay.cut + i by omega] at found
  · rw [← (ok.view.chain.owner sealed member).2]
    exact ok.view.log.legal.walks _
  · refine Content.valueOf ?_ (ok.view.chain.legal sealed member) folded.consistent
    exact content.transfer fun table selected body established =>
      ok.selected_stored sys sealed newest table selected body established
  · rw [← List.take_append_drop sealed.replay.cut sys.view.log, foldLog_append, folded.2] at total
    exact total

theorem fence_claim (pid : Pid) (fence : WalObject) (created : .walCreated pid fence ∈ sys.history)
    (isFence : fence.body.isFence = true) :
    ∃ claim, sys.view.Claim claim ∧ claim.generation = fence.owner.generation ∧ claim.replay.cut < fence.batch.get := by
  obtain ⟨newer, older, split⟩ := append_of_mem created
  obtain ⟨before, id, _, _, same, _, ⟨op, _⟩ | ⟨op, _⟩⟩ := ReachableWhere.wal_moment reached newer older pid fence split
  · obtain ⟨claim, claimed, owner, above, _⟩ := op.claim
    have grown := View.of_extends (newer ++ [.walCreated pid fence]) older
    rw [append_assoc, singleton_append, ← split, ← same] at grown
    exact ⟨claim, claimed.extend grown, owner, above⟩
  · rw [op.run] at isFence
    cases isFence

theorem last_fence (sealed : Seal) (member : sealed ∈ sys.view.chain) (fence : WalObject) (inLog : fence ∈ sys.view.log)
    (owns : fence.owner.get = sealed.replay.ownerNumber) (pid : Pid) (other : WalObject)
    (created : .walCreated pid other ∈ sys.history) (isFence : other.body.isFence = true)
    (below : other.batch.get ≤ sealed.replay.cut) :
    other.batch.get ≤ fence.batch.get := by
  have ok := reached.ok sys
  by_contra above
  have owned := ok.view.log.ownerAt_batch fence inLog
  have owner := (ok.view.chain.owner sealed member).2
  rcases (View.mem_created sys.history other).mp ⟨pid, created⟩ with logged | stale
  · have raised := ok.view.log.fence_before other logged isFence
    have first := ok.view.log.ownerAt_mono fence.batch.get (other.batch.get - 1) (by omega)
    have last := ok.view.log.ownerAt_mono other.batch.get sealed.replay.cut below
    rw [ok.view.log.ownerAt_batch other logged] at last
    omega
  obtain ⟨claim, claimed, same, passed⟩ := fence_claim sys reached pid other created isFence
  have older := (ok.view.residue.stale other stale).2.2.1
  have first := ok.view.log.ownerAt_mono fence.batch.get other.batch.get (by omega)
  have number : claim.generation.get = other.owner.get := congrArg SealGeneration.get same
  rcases Nat.lt_or_ge sealed.generation.get claim.generation.get with later | earlier
  · have ordered := ok.view.chain.cut_le sealed claim member claimed.1 (by omega)
    omega
  · have adopted := ok.view.chain.adopted claim sealed claimed member earlier (by omega)
    omega

theorem seal_materializes (generation : SealGeneration) (sealed : Seal) (held : sys.store.seals[generation]? = some sealed) :
    (∃ runs forest, RunsThrough sys.history sealed.replay.cut runs ∧ foldLog runs Forest.empty = some forest ∧
      Bootstrap.valueOf sys.view.tables sealed = .ok (.ok forest)) ∧
    (∀ cut owner, sealed.replay = .through cut owner → ∃ fence,
      (∃ pid, .walCreated pid fence ∈ sys.history) ∧ fence.body.isFence = true ∧ fence.batch ≤ cut ∧ fence.owner = owner ∧
      ∀ pid other, .walCreated pid other ∈ sys.history → other.body.isFence = true → other.batch ≤ cut →
        other.batch ≤ fence.batch) := by
  have ok := reached.ok sys
  obtain ⟨member, _⟩ := ok.seal_mem sys generation sealed held
  constructor
  · obtain ⟨forest, folded, content⟩ := ok.view.chain.content sealed member
    obtain ⟨runs, through, total⟩ := ok.view.fold_runs sealed.replay.cut forest folded
    exact ⟨runs, forest, through, total, content.valueOf (ok.view.chain.legal sealed member) folded.consistent⟩
  · intro cut owner replay
    have owned := (ok.view.chain.owner sealed member).2
    have raised : sys.view.ownerAt 0 < sys.view.ownerAt sealed.replay.cut := by
      rw [owned, replay]
      exact owner.generation.positive
    obtain ⟨fence, inLog, _, within, isFence, owns⟩ := ok.view.log.fence_between 0 sealed.replay.cut raised
    rw [owned] at owns
    refine ⟨fence, (View.mem_created sys.history fence).mpr (.inl inLog), isFence, ?_, ?_, ?_⟩
    · rw [replay] at within
      exact within
    · rw [replay] at owns
      exact OwnerToken.get_injective _ _ owns
    · intro pid other created kind below
      refine last_fence sys reached sealed member fence inLog owns pid other created kind ?_
      rw [replay]
      exact below

theorem table_collection_safe :
    (∀ sealed, sys.store.head = some sealed → ∀ table ∈ sealed.tables,
      (∃ pid candidate, .tableCreated pid candidate ∈ sys.history ∧ candidate.key = table.object) ∧
      ∀ pid candidate, .tableCreated pid candidate ∈ sys.history → candidate.key = table.object →
        sys.store.tables table.object = some candidate.object) ∧
    (∀ newer pid candidate older, sys.history = newer ++ .sealIssued pid candidate :: older → ∀ table ∈ candidate.tables,
      ∃ creator encoded, .tableCreated creator encoded ∈ older ∧ encoded.key = table.object) ∧
    (∀ cut source successor, (∃ pid, .sealCreated pid source ∈ sys.history) → (∃ pid, .sealCreated pid successor ∈ sys.history) →
      successor.generation.get = source.generation.get + 1 → ∀ object ∈ droppedBy ⟨cut, source, successor⟩,
      ∀ pid later, .sealCreated pid later ∈ sys.history → successor.generation ≤ later.generation →
        object ∉ later.tables.map TableRef.object) ∧
    (∀ pid object, .tableDeleted pid object ∈ sys.history → ∃ successor, (∃ author, .sealCreated author successor ∈ sys.history) ∧
      ∀ author later, .sealCreated author later ∈ sys.history → successor.generation ≤ later.generation →
        object ∉ later.tables.map TableRef.object) := by
  have ok := reached.ok sys
  have onward : ∀ (object : TableObjectId) (sealed : Seal), sealed ∈ sys.view.chain →
      object.fresh.birthGeneration.get ≤ sealed.generation.get → object ∉ sealed.tables.map TableRef.object →
      ∀ pid later, .sealCreated pid later ∈ sys.history → sealed.generation ≤ later.generation →
        object ∉ later.tables.map TableRef.object := by
    intro object sealed member born absent pid later created ordered
    obtain ⟨n, number⟩ := Nat.exists_eq_add_of_le (show sealed.generation.get ≤ later.generation.get from ordered)
    exact ok.view.chain.unselected object sealed member born absent n later ((View.mem_chain _ _).mp ⟨pid, created⟩) number
  refine ⟨?_, ?_, ?_, ?_⟩
  · intro sealed newest table selected
    obtain ⟨member, _⟩ := (ok.head_iff sys sealed).mp newest
    obtain ⟨forest, _, content⟩ := ok.view.chain.content sealed member
    obtain ⟨body, found⟩ := Option.isSome_iff_exists.mp (content.established table selected)
    constructor
    · obtain ⟨pid, candidate, created, key, _⟩ := View.tables_created _ _ _ found
      exact ⟨pid, candidate, created, key⟩
    · intro pid candidate created key
      have established := ReachableSystem.table_established sys reached pid candidate created
      rw [key] at established
      exact ok.selected_stored sys sealed newest table selected _ established
  · intro newer pid candidate older split table selected
    obtain ⟨after, recent, there, same, quiet⟩ := ReachableSystem.told_moment sys reached newer older _ split rfl
    have told := (there.ok after).history (.sealIssued pid candidate) (by simp [same])
    obtain ⟨body, found⟩ := Option.isSome_iff_exists.mp (told table selected)
    rw [System.view, same, List.append_cons, View.tables_aside (recent ++ [Event.sealIssued pid candidate]) older] at found
    · obtain ⟨creator, encoded, created, key, _⟩ := View.tables_created _ _ _ found
      exact ⟨creator, encoded, created, key⟩
    · intro event member
      rcases List.mem_append.mp member with early | own
      · exact quiet event early
      · rw [List.mem_singleton.mp own]
        rfl
  · intro cut source successor hadSource hadSuccessor next object dropped pid later created ordered
    have sourceIn := (View.mem_chain _ _).mp hadSource
    have successorIn := (View.mem_chain _ _).mp hadSuccessor
    obtain ⟨selected, absent⟩ := List.mem_filter.mp dropped
    obtain ⟨table, inSource, rfl⟩ := List.mem_map.mp selected
    have born := (ok.view.chain.legal source sourceIn).births table inSource
    refine onward table.object successor successorIn ?_ (by simpa using absent) pid later created ordered
    omega
  · intro pid object deleted
    obtain ⟨successor, member, born, absent⟩ := ok.view.residue.dropped object ((View.mem_dropped _ _).mp ⟨pid, deleted⟩)
    exact ⟨successor, (View.mem_chain _ _).mpr member, onward object successor member born absent⟩

theorem fences_and_needed_runs_kept :
    (∀ pid object, .walCreated pid object ∈ sys.history → object.body.isFence = true →
      sys.store.wal[object.batch]? = some object) ∧
    (∀ sealed, sys.store.head = some sealed → ∀ pid object, .walCreated pid object ∈ sys.history → object.body.isFence = false →
      sealed.replay.cut < object.batch.get → sys.store.wal[object.batch]? = some object) := by
  have ok := reached.ok sys
  constructor
  · intro pid object created isFence
    rcases (View.mem_created _ _).mp ⟨pid, created⟩ with logged | stale
    · exact ok.stored.live object logged (ok.view.fence_uncollected object logged isFence)
    · exact ok.stored.stale object stale
  · intro sealed newest pid object created isRun above
    rcases (View.mem_created _ _).mp ⟨pid, created⟩ with logged | stale
    · refine ok.stored.live object logged ?_
      intro gone
      have below := ok.collected_le_cut sys sealed newest _ gone
      omega
    · exact ok.stored.stale object stale

theorem seal_chain_agreed :
    (∃ n, ∀ generation : SealGeneration, (sys.store.seals[generation]?).isSome = true ↔ generation.get ≤ n) ∧
    (∀ sealed, sys.store.seals[SealGeneration.genesis]? = some sealed → Bootstrap.genesisSeal sealed.partition = .ok sealed) ∧
    (∀ (first second : SealGeneration) source sealed, second.get = first.get + 1 → sys.store.seals[first]? = some source →
      sys.store.seals[second]? = some sealed →
      sealed.partition = source.partition ∧ sealed.generation = second ∧
      (sealed = { source with generation := second } ∨
        (source.replay.cut < sealed.replay.cut ∧ TreeAdvance second source.directory sealed.directory ∧
          TreeAdvance second source.ledger sealed.ledger)) ∧
      source.replay.cut ≤ sealed.replay.cut ∧ source.replay.ownerNumber ≤ sealed.replay.ownerNumber) ∧
    (∀ pid other generation, .authored pid generation ∈ sys.history → .authored other generation ∈ sys.history → pid = other) := by
  have ok := reached.ok sys
  refine ⟨⟨sys.view.chain.length, ?_⟩, ?_, ?_, ?_⟩
  · intro generation
    have positive := generation.positive
    rw [ok.stored.seals, Option.isSome_iff_ne_none, ne_eq, List.getElem?_eq_none_iff]
    omega
  · intro sealed held
    obtain ⟨member, first⟩ := ok.seal_mem sys _ sealed held
    have legal := ok.view.chain.legal sealed member
    obtain ⟨replay, directory, ledger⟩ := legal.genesis first
    have same : (⟨sealed.partition, SealGeneration.genesis, .genesis, TreeVersion.empty, TreeVersion.empty⟩ : Seal) = sealed := by
      obtain ⟨partition, generation, point, ⟨directoryRuns, _⟩, ⟨ledgerRuns, _⟩⟩ := sealed
      cases first
      cases replay
      cases directory
      cases ledger
      rfl
    exact (Seal.new_ok_iff _ _ _ _ _ _).mpr ⟨same.symm, legal⟩
  · intro first second source sealed next here there
    obtain ⟨sourceIn, sourceNumber⟩ := ok.seal_mem sys _ source here
    obtain ⟨sealedIn, sealedNumber⟩ := ok.seal_mem sys _ sealed there
    have follows := ok.view.chain.follows source sealed sourceIn sealedIn (by rw [sourceNumber, sealedNumber, next])
    have ordered := View.Follows.cut_le follows
    have owners := ok.view.log.ownerAt_mono _ _ ordered
    rw [(ok.view.chain.owner source sourceIn).2, (ok.view.chain.owner sealed sealedIn).2] at owners
    refine ⟨ok.view.chain.partition sealed sealedIn source sourceIn, sealedNumber, ?_, ordered, owners⟩
    rcases follows with claimed | advance
    · have copied := (Seal.claimSuccessor_ok_iff.mp claimed).2
      rw [sealedNumber] at copied
      exact .inl copied
    · rw [← sealedNumber]
      exact .inr ⟨advance.cut, advance.directory, advance.ledger⟩
  · intro pid other generation mine theirs
    exact View.Authored.unique (ok.history _ mine) (ok.history _ theirs)

end

attribute [local instance] plainRkyv OrdMap.exactDiffer

theorem opening_calm : (Transition.runWhere System.step calm opening System.initial).isSome = true := by decide +kernel

theorem opened_leads : Leads (Among 0 0) System.initial openedSystem :=
  Leads.run opening _ _ (by decide) (Transition.runWhere_eq_some _ _ opening_calm (Option.some_get opening_runs).symm)

theorem opened_taken : TakenOver 0 openedRecovery openedSystem where
  reached := opened_completes.reached
  ready := rfl
  completed := by decide +kernel
  current := by decide +kernel
  tail := by decide +kernel

theorem opened_epoch : Epoch 18 1 openedRecovery.sealed openedRecovery.durable 1 openedSystem := by
  have ok := opened_completes.reached.ok openedSystem
  have recovered : openedSystem.view.Recovered 0 openedRecovery := ok.history _ opened_taken.completed
  refine ⟨⟨opened_taken.reached, ok.claim_head _ recovered.claimed opened_taken.current, by decide +kernel, by decide +kernel⟩,
    by decide +kernel, recovered.base, recovered.durable, ?_, by decide +kernel, by decide +kernel, by decide⟩
  intro pid above
  rw [opened_leads.others pid (by simp only [Among]; omega)]
  rfl

theorem opened_lives : ∃ sys sealed gone run, ReachableWhere (fun before label => fencesFirst before label = true) sys ∧
    Lived sealed gone run sys := by
  obtain ⟨sys, sealed, gone, run, leads, lived⟩ := Epoch.lives opened_epoch (by decide +kernel)
  exact ⟨sys, sealed, gone, run, leads.fences_first (opened_leads.fences_first (.start _ rfl)), lived⟩

theorem suffix_replayable_lived : ∃ sys sealed run suffix base final, ReachableSystem sys ∧ sys.store.head = some sealed ∧
    sealed.directory.runs ≠ [] ∧ run.body.isFence = false ∧ run ∈ suffix ∧
    (∀ i object, suffix[i]? = some object ↔
      ∃ batch : BatchId, batch.get = sealed.replay.cut + 1 + i ∧ sys.store.wal[batch]? = some object) ∧
    EpochLog.Walks (fun object : WalObject => object.owner.get) (fun object => object.body.isFence) sealed.replay.ownerNumber suffix ∧
    Bootstrap.valueOf sys.store.tables sealed = .ok (.ok base) ∧ foldLog suffix base = some final := by
  obtain ⟨sys, sealed, _, run, first, lived⟩ := opened_lives
  have reached : ReachableSystem sys := first.reachable
  obtain ⟨inLog, isRun, above⟩ := lived.run
  obtain ⟨suffix, base, final, places, rest⟩ := suffix_replayable sys reached sealed lived.newest
  have ok := reached.ok sys
  have stored := ok.stored.live run inLog fun gone => by
    have below := ok.collected_le_cut sys sealed lived.newest _ gone
    omega
  have found := (places (run.batch.get - sealed.replay.cut - 1) run).mpr ⟨run.batch, by omega, stored⟩
  exact ⟨sys, sealed, run, suffix, base, final, reached, lived.newest, lived.filled, isRun, mem_of_getElem? found, places, rest⟩

theorem seal_materializes_lived : ∃ sys sealed cut owner gone, ReachableSystem sys ∧ sys.store.head = some sealed ∧
    sealed.directory.runs ≠ [] ∧ sealed.replay = .through cut owner ∧
    (∃ runs forest, RunsThrough sys.history sealed.replay.cut runs ∧ gone ∈ runs ∧ foldLog runs Forest.empty = some forest ∧
      Bootstrap.valueOf sys.view.tables sealed = .ok (.ok forest)) ∧
    ∃ fence, (∃ pid, .walCreated pid fence ∈ sys.history) ∧ fence.body.isFence = true ∧ fence.batch ≤ cut ∧ fence.owner = owner ∧
      ∀ pid other, .walCreated pid other ∈ sys.history → other.body.isFence = true → other.batch ≤ cut → other.batch ≤ fence.batch := by
  obtain ⟨sys, sealed, gone, _, first, lived⟩ := opened_lives
  have reached : ReachableSystem sys := first.reachable
  obtain ⟨inLog, isRun, within, _⟩ := lived.gone
  obtain ⟨generation, _, held⟩ := Option.bind_eq_some_iff.mp lived.newest
  obtain ⟨⟨runs, forest, through, value⟩, fences⟩ := seal_materializes sys reached generation sealed held
  cases replay : sealed.replay with
  | genesis =>
    have positive := gone.batch.positive
    rw [replay] at within
    exact absurd positive (Nat.not_lt.mpr within)
  | through cut owner =>
    exact ⟨sys, sealed, cut, owner, gone, reached, lived.newest, lived.filled, replay, ⟨runs, forest, through,
      (through.created gone).mpr ⟨isRun, within, (View.mem_created _ _).mpr (.inl inLog)⟩, value⟩, fences cut owner replay⟩

-- The newest Seal of one run selects a stored table, and in another run the
-- table is deleted once a full base has replaced it.
theorem table_collection_safe_lived :
    (∃ sys sealed table, ReachableSystem sys ∧ sys.store.head = some sealed ∧ table ∈ sealed.tables ∧
      ∃ pid candidate, .tableCreated pid candidate ∈ sys.history ∧ candidate.key = table.object ∧
        sys.store.tables table.object = some candidate.object) ∧
    ∃ sys pid object successor, ReachableSystem sys ∧ .tableDeleted pid object ∈ sys.history ∧
      (∃ author, .sealCreated author successor ∈ sys.history) ∧
      ∀ author later, .sealCreated author later ∈ sys.history → successor.generation ≤ later.generation →
        object ∉ later.tables.map TableRef.object := by
  obtain ⟨grown, source, sealed, forest, cycled⟩ := Epoch.cycle opened_epoch
  have reached := cycled.epoch.standing.reached
  have newest := cycled.epoch.standing.newest
  have filled : sealed.directory.runs ≠ [] := by
    have changed := cycled.changed
    rwa [show openedRecovery.sealed.directory.runs = [] by decide +kernel] at changed
  obtain ⟨planned, _, _, member⟩ := plannedSources_directory filled
  have selected := mem_append_left sealed.ledger.tables member
  obtain ⟨⟨pid, candidate, created, key⟩, stored⟩ := (table_collection_safe grown reached).1 sealed newest _ selected
  refine ⟨⟨grown, sealed, _, reached, newest, selected, pid, candidate, created, key, stored pid candidate created key⟩, ?_⟩
  obtain ⟨swept, _, _, drops, gone, _⟩ := Epoch.drops 16 _ _ _ _ _ cycled.epoch
    (by
      simp only [TREE_RUNS_MAX]
      omega) _ member
  have later := drops.reached reached
  have ok := later.ok swept
  have established := drops.extends.tables _ _ (reached.table_established grown pid candidate created)
  rw [key] at established
  have dropped : planned.table.object ∈ swept.view.dropped := by
    by_contra kept
    rw [ok.stored.tablesLive _ _ established kept] at gone
    cases gone
  obtain ⟨deleter, deleted⟩ := (View.mem_dropped _ _).mpr dropped
  obtain ⟨successor, published, unselected⟩ := (table_collection_safe swept later).2.2.2 deleter _ deleted
  exact ⟨swept, deleter, _, successor, later, deleted, published, unselected⟩

theorem fences_and_needed_runs_kept_lived : ∃ sys sealed, ∃ gone fence run : WalObject, ReachableSystem sys ∧
    sys.store.head = some sealed ∧
    ((∃ pid, .walCreated pid gone ∈ sys.history) ∧ gone.body.isFence = false ∧ gone.batch.get ≤ sealed.replay.cut ∧
      sys.store.wal[gone.batch]? ≠ some gone) ∧
    (fence.body.isFence = true ∧ fence.batch.get ≤ sealed.replay.cut ∧ sys.store.wal[fence.batch]? = some fence) ∧
    run.body.isFence = false ∧ sealed.replay.cut < run.batch.get ∧ sys.store.wal[run.batch]? = some run := by
  obtain ⟨sys, sealed, gone, run, first, lived⟩ := opened_lives
  have reached : ReachableSystem sys := first.reachable
  have ok := reached.ok sys
  obtain ⟨inLog, isRun, within, collected⟩ := lived.gone
  obtain ⟨written, wrote, above⟩ := lived.run
  obtain ⟨fences, runs⟩ := fences_and_needed_runs_kept sys reached
  have owned : sys.view.ownerAt 0 < sys.view.ownerAt gone.batch.get := by
    rw [ok.view.log.ownerAt_batch gone inLog]
    exact gone.owner.generation.positive
  obtain ⟨fence, there, _, below, isFence, _⟩ := ok.view.log.fence_between 0 gone.batch.get owned
  obtain ⟨author, created⟩ := (View.mem_created _ _).mpr (.inl there)
  obtain ⟨writer, arrived⟩ := (View.mem_created _ _).mpr (.inl written)
  refine ⟨sys, sealed, gone, fence, run, reached, lived.newest, ⟨(View.mem_created _ _).mpr (.inl inLog), isRun, within, ?_⟩,
    ⟨isFence, by omega, fences author fence created isFence⟩, wrote, above, runs sealed lived.newest writer run arrived wrote above⟩
  intro held
  rcases (ok.stored.wal _ _ held).2 with stale | ⟨_, present⟩
  · rw [(ok.view.residue.stale gone stale).1] at isRun
    cases isRun
  · exact present collected

theorem seal_chain_agreed_advanced : ∃ sys, ∃ first second : SealGeneration, ∃ source sealed : Seal, ReachableSystem sys ∧
    second.get = first.get + 1 ∧
    sys.store.seals[first]? = some source ∧ sys.store.seals[second]? = some sealed ∧ source.replay.cut < sealed.replay.cut ∧
    TreeAdvance second source.directory sealed.directory ∧ TreeAdvance second source.ledger sealed.ledger ∧
    sealed.directory.runs ≠ source.directory.runs := by
  obtain ⟨sys, source, sealed, _, cycled⟩ := Epoch.cycle opened_epoch
  have reached := cycled.epoch.standing.reached
  have ok := reached.ok sys
  obtain ⟨_, _, _, batch, _, _, _, reading⟩ := cycled.collects
  have held : ∀ sealed ∈ sys.view.chain, sys.store.seals[sealed.generation]? = some sealed := by
    intro sealed member
    rw [ok.stored.seals]
    exact ok.view.chain.get_mem sealed member
  have older := held source (reading.source batch)
  have newer := held sealed ((ok.head_iff sys sealed).mp cycled.epoch.standing.newest).1
  have changed := cycled.changed
  rw [← show source.directory.runs = openedRecovery.sealed.directory.runs by rw [cycled.renewed.2]] at changed
  obtain ⟨_, _, claimed | ⟨cut, directory, ledger⟩, _⟩ :=
    (seal_chain_agreed sys reached).2.2.1 source.generation sealed.generation source sealed cycled.newer older newer
  · rw [claimed] at changed
    exact absurd rfl changed
  · exact ⟨sys, source.generation, sealed.generation, source, sealed, reached, cycled.newer, older, newer, cut, directory, ledger,
      changed⟩

end StromDB
