import StromDB.Progress.Rounds

namespace StromDB

open Bootstrap Checked ObjectStore StromDB.System List Option Forest OrdMap View

variable [Rkyv] [OrdMap.Differ]

abbrev BootsTo (pid : Pid) (sys after : System) : Prop :=
  Relation.ReflTransGen (fun before next : System => before.bootRound pid = some next) sys after

structure TakenOver (pid : Pid) (recovery : WriterRecovery) (sys : System) : Prop where
  reached : ReachableSystem sys
  ready : (sys.procs pid).phase = .ready recovery
  completed : .completed pid recovery ∈ sys.history
  current : sys.store.seals.greatest = some recovery.claim.generation
  tail : sys.store.wal.greatest = some recovery.durableBatch

def TakesOver (pid : Pid) (claimed : ClaimedBootstrap) (fence : BatchId) (sys : System) : Prop :=
  ∃ after recovery, BootsTo pid sys after ∧ Leads (· = pid) sys after ∧ TakenOver pid recovery after ∧
    ⟨recovery.claim, recovery.sealed⟩ = claimed ∧ recovery.durableBatch = fence

def Reopens (pid : Pid) (claimed : ClaimedBootstrap) (sys : System) : Prop :=
  ∃ fence : BatchId, fence.get = max claimed.sealed.replay.cut (cutNumber sys.store.wal.greatest) + 1 ∧ TakesOver pid claimed fence sys

structure Room (store : ObjectStore) (replay : WalReplayPoint) : Prop where
  coordinates : max replay.cut (cutNumber store.wal.greatest) + 2 < 2 ^ 64
  suffix : cutNumber store.wal.greatest < replay.cut + WAL_SUFFIX_COORDINATES_MAX_V2

section

variable {pid : Pid} {state : BootstrapState} {effect : BootstrapEffect} {sys next : System} (booting : Booting pid state effect sys)
  (reads : ∀ fence, effect ≠ .establishFence fence) (round : sys.bootRound pid = some next)

include booting reads round

theorem Booting.reads_lead : Leads (· = pid) sys next := booting.leads round fun fence same => absurd same (reads fence)

theorem TakesOver.after_round {claimed : ClaimedBootstrap} {fence : BatchId} (later : TakesOver pid claimed fence next) :
    TakesOver pid claimed fence sys := by
  obtain ⟨after, recovery, boots, leads, taken⟩ := later
  exact ⟨after, recovery, .head round boots, (booting.reads_lead reads round).trans leads, taken⟩

theorem Reopens.after_round {claimed : ClaimedBootstrap} (kept : next.store.wal = sys.store.wal) (later : Reopens pid claimed next) :
    Reopens pid claimed sys := by
  obtain ⟨fence, number, taken⟩ := later
  rw [kept] at number
  exact ⟨fence, number, taken.after_round booting reads round⟩

end

omit [Differ] in
theorem wal_le_greatest {store : ObjectStore} {batch : BatchId} {object : WalObject} (held : store.wal[batch]? = some object) :
    batch.get ≤ cutNumber store.wal.greatest := by
  obtain ⟨top, found, above, _⟩ := greatest_of_held held
  rw [found]
  exact Nat.isLE_compare.mp above

omit [Differ] in
theorem execute_createWal (store : ObjectStore) (object : WalObject) (above : cutNumber store.wal.greatest < object.batch.get) :
    store.execute (.createWal object) = ({ store with wal := store.wal.insert object.batch object }, .created) ∧
      OrdMap.greatest (store.wal.insert object.batch object) = some object.batch := by
  obtain ⟨free, greatest⟩ := greatest_insert object (by
    intro top found
    rw [found] at above
    exact Nat.compare_eq_lt.mpr above)
  refine ⟨?_, greatest⟩
  have absent : store.wal.contains object.batch = false := by
    rw [← Std.ExtTreeMap.isSome_getElem?_eq_contains, free]
    rfl
  simp [execute, absent]

omit [Differ] in
theorem execute_createSeal (store : ObjectStore) (candidate : Seal) (newest : SealGeneration)
    (current : store.seals.greatest = some newest) (above : newest.get < candidate.generation.get) :
    store.execute (.createSeal candidate) =
        ({ store with seals := store.seals.insert candidate.generation candidate }, .created) ∧
      OrdMap.greatest (store.seals.insert candidate.generation candidate) = some candidate.generation := by
  obtain ⟨free, greatest⟩ := greatest_insert candidate (by
    intro top found
    rw [current] at found
    cases found
    exact Nat.compare_eq_lt.mpr above)
  refine ⟨?_, greatest⟩
  have absent : store.seals.contains candidate.generation = false := by
    rw [← Std.ExtTreeMap.isSome_getElem?_eq_contains, free]
    rfl
  simp [execute, absent]

omit [Differ] [Rkyv] in
theorem mem_plannedSources (sealed : Seal) (source : PlannedTable) (planned : source ∈ plannedSources sealed) :
    source.table ∈ sealed.tables := by
  rcases mem_append.mp planned with directory | ledger
  · exact mem_append_left _ (Bootstrap.mem_treeSources directory)
  · exact mem_append_right _ (Bootstrap.mem_treeSources ledger)

section

variable {sys : System} {pid : Pid}

section

variable (ok : SystemOk sys) (generation : SealGeneration) (current : sys.store.seals.greatest = some generation)

include ok current

omit [Differ] in
theorem SystemOk.current_length : sys.view.chain.length = generation.get := by
  obtain ⟨held, _⟩ := greatest_eq_some current
  rw [ok.stored.seals, isSome_iff_ne_none, ne_eq, getElem?_eq_none_iff] at held
  obtain ⟨newest, found, number⟩ := ok.stored.newest_seal ok.view (by omega)
  rw [current] at found
  cases found
  exact number.symm

omit [Differ] in
theorem SystemOk.not_superseded : ¬ sys.view.Superseded generation := by
  rw [View.Superseded, ok.current_length generation current]
  exact Nat.lt_irrefl _

end

omit [Differ] in
theorem SystemOk.seen (ok : SystemOk sys) (batch : BatchId) (object : WalObject) (held : sys.store.wal[batch]? = some object) :
    sys.view.Seen batch object := by
  obtain ⟨same, stale | ⟨inLog, _⟩⟩ := ok.stored.wal batch object held
  · exact ⟨same, .inr stale⟩
  · exact ⟨same, .inl inLog⟩

omit [Differ] in
theorem SystemOk.claim_head (ok : SystemOk sys) (claimed : ClaimedBootstrap) (mine : sys.view.Claimed pid claimed)
    (current : sys.store.seals.greatest = some claimed.claim.generation) : sys.store.head = some claimed.sealed := by
  refine (ok.head_iff sys claimed.sealed).mpr ⟨mine.claim.1, ?_⟩
  rw [ok.current_length _ current, mine.same]

theorem refreshingFinal_completes {recovery : WriterRecovery} (booting : Booting pid (.refreshingFinal recovery) .observeHead sys)
    (current : sys.store.seals.greatest = some recovery.claim.generation) (tail : sys.store.wal.greatest = some recovery.durableBatch) :
    TakesOver pid ⟨recovery.claim, recovery.sealed⟩ recovery.durableBatch sys := by
  have handled : handle (.refreshingFinal recovery) (.headObserved sys.store.seals.greatest) =
      .ok (.complete, .complete recovery) := by
    simp only [handle, handleHead, handleFinalHead, current, if_true]
    rfl
  obtain ⟨after, round, reached, ready, completed, store⟩ := booting.completed _ rfl _ rfl _ recovery handled
  have same : after.store = sys.store := store
  exact ⟨after, recovery, .single round, booting.reads_lead (by simp) round,
    ⟨reached, ready, completed, by rw [same]; exact current, by rw [same]; exact tail⟩, rfl, rfl⟩

theorem replaying_finds {replay : Replay}
    (booting : Booting pid (.replaying replay) (.readWal replay.loaded.claimed.sealed.partition replay.next) sys)
    (current : sys.store.seals.greatest = some replay.loaded.claimed.claim.generation) : ∃ object changed,
      sys.store.wal[replay.next]? = some object ∧
      decodeWalBody replay.loaded.claimed.sealed.partition replay.next (some object) = .ok (some object) ∧
      handle (.replaying replay) (.walRead (some object)) = advanceReplay changed ∧
      changed.loaded.claimed = replay.loaded.claimed ∧ changed.next = replay.next ∧ changed.fence = replay.fence ∧
      (replay.next = replay.fence.batch → changed.owner = some replay.loaded.claimed.claim.owner) := by
  have ok := booting.reached.ok sys
  have superseded := ok.not_superseded _ current
  obtain ⟨claimed, _, below, progress⟩ := booting.ok
  have replays := progress.resolve_left superseded
  have within : replay.fence.batch.get ≤ sys.view.log.length := ok.view.log.batch_le _ replays.fence
  obtain ⟨object, member, number⟩ := ok.view.log.exists_object replay.next.get replay.next.positive (by omega)
  have same : object.batch = replay.next := BatchId.get_injective _ _ number
  have present : object.batch ∉ sys.view.collected := by
    intro gone
    have above := replays.above
    apply superseded
    rw [claimed.same]
    exact ok.view.collected_superseded _ claimed.claim.1 _ gone (by omega)
  have held := ok.stored.live object member present
  rw [same] at held
  obtain ⟨changed, handled, sameClaim, _, sameNext, sameFence, _, owner, isOwner⟩ :=
    replaying_reads ok.view replay claimed replays object member same
  refine ⟨object, changed, held, ok.view.seen_decodes _ claimed.claim.1 _ object ⟨same, .inl member⟩, handled, sameClaim, sameNext,
    sameFence, ?_⟩
  intro ends
  rw [owner, isOwner ends]

theorem replaying_completes (n : Nat) : ∀ (sys : System) (replay : Replay), replay.fence.batch.get = replay.next.get + n →
    Booting pid (.replaying replay) (.readWal replay.loaded.claimed.sealed.partition replay.next) sys →
    sys.store.seals.greatest = some replay.loaded.claimed.claim.generation →
    sys.store.wal.greatest = some replay.fence.batch → TakesOver pid replay.loaded.claimed replay.fence.batch sys := by
  induction n with
  | zero =>
    intro sys replay number booting current tail
    have ends : replay.next = replay.fence.batch := BatchId.get_injective _ _ (by omega)
    obtain ⟨object, changed, held, decodes, handled, sameClaim, sameNext, sameFence, owner⟩ := replaying_finds booting current
    rcases advanceReplay_cases changed (by rw [sameNext, sameFence]; omega) with ⟨_, next⟩ | ⟨_, _, less, _⟩
    · rw [next, owner ends, sameClaim] at handled
      simp only [require, if_true, ok_bind] at handled
      obtain ⟨after, round, later, store⟩ := booting.round (.readWal (.ok (some object)))
        (by simp only [bootCall, Call.request, Call.resume, execute, held, decodes]) _ rfl _ _ handled
      have same : after.store = sys.store := store
      have finished := refreshingFinal_completes later (by rw [same]; exact current) (by rw [same, sameFence]; exact tail)
      rw [sameFence] at finished
      exact finished.after_round booting (by simp) round
    · rw [sameNext, sameFence] at less
      omega
  | succ n ih =>
    intro sys replay number booting current tail
    obtain ⟨object, changed, held, decodes, handled, sameClaim, sameNext, sameFence, _⟩ := replaying_finds booting current
    rcases advanceReplay_cases changed (by rw [sameNext, sameFence]; omega) with ⟨ends, _⟩ | ⟨later, follows, _, next⟩
    · rw [sameNext, sameFence] at ends
      rw [ends] at number
      omega
    rw [next] at handled
    obtain ⟨after, round, waits, store⟩ := booting.round (.readWal (.ok (some object)))
      (by simp only [bootCall, Call.request, Call.resume, execute, held, decodes]) _ rfl _ _ handled
    have same : after.store = sys.store := store
    have finished := ih after { changed with next := later } (by simp only [sameFence, follows, sameNext]; omega) waits
      (by simp only [same, sameClaim]; exact current) (by simp only [same, sameFence]; exact tail)
    simp only [sameClaim, sameFence] at finished
    exact finished.after_round booting (by simp) round

theorem establishingFence_completes {loaded : LoadedBootstrap} {fence : TakeoverFence} {encoded : EncodedWal}
    (object : encoded.object = fenceObject loaded.claimed fence.batch)
    (booting : Booting pid (.establishingFence loaded fence) (.establishFence encoded) sys)
    (current : sys.store.seals.greatest = some loaded.claimed.claim.generation)
    (above : cutNumber sys.store.wal.greatest < fence.batch.get) : TakesOver pid loaded.claimed fence.batch sys := by
  have passed := booting.ok.2.1.above
  have number : encoded.object.batch = fence.batch := by rw [object]; rfl
  obtain ⟨executed, greatest⟩ := execute_createWal sys.store encoded.object (by rw [number]; exact above)
  obtain ⟨next, start, follows⟩ : ∃ next, replayStart loaded.claimed.sealed.replay = .ok next ∧
      next.get = loaded.claimed.sealed.replay.cut + 1 := by
    rcases replayStart_cases loaded.claimed.sealed.replay with ⟨last, _⟩ | started
    · have bounded := fence.batch.bounded
      omega
    · exact started
  have handled : handle (.establishingFence loaded fence) (.fenceEstablished .durable) =
      .ok (effect (.replaying ⟨loaded, next, fence, loaded.claimed.sealed.replay.owner⟩)
        (.readWal loaded.claimed.sealed.partition next)) := by
    simp only [handle, handleFence, start]
    rfl
  obtain ⟨after, round, waits, store⟩ := booting.round (.establishWal (.ok .durable))
    (by simp only [bootCall, Call.request, Call.resume, executed, walEvidence]) _ rfl _ _ handled
  simp only [bootCall, Call.request, executed] at store
  obtain ⟨final, recovery, boots, leads, taken⟩ := replaying_completes (fence.batch.get - next.get) after _ (by simp only; omega) waits
    (by rw [store]; exact current) (by rw [store]; exact greatest.trans (by rw [number]))
  refine ⟨final, recovery, .head round boots, (booting.leads round ?_).trans leads, taken⟩
  rintro other ⟨⟩
  have ok := booting.reached.ok sys
  have mine := booting.ok.1.claimed
  have held : sys.store.seals[encoded.object.owner.generation]? = some loaded.claimed.sealed := by
    rw [object, ok.stored.seals, show (fenceObject loaded.claimed fence.batch).owner.generation = _ from mine.same]
    exact ok.view.chain.get_mem _ mine.claim.1
  rw [ok.claim_head _ mine current, held]

theorem readingWalTail_completes {loaded : LoadedBootstrap} {fence : TakeoverFence} {tail : BatchId}
    (booting : Booting pid (.readingWalTail loaded fence tail) (.readWal loaded.claimed.sealed.partition tail) sys)
    (current : sys.store.seals.greatest = some loaded.claimed.claim.generation) (listed : sys.store.wal.greatest = some tail) :
    TakesOver pid loaded.claimed fence.batch sys := by
  have ok := booting.reached.ok sys
  obtain ⟨spent, ready, above, _, number⟩ := booting.ok
  obtain ⟨object, held⟩ := isSome_iff_exists.mp (greatest_eq_some listed).1
  have seen := ok.seen tail object held
  have partition := ok.view.seen_partition _ ready.claimed.claim.1 tail object seen
  have older : ¬ loaded.claimed.claim.owner ≤ object.owner := by
    intro newer
    exact ok.not_superseded _ current (tail_superseded ok.view loaded _ spent ready tail above object seen newer)
  obtain ⟨encoded, same, placed⟩ := establishFence_eq loaded fence
  have handled : handle (.readingWalTail loaded fence tail) (.walRead (some object)) =
      .ok (effect (.establishingFence loaded fence) (.establishFence encoded)) := by
    simp only [handle, handleWalRead, handleTailRead, require, seen.1, partition, if_true,
      ok_bind, if_neg older, placed]
    rfl
  obtain ⟨after, round, waits, store⟩ := booting.round (.readWal (.ok (some object)))
    (by simp only [bootCall, Call.request, Call.resume, execute, held,
      ok.view.seen_decodes _ ready.claimed.claim.1 tail object seen]) _ rfl _ _ handled
  have kept : after.store = sys.store := store
  refine .after_round booting (by simp) round (establishingFence_completes same waits ?_ ?_)
  · rw [kept]
    exact current
  · rw [kept, listed]
    simp only [cutNumber]
    omega

theorem observingWalTail_completes {loaded : LoadedBootstrap}
    (booting : Booting pid (.observingWalTail loaded none) .observeWalTail sys)
    (current : sys.store.seals.greatest = some loaded.claimed.claim.generation)
    (room : Room sys.store loaded.claimed.sealed.replay) : Reopens pid loaded.claimed sys := by
  have cut := cutNumber_batch loaded.claimed.sealed.replay
  have coordinates := room.coordinates
  have suffix := room.suffix
  rcases planFenceCandidate_cases loaded.claimed.sealed.replay.batch sys.store.wal.greatest with
    ⟨candidate, planned, number⟩ | ⟨last, _⟩
  · rw [cut] at number
    let fence : TakeoverFence := ⟨candidate, by omega⟩
    have bound : boundTakeoverFence loaded.claimed.sealed.replay.batch candidate = .ok fence := by
      rw [boundTakeoverFence_ok_iff, cut]
      simp only [WAL_SUFFIX_COORDINATES_MAX_V2] at suffix ⊢
      exact ⟨rfl, by omega, by omega, by omega⟩
    have handled : handle (.observingWalTail loaded none) (.walTailObserved sys.store.wal.greatest) =
        .ok (placeFence loaded sys.store.wal.greatest candidate) := by
      simp only [handle, handleWalTail, planned]
      rfl
    rw [placeFence, bound] at handled
    cases found : tailAboveCut loaded.claimed.sealed.replay.batch sys.store.wal.greatest with
    | some tail =>
      rw [found] at handled
      obtain ⟨after, round, waits, store⟩ := booting.round _ rfl _ rfl _ _ handled
      have kept : after.store = sys.store := store
      refine ⟨candidate, number, .after_round booting (by simp) round (readingWalTail_completes waits ?_ ?_)⟩
      · rw [kept]
        exact current
      · rw [kept]
        exact (tailAboveCut_some found).1
    | none =>
      obtain ⟨encoded, same, placed⟩ := establishFence_eq loaded fence
      rw [found] at handled
      simp only [placed] at handled
      obtain ⟨after, round, waits, store⟩ := booting.round _ rfl _ rfl _ _ handled
      have kept : after.store = sys.store := store
      refine ⟨candidate, number, .after_round booting (by simp) round
        (establishingFence_completes same waits ?_ ?_)⟩
      · rw [kept]
        exact current
      · rw [kept]
        simp only [fence]
        omega
  · omega

theorem readingTable_finds {load : BaseLoad} {source : PlannedTable}
    (booting : Booting pid (.readingTable load source) (.readTable load.claimed.sealed.partition source.table) sys)
    (current : sys.store.seals.greatest = some load.claimed.claim.generation) : ∃ decoded next done,
      decodeTableBody load.claimed.sealed.partition source.table (sys.store.tables source.table.object) = .ok decoded ∧
      handle (.readingTable load source) (.tableRead source.table decoded) = .ok (readNextTable next) ∧
      next.remaining = load.remaining ∧ next.claimed = load.claimed ∧ sys.view.LoadOk pid next done := by
  have ok := booting.reached.ok sys
  obtain ⟨_, done, loads⟩ := booting.ok
  have selected : source.table ∈ load.claimed.sealed.tables := by
    apply mem_plannedSources
    rw [loads.plan]
    exact mem_append_right _ mem_cons_self
  obtain ⟨forest, _, content⟩ := ok.view.chain.content _ loads.claimed.claim.1
  obtain ⟨body, found⟩ := isSome_iff_exists.mp (content.established source.table selected)
  have held := ok.selected_stored sys _ (ok.claim_head _ loads.claimed current) source.table selected body found
  obtain ⟨decoded, next, decodes, handled, sameRemaining, sameClaim, merged⟩ :=
    readingTable_merges ok.view load source done loads body found
  rw [held]
  exact ⟨decoded, next, _, decodes, handled, sameRemaining, sameClaim, merged⟩

theorem readingTable_completes {remaining : List PlannedTable} : ∀ (sys : System) (load : BaseLoad) (source : PlannedTable),
    load.remaining = remaining →
    Booting pid (.readingTable load source) (.readTable load.claimed.sealed.partition source.table) sys →
    sys.store.seals.greatest = some load.claimed.claim.generation → Room sys.store load.claimed.sealed.replay →
    Reopens pid load.claimed sys := by
  induction remaining with
  | nil =>
    intro sys load source last booting current room
    obtain ⟨decoded, next, done, decodes, handled, same, sameClaim, loads⟩ := readingTable_finds booting current
    obtain ⟨forest, _, loaded⟩ := loads.loaded (booting.reached.ok sys).view next done (same.trans last)
    rw [loaded, sameClaim] at handled
    obtain ⟨after, round, waits, store⟩ := booting.round (.readTable (.ok decoded))
      (by simp only [bootCall, Call.request, Call.resume, execute, decodes]) _ rfl _ _ handled
    have kept : after.store = sys.store := store
    refine .after_round booting (by simp) round (by rw [kept]) (observingWalTail_completes waits ?_ ?_)
    · rw [kept]
      exact current
    · rw [kept]
      exact room
  | cons following rest ih =>
    intro sys load source more booting current room
    obtain ⟨decoded, next, done, decodes, handled, same, sameClaim, loads⟩ := readingTable_finds booting current
    rw [readNextTable, same, more, sameClaim] at handled
    obtain ⟨after, round, waits, store⟩ := booting.round (.readTable (.ok decoded))
      (by simp only [bootCall, Call.request, Call.resume, execute, decodes]) _ rfl _ _ handled
    have kept : after.store = sys.store := store
    have finished := ih after { next with remaining := rest } following rfl (by simp only [sameClaim]; exact waits)
      (by simp only [sameClaim, kept]; exact current) (by simp only [sameClaim, kept]; exact room)
    simp only [sameClaim] at finished
    exact finished.after_round booting (by simp) round (by rw [kept])

section

variable (candidate : Seal) (sources : List PlannedTable) (encoded : EncodedAuthoritySeal) (same : encoded.sealed = candidate)
  (booting : Booting pid (.publishingClaim candidate sources) (.publishClaim encoded) sys)
  (newest : SealGeneration) (current : sys.store.seals.greatest = some newest)
  (next : candidate.generation.get = newest.get + 1)

include same booting current next

theorem publishingClaim_round (state : BootstrapState) (asked : BootstrapEffect)
    (handled : handle (.publishingClaim candidate sources) (.claimPublished .authored) = .ok (effect state asked)) :
    ∃ after, sys.bootRound pid = some after ∧ Booting pid state asked after ∧
      after.store = { sys.store with seals := sys.store.seals.insert candidate.generation candidate } ∧
      after.store.seals.greatest = some candidate.generation := by
  obtain ⟨executed, greatest⟩ := execute_createSeal sys.store candidate newest current (by omega)
  subst same
  have resumed : (bootCall (.publishClaim encoded)).resume
      (.answer (sys.store.execute (bootCall (.publishClaim encoded)).request).2) = some (.done (.createSeal (.ok .direct))) := by
    simp only [bootCall, Call.request, executed]
    rfl
  obtain ⟨after, round, waits, store⟩ := booting.round _ resumed _ rfl _ _ handled
  simp only [bootCall, Call.request, executed] at store
  exact ⟨after, round, waits, store, by rw [store]; exact greatest⟩

theorem publishingClaim_completes (room : Room sys.store candidate.replay) : Reopens pid ⟨⟨candidate.generation⟩, candidate⟩ sys := by
  cases sources with
  | nil =>
    have handled : handle (.publishingClaim candidate []) (.claimPublished .authored) =
        .ok (effect (.observingWalTail ⟨⟨⟨candidate.generation⟩, candidate⟩, empty, empty⟩ none)
          .observeWalTail) := by
      rfl
    obtain ⟨after, round, waits, store, greatest⟩ :=
      publishingClaim_round candidate [] encoded same booting newest current next _ _ handled
    refine .after_round booting (by simp) round (by rw [store]) (observingWalTail_completes waits greatest ?_)
    rw [store]
    exact ⟨room.coordinates, room.suffix⟩
  | cons source rest =>
    obtain ⟨after, round, waits, store, greatest⟩ :=
      publishingClaim_round candidate (source :: rest) encoded same booting newest current next _ _ rfl
    refine .after_round booting (by simp) round (by rw [store]) (readingTable_completes after _ source rfl waits greatest ?_)
    rw [store]
    exact ⟨room.coordinates, room.suffix⟩

end

section

variable (reached : ReachableSystem sys) (idle : (sys.procs pid).phase = .idle) (partition : PartitionId)

include reached idle

theorem starts_booting :
    ∃ started, step (.start pid partition) sys = some started ∧ started.store = sys.store ∧
      Booting pid (.discoveringHead partition) .observeHead started := by
  have started : step (.start pid partition) sys =
      some (sys.await pid (.discoveringHead partition) .observeHead (bootCall .observeHead)) := by
    simp only [step, idle]
    rfl
  have numbered := ((reached.ok sys).procs pid).base.wire.numbered
  exact ⟨_, started, rfl, Booting.sent numbered (reached.after _ _ _ started)⟩

section

variable (sealed : Seal) (newest : sys.store.head = some sealed) (unexhausted : sealed.generation.get + 1 < 2 ^ 64)

include newest unexhausted

theorem starts_claim :
    ∃ started middle candidate encoded, step (.start pid partition) sys = some started ∧ started.store = sys.store ∧
      BootsTo pid started middle ∧ Leads (· = pid) started middle ∧
      sealed.claimSuccessor = .ok candidate ∧ encoded.sealed = candidate ∧ middle.store = sys.store ∧
      Booting pid (.publishingClaim candidate (plannedSources candidate)) (.publishClaim encoded) middle := by
  obtain ⟨generation, greatest, held⟩ := bind_eq_some_iff.mp newest
  obtain ⟨started, begins, observed, discovering⟩ := starts_booting reached idle partition
  obtain ⟨reading, first, waits, store⟩ := discovering.round (.newestGeneration (.ok (some generation)))
    (by simp only [bootCall, Call.request, Call.resume, execute, observed, greatest]) _ rfl _ _ rfl
  have kept : reading.store = sys.store := Eq.trans store observed
  have ok := waits.reached.ok reading
  obtain ⟨member, same⟩ := ok.seal_mem reading generation sealed (by rw [kept]; exact held)
  obtain ⟨candidate, claimed⟩ : ∃ candidate, sealed.claimSuccessor = .ok candidate := by
    refine ⟨{ sealed with generation := ⟨⟨sealed.generation.get + 1, Nat.succ_pos _, unexhausted⟩⟩ }, ?_⟩
    rw [Seal.claimSuccessor_ok_iff]
    exact ⟨rfl, rfl⟩
  obtain ⟨encoded, equal, handled⟩ := readingSeal_publishes ok.view generation sealed member same candidate claimed
  have decoded : decodeSealBody generation (some sealed) = .ok (some sealed) := by
    rw [← same]
    exact ok.view.seal_decodes sealed member
  obtain ⟨middle, second, publishing, last⟩ := waits.round (.readSeal (.ok (some sealed)))
    (by simp only [bootCall, Call.request, Call.resume, execute, kept, held, decoded]) _ rfl _ _ handled
  have unchanged : middle.store = reading.store := last
  exact ⟨started, middle, candidate, encoded, begins, observed, .tail (.single first) second,
    (discovering.reads_lead (by simp) first).trans (waits.reads_lead (by simp) second), claimed, equal, unchanged.trans kept,
    publishing⟩

theorem starts_takeover (room : Room sys.store sealed.replay) :
    ∃ started candidate, step (.start pid partition) sys = some started ∧ sealed.claimSuccessor = .ok candidate ∧
      Reopens pid ⟨⟨candidate.generation⟩, candidate⟩ started := by
  obtain ⟨started, middle, candidate, encoded, first, before, boots, leads, claimed, same, store, booting⟩ :=
    starts_claim reached idle partition sealed newest unexhausted
  obtain ⟨generation, greatest, held⟩ := bind_eq_some_iff.mp newest
  obtain ⟨number, copied⟩ := Seal.claimSuccessor_ok_iff.mp claimed
  obtain ⟨_, sameGeneration⟩ := (reached.ok sys).seal_mem sys generation sealed held
  have replay : candidate.replay = sealed.replay := by rw [copied]
  obtain ⟨fence, place, taken⟩ := publishingClaim_completes candidate _ encoded same booting generation
    (by rw [store]; exact greatest) (by rw [number, sameGeneration]) (by rw [store, replay]; exact room)
  rw [store] at place
  refine ⟨started, candidate, first, claimed, fence, by rw [before]; exact place, ?_⟩
  obtain ⟨after, recovery, later, more, rest⟩ := taken
  exact ⟨after, recovery, boots.trans later, leads.trans more, rest⟩

end

end

end

end StromDB
