import StromDB.Opening.Run

namespace StromDB

open Checked List

variable [Rkyv]

variable (loaded : LoadedBootstrap) (fence : TakeoverFence)

namespace Bootstrap

inductive Awaits : BootstrapState → BootstrapEffect → Prop where
  | head (partition : PartitionId) : Awaits (.discoveringHead partition) .observeHead
  | genesis (partition : PartitionId) (candidate : EncodedGenesisSeal) :
      Awaits (.establishingGenesis partition) (.establishGenesis candidate)
  | source (generation : SealGeneration) : Awaits (.readingSeal generation) (.readSeal generation)
  | claim (candidate : Seal) (sources : List PlannedTable) (encoded : EncodedAuthoritySeal) (same : encoded.sealed = candidate) :
      Awaits (.publishingClaim candidate sources) (.publishClaim encoded)
  | table (load : BaseLoad) (source : PlannedTable) :
      Awaits (.readingTable load source) (.readTable load.claimed.sealed.partition source.table)
  | tail (loaded : LoadedBootstrap) (occupied : Option BatchId) : Awaits (.observingWalTail loaded occupied) .observeWalTail
  | probe (loaded : LoadedBootstrap) (fence : TakeoverFence) (tail : BatchId) :
      Awaits (.readingWalTail loaded fence tail) (.readWal loaded.claimed.sealed.partition tail)
  | fence (loaded : LoadedBootstrap) (fence : TakeoverFence) (encoded : EncodedWal)
      (same : encoded.object = fenceObject loaded.claimed fence.batch) :
      Awaits (.establishingFence loaded fence) (.establishFence encoded)
  | replay (replay : Replay) : Awaits (.replaying replay) (.readWal replay.loaded.claimed.sealed.partition replay.next)
  | anomaly (claim : AuthoredClaim) (detail : String) : Awaits (.refreshingAnomaly claim detail) .observeHead
  | final (recovery : WriterRecovery) : Awaits (.refreshingFinal recovery) .observeHead

def Discovers (trace : List Exchange) : Prop :=
  ∀ exchange ∈ trace, exchange.1 = .observeHead ∨ ∃ candidate, exchange.1 = .establishGenesis candidate

inductive HeadFound (generation : SealGeneration) : List Exchange → Prop where
  | listed (earlier : List Exchange) (discovers : Discovers earlier) :
      HeadFound generation ((.observeHead, .headObserved (some generation)) :: earlier)
  | made (candidate : EncodedGenesisSeal) (earlier : List Exchange) (first : generation = SealGeneration.genesis)
      (discovers : Discovers earlier) :
      HeadFound generation ((.establishGenesis candidate, .genesisEstablished .established) :: earlier)

structure Claims (source : Seal) (sources : List PlannedTable) (claimed : ClaimedBootstrap) : Prop where
  legal : source.Legal
  planned : planBootstrapSources source = .ok sources
  successor : source.claimSuccessor = .ok claimed.sealed
  same : claimed.claim.generation = claimed.sealed.generation

inductive ClaimTrace (source : Seal) (claimed : ClaimedBootstrap) : List Exchange → Prop where
  | authored (candidate : EncodedAuthoritySeal) (found : List Exchange) (same : candidate.sealed = claimed.sealed)
      (head : HeadFound source.generation found) :
      ClaimTrace source claimed ((.publishClaim candidate, .claimPublished .authored) ::
        (.readSeal source.generation, .sealRead (some source)) :: found)

def tableExchange (partition : PartitionId) (read : PlannedTable × DecodedTable) : Exchange :=
  (.readTable partition read.1.table, .tableRead read.1.table read.2)

def walExchange (object : WalObject) : Exchange := (.readWal object.partition object.batch, .walRead (some object))

structure TablesRead (source : Seal) (sources : List PlannedTable) (reads : List (PlannedTable × DecodedTable)) (load : BaseLoad)
    (trace : List Exchange) : Prop where
  claims : Claims source sources load.claimed
  readable : ∀ read ∈ reads, Readable read.1.table read.2
  merged : loadTables reads (startLoad load.claimed) = .ok (.ok { load with remaining := [] })
  plan : sources = reads.map Prod.fst ++ load.remaining
  exchanges : ∃ before, ClaimTrace source load.claimed before ∧
    trace = (reads.map (tableExchange load.claimed.sealed.partition)).reverse ++ before

def BaseRead (claimed : ClaimedBootstrap) (base : Forest) (trace : List Exchange) : Prop :=
  ∃ source sources reads load, TablesRead source sources reads load trace ∧ load.claimed = claimed ∧ load.remaining = [] ∧
    Forest.tryFrom load.merged.directory load.merged.ledger = .ok base

structure Placed (claimed : ClaimedBootstrap) (last : Option BatchId) (batch : BatchId) : Prop where
  above : claimed.sealed.replay.cut < batch.get
  near : batch.get ≤ claimed.sealed.replay.cut + WAL_SUFFIX_COORDINATES_MAX_V2
  room : batch.get + 1 < 2 ^ 64
  advances : ∀ occupied, last = some occupied → occupied.get < batch.get

-- The look at the log before each FENCE: the tail is listed, and it is read when
-- it is above the cut.
inductive Probe (claimed : ClaimedBootstrap) : List Exchange → Prop where
  | listed (tail : Option BatchId) (within : tailAboveCut claimed.sealed.replay.batch tail = none) :
      Probe claimed [(.observeWalTail, .walTailObserved tail)]
  | read (tail : BatchId) (observed : WalObject) (above : claimed.sealed.replay.cut < tail.get) :
      Probe claimed [(.readWal claimed.sealed.partition tail, .walRead (some observed)),
        (.observeWalTail, .walTailObserved (some tail))]

inductive Rounds (claimed : ClaimedBootstrap) : Option BatchId → List Exchange → Prop where
  | none : Rounds claimed none []
  | occupied (last : Option BatchId) (batch : BatchId) (encoded : EncodedWal) (probe rounds : List Exchange)
      (earlier : Rounds claimed last rounds) (placed : Placed claimed last batch) (probed : Probe claimed probe)
      (same : encoded.object = fenceObject claimed batch) :
      Rounds claimed (some batch) ((.establishFence encoded, .fenceEstablished .occupied) :: (probe ++ rounds))

def Tried (claimed : ClaimedBootstrap) (base : Forest) (batch : BatchId) (probe trace : List Exchange) : Prop :=
  ∃ last rounds before, Rounds claimed last rounds ∧ Placed claimed last batch ∧ BaseRead claimed base before ∧
    trace = probe ++ (rounds ++ before)

def Fenced (claimed : ClaimedBootstrap) (base : Forest) (batch : BatchId) (trace : List Exchange) : Prop :=
  ∃ (encoded : EncodedWal) (probe before : List Exchange), encoded.object = fenceObject claimed batch ∧ Probe claimed probe ∧
    Tried claimed base batch probe before ∧ trace = (.establishFence encoded, .fenceEstablished .durable) :: before

def Succeeds (owner : Option OwnerToken) (object : WalObject) : Prop :=
  match object.body with
  | .fence => ∀ current, owner = some current → current < object.owner
  | .run _ => owner = some object.owner

def Succession : Option OwnerToken → List WalObject → Prop
  | _, [] => True
  | owner, object :: rest => Succeeds owner object ∧ Succession (some object.owner) rest

def lastOwner (owner : Option OwnerToken) (objects : List WalObject) : Option OwnerToken :=
  objects.foldl (fun _ object => some object.owner) owner

structure Replayed (claimed : ClaimedBootstrap) (base : Forest) (objects : List WalObject) (owner : Option OwnerToken)
    (durable : Forest) : Prop where
  coordinates : objects.map (fun object => object.batch.get) = List.range' (claimed.sealed.replay.cut + 1) objects.length
  partition : ∀ object ∈ objects, object.partition = claimed.sealed.partition
  succession : Succession claimed.sealed.replay.owner objects
  owner : owner = lastOwner claimed.sealed.replay.owner objects
  durable : foldLog objects base = some durable

def TailEvidence (loaded : LoadedBootstrap) (fence : TakeoverFence) (tail : BatchId) (trace : List Exchange) : Prop :=
  loaded.durable = loaded.base ∧ loaded.claimed.sealed.replay.cut < tail.get ∧
    Tried loaded.claimed loaded.base fence.batch [(.observeWalTail, .walTailObserved (some tail))] trace

def ReplayEvidence (replay : Replay) (trace : List Exchange) : Prop :=
  replay.next.get ≤ replay.fence.batch.get ∧ ∃ objects closing,
    Replayed replay.loaded.claimed replay.loaded.base objects replay.owner replay.loaded.durable ∧
    replay.next.get = replay.loaded.claimed.sealed.replay.cut + 1 + objects.length ∧
    Fenced replay.loaded.claimed replay.loaded.base replay.fence.batch closing ∧
    trace = (objects.map walExchange).reverse ++ closing

def FinalEvidence (recovery : WriterRecovery) (trace : List Exchange) : Prop :=
  ∃ objects closing,
    Replayed ⟨recovery.claim, recovery.sealed⟩ recovery.base objects (some recovery.claim.owner) recovery.durable ∧
    recovery.durableBatch.get = recovery.sealed.replay.cut + objects.length ∧
    Fenced ⟨recovery.claim, recovery.sealed⟩ recovery.base recovery.durableBatch closing ∧
    trace = (objects.map walExchange).reverse ++ closing

def Evident : BootstrapState → List Exchange → Prop
  | .discoveringHead _, trace => Discovers trace
  | .establishingGenesis _, trace => Discovers trace
  | .readingSeal generation, trace => HeadFound generation trace
  | .publishingClaim candidate sources, trace => ∃ source found, Claims source sources ⟨⟨candidate.generation⟩, candidate⟩ ∧
      HeadFound source.generation found ∧ trace = (.readSeal source.generation, .sealRead (some source)) :: found
  | .readingTable load next, trace => ∃ source sources reads,
      TablesRead source sources reads { load with remaining := next :: load.remaining } trace
  | .observingWalTail loaded occupied, trace => loaded.durable = loaded.base ∧ ∃ rounds before,
      Rounds loaded.claimed occupied rounds ∧ BaseRead loaded.claimed loaded.base before ∧ trace = rounds ++ before
  | .readingWalTail loaded fence tail, trace => TailEvidence loaded fence tail trace
  | .establishingFence loaded fence, trace => loaded.durable = loaded.base ∧
      ∃ probe, Probe loaded.claimed probe ∧ Tried loaded.claimed loaded.base fence.batch probe trace
  | .replaying replay, trace => ReplayEvidence replay trace
  | .refreshingAnomaly _ _, trace => ∃ partition batch event earlier,
      trace = (.readWal partition batch, event) :: earlier ∧
      ((∃ loaded fence tail, TailEvidence loaded fence tail earlier) ∨ ∃ replay, ReplayEvidence replay earlier)
  | .refreshingFinal recovery, trace => FinalEvidence recovery trace
  | _, _ => False

def Leads (transition : Transition) (trace : List Exchange) : Prop :=
  match transition.2 with
  | .effect effect => Awaits transition.1 effect ∧ Evident transition.1 trace
  | .complete recovery => ∃ earlier, FinalEvidence recovery earlier ∧
      trace = (.observeHead, .headObserved (some recovery.claim.generation)) :: earlier
  | .exit _ => True

theorem foldReplayFacts_inv {batch : BatchId} {facts : List OperationFact} : ∀ forest next : Forest,
    foldReplayFacts batch facts forest = .ok (next, none) → Forest.applyFacts batch facts forest = some next := by
  induction facts with
  | nil =>
    rintro forest _ ⟨⟩
    rfl
  | cons fact rest ih =>
    intro forest next done
    obtain ⟨⟨middle, outcome⟩, folded, done⟩ := bind_ok done
    cases outcome with
    | error contradiction => cases done
    | ok _ =>
      refine Option.bind_eq_some_iff.mpr ⟨middle, ?_, ih middle next done⟩
      rw [Forest.applyFact, folded]

theorem replayObject_inv {replay changed : Replay} {observed : WalObject} (kept : replayObject replay observed = .ok (.ok changed)) :
    Succeeds replay.owner observed ∧
      Forest.applyFacts replay.next observed.facts replay.loaded.durable = some changed.loaded.durable ∧
      changed = ⟨⟨replay.loaded.claimed, replay.loaded.base, changed.loaded.durable⟩, replay.next, replay.fence,
        some observed.owner⟩ := by
  unfold replayObject at kept
  simp only [Succeeds, WalObject.facts]
  split at kept
  · rename_i body
    split at kept
    · cases kept
    · rename_i above
      cases kept
      simp only [body]
      refine ⟨?_, rfl, trivial⟩
      intro current same
      rw [same] at above
      simpa using above
  rename_i facts body
  split at kept
  · rename_i mine
    obtain ⟨⟨durable, failed⟩, folded, done⟩ := bind_ok kept
    cases failed <;> cases done
    simp only [body]
    refine ⟨mine, foldReplayFacts_inv _ _ folded, ?_⟩
    rw [← mine]
  · cases kept

theorem succession_snoc {objects : List WalObject} {object : WalObject} : ∀ owner,
    Succession owner (objects ++ [object]) ↔ Succession owner objects ∧ Succeeds (lastOwner owner objects) object := by
  induction objects with
  | nil => simp [Succession, lastOwner]
  | cons first rest ih =>
    intro owner
    rw [cons_append, Succession, Succession, ih, and_assoc]
    rfl

theorem Replayed.snoc {claimed : ClaimedBootstrap} {base durable later : Forest} {objects : List WalObject}
    {owner : Option OwnerToken} {object : WalObject} (replayed : Replayed claimed base objects owner durable)
    (partition : object.partition = claimed.sealed.partition)
    (batch : object.batch.get = claimed.sealed.replay.cut + 1 + objects.length) (succeeds : Succeeds owner object)
    (applied : Forest.applyFacts object.batch object.facts durable = some later) :
    Replayed claimed base (objects ++ [object]) (some object.owner) later := by
  refine ⟨?_, ?_, ?_, ?_, ?_⟩
  · rw [map_append, replayed.coordinates, length_append, map_singleton, length_singleton,
      range'_concat, batch, Nat.one_mul]
  · intro other member
    rcases mem_append.mp member with earlier | last
    · exact replayed.partition other earlier
    · rw [mem_singleton.mp last]
      exact partition
  · exact (succession_snoc _).mpr ⟨replayed.succession, replayed.owner ▸ succeeds⟩
  · simp [lastOwner]
  · rw [foldLog_append, replayed.durable]
    simp [foldLog, applied]

theorem Replayed.nil (claimed : ClaimedBootstrap) (base : Forest) :
    Replayed claimed base [] claimed.sealed.replay.owner base := ⟨rfl, by simp, trivial, rfl, rfl⟩

theorem readNextTable_leads (source : Seal) (sources : List PlannedTable) (reads : List (PlannedTable × DecodedTable))
    (load : BaseLoad) (trace : List Exchange) (read : TablesRead source sources reads load trace) :
    Leads (readNextTable load) trace := by
  rw [readNextTable]
  cases rest : load.remaining with
  | nil =>
    cases formed : Forest.tryFrom load.merged.directory load.merged.ledger with
    | error contradiction => trivial
    | ok base => exact ⟨.tail _ _, rfl, [], trace, .none, ⟨source, sources, reads, load, read, rfl, rest, formed⟩, rfl⟩
  | cons next remaining =>
    refine ⟨.table _ _, source, sources, reads, ?_⟩
    rw [← rest]
    exact read

theorem authored_leads {candidate : Seal} {sources : List PlannedTable} {encoded : EncodedAuthoritySeal} {trace : List Exchange}
    (same : encoded.sealed = candidate) (evident : Evident (.publishingClaim candidate sources) trace) :
    Leads (readNextTable ⟨⟨⟨candidate.generation⟩, candidate⟩, sources, MergedRows.empty, none, none⟩)
      ((.publishClaim encoded, .claimPublished .authored) :: trace) := by
  obtain ⟨source, found, claims, head, rfl⟩ := evident
  exact readNextTable_leads source sources [] _ _ ⟨claims, by simp, rfl, rfl, _, .authored encoded found same head, rfl⟩

theorem tableMerged_leads {load next : BaseLoad} {planned : PlannedTable} {decoded : DecodedTable} {trace : List Exchange}
    (merged : mergeTable load planned decoded = .ok (.ok next)) (readable : Readable planned.table decoded)
    (evident : Evident (.readingTable load planned) trace) :
    Leads (readNextTable next)
      ((.readTable load.claimed.sealed.partition planned.table, .tableRead planned.table decoded) :: trace) := by
  obtain ⟨source, sources, reads, read⟩ := evident
  have charged := loadTables_charged reads read.readable _ _ Charged.empty read.merged
  obtain ⟨outcome, again, kept⟩ := mergeTable_readable load planned decoded readable charged
  rw [merged] at again
  cases again
  obtain ⟨_, claimed, remaining⟩ := kept next rfl
  have alone := mergeTable_planned load next.claimed [] planned decoded
  rw [merged, claimed] at alone
  refine readNextTable_leads source sources (reads ++ [(planned, decoded)]) next _ ⟨?_, ?_, ?_, ?_, ?_⟩
  · rw [claimed]
    exact read.claims
  · intro other member
    rcases mem_append.mp member with earlier | last
    · exact read.readable other earlier
    · rw [mem_singleton.mp last]
      exact readable
  · have earlier : loadTables reads (startLoad next.claimed) = .ok (.ok { load with remaining := [] }) := by
      rw [claimed]
      exact read.merged
    rw [loadTables_append, earlier]
    simp only [Except.bind, loadTables, alone, claimed]
    rfl
  · rw [read.plan, map_append, remaining, append_assoc]
    rfl
  · obtain ⟨before, claim, split⟩ := read.exchanges
    refine ⟨before, claimed ▸ claim, ?_⟩
    rw [split, claimed, map_append, reverse_append]
    rfl

theorem establishFence_leads (probe trace : List Exchange) (same : loaded.durable = loaded.base) (probed : Probe loaded.claimed probe)
    (tried : Tried loaded.claimed loaded.base fence.batch probe trace) : Leads (establishFence loaded fence) trace := by
  obtain ⟨encoded, object, done⟩ := View.establishFence_eq loaded fence
  rw [done]
  exact ⟨.fence loaded fence encoded object, same, probe, probed, tried⟩

theorem tailListed_leads (occupied listed : Option BatchId) (candidate : BatchId) (trace : List Exchange)
    (advances : ∀ batch, occupied = some batch → batch < candidate) (evident : Evident (.observingWalTail loaded occupied) trace) :
    Leads (placeFence loaded listed candidate) ((.observeWalTail, .walTailObserved listed) :: trace) := by
  obtain ⟨same, rounds, before, earlier, base, rfl⟩ := evident
  rw [placeFence]
  split
  · trivial
  rename_i fence bound
  obtain ⟨rfl, room, above, near⟩ := boundTakeoverFence_ok_iff.mp bound
  rw [cutNumber_batch] at above near
  have placed : Placed loaded.claimed occupied fence.batch :=
    ⟨above, near, by omega, fun batch here => BatchId.lt_iff.mp (advances batch here)⟩
  split
  · rename_i tail found
    obtain ⟨rfl, beyond⟩ := tailAboveCut_some found
    rw [cutNumber_batch] at beyond
    exact ⟨.probe loaded fence tail, same, beyond, occupied, rounds, before, earlier, placed, base, rfl⟩
  · rename_i within
    exact establishFence_leads loaded fence _ _ same (.listed listed within) ⟨occupied, rounds, before, earlier, placed, base, rfl⟩

theorem tailOlder_leads (tail : BatchId) (observed : WalObject) (trace : List Exchange)
    (evident : TailEvidence loaded fence tail trace) :
    Leads (establishFence loaded fence)
      ((.readWal loaded.claimed.sealed.partition tail, .walRead (some observed)) :: trace) := by
  obtain ⟨same, above, last, rounds, before, earlier, placed, base, rfl⟩ := evident
  exact establishFence_leads loaded fence _ _ same (.read tail observed above) ⟨last, rounds, before, earlier, placed, base, rfl⟩

theorem fenceOccupied_leads (encoded : EncodedWal) (trace : List Exchange)
    (object : encoded.object = fenceObject loaded.claimed fence.batch) (evident : Evident (.establishingFence loaded fence) trace) :
    Leads (effect (.observingWalTail loaded (some fence.batch)) .observeWalTail)
      ((.establishFence encoded, .fenceEstablished .occupied) :: trace) := by
  obtain ⟨same, probe, probed, last, rounds, before, earlier, placed, base, rfl⟩ := evident
  refine ⟨.tail _ _, same, _, before, .occupied last fence.batch encoded probe rounds earlier placed probed object, base, ?_⟩
  rw [cons_append, append_assoc]

theorem fenceDurable_leads (encoded : EncodedWal) (next : BatchId)
    (trace : List Exchange) (object : encoded.object = fenceObject loaded.claimed fence.batch)
    (starts : replayStart loaded.claimed.sealed.replay = .ok next) (evident : Evident (.establishingFence loaded fence) trace) :
    Leads (effect (.replaying ⟨loaded, next, fence, loaded.claimed.sealed.replay.owner⟩)
        (.readWal loaded.claimed.sealed.partition next))
      ((.establishFence encoded, .fenceEstablished .durable) :: trace) := by
  obtain ⟨same, probe, probed, tried⟩ := evident
  have first : next.get = loaded.claimed.sealed.replay.cut + 1 := by
    rcases View.replayStart_cases loaded.claimed.sealed.replay with ⟨_, reason, failed⟩ | ⟨other, done, number⟩
    · rw [starts] at failed
      cases failed
    · rw [starts] at done
      cases done
      exact number
  have above : loaded.claimed.sealed.replay.cut < fence.batch.get := by
    obtain ⟨_, _, _, _, placed, _⟩ := tried
    exact placed.above
  refine ⟨.replay _, by simp only; omega, [], _, ?_, first, ⟨encoded, probe, trace, object, probed, tried, rfl⟩, rfl⟩
  simp only [same]
  exact Replayed.nil loaded.claimed loaded.base

theorem replayed_leads {replay changed : Replay} {observed : WalObject} {transition : Transition} {trace : List Exchange}
    (batch : replay.next = observed.batch) (partition : replay.loaded.claimed.sealed.partition = observed.partition)
    (fence : replay.next = replay.fence.batch → observed.body = .fence ∧ replay.loaded.claimed.claim.owner = observed.owner)
    (kept : replayObject replay observed = .ok (.ok changed)) (advanced : advanceReplay changed = .ok transition)
    (evident : ReplayEvidence replay trace) :
    Leads transition ((.readWal replay.loaded.claimed.sealed.partition replay.next, .walRead (some observed)) :: trace) := by
  obtain ⟨below, objects, closing, replayed, number, fenced, rfl⟩ := evident
  obtain ⟨succeeds, applied, shape⟩ := replayObject_inv kept
  rw [batch] at applied
  have longer := replayed.snoc partition.symm (by rw [← batch, number]) succeeds applied
  have exchange : ((.readWal replay.loaded.claimed.sealed.partition replay.next, .walRead (some observed)) : Exchange) =
      walExchange observed := by rw [walExchange, batch, partition]
  rw [shape] at advanced
  rcases View.advanceReplay_cases ⟨⟨replay.loaded.claimed, replay.loaded.base, changed.loaded.durable⟩, replay.next, replay.fence,
    some observed.owner⟩ below with ⟨ends, same⟩ | ⟨later, successor, less, same⟩
  · rw [same] at advanced
    obtain ⟨_, _, done⟩ := bind_ok advanced
    cases done
    obtain ⟨_, owner⟩ := fence ends
    refine ⟨.final _, objects ++ [observed], closing, ?_, ?_, fenced, ?_⟩
    · rw [← owner] at longer
      exact longer
    · rw [length_append, length_singleton]
      have last : replay.next.get = replay.fence.batch.get := congrArg BatchId.get ends
      simp only
      omega
    · rw [map_append, reverse_append, exchange]
      rfl
  rw [same] at advanced
  cases advanced
  simp only at successor less
  refine ⟨.replay _, by simp only; omega, objects ++ [observed], closing, longer, ?_, fenced, ?_⟩
  · rw [length_append, length_singleton]
    simp only
    omega
  · rw [map_append, reverse_append, exchange]
    rfl

theorem Moves.leads {state : BootstrapState} {event : BootstrapEvent} {transition : Transition} {pending : BootstrapEffect}
    {trace : List Exchange} (moves : Moves state event transition) (awaits : Awaits state pending)
    (answers : Answers pending event) (evident : Evident state trace) : Leads transition ((pending, event) :: trace) := by
  cases moves with
  | ends => trivial
  | headFound partition generation =>
    cases awaits
    exact ⟨.source generation, .listed trace evident⟩
  | headMissing partition candidate =>
    cases awaits
    exact ⟨.genesis partition candidate, forall_mem_cons.mpr ⟨.inl rfl, evident⟩⟩
  | genesisMade partition =>
    cases awaits
    exact ⟨.source _, .made _ trace rfl evident⟩
  | genesisLost partition =>
    cases awaits
    exact ⟨.head partition, forall_mem_cons.mpr ⟨.inr ⟨_, rfl⟩, evident⟩⟩
  | sealFound source candidate sources encoded planned claimed same =>
    cases awaits
    cases answers with
    | source _ _ exact =>
      obtain ⟨_, legal⟩ := exact source rfl
      exact ⟨.claim candidate sources encoded same, source, trace, ⟨legal, planned, claimed, rfl⟩, evident, rfl⟩
  | authored candidate sources =>
    cases awaits with
    | claim _ _ encoded same => exact authored_leads same evident
  | tableMerged load next source decoded merged =>
    cases awaits
    cases answers with
    | table _ _ _ readable => exact tableMerged_leads merged readable evident
  | tailListed loaded occupied listed candidate planned advances =>
    cases awaits
    exact tailListed_leads loaded occupied listed candidate trace advances evident
  | tailOlder loaded fence tail observed older =>
    cases awaits
    exact tailOlder_leads loaded fence tail observed trace evident
  | tailAnomaly loaded fence tail event detail =>
    cases awaits
    exact ⟨.anomaly _ detail, _, _, event, trace, rfl, .inl ⟨loaded, fence, tail, evident⟩⟩
  | fenceDurable loaded fence next starts =>
    cases awaits with
    | fence _ _ encoded same => exact fenceDurable_leads loaded fence encoded next trace same starts evident
  | fenceOccupied loaded fence =>
    cases awaits with
    | fence _ _ encoded same => exact fenceOccupied_leads loaded fence encoded trace same evident
  | replayed replay changed observed transition batch partition fence kept advanced =>
    cases awaits
    exact replayed_leads batch partition fence kept advanced evident
  | replayAnomaly replay event detail =>
    cases awaits
    exact ⟨.anomaly _ detail, _, _, event, trace, rfl, .inr ⟨replay, evident⟩⟩
  | completed recovery =>
    cases awaits
    exact ⟨trace, evident, rfl⟩

end Bootstrap

def BootRun.Evident (run : BootRun) : Prop :=
  match run.step with
  | .effect effect => Bootstrap.Awaits run.state effect ∧ Bootstrap.Evident run.state run.trace
  | .complete recovery => ∃ earlier, Bootstrap.FinalEvidence recovery earlier ∧
      run.trace = (.observeHead, .headObserved (some recovery.claim.generation)) :: earlier
  | .exit _ => ∃ state effect event earlier, Bootstrap.Awaits state effect ∧ Bootstrap.Evident state earlier ∧
      run.trace = (effect, event) :: earlier

theorem BootRun.Evident.answer {run next : BootRun} {event : BootstrapEvent} (evident : run.Evident) (answered : run.Answered event)
    (stepped : run.answer event = some next) : next.Evident := by
  obtain ⟨effect, pending, answers⟩ := answered
  rw [BootRun.Evident, pending] at evident
  obtain ⟨awaits, shown⟩ := evident
  rw [BootRun.answer, pending] at stepped
  simp only at stepped
  split at stepped
  · rename_i state step handled
    cases stepped
    have running : run.state ≠ .initial := by
      intro same
      rw [same] at awaits
      cases awaits
    have leads := (Bootstrap.handle_moves _ _ _ running handled).leads awaits answers shown
    cases step with
    | effect later | complete recovery => exact leads
    | exit failure => exact ⟨_, effect, event, _, awaits, shown, rfl⟩
  · cases stepped

theorem AnsweredRun.evident (run : BootRun) (reached : AnsweredRun run) : run.Evident := by
  refine Transition.ReachableWhere.invariant BootRun.Evident ?_ ?_ run reached
  · rintro run ⟨partition, started, fresh⟩
    obtain ⟨state, step, trace⟩ := run
    cases started
    cases fresh
    exact ⟨.head partition, by simp [Bootstrap.Evident, Bootstrap.Discovers]⟩
  · exact fun run next event evident answered stepped => evident.answer answered stepped

end StromDB
