import StromDB.Refinement.Boot

namespace StromDB

open Bootstrap Checked SealGeneration Option

variable [Rkyv]

def CallResult.error? : CallResult → Option TypedStoreError
  | .newestGeneration (.error error) => some error
  | .readSeal (.error error) => some error
  | .createSeal (.error error) => some error
  | .readTable (.error error) => some error
  | .newestSurvivingBatch (.error error) => some error
  | .readWal (.error error) => some error
  | .establishWal (.error error) => some error
  | .delete (.error error) => some error
  | _ => none

theorem operationError_rejected {response : Response} {detail : String} (same : operationError response = .rejected detail) :
    ∃ reason, response = .refused reason := by
  cases response with
  | refused reason => exact ⟨reason, rfl⟩
  | _ => cases same

theorem decodeSealBody_rejected (generation : SealGeneration) (observed : Option Seal) (detail : String) :
    decodeSealBody generation observed ≠ .error (.rejected detail) := by
  unfold decodeSealBody oversized
  repeat' split
  all_goals simp

theorem decodeWalBody_rejected (partition : PartitionId) (batch : BatchId) (observed : Option WalObject) (detail : String) :
    decodeWalBody partition batch observed ≠ .error (.rejected detail) := by
  unfold decodeWalBody oversized
  repeat' split
  all_goals simp

theorem decodeTableBody_rejected (partition : PartitionId) (table : TableRef) (observed : Option SstObject) (detail : String) :
    decodeTableBody partition table observed ≠ .error (.rejected detail) := by
  unfold decodeTableBody decodeTableRows oversized
  repeat' split
  all_goals simp

theorem resume_rejected {call : Call} {response : Response} {result : CallResult} {detail : String}
    (resumed : call.resume response = some (.done result)) (rejected : result.error? = some (.rejected detail)) :
    ∃ reason, response = .refused reason := by
  cases response with
  | refused reason => exact ⟨reason, rfl⟩
  | failed reason =>
    cases call <;> simp [Call.resume, walEvidence, tableEvidence, reduceCtorEq]
      at resumed <;> subst resumed <;> simp [CallResult.error?, operationError] at rejected
  | answer reply =>
    exfalso
    cases call <;> cases reply <;> simp only [Call.resume, walEvidence, tableEvidence, some.injEq, CallStep.done.injEq,
      reduceCtorEq] at resumed
    case readSeal.gotSeal generation observed =>
      subst resumed
      cases decoded : decodeSealBody generation observed <;> simp only [decoded, CallResult.error?, some.injEq,
        reduceCtorEq] at rejected
      exact decodeSealBody_rejected generation observed detail (by rw [decoded, rejected])
    case readWal.gotWal partition batch observed =>
      subst resumed
      cases decoded : decodeWalBody partition batch observed <;> simp only [decoded, CallResult.error?, some.injEq,
        reduceCtorEq] at rejected
      exact decodeWalBody_rejected partition batch observed detail (by rw [decoded, rejected])
    case readTable.gotTable partition table observed =>
      subst resumed
      cases decoded : decodeTableBody partition table observed <;> simp only [decoded, CallResult.error?, some.injEq,
        reduceCtorEq] at rejected
      exact decodeTableBody_rejected partition table observed detail (by rw [decoded, rejected])
    case reconcileWal.gotWal candidate observed =>
      subst resumed
      have never := decodeWalBody_rejected candidate.object.partition candidate.object.batch observed detail
      cases decoded : decodeWalBody candidate.object.partition candidate.object.batch observed with
      | error error =>
        simp only [decoded, reconcileWalRead, CallResult.error?, some.injEq] at rejected
        exact never (by rw [decoded, rejected])
      | ok found =>
        cases found with
        | none => simp [decoded, reconcileWalRead, CallResult.error?] at rejected
        | some object => by_cases mine : object = candidate.object <;>
            simp [decoded, reconcileWalRead, mine, CallResult.error?] at rejected
    case compareWal.gotWal candidate observed =>
      split at resumed <;> simp only [CallStep.done.injEq, reduceCtorEq] at resumed <;> subst resumed <;> cases rejected
    case compareTable.gotTable candidate observed =>
      split at resumed <;> simp only [CallStep.done.injEq, reduceCtorEq] at resumed <;> subst resumed <;> cases rejected
    all_goals
      subst resumed
      cases rejected

omit [Rkyv] in
theorem maxBatch_number (first second : Option BatchId) :
    cutNumber (maxBatch first second) = max (cutNumber first) (cutNumber second) := by
  cases first with
  | none => simp [maxBatch, cutNumber]
  | some batch =>
    cases second with
    | none => simp [maxBatch, cutNumber]
    | some other =>
      simp only [maxBatch, BatchId.le_iff]
      split
      · simp only [cutNumber]
        omega
      · simp only [cutNumber]
        omega

omit [Rkyv] in
theorem planFenceCandidate_cases (cut listedTail : Option BatchId) :
    (∃ candidate, planFenceCandidate cut listedTail = .ok candidate ∧
      candidate.get = max (cutNumber cut) (cutNumber listedTail) + 1) ∨
      (max (cutNumber cut) (cutNumber listedTail) + 1 = 2 ^ 64 ∧
        ∃ reason, planFenceCandidate cut listedTail = .error (.retryable reason)) := by
  unfold planFenceCandidate
  have number := maxBatch_number cut listedTail
  cases top : maxBatch cut listedTail with
  | none =>
    rw [top] at number
    refine .inl ⟨⟨⟨1, by decide, by decide⟩⟩, rfl, ?_⟩
    rw [← number]
    rfl
  | some tail =>
    rw [top] at number
    simp only
    cases found : tail.successor with
    | ok candidate =>
      refine .inl ⟨candidate, rfl, ?_⟩
      rw [← number, BatchId.successor_ok_iff.mp found]
      rfl
    | error exhausted =>
      refine .inr ⟨?_, _, rfl⟩
      have last := (BatchId.successor_error_iff _ _).mp found
      rw [← number]
      simp only [cutNumber]
      omega

omit [Rkyv] in
theorem tailAboveCut_some {cut listedTail : Option BatchId} {tail : BatchId}
    (found : tailAboveCut cut listedTail = some tail) : listedTail = some tail ∧ cutNumber cut < tail.get := by
  unfold tailAboveCut at found
  obtain ⟨same, above⟩ := filter_eq_some_iff.mp found
  refine ⟨same, ?_⟩
  cases cut with
  | none => exact tail.positive
  | some batch => simpa [cutNumber] using above

omit [Rkyv] in
theorem tailAboveCut_none {cut listedTail : Option BatchId} (found : tailAboveCut cut listedTail = none) :
    cutNumber listedTail ≤ cutNumber cut := by
  cases listedTail with
  | none => exact Nat.zero_le _
  | some tail =>
    unfold tailAboveCut at found
    cases cut with
    | none => simp at found
    | some batch => simpa [cutNumber] using found

theorem foldReplayFacts_ok {batch : BatchId} {facts : List OperationFact} : ∀ forest next : Forest,
    Forest.applyFacts batch facts forest = some next → foldReplayFacts batch facts forest = .ok (next, none) := by
  induction facts with
  | nil =>
    intro forest next applied
    cases applied
    rfl
  | cons fact rest ih =>
    intro forest next applied
    obtain ⟨middle, first, later⟩ := bind_eq_some_iff.mp applied
    unfold Forest.applyFact at first
    split at first
    · rename_i found
      cases first
      simp only [foldReplayFacts, found, ok_bind]
      exact ih middle next later
    · cases first

namespace View

-- The only ways to a contradiction: the store refused, a table that the Seal
-- selects is gone, or the generations are used up.
def Excused (state : BootstrapState) (response : Response) : Prop :=
  (∃ reason, response = .refused reason) ∨
    (∃ load source, state = .readingTable load source ∧ response = .answer (.gotTable none)) ∨
    ∃ generation, state = .readingSeal generation ∧ generation.get + 1 = 2 ^ 64

def StepOk (view : View) (pid : Pid) (proc : Proc) (state : BootstrapState) (response : Response) : Bootstrap.Transition → Prop
  | (next, .effect effect) => view.BootOk pid proc next ∧ BootCall next effect (System.bootCall effect)
  | (_, .complete recovery) => view.Final pid proc recovery
  | (_, .exit exit) => ∀ detail, exit = .contradiction detail → Excused state response

def Handled (view : View) (pid : Pid) (proc : Proc) (state : BootstrapState) (response : Response)
    (outcome : Checked Bootstrap.Transition) : Prop :=
  ∃ next, outcome = .ok next ∧ view.StepOk pid proc state response next

section

variable {view : View} {pid : Pid} {proc : Proc} (known : view.Ok) (state : BootstrapState) (response : Response)

theorem Handled.fenced (observed : SealGeneration) : view.Handled pid proc state response (.ok (Bootstrap.exit (.fenced observed))) :=
  ⟨_, rfl, nofun⟩

theorem Handled.retryable (reason : String) : view.Handled pid proc state response (.ok (Bootstrap.exit (.retryable reason))) :=
  ⟨_, rfl, nofun⟩

theorem Handled.failed (ok : view.BootOk pid proc state) (error : TypedStoreError) (legal : ∀ detail, error ≠ .contradiction detail)
    (rejected : ∀ detail, error = .rejected detail → ∃ reason, response = .refused reason) :
    view.Handled pid proc state response (handle state (.storeFailed error)) := by
  have handled : handle state (.storeFailed error) = .ok (Bootstrap.exit (storeExit error)) := by
    cases error with
    | contradiction detail => exact absurd rfl (legal detail)
    | _ => cases state <;> first | rfl | exact absurd ok id
  refine ⟨_, handled, ?_⟩
  intro detail same
  cases error with
  | retryable reason => cases same
  | rejected reason => exact .inl (rejected reason rfl)
  | contradiction reason => exact absurd rfl (legal reason)

theorem Handled.unanswered (ok : view.BootOk pid proc state) (unanswered : ∀ reply, response ≠ .answer reply) :
    view.Handled pid proc state response (handle state (.storeFailed (operationError response))) := by
  refine Handled.failed state response ok _ ?_ ?_
  · intro detail same
    cases response with
    | answer reply => exact absurd rfl (unanswered reply)
    | _ => cases same
  · intro detail same
    exact operationError_rejected same

omit [Rkyv] in
theorem genesisSeal_ok (partition : PartitionId) : ∃ sealed, genesisSeal partition = .ok sealed ∧
    sealed.generation = SealGeneration.genesis ∧ sealed.Legal ∧ SourceBounds sealed := by
  have legal : Seal.Legal ⟨partition, SealGeneration.genesis, .genesis, TreeVersion.empty, TreeVersion.empty⟩ :=
    ⟨fun _ => ⟨rfl, rfl, rfl⟩, SealGeneration.genesis.positive, by simp [TreeVersion.tables, TreeVersion.empty],
      by simp [TreeVersion.tables, TreeVersion.empty], by simp [Seal.tables, TreeVersion.tables, TreeVersion.empty],
      by simp [Seal.tables, TreeVersion.tables, TreeVersion.empty]⟩
  refine ⟨_, (Seal.new_ok_iff _ _ _ _ _ _).mpr ⟨rfl, legal⟩, rfl, legal, ?_⟩
  simp [SourceBounds, Seal.tables, TreeVersion.tables, TreeVersion.empty]

theorem establishGenesis_step (partition : PartitionId) (unwritten : view.Unwritten pid proc) :
    view.Handled pid proc state response (establishGenesis partition) := by
  obtain ⟨sealed, made, first, legal, bounds⟩ := genesisSeal_ok partition
  have bounded := sealLength_bounded bounds
  refine ⟨Bootstrap.effect (.establishingGenesis partition) (.establishGenesis ⟨sealed, first, bounded⟩), ?_,
    unwritten, _, rfl, made, .inl rfl⟩
  simp only [establishGenesis, made, expectOk, ok_bind, EncodedGenesisSeal.tryFrom, first, bounded,
    dif_pos]
  rfl

theorem discoveringHead_step (partition : PartitionId) (ok : view.BootOk pid proc (.discoveringHead partition))
    (newest : Option SealGeneration)
    (told : view.ReplyOk pid .listSeals (.newestSeal newest)) :
    view.Handled pid proc state response (handle (.discoveringHead partition) (.headObserved newest)) := by
  cases newest with
  | none => exact establishGenesis_step state response partition ok
  | some generation => exact ⟨_, rfl, ⟨ok, told⟩, rfl, rfl⟩

theorem establishingGenesis_step (partition : PartitionId) (ok : view.BootOk pid proc (.establishingGenesis partition)) (sealed : Seal)
    (evidence : CreateEvidence) (outcome : view.SealResult pid sealed (.ok evidence)) :
    view.Handled pid proc state response
      (handle (.establishingGenesis partition) (.genesisEstablished (establishGenesisOutcome evidence))) := by
  have established : sealed ∈ view.chain → view.Handled pid proc state response
      (.ok (Bootstrap.effect (.readingSeal SealGeneration.genesis) (.readSeal SealGeneration.genesis))) := by
    intro member
    exact ⟨_, rfl, ⟨ok, List.length_pos_of_mem member⟩, rfl, rfl⟩
  cases evidence with
  | direct => exact established (outcome.direct rfl).1
  | durableMatch => exact established (outcome.durableMatch rfl)
  | notOurs => exact ⟨_, rfl, ok, rfl, rfl⟩
  | unresolved => exact Handled.retryable state response _

theorem establishFence_eq (loaded : LoadedBootstrap) (fence : TakeoverFence) : ∃ encoded : EncodedWal,
    encoded.object = fenceObject loaded.claimed fence.batch ∧
    establishFence loaded fence = Bootstrap.effect (.establishingFence loaded fence) (.establishFence encoded) := by
  have bounded : walLength (fenceObject loaded.claimed fence.batch) ≤ WAL_ENCODED_BYTES_MAX :=
    Nat.le_trans (walLength_le _) (by simp [WalObject.facts, fenceObject, WAL_RUN_FIXED_ENCODED_BYTES_MAX, WAL_ENCODED_BYTES_MAX])
  have encoded : EncodedWal.new (fenceObject loaded.claimed fence.batch) = .ok ⟨fenceObject loaded.claimed fence.batch, bounded⟩ :=
    dif_pos bounded
  unfold fenceObject at encoded
  refine ⟨⟨fenceObject loaded.claimed fence.batch, bounded⟩, rfl, ?_⟩
  rw [establishFence, encoded]
  rfl

theorem establishFence_step (loaded : LoadedBootstrap) (fence : TakeoverFence) (ready : view.Loaded pid loaded)
    (passed : view.Passed loaded.claimed fence.batch) (spent : view.AllSpent pid proc fence.batch.get) :
    view.StepOk pid proc state response (establishFence loaded fence) := by
  obtain ⟨encoded, same, next⟩ := establishFence_eq loaded fence
  rw [next]
  exact ⟨⟨ready, passed, fun object there => .inr (spent object there)⟩, encoded, rfl, same, .inl rfl⟩

theorem advanceReplay_cases (replay : Replay) (below : replay.next.get ≤ replay.fence.batch.get) :
    (replay.next = replay.fence.batch ∧ advanceReplay replay = (do
      require (some replay.loaded.claimed.claim.owner = replay.owner) "replay ends under the authored takeover owner"
      pure (Bootstrap.effect (.refreshingFinal ⟨replay.loaded.claimed.claim, replay.loaded.claimed.sealed, replay.loaded.base,
        replay.loaded.durable, replay.fence.batch⟩) .observeHead))) ∨
    ∃ later : BatchId, later.get = replay.next.get + 1 ∧ replay.next.get < replay.fence.batch.get ∧
      advanceReplay replay = .ok (Bootstrap.effect (.replaying { replay with next := later })
        (.readWal replay.loaded.claimed.sealed.partition later)) := by
  unfold advanceReplay
  by_cases ends : replay.next = replay.fence.batch
  · exact .inl ⟨ends, if_pos ends⟩
  right
  rw [if_neg ends]
  have less : replay.next.get < replay.fence.batch.get := by
    have apart : replay.next.get ≠ replay.fence.batch.get := fun same => ends (BatchId.get_injective _ _ same)
    omega
  cases found : replay.next.successor with
  | error exhausted =>
    have last := (BatchId.successor_error_iff _ _).mp found
    have bound := replay.fence.batch.bounded
    omega
  | ok later => exact ⟨later, BatchId.successor_ok_iff.mp found, less, rfl⟩

theorem advanceReplay_superseded (replay : Replay) (mine : view.Claimed pid replay.loaded.claimed)
    (base : view.FoldIs replay.loaded.claimed.sealed.replay.cut replay.loaded.base)
    (below : replay.next.get ≤ replay.fence.batch.get) (past : view.Superseded replay.loaded.claimed.claim.generation)
    (next : Bootstrap.Transition) (stepped : advanceReplay replay = .ok next) : view.StepOk pid proc state response next := by
  rcases advanceReplay_cases replay below with ⟨_, same⟩ | ⟨later, number, less, same⟩
  · rw [same] at stepped
    obtain ⟨_, _, done⟩ := bind_ok stepped
    cases done
    exact ⟨⟨mine, .inl past⟩, rfl, rfl⟩
  · rw [same] at stepped
    cases stepped
    exact ⟨⟨mine, base, by simp only; omega, .inl past⟩, rfl, rfl⟩

theorem replayObject_kept {replay changed : Replay} {observed : WalObject}
    (replayed : replayObject replay observed = .ok (.ok changed)) :
    changed.loaded.claimed = replay.loaded.claimed ∧ changed.loaded.base = replay.loaded.base ∧ changed.next = replay.next ∧
      changed.fence = replay.fence := by
  unfold replayObject at replayed
  split at replayed
  · split at replayed <;> cases replayed
    exact ⟨rfl, rfl, rfl, rfl⟩
  · split at replayed
    · obtain ⟨outcome, _, done⟩ := bind_ok replayed
      obtain ⟨durable, failed⟩ := outcome
      cases failed <;> cases done
      exact ⟨rfl, rfl, rfl, rfl⟩
    · cases replayed

theorem replaying_superseded (replay : Replay) (ok : view.BootOk pid proc (.replaying replay))
    (past : view.Superseded replay.loaded.claimed.claim.generation) (observed : Option WalObject) (next : Bootstrap.Transition)
    (stepped : handle (.replaying replay) (.walRead observed) = .ok next) : view.StepOk pid proc state response next := by
  obtain ⟨mine, base, below, _⟩ := ok
  cases observed with
  | none =>
    cases stepped
    exact ⟨past, rfl, rfl⟩
  | some object =>
    simp only [handle, handleWalRead, handleReplayRead] at stepped
    obtain ⟨_, _, stepped⟩ := bind_ok stepped
    obtain ⟨_, _, stepped⟩ := bind_ok stepped
    obtain ⟨_, _, stepped⟩ := bind_ok stepped
    obtain ⟨_, _, stepped⟩ := bind_ok stepped
    obtain ⟨outcome, replayed, stepped⟩ := bind_ok stepped
    cases outcome with
    | error detail =>
      cases stepped
      exact ⟨past, rfl, rfl⟩
    | ok changed =>
      obtain ⟨sameClaim, sameBase, sameNext, sameFence⟩ := replayObject_kept replayed
      refine advanceReplay_superseded state response changed ?_ ?_ ?_ ?_ next stepped
      · rw [sameClaim]
        exact mine
      · rw [sameClaim, sameBase]
        exact base
      · rw [sameNext, sameFence]
        exact below
      · rw [sameClaim]
        exact past

theorem refreshingAnomaly_step (claim : AuthoredClaim) (reason : String) (newest : Option SealGeneration)
    (reply : view.BootReply pid proc (.refreshingAnomaly claim reason) (.newestSeal newest)) :
    view.Handled pid proc state response (handle (.refreshingAnomaly claim reason) (.headObserved newest)) := by
  obtain ⟨observed, rfl, less⟩ := reply
  simp only [handle, handleHead, handleAnomalyHead, lt_iff, less, if_true]
  exact Handled.fenced state response observed

theorem refreshingFinal_step (recovery : WriterRecovery) (newest : Option SealGeneration)
    (reply : view.BootReply pid proc (.refreshingFinal recovery) (.newestSeal newest)) :
    view.Handled pid proc state response (handle (.refreshingFinal recovery) (.headObserved newest)) := by
  obtain ⟨observed, rfl, ordered, final⟩ := reply
  simp only [handle, handleHead, handleFinalHead]
  split
  · rename_i same
    exact ⟨_, rfl, final same⟩
  · rename_i differs
    have less : recovery.claim.generation < observed := by
      have apart : recovery.claim.generation.get ≠ observed.get := fun same => differs (get_injective _ _ same).symm
      simp only [lt_iff]
      omega
    rw [if_pos less]
    exact Handled.fenced state response observed

include known

theorem readingSeal_publishes (generation : SealGeneration) (head : Seal) (member : head ∈ view.chain)
    (same : head.generation = generation)
    (candidate : Seal) (claimed : head.claimSuccessor = .ok candidate) : ∃ encoded : EncodedAuthoritySeal, encoded.sealed = candidate ∧
      handle (.readingSeal generation) (.sealRead (some head)) =
        .ok (Bootstrap.effect (.publishingClaim candidate (plannedSources candidate)) (.publishClaim encoded)) := by
  have bounds := known.chain.bounds head member
  obtain ⟨number, copied⟩ := Seal.claimSuccessor_ok_iff.mp claimed
  have positive := head.generation.positive
  have later : candidate.generation ≠ SealGeneration.genesis := by
    intro first
    rw [first] at number
    have one : SealGeneration.genesis.get = 1 := rfl
    omega
  have bounded : sealLength candidate ≤ SEAL_ENCODED_BYTES_MAX := by
    apply sealLength_bounded
    rw [copied]
    exact bounds
  have planned : planBootstrapSources head = .ok (plannedSources candidate) := by
    rw [planBootstrapSources, if_neg (by have := bounds.1; have := bounds.2; omega), copied]
    rfl
  refine ⟨⟨candidate, later, bounded⟩, rfl, ?_⟩
  simp only [handle, handleSeal, require, same, if_true, ok_bind, planned, claimed,
    EncodedAuthoritySeal.tryFrom, later, bounded, dif_pos, dif_neg, not_false_eq_true]
  rfl

theorem readingSeal_step (generation : SealGeneration) (ok : view.BootOk pid proc (.readingSeal generation)) (head : Seal)
    (member : head ∈ view.chain) (same : head.generation = generation) :
    view.Handled pid proc (.readingSeal generation) response (handle (.readingSeal generation) (.sealRead (some head))) := by
  cases claimed : head.claimSuccessor with
  | error source =>
    have bounds := known.chain.bounds head member
    have planned : planBootstrapSources head = .ok (plannedSources head) := by
      rw [planBootstrapSources, if_neg (by have := bounds.1; have := bounds.2; omega)]
      rfl
    simp only [handle, handleSeal, require, same, if_true, ok_bind, planned, claimed]
    refine ⟨_, rfl, ?_⟩
    intro detail _
    refine .inr (.inr ⟨generation, rfl, ?_⟩)
    rw [← same]
    unfold Seal.claimSuccessor at claimed
    split at claimed
    · cases claimed
    · rename_i error found
      have last := (successor_error_iff _ _).mp found
      omega
  | ok candidate =>
    obtain ⟨encoded, equal, published⟩ := readingSeal_publishes known generation head member same candidate claimed
    exact ⟨_, published, ⟨ok.1, ⟨head, member, claimed⟩, rfl⟩, encoded, rfl, equal, .inl (by rw [← equal]; rfl)⟩

theorem Claimed.loads (claimed : ClaimedBootstrap) (mine : view.Claimed pid claimed) : ∃ forest final,
    view.FoldIs claimed.sealed.replay.cut forest ∧ forest.Consistent ∧
    mergeSources view.tables claimed.sealed.partition (plannedSources claimed.sealed) (startLoad claimed) =
      .ok (.ok final) ∧ final.merged.directory = forest.directory ∧ final.merged.ledger = forest.ledger := by
  obtain ⟨forest, folded, content⟩ := known.chain.content _ mine.claim.1
  have consistent := folded.consistent
  obtain ⟨final, merged, directory, ledger, _, _⟩ := content_loads view.tables claimed.sealed forest content
    (known.chain.legal _ mine.claim.1) consistent.bounded (startLoad claimed) rfl
  exact ⟨forest, final, folded, consistent, merged, directory, ledger⟩

theorem LoadOk.loaded (load : BaseLoad) (done : List PlannedTable) (loads : view.LoadOk pid load done)
    (finished : load.remaining = []) :
    ∃ forest, view.FoldIs load.claimed.sealed.replay.cut forest ∧ readNextTable load =
      Bootstrap.effect (.observingWalTail ⟨load.claimed, forest, forest⟩ none) .observeWalTail := by
  obtain ⟨forest, final, folded, consistent, merged, directory, ledger⟩ := loads.claimed.loads known
  have plan := loads.plan
  rw [finished, List.append_nil] at plan
  rw [plan, loads.merged] at merged
  cases merged
  have built := Forest.tryFrom_consistent consistent
  simp only at directory ledger
  refine ⟨forest, folded, ?_⟩
  rw [readNextTable, finished]
  simp only [directory, ledger, built]

theorem readNextTable_step (load : BaseLoad) (done : List PlannedTable) (loads : view.LoadOk pid load done)
    (unwritten : view.Unwritten pid proc) : view.StepOk pid proc state response (readNextTable load) := by
  cases remaining : load.remaining with
  | nil =>
    obtain ⟨forest, folded, next⟩ := loads.loaded known load done remaining
    rw [next]
    exact ⟨⟨fun object there => absurd there (unwritten object), ⟨loads.claimed, folded, rfl⟩, nofun⟩,
      rfl, rfl⟩
  | cons source rest =>
    rw [readNextTable, remaining]
    refine ⟨⟨unwritten, done, ?_⟩, rfl, rfl⟩
    rw [← remaining]
    exact loads

theorem publishingClaim_step (candidate : Seal) (sources : List PlannedTable)
    (ok : view.BootOk pid proc (.publishingClaim candidate sources)) (evidence : CreateEvidence)
    (outcome : view.SealResult pid candidate (.ok evidence)) :
    view.Handled pid proc state response
      (handle (.publishingClaim candidate sources) (.claimPublished (publishAuthorityOutcome evidence))) := by
  obtain ⟨unwritten, ⟨source, member, claimed⟩, planned⟩ := ok
  cases evidence with
  | direct =>
    obtain ⟨published, authored⟩ := outcome.direct rfl
    refine ⟨_, rfl, readNextTable_step known state response _ [] ⟨⟨rfl, ⟨published, source, member, claimed⟩, authored⟩, ?_, ?_⟩
      unwritten⟩
    · rw [planned]
      rfl
    · rfl
  | durableMatch | notOurs => exact Handled.fenced state response _
  | unresolved => exact Handled.retryable state response _

theorem readingTable_merges (load : BaseLoad) (source : PlannedTable) (done : List PlannedTable)
    (loads : view.LoadOk pid { load with remaining := source :: load.remaining } done) (body : SstObject)
    (found : view.tables source.table.object = some body) :
    ∃ decoded next, decodeTableBody load.claimed.sealed.partition source.table (some body) = .ok decoded ∧
      handle (.readingTable load source) (.tableRead source.table decoded) = .ok (readNextTable next) ∧
      next.remaining = load.remaining ∧ next.claimed = load.claimed ∧ view.LoadOk pid next (done ++ [source]) := by
  obtain ⟨forest, final, _, _, merged, _, _⟩ := loads.claimed.loads known
  have plan := loads.plan
  have before := loads.merged
  rw [plan, mergeSources_append _ _ _ _ _ _ before] at merged
  simp only [mergeSources, found] at merged
  cases decodes : decodeTableBody load.claimed.sealed.partition source.table (some body) with
  | error error =>
    rw [decodes] at merged
    cases merged
  | ok decoded =>
    rw [decodes] at merged
    obtain ⟨outcome, first, later⟩ := bind_ok merged
    cases outcome with
    | error exit => cases later
    | ok middle =>
      obtain ⟨stepped, empty, kept⟩ := mergeTable_remaining load.remaining source decoded middle first
      refine ⟨decoded, { middle with remaining := load.remaining }, rfl, ?_, rfl, kept, ?_, ?_, ?_⟩
      · simp only [handle, handleTable, require, if_true, ok_bind]
        rw [show load = { load with remaining := load.remaining } from rfl, stepped]
        rfl
      · rw [kept]
        exact loads.claimed
      · rw [kept, plan]
        simp
      · rw [kept, mergeSources_append _ _ _ _ _ _ before]
        simp only [mergeSources, found, decodes, first, ok_bind]
        obtain ⟨claimed, remaining, rows, directory, ledger⟩ := middle
        cases empty
        cases kept
        rfl

theorem readingTable_step (load : BaseLoad) (source : PlannedTable) (ok : view.BootOk pid proc (.readingTable load source))
    (body : SstObject) (found : view.tables source.table.object = some body) :
    ∃ decoded, decodeTableBody load.claimed.sealed.partition source.table (some body) = .ok decoded ∧
      view.Handled pid proc state response (handle (.readingTable load source) (.tableRead source.table decoded)) := by
  obtain ⟨unwritten, done, loads⟩ := ok
  obtain ⟨decoded, next, decodes, handled, _, _, merged⟩ := readingTable_merges known load source done loads body found
  exact ⟨decoded, decodes, _, handled, readNextTable_step known state response next _ merged unwritten⟩

theorem placeFence_step (loaded : LoadedBootstrap) (listedTail : Option BatchId) (candidate : BatchId)
    (ready : view.Loaded pid loaded) (within : cutNumber listedTail ≤ view.log.length)
    (number : candidate.get = max (cutNumber loaded.claimed.sealed.replay.batch) (cutNumber listedTail) + 1)
    (spent : view.AllSpent pid proc candidate.get) : view.StepOk pid proc state response (placeFence loaded listedTail candidate) := by
  have cut := cutNumber_batch loaded.claimed.sealed.replay
  unfold placeFence
  cases bound : boundTakeoverFence loaded.claimed.sealed.replay.batch candidate with
  | error error =>
    intro detail same
    cases error with
    | noRunCoordinate | spanExceeded span => cases same
    | notAfterCut => exact absurd bound (boundTakeoverFence_after (by omega))
  | ok fence =>
    obtain ⟨same, _, above, _⟩ := boundTakeoverFence_ok_iff.mp bound
    rw [← same] at number spent
    cases found : tailAboveCut loaded.claimed.sealed.replay.batch listedTail with
    | some tail =>
      obtain ⟨rfl, higher⟩ := tailAboveCut_some found
      rw [show cutNumber (some tail) = tail.get from rfl] at number within
      exact ⟨⟨spent, ready, by omega, within, by omega⟩, rfl, rfl⟩
    | none =>
      have lower := tailAboveCut_none found
      have owner := known.chain.owner _ ready.claimed.claim.1
      have replayOwner := (known.chain.legal _ ready.claimed.claim.1).replayOwner
      have base : fence.batch.get - 1 = loaded.claimed.sealed.replay.cut := by omega
      refine establishFence_step state response loaded fence ready ⟨by omega, ?_, ?_⟩ spent
      · rw [base]
        exact owner.1
      · rw [base, owner.2, ready.claimed.same]
        exact replayOwner

theorem observingWalTail_step (loaded : LoadedBootstrap) (occupied : Option BatchId)
    (ok : view.BootOk pid proc (.observingWalTail loaded occupied)) (listedTail : Option BatchId)
    (told : view.ReplyOk pid .listWal (.newestWal listedTail))
    (reply : view.BootReply pid proc (.observingWalTail loaded occupied) (.newestWal listedTail)) :
    view.Handled pid proc state response (handle (.observingWalTail loaded occupied) (.walTailObserved listedTail)) := by
  obtain ⟨spent, ready, passed⟩ := ok
  have within : cutNumber listedTail ≤ view.log.length := by
    cases listedTail with
    | none => exact Nat.zero_le _
    | some tail => exact told
  simp only [handle, handleWalTail]
  rcases planFenceCandidate_cases loaded.claimed.sealed.replay.batch listedTail with
    ⟨candidate, planned, number⟩ | ⟨_, reason, planned⟩
  · rw [planned]
    cases occupied with
    | none => exact ⟨_, rfl, placeFence_step known state response loaded listedTail candidate ready within number
        (fun object there => absurd (spent object there).2 (Nat.not_lt_zero _))⟩
    | some batch =>
      obtain ⟨tail, rfl, reaches⟩ := reply
      have later : ¬ candidate ≤ batch := by
        rw [show cutNumber (some tail) = tail.get from rfl] at number
        simp only [BatchId.le_iff]
        omega
      simp only [if_neg later]
      refine ⟨_, rfl, placeFence_step known state response loaded (some tail) candidate ready within number ?_⟩
      intro object there
      have below := (spent object there).2
      simp only [map_some, getD_some, BatchId.le_iff] at below later
      exact ⟨(spent object there).1, by omega⟩
  · rw [planned]
    exact Handled.retryable state response reason

theorem tail_superseded (loaded : LoadedBootstrap) (n : Nat) (spent : view.AllSpent pid proc n) (ready : view.Loaded pid loaded)
    (tail : BatchId) (above : loaded.claimed.sealed.replay.cut < tail.get) (object : WalObject) (seen : view.Seen tail object)
    (owner : loaded.claimed.claim.owner.get ≤ object.owner.get) : view.Superseded loaded.claimed.claim.generation := by
  rcases seen.2 with inLog | stale
  · have claimed := known.log.claimed object inLog
    have apart : object.owner.get ≠ loaded.claimed.claim.owner.get := by
      intro same
      have generation := get_injective _ _ same
      have written : view.Wrote pid proc object := .inr ⟨inLog, generation ▸ ready.claimed.author⟩
      exact (spent object written).1.2.2 inLog
    have less : loaded.claimed.claim.owner.get < object.owner.get := by omega
    exact Nat.lt_of_lt_of_le less claimed
  · rw [ready.claimed.same]
    exact known.stale_superseded _ ready.claimed.claim.1 object stale (by rw [seen.1]; exact above)

theorem readingWalTail_step (loaded : LoadedBootstrap) (fence : TakeoverFence) (listedTail : BatchId)
    (ok : view.BootOk pid proc (.readingWalTail loaded fence listedTail)) (observed : Option WalObject)
    (told : ∀ object, observed = some object → view.Seen listedTail object) :
    view.Handled pid proc state response (handle (.readingWalTail loaded fence listedTail) (.walRead observed)) := by
  obtain ⟨spent, ready, above, within, number⟩ := ok
  cases observed with
  | none => exact Handled.retryable state response _
  | some object =>
    have seen := told object rfl
    have partition := known.seen_partition _ ready.claimed.claim.1 listedTail object seen
    simp only [handle, handleWalRead, handleTailRead, require, seen.1, partition, if_true,
      ok_bind]
    split
    · rename_i newer
      exact ⟨_, rfl, tail_superseded known loaded _ spent ready listedTail above object seen newer, rfl, rfl⟩
    rename_i older
    have less : object.owner.get < loaded.claimed.claim.owner.get := Nat.lt_of_not_le older
    have base : fence.batch.get - 1 = listedTail.get := by omega
    refine ⟨_, rfl, establishFence_step state response loaded fence ready ⟨by omega, by omega, ?_⟩ spent⟩
    rw [base]
    rcases seen.2 with inLog | stale
    · rw [← seen.1, known.log.ownerAt_batch object inLog]
      exact less
    · have behind := (known.residue.stale object stale).2.2.1
      rw [seen.1] at behind
      exact Nat.lt_trans behind less

omit known [Rkyv] in
theorem replayStart_cases (replay : WalReplayPoint) :
    (replay.cut + 1 = 2 ^ 64 ∧ ∃ reason, replayStart replay = .error (.retryable reason)) ∨
      ∃ next, replayStart replay = .ok next ∧ next.get = replay.cut + 1 := by
  cases replay with
  | genesis => exact .inr ⟨⟨⟨1, by decide, by decide⟩⟩, rfl, rfl⟩
  | through batch owner =>
    simp only [replayStart]
    cases found : batch.successor with
    | error exhausted =>
      have last := (BatchId.successor_error_iff _ _).mp found
      exact .inl ⟨by simp only [WalReplayPoint.cut]; omega, _, rfl⟩
    | ok next => exact .inr ⟨next, rfl, BatchId.successor_ok_iff.mp found⟩

theorem establishingFence_step (loaded : LoadedBootstrap) (fence : TakeoverFence)
    (ok : view.BootOk pid proc (.establishingFence loaded fence)) (establishment : WalEstablishment)
    (outcome : view.WalResult (fenceObject loaded.claimed fence.batch) (.ok establishment)) :
    view.Handled pid proc state response (handle (.establishingFence loaded fence) (.fenceEstablished establishment)) := by
  obtain ⟨ready, passed, wrote⟩ := ok
  have above := passed.above
  cases establishment with
  | unresolvedAbsent => exact Handled.retryable state response _
  | occupied =>
    obtain ⟨other, seen, differs⟩ := outcome.occupied rfl
    have lost : fence.batch.get ≤ view.log.length ∧ fenceObject loaded.claimed fence.batch ∉ view.log := by
      rcases seen.2 with inLog | stale
      · have within := known.log.batch_le other inLog
        rw [seen.1] at within
        exact ⟨within, fun there => differs (known.log.unique other _ inLog there (congrArg BatchId.get seen.1))⟩
      · have gone := (known.residue.stale other stale).2.1
        rw [seen.1] at gone
        exact ⟨known.log.collected_le known.residue _ gone, fun there => known.fence_uncollected _ there rfl gone⟩
    refine ⟨_, rfl, ⟨?_, ready, ?_⟩, rfl, rfl⟩
    · intro object there
      simp only [map_some, getD_some]
      rcases wrote object there with rfl | ⟨spent, below⟩
      · exact ⟨⟨rfl, lost.1, lost.2⟩, Nat.lt_succ_self _⟩
      · exact ⟨spent, by omega⟩
    · intro batch same
      cases same
      exact ⟨passed, lost.1⟩
  | durable =>
    have seen := outcome.durable rfl
    simp only [handle, handleFence]
    rcases replayStart_cases loaded.claimed.sealed.replay with ⟨_, reason, failed⟩ | ⟨next, started, number⟩
    · rw [failed]
      exact Handled.retryable state response reason
    rw [started]
    refine ⟨_, rfl, ⟨ready.claimed, ready.base, by simp only; omega, ?_⟩, rfl, rfl⟩
    rcases seen.2 with inLog | stale
    · have owner := known.chain.owner _ ready.claimed.claim.1
      have base : next.get - 1 = loaded.claimed.sealed.replay.cut := by omega
      refine .inr ⟨inLog, ?_, by simp only; omega, ?_, ?_⟩
      · intro object there
        rcases wrote object there with rfl | ⟨spent, below⟩
        · exact ⟨rfl, Nat.le_refl _⟩
        · exact ⟨spent.1, Nat.le_of_lt below⟩
      · simp only [base, ready.durable]
        exact ready.base
      · simp only [base]
        refine ⟨owner.1, owner.2.trans ?_⟩
        cases loaded.claimed.sealed.replay <;> rfl
    · refine .inl ?_
      rw [ready.claimed.same]
      exact known.stale_superseded _ ready.claimed.claim.1 _ stale above

theorem replayObject_ok (replay : Replay) (replays : view.Replays pid proc replay) (object : WalObject) (member : object ∈ view.log)
    (same : object.batch = replay.next) : ∃ changed, replayObject replay object = .ok (.ok changed) ∧
      view.FoldIs replay.next.get changed.loaded.durable ∧ changed.owner = some object.owner := by
  have folded := replays.durable
  have owner := replays.owner.2
  rw [← same] at folded owner
  unfold replayObject
  cases body : object.body with
  | fence =>
    have before := known.log.fence_before object member (by rw [body]; rfl)
    have raises : replay.owner.any (fun current => object.owner ≤ current) = false := by
      cases held : replay.owner with
      | none => rfl
      | some current =>
        rw [held] at owner
        simp only [map_some, getD_some] at owner
        simp only [any_some, OwnerToken.le_iff, decide_eq_false_iff_not]
        omega
    refine ⟨{ replay with owner := some object.owner }, ?_, ?_, rfl⟩
    · simp only [raises, Bool.false_eq_true, if_false]
      rfl
    · rw [← same]
      exact FoldIs.step object _ _ known.log member folded (by simp [WalObject.facts, body, Forest.applyFacts])
  | run facts =>
    have before := known.log.run_before object member (by rw [body]; rfl)
    have owns : replay.owner = some object.owner := by
      have positive : 0 < object.owner.get := object.owner.generation.positive
      cases held : replay.owner with
      | none =>
        rw [held] at owner
        simp only [map_none, getD_none] at owner
        omega
      | some current =>
        rw [held] at owner
        have equal : current.generation = object.owner.generation :=
          get_injective _ _ (owner.symm.trans before.symm)
        obtain ⟨generation⟩ := current
        cases equal
        rfl
    obtain ⟨forest, reached⟩ := known.log.fold_exists object.batch.get (known.log.batch_le object member)
    have applied := FoldIs.applied object _ _ known.log member folded reached
    have facts : object.facts = facts.facts := by simp [WalObject.facts, body]
    rw [facts, same] at applied
    refine ⟨{ replay with loaded := { replay.loaded with durable := forest } }, ?_, ?_, owns⟩
    · simp only [owns, if_true, foldReplayFacts_ok _ _ applied, ok_bind]
      rfl
    · rw [← same]
      exact reached

theorem replaying_reads (replay : Replay) (mine : view.Claimed pid replay.loaded.claimed) (replays : view.Replays pid proc replay)
    (object : WalObject) (member : object ∈ view.log) (same : object.batch = replay.next) : ∃ changed,
      handle (.replaying replay) (.walRead (some object)) = advanceReplay changed ∧
      changed.loaded.claimed = replay.loaded.claimed ∧ changed.loaded.base = replay.loaded.base ∧ changed.next = replay.next ∧
      changed.fence = replay.fence ∧ view.FoldIs replay.next.get changed.loaded.durable ∧ changed.owner = some object.owner ∧
      (replay.next = replay.fence.batch → replay.loaded.claimed.claim.owner = object.owner) := by
  have partition := known.log.partition object member _ mine.claim.1
  have last : replay.next = replay.fence.batch → object = fenceObject replay.loaded.claimed replay.fence.batch := by
    intro ends
    exact known.log.unique object _ member replays.fence (by rw [same, ends]; rfl)
  obtain ⟨changed, replayed, durable, owner⟩ := replayObject_ok known replay replays object member same
  obtain ⟨sameClaim, sameBase, sameNext, sameFence⟩ := replayObject_kept replayed
  have isFence : replay.next = replay.fence.batch → object.body = .fence := by
    intro ends
    rw [last ends]
    rfl
  have isOwner : replay.next = replay.fence.batch → replay.loaded.claimed.claim.owner = object.owner := by
    intro ends
    rw [last ends]
    rfl
  refine ⟨changed, ?_, sameClaim, sameBase, sameNext, sameFence, durable, owner, isOwner⟩
  simp [handle, handleWalRead, handleReplayRead, require, same, partition, if_pos isFence, if_pos isOwner, replayed]

theorem replaying_log (replay : Replay) (ok : view.BootOk pid proc (.replaying replay)) (replays : view.Replays pid proc replay)
    (object : WalObject) (member : object ∈ view.log) (same : object.batch = replay.next) :
    view.Handled pid proc state response (handle (.replaying replay) (.walRead (some object))) := by
  obtain ⟨mine, base, below, _⟩ := ok
  obtain ⟨changed, advanced, sameClaim, sameBase, sameNext, sameFence, durable, owner, isOwner⟩ :=
    replaying_reads known replay mine replays object member same
  rw [advanced]
  rcases advanceReplay_cases changed (by rw [sameNext, sameFence]; exact below) with ⟨ends, next⟩ | ⟨later, number, less, next⟩
  · rw [sameNext, sameFence] at ends
    rw [next, owner, sameClaim, isOwner ends]
    simp only [require, if_true, ok_bind]
    refine ⟨_, rfl, ⟨mine, .inr ⟨⟨mine, ?_, ?_, ?_, ?_, ?_⟩, ?_⟩⟩, rfl, rfl⟩ <;> simp only [sameFence]
    · rw [sameBase]
      exact base
    · rw [← ends]
      exact durable
    · rw [← ends]
      exact replays.above
    · exact replay.fence.room
    · exact replays.fence
    · exact replays.wrote
  rw [sameNext] at number less
  rw [sameFence] at less
  have above := replays.above
  have step : later.get - 1 = replay.next.get := by omega
  rw [next]
  refine ⟨_, rfl, ⟨by rw [sameClaim]; exact mine, by rw [sameClaim, sameBase]; exact base, by simp only [sameFence]; omega,
    .inr ?_⟩, rfl, rfl⟩
  refine ⟨?_, ?_, ?_, ?_, ?_⟩ <;> simp only [sameClaim, sameFence, step, owner]
  · exact replays.fence
  · exact replays.wrote
  · omega
  · exact durable
  · have owned := known.log.ownerAt_batch object member
    rw [same] at owned
    exact ⟨durable.1, owned⟩

theorem replaying_step (replay : Replay) (ok : view.BootOk pid proc (.replaying replay)) (observed : Option WalObject)
    (told : ∀ object, observed = some object → view.Seen replay.next object)
    (missing : observed = none → view.Superseded replay.loaded.claimed.claim.generation) :
    (view.Superseded replay.loaded.claimed.claim.generation ∧ ∀ next,
      handle (.replaying replay) (.walRead observed) = .ok next → view.StepOk pid proc state response next) ∨
      view.Handled pid proc state response (handle (.replaying replay) (.walRead observed)) := by
  have superseded : view.Superseded replay.loaded.claimed.claim.generation →
      view.Superseded replay.loaded.claimed.claim.generation ∧ ∀ next,
        handle (.replaying replay) (.walRead observed) = .ok next → view.StepOk pid proc state response next :=
    fun past => ⟨past, replaying_superseded state response replay ok past observed⟩
  rcases ok.2.2.2 with past | replays
  · exact .inl (superseded past)
  cases observed with
  | none => exact .inl (superseded (missing rfl))
  | some object =>
    have seen := told object rfl
    rcases seen.2 with inLog | stale
    · exact .inr (replaying_log known state response replay ok replays object inLog seen.1)
    · refine .inl (superseded ?_)
      rw [ok.1.same]
      exact known.stale_superseded _ ok.1.claim.1 object stale (by rw [seen.1]; exact replays.above)

end

def EventOk (view : View) (pid : Pid) (proc : Proc) (state : BootstrapState) (response : Response) (effect : BootstrapEffect)
    (event : BootstrapEvent) : Prop :=
  (∀ recorded ∈ System.authoredBy pid effect event, ∃ generation, recorded = .authored pid generation ∧
    view.Authored pid generation) ∧
  ((∃ replay, state = .replaying replay ∧ view.Superseded replay.loaded.claimed.claim.generation ∧
    ∀ next, handle state event = .ok next → view.StepOk pid proc state response next) ∨
    view.Handled pid proc state response (handle state event))

theorem EventOk.stepped {view : View} {pid : Pid} {proc : Proc} {state : BootstrapState} {response : Response}
    {effect : BootstrapEffect}
    {event : BootstrapEvent} (ok : view.EventOk pid proc state response effect event) (next : Bootstrap.Transition)
    (handled : handle state event = .ok next) : view.StepOk pid proc state response next := by
  rcases ok.2 with ⟨_, _, _, steps⟩ | ⟨reached, same, steps⟩
  · exact steps next handled
  · rw [same] at handled
    cases handled
    exact steps

section

variable {view : View} {pid : Pid} {proc : Proc} (known : view.Ok) (state : BootstrapState) (response : Response)
  (effect : BootstrapEffect) (ok : view.BootOk pid proc state)

def Resumed (view : View) (pid : Pid) (proc : Proc) (state : BootstrapState) (response : Response) (effect : BootstrapEffect)
    (step : CallStep) : Prop :=
  (∃ next, step = .wait next ∧ BootCall state effect next ∧ Plain next.request = true ∧ view.OpOk pid next.request) ∨
    ∃ result event, step = .done result ∧ System.bootEvent effect result = some event ∧
      view.EventOk pid proc state response effect event

theorem Resumed.event (result : CallResult) (event : BootstrapEvent) (found : System.bootEvent effect result = some event)
    (silent : System.authoredBy pid effect event = []) (handled : view.Handled pid proc state response (handle state event)) :
    Resumed view pid proc state response effect (.done result) :=
  .inr ⟨result, event, rfl, found, by simp [silent], .inr handled⟩

include ok

theorem Resumed.failed (result : CallResult) (found : System.bootEvent effect result = some (.storeFailed (operationError response)))
    (unanswered : ∀ reply, response ≠ .answer reply) : Resumed view pid proc state response effect (.done result) := by
  refine Resumed.event state response effect result _ found ?_ (Handled.unanswered state response ok unanswered)
  cases effect <;> rfl

theorem Resumed.error {call : Call} {result : CallResult} (error : TypedStoreError)
    (resumed : call.resume response = some (.done result))
    (carries : result.error? = some error) (found : System.bootEvent effect result = some (.storeFailed error))
    (legal : ∀ detail, error ≠ .contradiction detail) : Resumed view pid proc state response effect (.done result) := by
  have rejected : ∀ detail, error = .rejected detail → ∃ reason, response = .refused reason :=
    fun detail here => resume_rejected resumed (here ▸ carries)
  refine Resumed.event state response effect result _ found ?_ (Handled.failed state response ok error legal rejected)
  cases effect <;> rfl

theorem resume_head (step : CallStep) (told : view.ResponseOk pid .newestGeneration response)
    (resumed : Call.newestGeneration.resume response = some step)
    (answered : ∀ newest, response = .answer (.newestSeal newest) → view.ReplyOk pid .listSeals (.newestSeal newest) →
      view.Handled pid proc state response (handle state (.headObserved newest))) :
    Resumed view pid proc state response .observeHead step := by
  cases response with
  | answer reply =>
    cases reply <;> cases resumed
    exact Resumed.event state _ _ _ _ rfl rfl (answered _ rfl (told _ rfl))
  | failed reason | refused reason =>
    cases resumed
    exact Resumed.failed state _ _ ok _ rfl (by simp)

theorem resume_establishingGenesis (partition : PartitionId) (same : state = .establishingGenesis partition)
    (encoded : EncodedGenesisSeal) (call : Call) (waits : SealCall encoded.sealed call)
    (made : genesisSeal partition = .ok encoded.sealed) (step : CallStep)
    (told : view.ResponseOk pid call response) (resumed : call.resume response = some step) :
    Resumed view pid proc state response (.establishGenesis encoded) step := by
  subst same
  rcases SealCall.resume waits response told step resumed with rfl | ⟨result, rfl, outcome⟩
  · exact .inl ⟨_, rfl, ⟨encoded, rfl, made, .inr rfl⟩, rfl, trivial⟩
  · cases result with
    | ok evidence => exact Resumed.event _ _ _ _ _ rfl rfl (establishingGenesis_step _ _ partition ok encoded.sealed evidence outcome)
    | error error =>
      exact Resumed.error _ _ _ ok error resumed rfl rfl fun detail here => outcome.legal detail (by rw [here])

include known

theorem resume_readingSeal (generation : SealGeneration) (same : state = .readingSeal generation) (step : CallStep)
    (told : view.ResponseOk pid (.readSeal generation) response)
    (reply : ∀ answer, response = .answer answer → view.BootReply pid proc state answer)
    (resumed : (Call.readSeal generation).resume response = some step) :
    Resumed view pid proc state response (.readSeal generation) step := by
  subst same
  cases response with
  | answer answer =>
    cases answer <;> cases resumed
    rename_i observed
    cases observed with
    | none => exact absurd rfl (reply _ rfl)
    | some head =>
      obtain ⟨member, number⟩ : head ∈ view.chain ∧ head.generation = generation := told _ rfl
      have decoded := known.seal_decodes head member
      rw [number] at decoded
      rw [decoded]
      exact Resumed.event _ _ _ _ _ rfl rfl (readingSeal_step known _ generation ok head member number)
  | failed reason | refused reason =>
    cases resumed
    exact Resumed.failed _ _ _ ok _ rfl (by simp)

theorem resume_readingTable (load : BaseLoad) (source : PlannedTable) (same : state = .readingTable load source) (step : CallStep)
    (told : view.ResponseOk pid (.readTable load.claimed.sealed.partition source.table) response)
    (resumed : (Call.readTable load.claimed.sealed.partition source.table).resume response = some step) :
    Resumed view pid proc state response (.readTable load.claimed.sealed.partition source.table) step := by
  subst same
  cases response with
  | answer answer =>
    cases answer <;> cases resumed
    rename_i observed
    cases observed with
    | none =>
      refine Resumed.event _ _ _ _ _ rfl rfl ⟨_, rfl, ?_⟩
      intro detail _
      exact .inr (.inl ⟨load, source, rfl, rfl⟩)
    | some body =>
      obtain ⟨decoded, decodes, handled⟩ := readingTable_step known _ _ load source ok body (told _ rfl)
      rw [decodes]
      exact Resumed.event _ _ _ _ _ rfl rfl handled
  | failed reason | refused reason =>
    cases resumed
    exact Resumed.failed _ _ _ ok _ rfl (by simp)

theorem resume_observingWalTail (loaded : LoadedBootstrap) (occupied : Option BatchId)
    (same : state = .observingWalTail loaded occupied) (step : CallStep) (told : view.ResponseOk pid .newestSurvivingBatch response)
    (reply : ∀ answer, response = .answer answer → view.BootReply pid proc state answer)
    (resumed : Call.newestSurvivingBatch.resume response = some step) : Resumed view pid proc state response .observeWalTail step := by
  subst same
  cases response with
  | answer answer =>
    cases answer <;> cases resumed
    exact Resumed.event _ _ _ _ _ rfl rfl (observingWalTail_step known _ _ loaded occupied ok _ (told _ rfl) (reply _ rfl))
  | failed reason | refused reason =>
    cases resumed
    exact Resumed.failed _ _ _ ok _ rfl (by simp)

theorem resume_readWal (sealed : Seal) (member : sealed ∈ view.chain) (batch : BatchId) (step : CallStep)
    (told : view.ResponseOk pid (.readWal sealed.partition batch) response)
    (resumed : (Call.readWal sealed.partition batch).resume response = some step)
    (answered : ∀ observed, response = .answer (.gotWal observed) → (∀ object, observed = some object → view.Seen batch object) →
      (∃ replay, state = .replaying replay ∧ view.Superseded replay.loaded.claimed.claim.generation ∧ ∀ next,
        handle state (.walRead observed) = .ok next → view.StepOk pid proc state response next) ∨
        view.Handled pid proc state response (handle state (.walRead observed))) :
    Resumed view pid proc state response (.readWal sealed.partition batch) step := by
  cases response with
  | answer answer =>
    cases answer <;> cases resumed
    rename_i observed
    have seen : ∀ object, observed = some object → view.Seen batch object := by
      intro object here
      subst here
      exact told _ rfl
    have decoded : decodeWalBody sealed.partition batch observed = .ok observed := by
      cases observed with
      | none => rfl
      | some object => exact known.seen_decodes sealed member batch object (seen object rfl)
    rw [decoded]
    exact .inr ⟨_, _, rfl, rfl, fun recorded inside => (by cases inside), answered observed rfl seen⟩
  | failed reason | refused reason =>
    cases resumed
    exact Resumed.failed _ _ _ ok _ rfl (by simp)

theorem resume_publishingClaim (candidate : Seal) (sources : List PlannedTable) (same : state = .publishingClaim candidate sources)
    (encoded : EncodedAuthoritySeal) (equal : encoded.sealed = candidate) (call : Call) (waits : SealCall candidate call)
    (step : CallStep) (told : view.ResponseOk pid call response) (resumed : call.resume response = some step) :
    Resumed view pid proc state response (.publishClaim encoded) step := by
  subst same
  rcases SealCall.resume waits response told step resumed with rfl | ⟨result, rfl, outcome⟩
  · exact .inl ⟨_, rfl, ⟨encoded, rfl, equal, .inr rfl⟩, rfl, trivial⟩
  cases result with
  | ok evidence =>
    refine .inr ⟨_, _, rfl, rfl, ?_, .inr (publishingClaim_step known _ _ candidate sources ok evidence outcome)⟩
    intro recorded inside
    cases evidence with
    | direct =>
      rw [List.mem_singleton.mp inside, equal]
      exact ⟨_, rfl, (outcome.direct rfl).2⟩
    | _ => cases inside
  | error error =>
    exact Resumed.error _ _ _ ok error resumed rfl rfl fun detail here => outcome.legal detail (by rw [here])

theorem resume_establishingFence (loaded : LoadedBootstrap) (fence : TakeoverFence) (same : state = .establishingFence loaded fence)
    (encoded : EncodedWal) (equal : encoded.object = fenceObject loaded.claimed fence.batch) (call : Call)
    (waits : WalCall encoded call) (step : CallStep) (told : view.ResponseOk pid call response)
    (resumed : call.resume response = some step) : Resumed view pid proc state response (.establishFence encoded) step := by
  subst same
  have claim := ok.1.claimed.claim.1
  rcases WalCall.resume known encoded loaded.claimed.sealed claim (by rw [equal]; rfl) call waits response told step resumed with
    ⟨next, rfl, asks⟩ | ⟨result, rfl, outcome⟩
  · refine .inl ⟨next, rfl, ⟨encoded, rfl, equal, .inr asks⟩, ?_, ?_⟩
    · rcases asks with rfl | rfl <;> rfl
    · rcases asks with rfl | rfl <;> trivial
  rw [equal] at outcome
  cases result with
  | ok establishment =>
    exact Resumed.event _ _ _ _ _ rfl rfl (establishingFence_step known _ _ loaded fence ok establishment outcome)
  | error error =>
    exact Resumed.error _ _ _ ok error resumed rfl rfl fun detail here => outcome.legal detail (by rw [here])

theorem boot_resume (call : Call) (waits : BootCall state effect call) (told : view.ResponseOk pid call response)
    (reply : ∀ answer, response = .answer answer → view.BootReply pid proc state answer) (step : CallStep)
    (resumed : call.resume response = some step) : Resumed view pid proc state response effect step := by
  cases here : state with
  | initial | complete => rw [here] at ok; exact absurd ok id
  | discoveringHead partition =>
    rw [here] at ok waits
    obtain ⟨rfl, rfl⟩ := waits
    exact resume_head _ response ok step told resumed fun newest _ listed => discoveringHead_step _ _ partition ok newest listed
  | refreshingAnomaly claim reason =>
    rw [here] at ok waits reply
    obtain ⟨rfl, rfl⟩ := waits
    exact resume_head _ response ok step told resumed fun newest same _ =>
      refreshingAnomaly_step _ _ claim reason newest (reply _ same)
  | refreshingFinal recovery =>
    rw [here] at ok waits reply
    obtain ⟨rfl, rfl⟩ := waits
    exact resume_head _ response ok step told resumed fun newest same _ =>
      refreshingFinal_step _ _ recovery newest (reply _ same)
  | establishingGenesis partition =>
    rw [here] at ok waits
    obtain ⟨encoded, rfl, made, asks⟩ := waits
    exact resume_establishingGenesis _ response ok partition rfl encoded call asks made step told resumed
  | readingSeal generation =>
    rw [here] at ok waits reply
    obtain ⟨rfl, rfl⟩ := waits
    exact resume_readingSeal known _ response ok generation rfl step told reply resumed
  | publishingClaim candidate sources =>
    rw [here] at ok waits
    obtain ⟨encoded, rfl, equal, asks⟩ := waits
    exact resume_publishingClaim known _ response ok candidate sources rfl encoded equal call asks step told resumed
  | readingTable load source =>
    rw [here] at ok waits
    obtain ⟨rfl, rfl⟩ := waits
    exact resume_readingTable known _ response ok load source rfl step told resumed
  | observingWalTail loaded occupied =>
    rw [here] at ok waits reply
    obtain ⟨rfl, rfl⟩ := waits
    exact resume_observingWalTail known _ response ok loaded occupied rfl step told reply resumed
  | readingWalTail loaded fence listedTail =>
    rw [here] at ok waits
    obtain ⟨rfl, rfl⟩ := waits
    exact resume_readWal known _ response ok _ ok.2.1.claimed.claim.1 listedTail step told resumed fun observed _ seen =>
      .inr (readingWalTail_step known _ _ loaded fence listedTail ok observed seen)
  | establishingFence loaded fence =>
    rw [here] at ok waits
    obtain ⟨encoded, rfl, equal, asks⟩ := waits
    exact resume_establishingFence known _ response ok loaded fence rfl encoded equal call asks step told resumed
  | replaying replay =>
    rw [here] at ok waits reply
    obtain ⟨rfl, rfl⟩ := waits
    refine resume_readWal known _ response ok _ ok.1.claim.1 replay.next step told resumed fun observed same seen => ?_
    have missing : observed = none → view.Superseded replay.loaded.claimed.claim.generation := by
      intro none
      rw [none] at same
      exact reply _ same
    exact (replaying_step known (.replaying replay) response replay ok observed seen missing).imp_left
      fun past => ⟨replay, rfl, past⟩

end

end View

end StromDB
