import StromDB.Refinement.BootSteps

namespace StromDB

open Checked

variable [Rkyv]

variable (state : BootstrapState)

abbrev Exchange := BootstrapEffect × BootstrapEvent

-- The bootstrap machine with the step it returned last and the exchanges so
-- far, newest first.
structure BootRun where
  state : BootstrapState
  step : BootstrapStep
  trace : List Exchange
deriving DecidableEq

namespace BootRun

def Starts (run : BootRun) : Prop :=
  ∃ partition, Bootstrap.handle .initial (.started partition) = .ok (run.state, run.step) ∧ run.trace = []

def answer (event : BootstrapEvent) (run : BootRun) : Option BootRun :=
  match run.step with
  | .effect effect =>
    match Bootstrap.handle run.state event with
    | .ok (state, step) => some ⟨state, step, (effect, event) :: run.trace⟩
    | .error _ => none
  | _ => none

end BootRun

namespace Bootstrap

-- A completion of the kind that the effect asks for: reads return what the key
-- names, and tables are as decoding leaves them.
inductive Answers : BootstrapEffect → BootstrapEvent → Prop where
  | failed (effect : BootstrapEffect) (error : TypedStoreError) : Answers effect (.storeFailed error)
  | head (observed : Option SealGeneration) : Answers .observeHead (.headObserved observed)
  | genesis (candidate : EncodedGenesisSeal) (establishment : GenesisEstablishment) :
      Answers (.establishGenesis candidate) (.genesisEstablished establishment)
  | source (generation : SealGeneration) (observed : Option Seal)
      (exact : ∀ sealed, observed = some sealed → sealed.generation = generation ∧ sealed.Legal) :
      Answers (.readSeal generation) (.sealRead observed)
  | claim (candidate : EncodedAuthoritySeal) (publication : SealPublication) :
      Answers (.publishClaim candidate) (.claimPublished publication)
  | table (partition : PartitionId) (table : TableRef) (decoded : DecodedTable) (readable : Readable table decoded) :
      Answers (.readTable partition table) (.tableRead table decoded)
  | tail (listed : Option BatchId) : Answers .observeWalTail (.walTailObserved listed)
  | wal (partition : PartitionId) (batch : BatchId) (observed : Option WalObject)
      (exact : ∀ object, observed = some object → object.partition = partition ∧ object.batch = batch) :
      Answers (.readWal partition batch) (.walRead observed)
  | fence (candidate : EncodedWal) (establishment : WalEstablishment) :
      Answers (.establishFence candidate) (.fenceEstablished establishment)

def answers : BootstrapEffect → BootstrapEvent → Bool
  | _, .storeFailed _ => true
  | .observeHead, .headObserved _ => true
  | .establishGenesis _, .genesisEstablished _ => true
  | .readSeal generation, .sealRead observed => observed.all fun source =>
    decide (source.generation = generation) &&
      decide (Seal.new source.partition source.generation source.replay source.directory source.ledger = .ok source)
  | .publishClaim _, .claimPublished _ => true
  | .readTable _ table, .tableRead read (.directory rows) =>
    decide (read = table) && decide (table.object.store = .directory ∧ rows ≠ [] ∧ strictlyOrdered rows = true)
  | .readTable _ table, .tableRead read (.ledger rows) =>
    decide (read = table) && decide (table.object.store = .ledger ∧ rows ≠ [] ∧ strictlyOrdered rows = true)
  | .observeWalTail, .walTailObserved _ => true
  | .readWal partition batch, .walRead observed => observed.all fun object =>
    decide (object.partition = partition) && decide (object.batch = batch)
  | .establishFence _, .fenceEstablished _ => true
  | _, _ => false

theorem answers_sound {effect : BootstrapEffect} {event : BootstrapEvent} (checked : answers effect event = true) :
    Answers effect event := by
  unfold answers at checked
  split at checked
  · exact .failed _ _
  · exact .head _
  · exact .genesis _ _
  · rename_i generation observed
    refine .source generation observed fun source here => ?_
    rw [here, Option.all_some, Bool.and_eq_true, decide_eq_true_iff, decide_eq_true_iff] at checked
    exact ⟨checked.1, ((Seal.new_ok_iff _ _ _ _ _ _).mp checked.2).2⟩
  · exact .claim _ _
  · rw [Bool.and_eq_true, decide_eq_true_iff, decide_eq_true_iff] at checked
    obtain ⟨rfl, readable⟩ := checked
    exact .table _ _ _ readable
  · rw [Bool.and_eq_true, decide_eq_true_iff, decide_eq_true_iff] at checked
    obtain ⟨rfl, readable⟩ := checked
    exact .table _ _ _ readable
  · exact .tail _
  · rename_i partition batch observed
    refine .wal partition batch observed fun object here => ?_
    rw [here, Option.all_some, Bool.and_eq_true, decide_eq_true_iff, decide_eq_true_iff] at checked
    exact checked
  · exact .fence _ _
  · cases checked

end Bootstrap

def BootRun.Answered (run : BootRun) (event : BootstrapEvent) : Prop :=
  ∃ effect, run.step = .effect effect ∧ Bootstrap.Answers effect event

def BootRun.Conforms (run : BootRun) (event : BootstrapEvent) : Prop :=
  run.Answered event ∧ ∀ candidate observed, (.establishFence candidate, .fenceEstablished .durable) ∈ run.trace →
    run.step = .effect (.readWal candidate.object.partition candidate.object.batch) → event = .walRead (some observed) →
    observed = candidate.object

def BootRun.readsBack (run : BootRun) (event : BootstrapEvent) : Bool :=
  run.trace.all fun
    | (.establishFence candidate, .fenceEstablished .durable) =>
      match event with
      | .walRead (some observed) => !decide (run.step = .effect (.readWal candidate.object.partition candidate.object.batch)) ||
          decide (observed = candidate.object)
      | _ => true
    | _ => true

def BootRun.conforms (run : BootRun) (event : BootstrapEvent) : Bool :=
  match run.step with
  | .effect effect => Bootstrap.answers effect event && run.readsBack event
  | _ => false

theorem BootRun.conforms_sound (run : BootRun) (event : BootstrapEvent) (checked : run.conforms event = true) : run.Conforms event := by
  unfold conforms at checked
  split at checked
  · rename_i effect pending
    rw [Bool.and_eq_true] at checked
    refine ⟨⟨effect, pending, Bootstrap.answers_sound checked.1⟩, ?_⟩
    intro candidate observed established here read
    have same := List.all_eq_true.mp checked.2 _ established
    rw [read] at same
    simpa [here] using same
  · cases checked

def AnsweredRun (run : BootRun) : Prop :=
  Transition.ReachableWhere BootRun.answer BootRun.Answered BootRun.Starts run

def ConformingRun (run : BootRun) : Prop :=
  Transition.ReachableWhere BootRun.answer BootRun.Conforms BootRun.Starts run

theorem ConformingRun.checked (events : List BootstrapEvent) (run final : BootRun) (reached : ConformingRun run)
    (ran : Transition.runWhere BootRun.answer BootRun.conforms events run = some final) : ConformingRun final := by
  induction events generalizing run with
  | nil =>
    cases ran
    exact reached
  | cons event rest ih =>
    unfold Transition.runWhere at ran
    split at ran
    · rename_i passed
      obtain ⟨middle, stepped, ran⟩ := Option.bind_eq_some_iff.mp ran
      exact ih middle (.next run middle event reached (run.conforms_sound event passed) stepped) ran
    · cases ran

theorem ConformingRun.answered {run : BootRun} (reached : ConformingRun run) : AnsweredRun run := by
  induction reached with
  | start run initial => exact .start run initial
  | next run later event _ conforms stepped ih => exact .next run later event ih conforms.1 stepped

namespace Bootstrap

inductive Moves : BootstrapState → BootstrapEvent → Transition → Prop where
  | ends (state : BootstrapState) (event : BootstrapEvent) (failure : BootstrapExit) : Moves state event (exit failure)
  | headFound (partition : PartitionId) (generation : SealGeneration) :
      Moves (.discoveringHead partition) (.headObserved (some generation)) (effect (.readingSeal generation) (.readSeal generation))
  | headMissing (partition : PartitionId) (candidate : EncodedGenesisSeal) :
      Moves (.discoveringHead partition) (.headObserved none)
        (effect (.establishingGenesis partition) (.establishGenesis candidate))
  | genesisMade (partition : PartitionId) :
      Moves (.establishingGenesis partition) (.genesisEstablished .established)
        (effect (.readingSeal SealGeneration.genesis) (.readSeal SealGeneration.genesis))
  | genesisLost (partition : PartitionId) :
      Moves (.establishingGenesis partition) (.genesisEstablished .lostRace) (effect (.discoveringHead partition) .observeHead)
  | sealFound (source candidate : Seal) (sources : List PlannedTable) (encoded : EncodedAuthoritySeal)
      (planned : planBootstrapSources source = .ok sources) (claimed : source.claimSuccessor = .ok candidate)
      (same : encoded.sealed = candidate) :
      Moves (.readingSeal source.generation) (.sealRead (some source))
        (effect (.publishingClaim candidate sources) (.publishClaim encoded))
  | authored (candidate : Seal) (sources : List PlannedTable) :
      Moves (.publishingClaim candidate sources) (.claimPublished .authored)
        (readNextTable ⟨⟨⟨candidate.generation⟩, candidate⟩, sources, MergedRows.empty, none, none⟩)
  | tableMerged (load next : BaseLoad) (source : PlannedTable) (decoded : DecodedTable)
      (merged : mergeTable load source decoded = .ok (.ok next)) :
      Moves (.readingTable load source) (.tableRead source.table decoded) (readNextTable next)
  | tailListed (loaded : LoadedBootstrap) (occupied listed : Option BatchId) (candidate : BatchId)
      (planned : planFenceCandidate loaded.claimed.sealed.replay.batch listed = .ok candidate)
      (advances : ∀ batch, occupied = some batch → batch < candidate) :
      Moves (.observingWalTail loaded occupied) (.walTailObserved listed) (placeFence loaded listed candidate)
  | tailOlder (loaded : LoadedBootstrap) (fence : TakeoverFence) (tail : BatchId) (observed : WalObject)
      (older : observed.owner < loaded.claimed.claim.owner) :
      Moves (.readingWalTail loaded fence tail) (.walRead (some observed)) (establishFence loaded fence)
  | tailAnomaly (loaded : LoadedBootstrap) (fence : TakeoverFence) (tail : BatchId) (event : BootstrapEvent) (detail : String) :
      Moves (.readingWalTail loaded fence tail) event (refreshAnomaly loaded.claimed.claim detail)
  | fenceDurable (loaded : LoadedBootstrap) (fence : TakeoverFence) (next : BatchId)
      (starts : replayStart loaded.claimed.sealed.replay = .ok next) :
      Moves (.establishingFence loaded fence) (.fenceEstablished .durable)
        (effect (.replaying ⟨loaded, next, fence, loaded.claimed.sealed.replay.owner⟩)
          (.readWal loaded.claimed.sealed.partition next))
  | fenceOccupied (loaded : LoadedBootstrap) (fence : TakeoverFence) :
      Moves (.establishingFence loaded fence) (.fenceEstablished .occupied)
        (effect (.observingWalTail loaded (some fence.batch)) .observeWalTail)
  | replayed (replay changed : Replay) (observed : WalObject) (transition : Transition) (batch : replay.next = observed.batch)
      (partition : replay.loaded.claimed.sealed.partition = observed.partition)
      (fence : replay.next = replay.fence.batch → observed.body = .fence ∧ replay.loaded.claimed.claim.owner = observed.owner)
      (kept : replayObject replay observed = .ok (.ok changed)) (advanced : advanceReplay changed = .ok transition) :
      Moves (.replaying replay) (.walRead (some observed)) transition
  | replayAnomaly (replay : Replay) (event : BootstrapEvent) (detail : String) :
      Moves (.replaying replay) event (refreshAnomaly replay.loaded.claimed.claim detail)
  | completed (recovery : WriterRecovery) :
      Moves (.refreshingFinal recovery) (.headObserved (some recovery.claim.generation)) (complete recovery)

theorem handleFinalHead_moves (recovery : WriterRecovery) (observed : Option SealGeneration) :
    Moves (.refreshingFinal recovery) (.headObserved observed) (handleFinalHead recovery observed) := by
  cases observed with
  | none => exact .ends _ _ _
  | some generation =>
    rw [handleFinalHead]
    split
    · rename_i same
      rw [same]
      exact .completed recovery
    · split <;> exact .ends _ _ _

theorem handleAnomalyHead_moves (claim : AuthoredClaim) (detail : String) (observed : Option SealGeneration) :
    Moves (.refreshingAnomaly claim detail) (.headObserved observed) (handleAnomalyHead claim detail observed) := by
  cases observed with
  | none => exact .ends _ _ _
  | some generation =>
    rw [handleAnomalyHead]
    split
    · exact .ends _ _ _
    · split <;> exact .ends _ _ _

theorem handleHead_moves (observed : Option SealGeneration) (transition : Transition)
    (handled : handleHead state observed = .ok transition) : Moves state (.headObserved observed) transition := by
  cases state with
  | discoveringHead partition =>
    cases observed with
    | some generation =>
      cases handled
      exact .headFound partition generation
    | none =>
      obtain ⟨genesis, _, handled⟩ := bind_ok handled
      split at handled <;> cases handled
      · exact .headMissing partition _
      · exact .ends _ _ _
  | refreshingAnomaly claim detail =>
    cases handled
    exact handleAnomalyHead_moves claim detail observed
  | refreshingFinal recovery =>
    cases handled
    exact handleFinalHead_moves recovery observed
  | _ => cases handled

theorem handleGenesis_moves (establishment : GenesisEstablishment) (transition : Transition)
    (handled : handleGenesis state establishment = .ok transition) : Moves state (.genesisEstablished establishment) transition := by
  cases state with
  | establishingGenesis partition =>
    cases establishment <;> cases handled
    · exact .genesisMade partition
    · exact .genesisLost partition
    · exact .ends _ _ _
  | _ => cases handled

theorem handleSeal_moves (observed : Option Seal) (transition : Transition)
    (handled : handleSeal state observed = .ok transition) : Moves state (.sealRead observed) transition := by
  cases state with
  | readingSeal generation =>
    cases observed with
    | none =>
      cases handled
      exact .ends _ _ _
    | some source =>
      obtain ⟨_, same, chosen⟩ := bind_ok handled
      obtain rfl := (require_ok_iff _ _ _).mp same
      split at chosen
      · cases chosen
        exact .ends _ _ _
      rename_i sources planned
      split at chosen
      · cases chosen
        exact .ends _ _ _
      rename_i candidate claimed
      split at chosen
      · rename_i encoded done
        cases chosen
        exact .sealFound source candidate sources encoded planned claimed ((EncodedAuthoritySeal.tryFrom_ok_iff _ _).mp done)
      · cases chosen
        exact .ends _ _ _
  | _ => cases handled

theorem handleClaim_moves (publication : SealPublication) (transition : Transition)
    (handled : handleClaim state publication = .ok transition) : Moves state (.claimPublished publication) transition := by
  cases state with
  | publishingClaim candidate sources =>
    cases publication <;> cases handled
    · exact .authored candidate sources
    · exact .ends _ _ _
    · exact .ends _ _ _
  | _ => cases handled

theorem handleTable_moves (table : TableRef) (decoded : DecodedTable) (transition : Transition)
    (handled : handleTable state table decoded = .ok transition) : Moves state (.tableRead table decoded) transition := by
  cases state with
  | readingTable load source =>
    obtain ⟨_, same, read⟩ := bind_ok handled
    obtain rfl := (require_ok_iff _ _ _).mp same
    obtain ⟨outcome, merged, chosen⟩ := bind_ok read
    cases outcome <;> cases chosen
    · exact .ends _ _ _
    · exact .tableMerged load _ source decoded merged
  | _ => cases handled

theorem handleWalTail_moves (listed : Option BatchId) (transition : Transition)
    (handled : handleWalTail state listed = .ok transition) : Moves state (.walTailObserved listed) transition := by
  cases state with
  | observingWalTail loaded occupied =>
    rw [handleWalTail] at handled
    split at handled
    · cases handled
      exact .ends _ _ _
    rename_i candidate planned
    cases occupied with
    | none =>
      cases handled
      exact .tailListed loaded none listed candidate planned (by simp)
    | some batch =>
      simp only at handled
      split at handled
      · cases handled
        exact .ends _ _ _
      · rename_i advances
        cases handled
        refine .tailListed loaded (some batch) listed candidate planned ?_
        simpa [BatchId.le_iff, BatchId.lt_iff] using advances
  | _ => cases handled

theorem handleFence_moves (establishment : WalEstablishment) (transition : Transition)
    (handled : handleFence state establishment = .ok transition) : Moves state (.fenceEstablished establishment) transition := by
  cases state with
  | establishingFence loaded fence =>
    cases establishment with
    | durable =>
      rw [handleFence] at handled
      split at handled <;> cases handled
      · exact .ends _ _ _
      · rename_i next starts
        exact .fenceDurable loaded fence next starts
    | occupied =>
      cases handled
      exact .fenceOccupied loaded fence
    | unresolvedAbsent =>
      cases handled
      exact .ends _ _ _
  | _ => cases handled

theorem handleTailRead_moves {loaded : LoadedBootstrap} {fence : TakeoverFence} {tail : BatchId} {observed : Option WalObject}
    {transition : Transition} (handled : handleTailRead loaded fence tail observed = .ok transition) :
    Moves (.readingWalTail loaded fence tail) (.walRead observed) transition := by
  cases observed with
  | none =>
    cases handled
    exact .ends _ _ _
  | some object =>
    obtain ⟨_, _, checked⟩ := bind_ok handled
    obtain ⟨_, _, chosen⟩ := bind_ok checked
    split at chosen <;> cases chosen
    · exact .tailAnomaly loaded fence tail _ _
    · rename_i older
      refine .tailOlder loaded fence tail object ?_
      exact Nat.lt_of_not_le older

theorem handleReplayRead_moves {replay : Replay} {observed : Option WalObject} {transition : Transition}
    (handled : handleReplayRead replay observed = .ok transition) : Moves (.replaying replay) (.walRead observed) transition := by
  cases observed with
  | none =>
    cases handled
    exact .replayAnomaly replay _ _
  | some object =>
    obtain ⟨_, batch, handled⟩ := bind_ok handled
    obtain ⟨_, partition, handled⟩ := bind_ok handled
    obtain ⟨_, body, handled⟩ := bind_ok handled
    obtain ⟨_, owner, handled⟩ := bind_ok handled
    obtain ⟨outcome, kept, handled⟩ := bind_ok handled
    rw [require_ok_iff] at batch partition body owner
    cases outcome with
    | error detail =>
      cases handled
      exact .replayAnomaly replay _ _
    | ok changed => exact .replayed replay changed object transition batch partition (fun last => ⟨body last, owner last⟩) kept handled

theorem handleStoreFailure_moves (error : TypedStoreError) (transition : Transition)
    (handled : handleStoreFailure state error = .ok transition) : Moves state (.storeFailed error) transition := by
  unfold handleStoreFailure at handled
  split at handled <;> cases handled
  · exact .tailAnomaly _ _ _ _ _
  · exact .replayAnomaly _ _ _
  · exact .ends _ _ _

theorem handle_moves (event : BootstrapEvent) (transition : Transition) (running : state ≠ .initial)
    (handled : handle state event = .ok transition) : Moves state event transition := by
  cases event with
  | started partition =>
    obtain ⟨_, first, _⟩ := bind_ok handled
    exact absurd ((require_ok_iff _ _ _).mp first) running
  | headObserved observed => exact handleHead_moves state observed transition handled
  | genesisEstablished establishment => exact handleGenesis_moves state establishment transition handled
  | sealRead observed => exact handleSeal_moves state observed transition handled
  | claimPublished publication => exact handleClaim_moves state publication transition handled
  | tableRead table decoded => exact handleTable_moves state table decoded transition handled
  | walTailObserved listed => exact handleWalTail_moves state listed transition handled
  | walRead observed =>
    cases state with
    | readingWalTail loaded fence tail => exact handleTailRead_moves handled
    | replaying replay => exact handleReplayRead_moves handled
    | _ => cases handled
  | fenceEstablished establishment => exact handleFence_moves state establishment transition handled
  | storeFailed error => exact handleStoreFailure_moves state error transition handled

end Bootstrap

end StromDB
