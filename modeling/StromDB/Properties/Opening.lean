import StromDB.Opening.Bounds
import StromDB.Properties.Loading

namespace StromDB

theorem completion_has_evidence [Rkyv] (run : BootRun) (reached : AnsweredRun run) (recovery : WriterRecovery)
    (completed : run.step = .complete recovery) :
    ∃ source sources rows candidate fence objects discovery rounds,
      Bootstrap.Completed recovery run.trace.reverse source sources rows candidate fence objects discovery rounds := by
  have evident := reached.evident
  rw [BootRun.Evident, completed] at evident
  obtain ⟨earlier, final, trace⟩ := evident
  rw [trace]
  exact final.completed

attribute [local instance] plainRkyv

def firstOpening : BootRun := ⟨.discoveringHead firstPartition, .effect .observeHead, []⟩

theorem firstOpening_starts : firstOpening.Starts := ⟨firstPartition, rfl, rfl⟩

def genesisSource : Seal := ⟨firstPartition, SealGeneration.genesis, .genesis, TreeVersion.empty, TreeVersion.empty⟩

def olderFence : WalObject := ⟨firstPartition, firstBatch, ⟨SealGeneration.genesis⟩, .fence⟩

def secondBatch : BatchId := ⟨.two⟩

def secondGeneration : SealGeneration := ⟨.two⟩

def newerFence : WalObject := ⟨firstPartition, secondBatch, ⟨secondGeneration⟩, .fence⟩

def claimCompletions : List BootstrapEvent :=
  [.headObserved (some SealGeneration.genesis), .sealRead (some genesisSource), .claimPublished .authored]

def replayCompletions : List BootstrapEvent :=
  [.walTailObserved (some firstBatch), .walRead (some olderFence), .fenceEstablished .durable, .walRead (some olderFence),
    .walRead (some newerFence), .headObserved (some secondGeneration)]

def claimedRun? : Option BootRun := Transition.runWhere BootRun.answer BootRun.conforms claimCompletions firstOpening

theorem claimedRun_isSome : claimedRun?.isSome = true := by decide +kernel

def claimedRun : BootRun := claimedRun?.get claimedRun_isSome

theorem claimedRun_conforms : ConformingRun claimedRun :=
  ConformingRun.checked claimCompletions firstOpening claimedRun (.start _ firstOpening_starts) (Option.some_get _).symm

def completedRun? : Option BootRun := Transition.runWhere BootRun.answer BootRun.conforms replayCompletions claimedRun

theorem completedRun_isSome : completedRun?.isSome = true := by decide +kernel

def completedRun : BootRun := completedRun?.get completedRun_isSome

theorem completedRun_conforms : ConformingRun completedRun :=
  ConformingRun.checked replayCompletions claimedRun completedRun claimedRun_conforms (Option.some_get _).symm

def secondRecovery : WriterRecovery :=
  ⟨⟨secondGeneration⟩, { genesisSource with generation := secondGeneration }, Forest.empty, Forest.empty, secondBatch⟩

theorem completedRun_step : completedRun.step = .complete secondRecovery := by decide +kernel

def carriedRun : WalObject :=
  ⟨firstPartition, secondBatch, ⟨⟨.two⟩⟩,
    .run ⟨[.streamCreated ⟨"d", by decide +kernel⟩ ⟨.two⟩ .octetStream .none .opened], by decide, by decide⟩⟩

def layeredFence : WalObject := ⟨firstPartition, ⟨.three⟩, ⟨⟨.four⟩⟩, .fence⟩

def layeredCompletions : List BootstrapEvent :=
  [.headObserved (some ⟨.three⟩), .sealRead (some layeredSeal), .claimPublished .authored] ++
    (Bootstrap.treeSources layeredSeal.directory ++ Bootstrap.treeSources layeredSeal.ledger).map
      (fun planned => .tableRead planned.table (layeredRows.decoded planned.table)) ++
    [.walTailObserved (some secondBatch), .walRead (some carriedRun), .fenceEstablished .durable, .walRead (some carriedRun),
      .walRead (some layeredFence), .headObserved (some ⟨.four⟩)]

def layeredRun? : Option BootRun := Transition.runWhere BootRun.answer BootRun.conforms layeredCompletions firstOpening

theorem layeredRun_isSome : layeredRun?.isSome = true := by decide +kernel

def layeredRun : BootRun := layeredRun?.get layeredRun_isSome

theorem layeredRun_conforms : ConformingRun layeredRun :=
  ConformingRun.checked layeredCompletions firstOpening layeredRun (.start _ firstOpening_starts) (Option.some_get _).symm

def BootRun.recovery (run : BootRun) : Option WriterRecovery :=
  match run.step with
  | .complete recovery => some recovery
  | _ => none

theorem layeredRun_recovers : layeredRun.recovery.isSome = true := by decide +kernel

def layeredRecovery : WriterRecovery := layeredRun.recovery.get layeredRun_recovers

theorem layeredRun_step : layeredRun.step = .complete layeredRecovery := by decide +kernel

theorem completion_has_evidence_layered : layeredRecovery.base.pathCount = 1 ∧ layeredRecovery.durable.pathCount = 2 ∧
    (layeredRun.trace.map Prod.fst).count (.readTable firstPartition (layeredTable .directory 0)) = 1 ∧
    (.readWal firstPartition secondBatch, .walRead (some carriedRun)) ∈ layeredRun.trace ∧
    ∃ source sources rows candidate fence objects discovery rounds,
      Bootstrap.Completed layeredRecovery layeredRun.trace.reverse source sources rows candidate fence objects discovery rounds :=
  ⟨by decide +kernel, by decide +kernel, by decide +kernel, by decide +kernel,
    completion_has_evidence layeredRun (layeredRun_conforms.answered) layeredRecovery layeredRun_step⟩

theorem tail_read_twice : AnsweredRun completedRun ∧ completedRun.step = .complete secondRecovery ∧
    secondRecovery.sealed.replay.cut < firstBatch.get ∧ firstBatch.get ≤ secondRecovery.durableBatch.get ∧
    (completedRun.trace.map Prod.fst).count (.readWal firstPartition firstBatch) = 2 :=
  ⟨completedRun_conforms.answered, completedRun_step, by decide, by decide, by decide +kernel⟩

theorem bootstrap_never_panics [Rkyv] (run : BootRun) (reached : ConformingRun run) :
    (∀ event, run.Conforms event → ∃ state step, Bootstrap.handle run.state event = .ok (state, step)) ∧
    ∀ recovery, run.step = .complete recovery → ∀ flushIntervalMin flushBufferBytes, 1 ≤ flushBufferBytes →
      flushBufferBytes ≤ WAL_ENCODED_BYTES_MAX →
      ∃ machine, WriterMachine.fromRecovery recovery flushIntervalMin flushBufferBytes = .ok machine := by
  have evident := (reached.answered).evident
  constructor
  · intro event conforms
    obtain ⟨next, stepped⟩ := run.answer_total evident event conforms
    obtain ⟨effect, pending, _⟩ := run.answer_trace next event stepped
    rw [BootRun.answer, pending] at stepped
    simp only at stepped
    split at stepped
    · rename_i state step handled
      exact ⟨state, step, handled⟩
    · cases stepped
  · intro recovery completed flushIntervalMin flushBufferBytes positive fits
    rw [BootRun.Evident, completed] at evident
    obtain ⟨_, ⟨_, _, _, _, ⟨_, _, _, _, _, ⟨_, _, _, _, placed, read, _⟩, _⟩, _⟩, _⟩ := evident
    obtain ⟨_, _, _, load, tables, same, _⟩ := read
    have named := tables.claims.same
    rw [same] at named
    exact WriterMachine.fromRecovery_ok named (Nat.le_of_lt placed.above) placed.room flushIntervalMin flushBufferBytes
      positive fits

theorem bootstrap_never_panics_second : ∃ machine, WriterMachine.fromRecovery secondRecovery 0 WAL_ENCODED_BYTES_MAX = .ok machine :=
  (bootstrap_never_panics completedRun completedRun_conforms).2 secondRecovery completedRun_step 0 WAL_ENCODED_BYTES_MAX
    (by decide) (Nat.le_refl _)

theorem bootstrap_terminates [Rkyv] (run : BootRun) (reached : AnsweredRun run) (authored : run.Authored) :
    (∃ source claimed before tables rounds replay heads, run.trace = run.sinceClaim ++ before ∧
      Bootstrap.ClaimTrace source claimed before ∧
      Bootstrap.Bounded source.replay.cut run.issued tables rounds replay heads ∧ run.issued.length ≤ 5123) ∧
    (ConformingRun run → ∀ respond : BootRun → BootstrapEvent,
      (∀ later, ConformingRun later → ¬ later.Stopped → later.Conforms (respond later)) →
      ∃ final, run.advance respond 5123 = some final ∧ ConformingRun final ∧ final.Stopped) := by
  constructor
  · obtain ⟨source, claimed, before, split, claim, tables, rounds, replay, heads, bounded⟩ :=
      (reached.evident.after run authored).split
    exact ⟨source, claimed, before, tables, rounds, replay, heads, split, claim, bounded, bounded.length_le⟩
  · intro conforming respond conforms
    obtain ⟨final, ran, arrived, kept, ended⟩ := BootRun.advance_counts conforms 5123 run conforming authored
    refine ⟨final, ran, arrived, ?_⟩
    rcases ended with stopped | counted
    · exact stopped
    · obtain ⟨_, _, _, _, _, issued⟩ := ((arrived.answered).evident.after final kept).split
      have short := issued.length_le
      rw [List.length_append, List.length_map, counted] at short
      exact List.length_eq_zero_iff.mp (by omega)

def emptyStore (run : BootRun) : BootstrapEvent :=
  match run.step with
  | .effect .observeHead => .headObserved none
  | .effect (.establishGenesis _) => .genesisEstablished .lostRace
  | .effect (.readSeal _) => .sealRead none
  | .effect (.publishClaim _) => .claimPublished .noAuthority
  | .effect .observeWalTail => .walTailObserved none
  | .effect (.readWal _ _) => .walRead none
  | .effect (.establishFence _) => .fenceEstablished .occupied
  | _ => .storeFailed (.retryable "absent")

theorem emptyStore_conforms {run : BootRun} (running : ¬ run.Stopped) : run.Conforms (emptyStore run) := by
  obtain ⟨state, step, trace⟩ := run
  cases step with
  | effect effect =>
    refine ⟨⟨effect, rfl, ?_⟩, ?_⟩
    · cases effect with
      | observeHead => exact .head _
      | establishGenesis candidate => exact .genesis _ _
      | readSeal generation => exact .source _ _ (by simp)
      | publishClaim candidate => exact .claim _ _
      | readTable partition table => exact .failed _ _
      | observeWalTail => exact .tail _
      | readWal partition batch => exact .wal _ _ _ (by simp)
      | establishFence candidate => exact .fence _ _
    · intro candidate observed _ _ read
      cases effect <;> cases read
  | _ => exact absurd rfl running

theorem bootstrap_terminates_claimed : claimedRun.Authored ∧ claimedRun.issued.length ≤ 5123 ∧
    ∃ final, claimedRun.advance emptyStore 5123 = some final ∧ ConformingRun final ∧ final.Stopped := by
  have claimed : claimedRun.Authored := by decide +kernel
  obtain ⟨⟨_, _, _, _, _, _, _, _, _, _, short⟩, ends⟩ :=
    bootstrap_terminates claimedRun (claimedRun_conforms.answered) claimed
  exact ⟨claimed, short, ends claimedRun_conforms emptyStore fun later _ => emptyStore_conforms⟩

end StromDB
