import StromDB.Properties.Answers
import StromDB.Properties.Store

namespace StromDB

theorem Log.mem_unshed [Rkyv] (recent earlier : List Entry) (input : CheckpointInput) (quiet : ∀ entry ∈ recent, entry.sheds = false) :
    input ∈ Log.unshed (recent ++ .emitted (.effect (.prepareCheckpoint input)) :: earlier) := by
  induction recent with
  | nil => simp
  | cons entry rest ih =>
    have here := quiet entry List.mem_cons_self
    rw [List.cons_append, Log.unshed, here, if_neg Bool.false_ne_true]
    exact List.mem_append_left _ (ih fun other member => quiet other (List.mem_cons_of_mem _ member))

section

variable [Rkyv] [OrdMap.Differ] (sys : System) (recovery : WriterRecovery) (completes : Completes sys recovery) (s : Session)
  (reached : ReachableSession recovery s)

include completes reached

theorem shedding_checkpoints (now : Instant) (event : WriterEvent) (later : Session)
    (stepped : Session.step (now, event) s = some later)
    (sheds : Log.sheds later.log = true) (below : s.machine.nextBatch.get < 2 ^ 64 - 1) :
    ∃ ticket, later.machine.checkpoint = some (.preparing ticket) ∨
      ∃ checkpoint, later.machine.checkpoint = some (.publishing ticket checkpoint) := by
  obtain ⟨_, held, rest, _, shedding⟩ := overloaded_step sys recovery completes s reached now event later stepped sheds
  cases marked : later.machine.checkpoint with
  | some marker =>
    cases marker with
    | preparing ticket => exact ⟨ticket, .inl rfl⟩
    | publishing ticket checkpoint => exact ⟨ticket, .inr ⟨checkpoint, rfl⟩⟩
    | cancelling ticket =>
      have closed := held.slots.closing ticket marked
      rw [shedding.opened] at closed
      cases closed
  | none =>
    exfalso
    have logged : later.log ≠ [] := by
      intro empty
      rw [empty] at sheds
      cases sheds
    have span : later.machine.sealed.replay.cut + WAL_SUFFIX_CHECKPOINT_SPAN_TRIGGER ≤ later.machine.durableBatch.get := by
      have full : ¬ (s.machine.nextBatch.get + 1 ≤ s.machine.sealed.replay.cut + WAL_SUFFIX_COORDINATES_MAX_V2) := by
        intro room
        have fits := (runLeavesTakeoverRoom_iff s.machine.sealed.replay.batch s.machine.nextBatch).mpr
          ⟨by omega, by rw [cutNumber_batch]; exact shedding.above, by rw [cutNumber_batch]; exact room⟩
        rw [shedding.full] at fits
        cases fits
      have next := shedding.next
      have trigger : WAL_SUFFIX_CHECKPOINT_SPAN_TRIGGER + 2 ≤ WAL_SUFFIX_COORDINATES_MAX_V2 := by decide
      rw [shedding.sealed, shedding.durable]
      omega
    rcases rest.settled logged shedding.opened marked with short | ⟨_, retry⟩
    · omega
    · exact retry (shedding.retry marked)

theorem checkpoint_attempts_paced :
    (∀ now event later, Session.step (now, event) s = some later → Log.sheds later.log = true →
      s.machine.nextBatch.get < 2 ^ 64 - 1 → later.machine.ingressOpen = true →
      ∃ ticket, later.machine.checkpoint = some (.preparing ticket) ∨
        ∃ checkpoint, later.machine.checkpoint = some (.publishing ticket checkpoint)) ∧
    (∀ newer second recent first earlier,
      s.log = newer ++ .emitted (.effect (.prepareCheckpoint second)) ::
        (recent ++ .emitted (.effect (.prepareCheckpoint first)) :: earlier) →
      first.ticket.cut = second.ticket.cut →
      ∃ replies, .emitted (.action (.sendReplies replies)) ∈ recent ∧ ∃ completion ∈ replies, completion.overloaded = true) ∧
    (Log.exit s.log = none → s.log ≠ [] → s.machine.ingressOpen = true → s.machine.checkpoint = none →
      s.machine.durableBatch.get < s.machine.sealed.replay.cut + WAL_SUFFIX_CHECKPOINT_SPAN_TRIGGER ∨
      ∃ input ∈ Log.attempts s.log, input.ticket.cut = s.machine.durableBatch ∧ Log.abandoned input.ticket s.log = true) := by
  refine ⟨?_, ?_, ?_⟩
  · intro now event later stepped sheds below _
    exact shedding_checkpoints sys recovery completes s reached now event later stepped sheds below
  · intro newer second recent first earlier split same
    obtain ⟨last, held, accounts, finished⟩ := completes.last s reached
    have spaced : Log.Every Spaced s.log := by
      refine finished.every _ (by simp [Spaced]) ?_ accounts.attempts.spaced
      simp [Spaced]
    rw [split] at spaced
    have apart := Log.Every.older _ newer _ _ spaced second (by simp) first
    by_contra none
    refine apart (Log.mem_unshed recent earlier first fun entry member => ?_) same
    rw [← Bool.not_eq_true]
    intro sheds
    apply none
    cases entry with
    | observed now event machine | exited exit => cases sheds
    | emitted output =>
      cases output with
      | effect effect => cases sheds
      | action action =>
        cases action with
        | sendReplies replies =>
          obtain ⟨completion, found, overloaded⟩ := List.any_eq_true.mp sheds
          exact ⟨replies, member, completion, found, overloaded⟩
        | armFlush deadline | publishView forest | cancelCheckpointPreparation ticket => cases sheds
  · intro going logged opened idle
    obtain ⟨held, rest, accounts⟩ := completes.running s reached going
    rcases rest.settled logged opened idle with short | ⟨attempted, _⟩
    · exact .inl short
    · obtain ⟨input, member, cut, outcome⟩ := accounts.attempts.last _ attempted
      rcases outcome with active | closed | abandoned | published
      · rw [idle] at active
        cases active
      · rw [opened] at closed
        cases closed
      · exact .inr ⟨input, member, cut, abandoned⟩
      · have trigger : 0 < WAL_SUFFIX_CHECKPOINT_SPAN_TRIGGER := by decide
        rw [published, cut]
        omega

end

attribute [local instance] plainRkyv OrdMap.exactDiffer

-- The recovery after n further takeovers of the opened partition, none of which
-- wrote or checkpointed.
def spanning (n : Nat) (short : n < 1023) : WriterRecovery :=
  let generation : SealGeneration := ⟨⟨n + 3, Nat.succ_pos _, by omega⟩⟩
  ⟨⟨generation⟩, { openedRecovery.sealed with generation }, Forest.empty, Forest.empty, ⟨⟨n + 2, Nat.succ_pos _, by omega⟩⟩⟩

theorem spanning_completes (n : Nat) (short : n < 1023) : ∃ sys, Completes sys (spanning n short) := by
  have epoch := opened_epoch
  have second : openedRecovery.sealed.generation.get = 2 := by decide +kernel
  have empty : openedRecovery.durable = Forest.empty := by decide +kernel
  obtain ⟨sys, recovery, leads, taken, _, renewed, place, folds⟩ := takeovers n openedSystem openedRecovery.sealed 1 1 epoch.standing
    epoch.idle (by omega) (by omega) (by simp only [WAL_SUFFIX_COORDINATES_MAX_V2]; omega)
  have recovered : sys.view.Recovered _ recovery := (taken.reached.ok sys).history _ taken.completed
  have base : recovery.base = Forest.empty := by
    refine View.FoldIs.unique recovered.base ?_
    rw [← empty, renewed.2]
    exact epoch.base.extend leads.extends
  have durable : recovery.durable = Forest.empty := by
    refine View.FoldIs.unique recovered.durable ?_
    rw [place, ← empty]
    exact folds _ epoch.folded
  have same : recovery = spanning n short := by
    have number := recovered.claimed.same
    have generation : recovery.sealed.generation = ⟨⟨n + 3, Nat.succ_pos _, by omega⟩⟩ :=
      SealGeneration.get_injective _ _ (by rw [renewed.1, second]; simp only [SealGeneration.get]; omega)
    have batch : recovery.durableBatch = ⟨⟨n + 2, Nat.succ_pos _, by omega⟩⟩ :=
      BatchId.get_injective _ _ (by rw [place]; simp only [BatchId.get]; omega)
    have copied := renewed.2
    rw [generation] at number copied
    calc recovery = ⟨⟨recovery.claim.generation⟩, recovery.sealed, recovery.base, recovery.durable, recovery.durableBatch⟩ := rfl
      _ = spanning n short := by
        rw [number, copied, base, durable, batch]
        rfl
  exact ⟨sys, taken.reached, _, same ▸ taken.completed⟩

def crowdedRecovery : WriterRecovery := spanning 1021 (by decide)

def crowdedTicket (attempt : Nat) : CheckpointTicket :=
  ⟨crowdedRecovery.sealed.generation, crowdedRecovery.durableBatch, ⟨crowdedRecovery.claim.generation, attempt⟩⟩

def crowdedInput (attempt : Nat) : CheckpointInput :=
  ⟨crowdedTicket attempt, crowdedRecovery.sealed, Forest.empty, Forest.empty⟩

theorem crowded_starts : (WriterMachine.fromRecovery crowdedRecovery 10 1000).toOption.isSome = true := by decide +kernel

def refusing : Option Session :=
  Transition.run Session.step [(0, .started), (1, .checkpointPrepared (crowdedTicket 0) .abandoned)]
    (Session.launch crowdedRecovery crowded_starts)

theorem refusing_isSome : refusing.isSome = true := by decide +kernel

def refusedSession : Session := refusing.get refusing_isSome

theorem refused_reached : ReachableSession crowdedRecovery refusedSession :=
  Transition.Reachable.run _ _ _ (launch_reached _ _) (Option.some_get refusing_isSome).symm

theorem shedding_isSome : (Session.step (2, .command sampleCreate) refusedSession).isSome = true := by decide +kernel

def shedSession : Session := (Session.step (2, .command sampleCreate) refusedSession).get shedding_isSome

theorem shed_step : Session.step (2, .command sampleCreate) refusedSession = some shedSession := (Option.some_get _).symm

theorem shed_reached : ReachableSession crowdedRecovery shedSession := refused_reached.after _ _ _ shed_step

-- The first attempt is refused; the writer then waits, sheds a command and
-- tries the same cut again.
theorem checkpoint_attempts_paced_crowded :
    (Log.sheds shedSession.log = true ∧ ∃ ticket, shedSession.machine.checkpoint = some (.preparing ticket) ∨
      ∃ checkpoint, shedSession.machine.checkpoint = some (.publishing ticket checkpoint)) ∧
    (∃ recent earlier, shedSession.log = .emitted (.effect (.prepareCheckpoint (crowdedInput 1))) ::
        (recent ++ .emitted (.effect (.prepareCheckpoint (crowdedInput 0))) :: earlier) ∧
      ∃ replies, .emitted (.action (.sendReplies replies)) ∈ recent ∧ ∃ completion ∈ replies, completion.overloaded = true) ∧
    refusedSession.machine.sealed.replay.cut + WAL_SUFFIX_CHECKPOINT_SPAN_TRIGGER ≤ refusedSession.machine.durableBatch.get ∧
    ∃ input ∈ Log.attempts refusedSession.log, input.ticket.cut = refusedSession.machine.durableBatch ∧
      Log.abandoned input.ticket refusedSession.log = true := by
  obtain ⟨sys, completes⟩ := spanning_completes 1021 (by decide)
  obtain ⟨drives, _, idles⟩ := checkpoint_attempts_paced sys crowdedRecovery completes refusedSession refused_reached
  have spaced := (checkpoint_attempts_paced sys crowdedRecovery completes shedSession shed_reached).2.1
  have sheds : Log.sheds shedSession.log = true := by decide +kernel
  have split : shedSession.log = [] ++ .emitted (.effect (.prepareCheckpoint (crowdedInput 1))) ::
      ((shedSession.log.drop 1).take 3 ++ .emitted (.effect (.prepareCheckpoint (crowdedInput 0))) :: shedSession.log.drop 5) := by
    decide +kernel
  have span : refusedSession.machine.sealed.replay.cut + WAL_SUFFIX_CHECKPOINT_SPAN_TRIGGER ≤
      refusedSession.machine.durableBatch.get := by decide +kernel
  refine ⟨⟨sheds, drives 2 _ shedSession shed_step sheds (by decide +kernel) (by decide +kernel)⟩,
    ⟨_, _, split, spaced _ _ _ _ _ split rfl⟩, span, ?_⟩
  exact (idles (by decide +kernel) (by decide +kernel) (by decide +kernel) (by decide +kernel)).resolve_left (by omega)

theorem boundTakeoverFence_after_run {cut : Option BatchId} {run fence : BatchId} (within : cutNumber cut ≤ run.get)
    (fits : run.get + 1 ≤ cutNumber cut + WAL_SUFFIX_COORDINATES_MAX_V2) (follows : fence.get = run.get + 1) :
    (∃ bound, boundTakeoverFence cut fence = .ok bound) ↔ run.get + 2 ≠ 2 ^ 64 := by
  constructor
  · rintro ⟨bound, accepted⟩
    have room := (boundTakeoverFence_ok_iff.mp accepted).2.1
    omega
  · intro spared
    have bounded := fence.bounded
    have last : fence.get + 1 < 2 ^ 64 := by omega
    refine ⟨⟨fence, last⟩, boundTakeoverFence_ok_iff.mpr ⟨rfl, ?_, ?_, ?_⟩⟩ <;> omega

theorem admitted_run_leaves_takeover_room [Rkyv] [OrdMap.Differ] (run : BatchId) (later : Option BatchId)
    (within : cutNumber later ≤ run.get) (fence : BatchId) (follows : fence.get = run.get + 1) :
    (∀ cut, runLeavesTakeoverRoom cut run = true → cutNumber cut ≤ cutNumber later →
      ((∃ bound, boundTakeoverFence later fence = .ok bound) ↔ run.get + 2 ≠ 2 ^ 64)) ∧
    ∀ sys recovery, Completes sys recovery → ∀ s, ReachableSession recovery s → (∃ object ∈ Log.runs s.log, object.batch = run) →
      s.machine.sealed.replay.cut ≤ cutNumber later →
      ((∃ bound, boundTakeoverFence later fence = .ok bound) ↔ run.get + 2 ≠ 2 ^ 64) := by
  constructor
  · intro cut admitted above
    have fits := ((runLeavesTakeoverRoom_iff cut run).mp admitted).2.2
    exact boundTakeoverFence_after_run within (by omega) follows
  · rintro sys recovery completes s reached ⟨object, member, rfl⟩ above
    obtain ⟨last, held, accounts, finished⟩ := completes.last s reached
    obtain ⟨flight, checkpoint, machine⟩ := finished.machine
    have fits := accounts.roomy.runs object (finished.runs ▸ member)
    rw [machine] at above
    simp only at above
    exact boundTakeoverFence_after_run within (by omega) follows

theorem admitted_run_leaves_takeover_room_sending : (∃ object ∈ Log.runs sendingSession.log, object.batch = ⟨.two⟩) ∧
    runLeavesTakeoverRoom none ⟨.two⟩ = true ∧ ∃ bound, boundTakeoverFence (some ⟨.min⟩) ⟨.three⟩ = .ok bound := by
  have sent : ∃ object ∈ Log.runs sendingSession.log, object.batch = ⟨.two⟩ := by decide +kernel
  have room := admitted_run_leaves_takeover_room ⟨.two⟩ (some ⟨.min⟩) (by decide) ⟨.three⟩ (by decide)
  exact ⟨sent, by decide, (room.2 _ _ opened_completes sendingSession sending_reached sent (by decide +kernel)).mpr (by decide)⟩

-- The RUN before the last coordinate is admitted, and no FENCE can follow it.
theorem last_admitted_run_blocks_takeover :
    runLeavesTakeoverRoom (some ⟨⟨2 ^ 64 - 3, by decide, by decide⟩⟩) ⟨⟨2 ^ 64 - 2, by decide, by decide⟩⟩ = true ∧
    boundTakeoverFence (some ⟨⟨2 ^ 64 - 3, by decide, by decide⟩⟩) ⟨⟨2 ^ 64 - 1, by decide, by decide⟩⟩ = .error .noRunCoordinate := by
  decide

end StromDB
