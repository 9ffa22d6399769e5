import StromDB.Refinement.Schedule
import StromDB.Session.Run

namespace StromDB

open Checked PendingBarrier

variable [Rkyv]

namespace WriterMachine

structure Resting (machine : WriterMachine) : Prop where
  started : machine.started = true
  opened : machine.ingressOpen = true
  empty : machine.pending = new
  landed : machine.flight = none
  first : machine.lastFlushStartedAt = none

structure Short (machine : WriterMachine) : Prop where
  cut : machine.sealed.replay.cut ≤ machine.durableBatch.get
  span : machine.durableBatch.get < machine.sealed.replay.cut + WAL_SUFFIX_CHECKPOINT_SPAN_TRIGGER

section

variable (machine : WriterMachine) (now : Instant)

theorem scheduleFlush_empty (empty : machine.pending = new) : machine.scheduleFlush now = .ok (machine, []) := by
  rw [scheduleFlush, if_neg]
  · rfl
  · rw [empty]
    simp [isEmpty, new]

theorem scheduleCheckpoint_short (opened : machine.ingressOpen = true) (short : machine.Short) :
    machine.scheduleCheckpoint = .ok (machine, [], none) := by
  have spanned := (spanThrough_eq_some_iff machine.sealed.replay.batch machine.durableBatch
    (machine.durableBatch.get - machine.sealed.replay.cut)).mpr (by rw [cutNumber_batch]; have := short.cut; omega)
  have few : machine.durableBatch.get - machine.sealed.replay.cut < WAL_SUFFIX_CHECKPOINT_SPAN_TRIGGER := by
    have := short.cut
    have := short.span
    omega
  have taken : machine.takeCheckpoint = .ok (machine, none) := by
    unfold takeCheckpoint
    split
    · rfl
    · rw [spanned]
      simp only [expect, ok_bind, if_pos few]
      rfl
  simp only [scheduleCheckpoint, opened, if_true, taken, ok_bind]
  rfl

theorem scheduleCheckpoint_busy (opened : machine.ingressOpen = true) (marker : CheckpointMarker)
    (busy : machine.checkpoint = some marker) : machine.scheduleCheckpoint = .ok (machine, [], none) := by
  have taken : machine.takeCheckpoint = .ok (machine, none) := by
    rw [takeCheckpoint, if_pos (by rw [busy]; rfl)]
    rfl
  simp only [scheduleCheckpoint, opened, if_true, taken, ok_bind]
  rfl

def dueTicket : CheckpointTicket :=
  ⟨machine.sealed.generation, machine.durableBatch, ⟨machine.claim.generation, machine.checkpointAttempt⟩⟩

def duePlan : WriterMachine :=
  { machine with
    checkpointAttempt := machine.checkpointAttempt + 1
    lastCheckpointAttemptedCut := some machine.durableBatch
    retryCheckpointAt := none
    checkpoint := some (.preparing machine.dueTicket) }

theorem scheduleCheckpoint_due (opened : machine.ingressOpen = true) (idle : machine.checkpoint = none)
    (span : machine.sealed.replay.cut + WAL_SUFFIX_CHECKPOINT_SPAN_TRIGGER ≤ machine.durableBatch.get)
    (fresh : ∀ cut, machine.lastCheckpointAttemptedCut = some cut → cut < machine.durableBatch)
    (unexhausted : machine.checkpointAttempt + 1 < 2 ^ 64) :
    machine.scheduleCheckpoint = .ok (machine.duePlan,
      [.effect (.prepareCheckpoint ⟨machine.dueTicket, machine.sealed, machine.base, machine.durable⟩)], none) := by
  have spanned := (spanThrough_eq_some_iff machine.sealed.replay.batch machine.durableBatch
    (machine.durableBatch.get - machine.sealed.replay.cut)).mpr (by rw [cutNumber_batch]; omega)
  have enough : ¬ machine.durableBatch.get - machine.sealed.replay.cut < WAL_SUFFIX_CHECKPOINT_SPAN_TRIGGER := by omega
  have unattempted : machine.headIsUnattempted = .ok true := by
    unfold headIsUnattempted
    cases last : machine.lastCheckpointAttemptedCut with
    | none => rfl
    | some cut =>
      have below := fresh cut last
      have within : cut ≤ machine.durableBatch := Nat.le_of_lt below
      simp only [require, within, below, if_true, ok_bind, decide_true]
      rfl
  have advances : machine.sealed.replay.batch.all (fun cut => decide (cut < machine.durableBatch)) = true := by
    simp only [WAL_SUFFIX_CHECKPOINT_SPAN_TRIGGER] at span
    cases replay : machine.sealed.replay with
    | genesis => rfl
    | through batch owner =>
      rw [replay] at span
      simp only [WalReplayPoint.batch, Option.all_some, decide_eq_true_eq, BatchId.lt_iff]
      simp only [WalReplayPoint.cut] at span
      omega
  have planned : machine.planCheckpoint = .ok (machine.duePlan,
      some ⟨machine.dueTicket, machine.sealed, machine.base, machine.durable⟩) := by
    simp only [planCheckpoint, require, advances, unexhausted, if_true, ok_bind, CheckpointInput.new]
    rfl
  have taken : machine.takeCheckpoint = .ok (machine.duePlan,
      some ⟨machine.dueTicket, machine.sealed, machine.base, machine.durable⟩) := by
    rw [takeCheckpoint, if_neg (by rw [idle]; simp), spanned]
    simp only [expect, ok_bind, if_neg enough, unattempted, Bool.not_true, Bool.false_eq_true, false_and, if_false,
      planned]
  simp only [scheduleCheckpoint, opened, if_true, taken, ok_bind]
  rfl

theorem schedule_eq (flushed : WriterMachine) (sent : List WriterOutput) (flush : machine.scheduleFlush now = .ok (flushed, sent))
    (scheduled : WriterMachine) (planned : List WriterOutput) (plan : flushed.scheduleCheckpoint = .ok (scheduled, planned, none)) :
    machine.schedule now = .ok (scheduled, sent ++ planned, none) := by
  simp only [schedule, flush, plan, ok_bind]
  rfl

theorem handle_eq (event : WriterEvent) (running : machine.started = true) (later : event ≠ .started)
    (applied : WriterMachine) (outputs : List WriterOutput) (apply : machine.applyEvent event = .ok (applied, outputs, none))
    (scheduled : WriterMachine) (planned : List WriterOutput) (plan : applied.schedule now = .ok (scheduled, planned, none))
    (few : (outputs ++ planned).length ≤ WRITER_OUTPUTS_PER_STEP_MAX) :
    machine.handle now event = .ok (scheduled, outputs ++ planned, none) := by
  have first : (!machine.started) = decide (event = .started) := by simp [running, later]
  simp only [handle, require, if_pos first, ok_bind, if_neg later, apply, plan, pure_eq_ok, if_pos few,
    Option.isSome_none, Bool.false_eq_true, false_implies, if_true]

end

def holding (machine : WriterMachine) (admitted : AdmittedCommand) (completion : Completion) : WriterMachine :=
  { machine with
    admitted := admitted.forest
    admittedRoot := machine.admittedRoot + 1
    pending := new.pushFact admitted.fact completion }

def sending (machine : WriterMachine) (admitted : AdmittedCommand) (completion : Completion) (next : BatchId) (now : Instant) :
    WriterMachine :=
  { machine with
    admitted := admitted.forest
    admittedRoot := machine.admittedRoot + 1
    pending := new
    nextBatch := next
    flight := some ⟨machine.nextBatch, admitted.forest, machine.admittedRoot + 1, [completion]⟩
    lastFlushStartedAt := some now }

section

variable {machine : WriterMachine} (now : Instant) (rest : machine.Resting)

include rest

theorem Resting.admissionOpen : machine.admissionOpen = .ok true := by
  simp [WriterMachine.admissionOpen, rest.opened, hardFull, rest.empty, require, bytesEstimated, new, WRITER_PENDING_COMMANDS_MAX,
    WAL_ENCODED_BYTES_MAX, WAL_RUN_FIXED_ENCODED_BYTES_MAX, WAL_FACT_ENCODED_BYTES_ESTIMATE_MAX, WAL_FACT_ENCODED_FIXED_BYTES_MAX,
    STREAM_PATH_BYTES_MAX, CONTENT_TYPE_BYTES_MAX]

section

variable (admitted : AdmittedCommand) (completion : Completion)

theorem Resting.admits (envelope : CommandEnvelope)
    (decided : decideAdmission machine.admitted machine.nextBatch envelope = .ok (.fact admitted completion))
    (room : runLeavesTakeoverRoom machine.sealed.replay.batch machine.nextBatch = true) :
    machine.applyEvent (.command envelope) = .ok (machine.holding admitted completion, [], none) := by
  have few := admitted.fact.estimatedEncodedBytes_le
  simp only [WAL_FACT_ENCODED_FIXED_BYTES_MAX, STREAM_PATH_BYTES_MAX, CONTENT_TYPE_BYTES_MAX] at few
  have fits : (new.pushFact admitted.fact completion).bytesEstimated ≤ WAL_ENCODED_BYTES_MAX := by
    simp only [bytesEstimated, pushFact, new, WAL_RUN_FIXED_ENCODED_BYTES_MAX,
      WAL_ENCODED_BYTES_MAX]
    omega
  have quiet : machine.flight.isNone = true → new.isEmpty = true ∨ new.hasFacts = true :=
    fun _ => .inl rfl
  have admits : machine.admitCommand envelope = .ok (machine.holding admitted completion, none) := by
    simp only [admitCommand, require, rest.empty, if_pos quiet, ok_bind, decided, acceptFact, room, Bool.not_true,
      Bool.false_eq_true, if_false, if_pos fits]
    rfl
  simp only [applyEvent, applyCommand, rest.admissionOpen, ok_bind, require, if_true, admits]
  rfl

theorem Resting.drains (next : BatchId) (follows : next.get = machine.nextBatch.get + 1) :
    ∃ (facts : WalFacts) (encoded : EncodedWal), facts.facts = [admitted.fact] ∧
      encoded.object = ⟨machine.sealed.partition, machine.nextBatch, machine.claim.owner, .run facts⟩ ∧
      (machine.holding admitted completion).scheduleFlush now =
        .ok (machine.sending admitted completion next now, [.effect (.establishWal encoded)]) := by
  have few := admitted.fact.estimatedEncodedBytes_le
  have positive := admitted.fact.estimatedEncodedBytes_pos
  simp only [WAL_FACT_ENCODED_FIXED_BYTES_MAX, STREAM_PATH_BYTES_MAX, CONTENT_TYPE_BYTES_MAX] at few
  let facts : WalFacts := ⟨[admitted.fact], by simp, by simp [WAL_RUN_FACTS_MAX]⟩
  have bounded : walLength ⟨machine.sealed.partition, machine.nextBatch, machine.claim.owner, .run facts⟩ ≤ WAL_ENCODED_BYTES_MAX := by
    refine Nat.le_trans (walLength_le _) ?_
    simp only [WalObject.facts, facts, List.map_cons, List.map_nil, List.sum_cons, List.sum_nil, WAL_RUN_FIXED_ENCODED_BYTES_MAX,
      WAL_ENCODED_BYTES_MAX]
    omega
  have hasFacts : (machine.holding admitted completion).pending.hasFacts = true := by
    simp only [holding, PendingBarrier.hasFacts, pushFact, new, Nat.zero_add, decide_eq_true_eq]
    exact positive
  have due : (machine.holding admitted completion).drainDue now = .ok true := by
    have counted : (new.pushFact admitted.fact completion).commands.length ≤ WRITER_PENDING_COMMANDS_MAX := by
      simp [pushFact, new, WRITER_PENDING_COMMANDS_MAX]
    have spaced : (machine.holding admitted completion).spacingSatisfied now = true := by
      simp [spacingSatisfied, holding, rest.first]
    rw [drainDue, if_neg (by rw [hasFacts]; simp [holding, rest.opened])]
    simp only [hardFull, spaced, Bool.or_true]
    simp [holding, require, counted]
  have made : WalFacts.tryFrom [admitted.fact] = .ok facts := (WalFacts.tryFrom_ok_iff _ _).mpr rfl
  have encoded : EncodedWal.new ⟨machine.sealed.partition, machine.nextBatch, machine.claim.owner, .run facts⟩ = .ok ⟨_, bounded⟩ :=
    dif_pos bounded
  have succeeds : machine.nextBatch.successor = .ok next := BatchId.successor_ok_iff.mpr follows
  have drained : (machine.holding admitted completion).drainPending now =
      .ok (machine.sending admitted completion next now, .effect (.establishWal ⟨_, bounded⟩)) := by
    have content : (machine.holding admitted completion).pending.facts = [admitted.fact] := by
      simp [holding, PendingBarrier.facts, pushFact, new]
    have landed : (machine.holding admitted completion).flight.isNone = true := by simp [holding, rest.landed]
    have some : (!(machine.holding admitted completion).pending.isEmpty) = true := by
      simp [holding, isEmpty, pushFact]
    unfold drainPending
    rw [content, landed, some]
    simp only [require, made, expectOk, ok_bind, if_true, List.cons_ne_nil, if_false]
    simp only [holding, encoded, succeeds, ok_bind]
    rfl
  refine ⟨facts, ⟨_, bounded⟩, rfl, rfl, ?_⟩
  rw [scheduleFlush, if_pos]
  · simp only [due, ok_bind, if_true, drained]
    rfl
  · simp [holding, rest.landed, isEmpty, pushFact]

theorem Resting.command (envelope : CommandEnvelope)
    (decided : decideAdmission machine.admitted machine.nextBatch envelope = .ok (.fact admitted completion))
    (room : runLeavesTakeoverRoom machine.sealed.replay.batch machine.nextBatch = true) (short : machine.Short) (next : BatchId)
    (follows : next.get = machine.nextBatch.get + 1) : ∃ (facts : WalFacts) (encoded : EncodedWal), facts.facts = [admitted.fact] ∧
      encoded.object = ⟨machine.sealed.partition, machine.nextBatch, machine.claim.owner, .run facts⟩ ∧
      machine.handle now (.command envelope) =
        .ok (machine.sending admitted completion next now, [.effect (.establishWal encoded)], none) := by
  obtain ⟨facts, encoded, same, object, flushed⟩ := rest.drains now admitted completion next follows
  refine ⟨facts, encoded, same, object, ?_⟩
  have planned := scheduleCheckpoint_short (machine.sending admitted completion next now) rest.opened ⟨short.cut, short.span⟩
  exact handle_eq machine now _ rest.started (by simp) _ _ (rest.admits admitted completion envelope decided room) _ _
    (schedule_eq _ now _ _ flushed _ _ planned) (by simp [WRITER_OUTPUTS_PER_STEP_MAX])

end

end

section

variable (recovery : WriterRecovery) (flushIntervalMin : Instant) (flushBufferBytes : Nat) (nextBatch : BatchId) (now : Instant)

theorem launched_resting : (launched recovery flushIntervalMin flushBufferBytes nextBatch).Resting :=
  ⟨rfl, rfl, rfl, rfl, rfl⟩

theorem fromRecovery_launched (past : List WalObject) (starts : Starts recovery past) (positive : 1 ≤ flushBufferBytes)
    (fits : flushBufferBytes ≤ WAL_ENCODED_BYTES_MAX) : ∃ nextBatch, nextBatch.get = recovery.durableBatch.get + 1 ∧
      fromRecovery recovery flushIntervalMin flushBufferBytes =
        .ok { launched recovery flushIntervalMin flushBufferBytes nextBatch with started := false } := by
  obtain ⟨machine, made⟩ := fromRecovery_starts starts flushIntervalMin flushBufferBytes positive fits
  obtain ⟨nextBatch, next, rfl⟩ := fromRecovery_eq made
  exact ⟨nextBatch, next, made⟩

theorem handle_started (machine : WriterMachine) (running : machine.started = true) (scheduled : WriterMachine)
    (planned : List WriterOutput) (plan : machine.schedule now = .ok (scheduled, planned, none))
    (few : planned.length ≤ WRITER_OUTPUTS_PER_STEP_MAX) :
    { machine with started := false }.handle now .started = .ok (scheduled, planned, none) := by
  have same : { machine with started := true } = machine := by
    obtain ⟨⟩ := machine
    cases running
    rfl
  simp [handle, require, applyEvent, same, plan, if_pos few]

theorem launched_waits (short : (launched recovery flushIntervalMin flushBufferBytes nextBatch).Short) :
    { launched recovery flushIntervalMin flushBufferBytes nextBatch with started := false }.handle now .started =
      .ok (launched recovery flushIntervalMin flushBufferBytes nextBatch, [], none) :=
  handle_started now _ rfl _ _
    (schedule_eq _ now _ _ (scheduleFlush_empty _ now rfl) _ _ (scheduleCheckpoint_short _ rfl short)) (by simp)

theorem launched_checkpoints
    (span : recovery.sealed.replay.cut + WAL_SUFFIX_CHECKPOINT_SPAN_TRIGGER ≤ recovery.durableBatch.get) :
    { launched recovery flushIntervalMin flushBufferBytes nextBatch with started := false }.handle now .started =
      .ok ((launched recovery flushIntervalMin flushBufferBytes nextBatch).duePlan,
        [.effect (.prepareCheckpoint ⟨(launched recovery flushIntervalMin flushBufferBytes nextBatch).dueTicket, recovery.sealed,
          recovery.base, recovery.durable⟩)], none) :=
  handle_started now _ rfl _ _
    (schedule_eq _ now _ _ (scheduleFlush_empty _ now rfl) _ _
      (scheduleCheckpoint_due _ rfl rfl span nofun (by simp [launched])))
    (by simp [WRITER_OUTPUTS_PER_STEP_MAX])

end

def publishing (machine : WriterMachine) (ticket : CheckpointTicket) (prepared : PreparedCheckpoint) : WriterMachine :=
  { machine with checkpoint := some (.publishing ticket prepared) }

def collecting (machine : WriterMachine) (prepared : PreparedCheckpoint) : WriterMachine :=
  { machine with
    checkpoint := none
    sealed := prepared.successor
    base := prepared.snapshot
    collector := some machine.durableBatch }

section

variable (machine : WriterMachine) (now : Instant) (running : machine.started = true) (opened : machine.ingressOpen = true)
  (empty : machine.pending = new) (ticket : CheckpointTicket) (prepared : PreparedCheckpoint)

include running opened empty

theorem handle_prepared (marked : machine.checkpoint = some (.preparing ticket)) :
    machine.handle now (.checkpointPrepared ticket (.prepared prepared)) =
      .ok (machine.publishing ticket prepared, [.effect (.publishAuthority ticket prepared.candidate)], none) := by
  have applied : machine.applyEvent (.checkpointPrepared ticket (.prepared prepared)) =
      .ok (machine.publishing ticket prepared, [.effect (.publishAuthority ticket prepared.candidate)], none) := by
    simp only [applyEvent, completePreparation, marked, expect, ok_bind, require, if_true]
    rfl
  have planned := scheduleCheckpoint_busy (machine.publishing ticket prepared) opened _ rfl
  have flushed := scheduleFlush_empty (machine.publishing ticket prepared) now empty
  exact handle_eq machine now _ running (by simp) _ _ applied _ _ (schedule_eq _ now _ _ flushed _ _ planned)
    (by simp [WRITER_OUTPUTS_PER_STEP_MAX])

theorem handle_authored (marked : machine.checkpoint = some (.publishing ticket prepared)) (free : machine.collector = none)
    (source : machine.sealed = prepared.source) (owner : OwnerToken)
    (replay : prepared.successor.replay = .through machine.durableBatch owner) :
    machine.handle now (.sealPublished ticket (.ok .authored)) =
      .ok (machine.collecting prepared, [.action (.publishView machine.durable),
        .effect (.collect ⟨machine.durableBatch, prepared.source, prepared.successor⟩)], none) := by
  have input : CollectionInput.fromAuthored prepared =
      .ok (prepared.snapshot, ⟨machine.durableBatch, prepared.source, prepared.successor⟩) := by
    simp only [CollectionInput.fromAuthored, replay, WalReplayPoint.batch, expect, ok_bind]
    rfl
  have applied : machine.applyEvent (.sealPublished ticket (.ok .authored)) =
      .ok (machine.collecting prepared, [.action (.publishView machine.durable),
        .effect (.collect ⟨machine.durableBatch, prepared.source, prepared.successor⟩)], none) := by
    simp only [applyEvent, completePublication, marked, expect, ok_bind, require, if_true, completeAuthored,
      input, installPrepared, source, pure_eq_ok]
    rw [if_pos ⟨opened, by rw [free]; rfl⟩]
    rfl
  have short : (machine.collecting prepared).Short := by
    constructor
    · simp [collecting, replay, WalReplayPoint.cut]
    · simp only [collecting, replay, WalReplayPoint.cut, WAL_SUFFIX_CHECKPOINT_SPAN_TRIGGER]
      omega
  have planned := scheduleCheckpoint_short (machine.collecting prepared) opened short
  have flushed := scheduleFlush_empty (machine.collecting prepared) now empty
  exact handle_eq machine now _ running (by simp) _ _ applied _ _ (schedule_eq _ now _ _ flushed _ _ planned)
    (by simp [WRITER_OUTPUTS_PER_STEP_MAX])

end

end WriterMachine

end StromDB
