import StromDB.Protocol.Writer

namespace StromDB

open Checked

variable [Rkyv]

def applyFact (admitted : Forest) (batch : BatchId) (fact : OperationFact) :
    Checked (Except AdmissionRefusal AdmittedCommand) := do
  match ← admitted.strictFold batch fact with
  | (forest, .ok _) => pure (.ok ⟨forest, fact⟩)
  | (_, .error contradiction) =>
    let refusal ← expect "admission constructs the dense uid and exact path uid carried by its fact"
      contradiction.admissionRefusal
    pure (.error refusal)

def resolveLiveUid (forest : Forest) (path : StreamPath) : Except AdmissionRefusal StreamUid :=
  match forest.resolve path with
  | some (.live uid) => .ok uid
  | some (.tombstone _) => .error .pathNotLive
  | none => .error .pathNotLive

def admitCreate (admitted : Forest) (command : CreateStream) (batch : BatchId) (reply : ReplySender) : Checked Admission :=
  match admitted.resolve command.path with
  | some (.tombstone _) => pure (.refused (.create (.error .pathOccupied) reply))
  | some (.live uid) => do
    let record ← expect "a Live directory row has exactly one Ledger record" (admitted.record uid)
    if record.contentType = command.contentType ∧ record.expiry = command.expiry ∧
        record.lifecycle = command.lifecycle then
      pure (.idempotent (.create (.ok .alreadyExists) reply))
    else pure (.refused (.create (.error .pathOccupied) reply))
  | none => do
    match ← admitted.successorUid with
    | .error contradiction =>
      let refusal ← expect "successor allocation only returns a caller-facing capacity refusal"
        contradiction.admissionRefusal
      pure (.refused (.create (.error refusal) reply))
    | .ok uid =>
      match ← applyFact admitted batch
          (.streamCreated command.path uid command.contentType command.expiry command.lifecycle) with
      | .ok fact => pure (.fact fact (.create (.ok .created) reply))
      | .error refusal => pure (.refused (.create (.error refusal) reply))

def admitClose (admitted : Forest) (path : StreamPath) (batch : BatchId) (reply : ReplySender) : Checked Admission :=
  match resolveLiveUid admitted path with
  | .error refusal => pure (.refused (.close (.error refusal) reply))
  | .ok uid => do
    let record ← expect "a Live directory row has exactly one Ledger record" (admitted.record uid)
    if record.lifecycle.isClosed then pure (.idempotent (.close (.ok .alreadyClosed) reply))
    else
      match ← applyFact admitted batch (.streamClosed path uid) with
      | .ok fact => pure (.fact fact (.close (.ok .closed) reply))
      | .error refusal => pure (.refused (.close (.error refusal) reply))

def admitDelete (admitted : Forest) (path : StreamPath) (batch : BatchId) (reply : ReplySender) : Checked Admission :=
  match resolveLiveUid admitted path with
  | .error refusal => pure (.refused (.delete (.error refusal) reply))
  | .ok uid => do
    match ← applyFact admitted batch (.streamDeleted path uid) with
    | .ok fact => pure (.fact fact (.delete (.ok ()) reply))
    | .error refusal => pure (.refused (.delete (.error refusal) reply))

def decideAdmission (admitted : Forest) (batch : BatchId) : CommandEnvelope → Checked Admission
  | .create command reply => admitCreate admitted command batch reply
  | .close path reply => admitClose admitted path batch reply
  | .delete path reply => admitDelete admitted path batch reply

namespace WriterMachine

def fromRecovery (recovery : WriterRecovery) (flushIntervalMin : Instant) (flushBufferBytes : Nat) :
    Checked WriterMachine := do
  require (recovery.claim.generation = recovery.sealed.generation) "the recovered claim names the recovered Seal"
  require (recovery.sealed.replay.batch.all fun cut => cut ≤ recovery.durableBatch)
    "the durable WAL head never precedes the replay cut"
  let nextBatch ← expectOk "bootstrap proves a successor coordinate after its durable FENCE"
    recovery.durableBatch.successor
  require (1 ≤ flushBufferBytes ∧ flushBufferBytes ≤ WAL_ENCODED_BYTES_MAX)
    "the writer flush byte budget is nonzero and within the WAL object bound"
  pure {
    started := false
    claim := recovery.claim
    sealed := recovery.sealed
    base := recovery.base
    admitted := recovery.durable
    admittedRoot := 0
    durable := recovery.durable
    durableRoot := 0
    durableBatch := recovery.durableBatch
    nextBatch
    pending := PendingBarrier.new
    flight := none
    flushIntervalMin
    flushBufferBytes
    lastFlushStartedAt := none
    flushArmed := false
    checkpointAttempt := 0
    lastCheckpointAttemptedCut := none
    retryCheckpointAt := none
    checkpoint := none
    collector := none
    ingressOpen := true }

def launched (recovery : WriterRecovery) (flushIntervalMin : Instant) (flushBufferBytes : Nat) (nextBatch : BatchId) :
    WriterMachine where
  started := true
  claim := recovery.claim
  sealed := recovery.sealed
  base := recovery.base
  admitted := recovery.durable
  admittedRoot := 0
  durable := recovery.durable
  durableRoot := 0
  durableBatch := recovery.durableBatch
  nextBatch
  pending := PendingBarrier.new
  flight := none
  flushIntervalMin
  flushBufferBytes
  lastFlushStartedAt := none
  flushArmed := false
  checkpointAttempt := 0
  lastCheckpointAttemptedCut := none
  retryCheckpointAt := none
  checkpoint := none
  collector := none
  ingressOpen := true

theorem fromRecovery_eq {recovery : WriterRecovery} {flushIntervalMin : Instant} {flushBufferBytes : Nat} {machine : WriterMachine}
    (made : fromRecovery recovery flushIntervalMin flushBufferBytes = .ok machine) :
    ∃ nextBatch : BatchId, nextBatch.get = recovery.durableBatch.get + 1 ∧
      machine = { launched recovery flushIntervalMin flushBufferBytes nextBatch with started := false } := by
  obtain ⟨_, _, made⟩ := bind_ok made
  obtain ⟨_, _, made⟩ := bind_ok made
  obtain ⟨nextBatch, next, made⟩ := bind_ok made
  obtain ⟨_, _, done⟩ := bind_ok made
  rw [expectOk_ok_iff, BatchId.successor_ok_iff] at next
  cases done
  exact ⟨nextBatch, next, rfl⟩

def hardFull (machine : WriterMachine) : Checked Bool := do
  require (machine.pending.commands.length ≤ WRITER_PENDING_COMMANDS_MAX)
    "the pending command barrier stays inside its named memory bound"
  pure (machine.pending.commands.length = WRITER_PENDING_COMMANDS_MAX ||
    machine.pending.bytesEstimated + WAL_FACT_ENCODED_BYTES_ESTIMATE_MAX > WAL_ENCODED_BYTES_MAX)

def admissionOpen (machine : WriterMachine) : Checked Bool :=
  if machine.ingressOpen then do
    let full ← machine.hardFull
    pure !full
  else pure false

def spacingSatisfied (machine : WriterMachine) (now : Instant) : Bool :=
  machine.lastFlushStartedAt.all fun started => saturatingAdd started machine.flushIntervalMin ≤ now

def acceptFact (machine : WriterMachine) (admitted : AdmittedCommand) (completion : Completion) :
    Checked (WriterMachine × Option Completion) :=
  if !runLeavesTakeoverRoom machine.sealed.replay.batch machine.nextBatch then
    pure ({ machine with retryCheckpointAt := some machine.durableBatch }, some (completion.refusal .overloaded))
  else do
    let pending := machine.pending.pushFact admitted.fact completion
    require (pending.bytesEstimated ≤ WAL_ENCODED_BYTES_MAX)
      "admission keeps the pending WAL estimate within the hard object bound"
    pure ({ machine with admitted := admitted.forest, admittedRoot := machine.admittedRoot + 1, pending }, none)

def acceptIdempotent (machine : WriterMachine) (completion : Completion) : WriterMachine × Option Completion :=
  if machine.flight.isNone ∧ !machine.pending.hasFacts then (machine, some completion)
  else ({ machine with pending := machine.pending.pushIdempotent completion }, none)

def admitCommand (machine : WriterMachine) (envelope : CommandEnvelope) : Checked (WriterMachine × Option Completion) := do
  require (machine.flight.isNone → machine.pending.isEmpty ∨ machine.pending.hasFacts)
    "an all-idempotent barrier drains in the event that creates it"
  match ← decideAdmission machine.admitted machine.nextBatch envelope with
  | .fact admitted completion => machine.acceptFact admitted completion
  | .idempotent completion => pure (machine.acceptIdempotent completion)
  | .refused completion => pure (machine, some completion)

def drainPending (machine : WriterMachine) (now : Instant) : Checked (WriterMachine × WriterOutput) := do
  require machine.flight.isNone "a writer drains its pending barrier only without an active WAL flight"
  require (!machine.pending.isEmpty) "a writer drains only a nonempty pending barrier"
  if machine.pending.facts = [] then
    require (machine.admitted = machine.durable)
      "an all-idempotent barrier leaves admitted and durable state equal"
    pure ({ machine with
      pending := PendingBarrier.new
      admitted := machine.durable
      admittedRoot := machine.durableRoot }, .action (.sendReplies machine.pending.replies))
  else
    let facts ← expectOk "pending RUN construction enforces nonempty and fact-count bounds"
      (WalFacts.tryFrom machine.pending.facts)
    let encoded ← expectOk
      "the fact-count and field bounds prove every pending RUN fits the WAL byte bound"
      (EncodedWal.new ⟨machine.sealed.partition, machine.nextBatch, machine.claim.owner, .run facts⟩)
    let nextBatch ← expectOk "the suffix reserve proves a coordinate after every admitted RUN"
      machine.nextBatch.successor
    pure ({ machine with
      pending := PendingBarrier.new
      nextBatch
      flight := some ⟨machine.nextBatch, machine.admitted, machine.admittedRoot, machine.pending.replies⟩
      lastFlushStartedAt := some now }, .effect (.establishWal encoded))

def activeFlight (machine : WriterMachine) (batch : BatchId) (absent other : String) : Checked InFlight := do
  let active ← expect absent machine.flight
  require (batch = active.batch) other
  pure active

def recordWalDurable (machine : WriterMachine) (batch : BatchId) : Checked (WriterMachine × List WriterOutput) := do
  let active ← machine.activeFlight batch "WAL durability is recorded only for an active flight"
    "WAL durability names the active flight's batch"
  let outputs := [.action (.publishView active.forest), .action (.sendReplies active.replies)]
  let landed := { machine with
    flight := none, durable := active.forest, durableRoot := active.root, durableBatch := batch }
  if machine.pending.isEmpty then
    require (machine.admitted = active.forest)
      "WAL durability makes admitted and durable state equal at quiescence"
    pure ({ landed with admitted := active.forest, admittedRoot := active.root }, outputs)
  else pure (landed, outputs)

def discardWalFlight (machine : WriterMachine) (batch : BatchId) : Checked WriterMachine := do
  let _ ← machine.activeFlight batch "terminal WAL teardown observes an active flight"
    "terminal WAL teardown names the active flight's batch"
  pure { machine with flight := none }

def headIsUnattempted (machine : WriterMachine) : Checked Bool :=
  match machine.lastCheckpointAttemptedCut with
  | none => pure true
  | some attempted => do
    require (attempted ≤ machine.durableBatch) "a checkpoint attempt never names a future durable cut"
    pure (attempted < machine.durableBatch)

def planCheckpoint (machine : WriterMachine) : Checked (WriterMachine × Option CheckpointInput) := do
  require (machine.sealed.replay.batch.all fun cut => cut < machine.durableBatch)
    "a checkpoint plan names an advancing durable cut"
  require (machine.checkpointAttempt + 1 < 2 ^ 64)
    "the process-local checkpoint attempt counter is not exhausted"
  let ticket : CheckpointTicket :=
    ⟨machine.sealed.generation, machine.durableBatch, ⟨machine.claim.generation, machine.checkpointAttempt⟩⟩
  let input ← CheckpointInput.new ticket machine.sealed machine.base machine.durable
  pure ({ machine with
    checkpointAttempt := machine.checkpointAttempt + 1
    lastCheckpointAttemptedCut := some machine.durableBatch
    retryCheckpointAt := none
    checkpoint := some (.preparing ticket) }, some input)

def takeCheckpoint (machine : WriterMachine) : Checked (WriterMachine × Option CheckpointInput) :=
  if machine.checkpoint.isSome then pure (machine, none)
  else do
    let span ← expect "the durable WAL head never precedes the replay cut"
      (spanThrough machine.sealed.replay.batch machine.durableBatch)
    if span < WAL_SUFFIX_CHECKPOINT_SPAN_TRIGGER then pure (machine, none)
    else
      let unattempted ← machine.headIsUnattempted
      if !unattempted ∧ machine.retryCheckpointAt ≠ some machine.durableBatch then pure (machine, none)
      else machine.planCheckpoint

def assertQuiescent (machine : WriterMachine) : Checked Unit := do
  require (machine.flight.isNone ∧ machine.pending.isEmpty)
    "quiescent validation observes no flight or pending barrier"
  require (machine.admittedRoot = machine.durableRoot)
    "no flight and empty pending shares admitted and durable forest roots"

-- The conditions are tried in the order of the source: hardFull is not asked
-- once an earlier one holds.
def drainDue (machine : WriterMachine) (now : Instant) : Checked Bool :=
  if !machine.pending.hasFacts ∨ !machine.ingressOpen then pure true
  else do
    let full ← machine.hardFull
    pure (full || machine.pending.bytesEstimated ≥ machine.flushBufferBytes || machine.spacingSatisfied now)

def scheduleFlush (machine : WriterMachine) (now : Instant) : Checked (WriterMachine × List WriterOutput) :=
  if machine.flight.isNone ∧ !machine.pending.isEmpty then do
    if ← machine.drainDue now then
      let (machine, output) ← machine.drainPending now
      pure (machine, [output])
    else if !machine.flushArmed then
      let started ← expect "unsatisfied spacing has one prior flush start" machine.lastFlushStartedAt
      pure ({ machine with flushArmed := true },
        [.action (.armFlush (saturatingAdd started machine.flushIntervalMin))])
    else pure (machine, [])
  else pure (machine, [])

def scheduleCheckpoint (machine : WriterMachine) : Checked (WriterMachine × List WriterOutput × Option WriterExit) :=
  if machine.ingressOpen then do
    match ← machine.takeCheckpoint with
    | (machine, some input) => pure (machine, [.effect (.prepareCheckpoint input)], none)
    | (machine, none) => pure (machine, [], none)
  else if machine.flight.isNone ∧ machine.checkpoint.isNone ∧ machine.pending.isEmpty then do
    machine.assertQuiescent
    pure (machine, [], some .shutdown)
  else pure (machine, [], none)

def schedule (machine : WriterMachine) (now : Instant) : Checked (WriterMachine × List WriterOutput × Option WriterExit) := do
  let (machine, flushed) ← machine.scheduleFlush now
  let (machine, planned, exit) ← machine.scheduleCheckpoint
  pure (machine, flushed ++ planned, exit)

abbrev Effects := WriterMachine × List WriterOutput × Option WriterExit

def installPrepared (machine : WriterMachine) (source successor : Seal) (snapshot : Forest) : Checked WriterMachine := do
  require (machine.sealed = source) "a checkpoint install returns its exact planned source Seal"
  pure { machine with sealed := successor, base := snapshot }

def completePreparation (machine : WriterMachine) (ticket : CheckpointTicket) (outcome : PreparationOutcome) :
    Checked Effects := do
  match ← expect "checkpoint preparation completion has an issued marker" machine.checkpoint with
  | .cancelling active =>
    require (ticket = active) "cancelled preparation completion names the exact issued ticket"
    pure ({ machine with checkpoint := none }, [], none)
  | .preparing active =>
    require (ticket = active) "checkpoint preparation completion names the exact issued ticket"
    match outcome with
    | .prepared prepared =>
      pure ({ machine with checkpoint := some (.publishing ticket prepared) },
        [.effect (.publishAuthority ticket prepared.candidate)], none)
    | .abandoned => pure ({ machine with checkpoint := none }, [], none)
    | .contradiction detail => pure ({ machine with checkpoint := none }, [], some (.contradiction ticket.cut detail))
  | .publishing _ _ => .error "preparation cannot complete after publication was issued"

def completeAuthored (machine : WriterMachine) (prepared : PreparedCheckpoint) : Checked Effects := do
  let (snapshot, input) ← CollectionInput.fromAuthored prepared
  let machine ← machine.installPrepared input.source input.successor snapshot
  if machine.ingressOpen ∧ machine.collector.isNone then
    pure ({ machine with collector := some input.cut },
      [.action (.publishView machine.durable), .effect (.collect input)], none)
  else pure (machine, [.action (.publishView machine.durable)], none)

def completePublication (machine : WriterMachine) (ticket : CheckpointTicket)
    (result : Except TypedStoreError SealPublication) : Checked Effects := do
  match ← expect "Seal publication completion has an issued marker" machine.checkpoint with
  | .publishing active prepared =>
    require (ticket = active) "Seal publication completion names the exact issued ticket"
    let idle := { machine with checkpoint := none }
    match result with
    | .ok .authored => idle.completeAuthored prepared
    | .ok .noAuthority => pure (idle, [], some (.fenced ticket.cut))
    | .ok .unresolved => pure (idle, [], some (.poisoned ticket.cut "advancing Seal create is unresolved"))
    | .error (.retryable detail) => pure (idle, [], some (.poisoned ticket.cut detail))
    | .error (.rejected detail) => pure (idle, [], some (.poisoned ticket.cut detail))
    | .error (.contradiction detail) => pure (idle, [], some (.contradiction ticket.cut detail))
  | _ => .error "Seal publication completes only while its checkpoint is publishing"

def completeWal (machine : WriterMachine) (batch : BatchId) : Except TypedStoreError WalEstablishment → Checked Effects
  | .ok .durable => do
    let (machine, outputs) ← machine.recordWalDurable batch
    pure (machine, outputs, none)
  | .ok .occupied => do
    let machine ← machine.discardWalFlight batch
    pure (machine, [], some (.fenced batch))
  | .ok .unresolvedAbsent => do
    let machine ← machine.discardWalFlight batch
    pure (machine, [], some (.poisoned batch "unresolved WAL create is absent on its one reconciliation read"))
  | .error (.retryable detail) => do
    let machine ← machine.discardWalFlight batch
    pure (machine, [], some (.poisoned batch detail))
  | .error (.rejected detail) => do
    let machine ← machine.discardWalFlight batch
    pure (machine, [], some (.poisoned batch detail))
  | .error (.contradiction detail) => do
    let machine ← machine.discardWalFlight batch
    pure (machine, [], some (.contradiction batch detail))

def applyCommand (machine : WriterMachine) (envelope : CommandEnvelope) : Checked Effects := do
  let openForAdmission ← machine.admissionOpen
  require openForAdmission "commands arrive only while machine admission is open"
  match ← machine.admitCommand envelope with
  | (machine, some completion) => pure (machine, [.action (.sendReplies [completion])], none)
  | (machine, none) => pure (machine, [], none)

def closeIngress (machine : WriterMachine) : Checked Effects := do
  require machine.ingressOpen "ingress closes exactly once"
  match machine.checkpoint with
  | some (.preparing ticket) =>
    pure ({ machine with ingressOpen := false, checkpoint := some (.cancelling ticket) },
      [.action (.cancelCheckpointPreparation ticket)], none)
  | _ => pure ({ machine with ingressOpen := false }, [], none)

def cancelPreparation (machine : WriterMachine) (ticket : CheckpointTicket) : Checked Effects :=
  match machine.checkpoint with
  | some (.cancelling active) => do
    require (ticket = active) "checkpoint cancellation completion names the exact issued ticket"
    pure ({ machine with checkpoint := none }, [], none)
  | _ => .error "checkpoint preparation cancellation completes only while cancelling"

def applyEvent (machine : WriterMachine) : WriterEvent → Checked Effects
  | .started => pure (machine, [], none)
  | .command envelope => machine.applyCommand envelope
  | .flushDue => do
    require machine.flushArmed "a flush deadline is observed only for the one armed timer"
    pure ({ machine with flushArmed := false }, [], none)
  | .ingressClosed => machine.closeIngress
  | .walEstablished batch result => machine.completeWal batch result
  | .checkpointPrepared ticket outcome => machine.completePreparation ticket outcome
  | .sealPublished ticket result => machine.completePublication ticket result
  | .collectFinished cut => do
    require (some cut = machine.collector) "collection completion names the exact issued cut"
    pure ({ machine with collector := none }, [], none)
  | .checkpointPreparationCancelled ticket => machine.cancelPreparation ticket

def handle (machine : WriterMachine) (now : Instant) (event : WriterEvent) : Checked Effects := do
  require ((!machine.started) = decide (event = .started))
    "the writer machine starts exactly once before receiving observations"
  let machine := if event = .started then { machine with started := true } else machine
  let (machine, outputs, exit) ← machine.applyEvent event
  let (machine, outputs, exit) ← match exit with
    | some exit => pure (machine, outputs, some exit)
    | none => do
      let (machine, scheduled, exit) ← machine.schedule now
      pure (machine, outputs ++ scheduled, exit)
  require (outputs.length ≤ WRITER_OUTPUTS_PER_STEP_MAX) "one writer event stays inside the named output bound"
  require (exit.isSome → outputs.all WriterOutput.isAction)
    "a terminal writer step contains immediate actions only"
  pure (machine, outputs, exit)

end WriterMachine

end StromDB
