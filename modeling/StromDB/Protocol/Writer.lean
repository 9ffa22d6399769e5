import StromDB.Protocol.Bootstrap

namespace StromDB

open Checked

variable [Rkyv]

def WRITER_OUTPUTS_PER_STEP_MAX : Nat := 4

def WAL_FACT_ENCODED_BYTES_ESTIMATE_MAX : Nat :=
  WAL_FACT_ENCODED_FIXED_BYTES_MAX + STREAM_PATH_BYTES_MAX + CONTENT_TYPE_BYTES_MAX

abbrev Instant := Nat

def DURATION_MAX : Nat := (2 ^ 64 - 1) * 1000000000 + 999999999

def saturatingAdd (instant duration : Instant) : Instant := min (instant + duration) DURATION_MAX

abbrev ReplySender := Nat

structure CreateStream where
  path : StreamPath
  contentType : StreamContentType
  expiry : ExpiryPolicy
  lifecycle : StreamLifecycle
deriving DecidableEq

inductive AdmissionRefusal where
  | pathOccupied
  | pathCapacityExhausted
  | pathNotLive
  | overloaded
deriving DecidableEq, Repr

inductive CommandEnvelope where
  | create (command : CreateStream) (reply : ReplySender)
  | close (path : StreamPath) (reply : ReplySender)
  | delete (path : StreamPath) (reply : ReplySender)
deriving DecidableEq

inductive Completion where
  | create (outcome : Except AdmissionRefusal CreateOutcome) (reply : ReplySender)
  | close (outcome : Except AdmissionRefusal CloseStreamOutcome) (reply : ReplySender)
  | delete (outcome : Except AdmissionRefusal Unit) (reply : ReplySender)
deriving DecidableEq

structure CheckpointTicket where
  source : SealGeneration
  cut : BatchId
  attempt : AttemptId
deriving DecidableEq, Repr

structure CheckpointInput where
  ticket : CheckpointTicket
  source : Seal
  base : Forest
  snapshot : Forest
deriving DecidableEq

structure PreparedCheckpoint where
  source : Seal
  successor : Seal
  snapshot : Forest
  candidate : EncodedAuthoritySeal
deriving DecidableEq

def CheckpointInput.new (ticket : CheckpointTicket) (source : Seal) (base snapshot : Forest) : Checked CheckpointInput := do
  require (ticket.source = source.generation) "checkpoint input names its exact source Seal"
  pure { ticket, source, base, snapshot }

def PreparedCheckpoint.new (ticket : CheckpointTicket) (source successor : Seal) (snapshot : Forest)
    (candidate : EncodedAuthoritySeal) : Checked PreparedCheckpoint := do
  require (ticket.source = source.generation) "a prepared checkpoint names its exact source Seal"
  require (source.partition = successor.partition) "a checkpoint successor retains its source partition"
  require (source.generation.successor = .ok successor.generation)
    "a checkpoint successor is one exact Seal generation"
  require (WalReplayPoint.through ticket.cut ⟨ticket.attempt.ownerClaim⟩ = successor.replay)
    "a prepared checkpoint publishes its planned WAL cut and owner"
  require (source.replay.batch.all fun sourceCut => sourceCut < ticket.cut)
    "a prepared checkpoint strictly advances its source replay cut"
  require (candidate.sealed = successor) "the encoded authority candidate is the prepared successor"
  pure { source, successor, snapshot, candidate }

inductive PreparationOutcome where
  | prepared (prepared : PreparedCheckpoint)
  | abandoned
  | contradiction (detail : String)
deriving DecidableEq

inductive WriterEvent where
  | started
  | command (envelope : CommandEnvelope)
  | flushDue
  | ingressClosed
  | walEstablished (batch : BatchId) (result : Except TypedStoreError WalEstablishment)
  | checkpointPrepared (ticket : CheckpointTicket) (outcome : PreparationOutcome)
  | sealPublished (ticket : CheckpointTicket) (result : Except TypedStoreError SealPublication)
  | collectFinished (cut : BatchId)
  | checkpointPreparationCancelled (ticket : CheckpointTicket)
deriving DecidableEq

inductive EffectKey where
  | wal (batch : BatchId)
  | checkpointPreparation (ticket : CheckpointTicket)
  | sealPublication (ticket : CheckpointTicket)
  | collection (cut : BatchId)
deriving DecidableEq, Repr

structure CollectionInput where
  cut : BatchId
  source : Seal
  successor : Seal
deriving DecidableEq, Repr

def CollectionInput.fromAuthored (prepared : PreparedCheckpoint) : Checked (Forest × CollectionInput) := do
  let cut ← expect "a prepared advancing successor has a replay cut" prepared.successor.replay.batch
  pure (prepared.snapshot, { cut, source := prepared.source, successor := prepared.successor })

inductive WriterEffect where
  | establishWal (candidate : EncodedWal)
  | prepareCheckpoint (input : CheckpointInput)
  | publishAuthority (ticket : CheckpointTicket) (candidate : EncodedAuthoritySeal)
  | collect (input : CollectionInput)
deriving DecidableEq

def WriterEffect.key : WriterEffect → EffectKey
  | .establishWal candidate => .wal candidate.object.batch
  | .prepareCheckpoint input => .checkpointPreparation input.ticket
  | .publishAuthority ticket _ => .sealPublication ticket
  | .collect input => .collection input.cut

inductive WriterAction where
  | armFlush (deadline : Instant)
  | publishView (forest : Forest)
  | sendReplies (replies : List Completion)
  | cancelCheckpointPreparation (ticket : CheckpointTicket)
deriving DecidableEq

inductive WriterOutput where
  | effect (effect : WriterEffect)
  | action (action : WriterAction)
deriving DecidableEq

def WriterOutput.isAction : WriterOutput → Bool
  | .effect _ => false
  | .action _ => true

inductive WriterExit where
  | shutdown
  | fenced (batch : BatchId)
  | poisoned (batch : BatchId) (detail : String)
  | contradiction (batch : BatchId) (detail : String)
deriving DecidableEq, Repr

inductive CheckpointMarker where
  | preparing (ticket : CheckpointTicket)
  | cancelling (ticket : CheckpointTicket)
  | publishing (ticket : CheckpointTicket) (prepared : PreparedCheckpoint)
deriving DecidableEq

-- The fact is absent when an idempotent reply inherits an earlier fact's
-- barrier.
structure PendingCommand where
  fact : Option OperationFact
  completion : Completion
deriving DecidableEq

structure PendingBarrier where
  commands : List PendingCommand
  factsBytesEstimated : Nat
deriving DecidableEq

structure InFlight where
  batch : BatchId
  forest : Forest
  root : Nat
  replies : List Completion
deriving DecidableEq

-- admittedRoot and durableRoot stand for the tree roots of the two forests: a
-- clone keeps the root number and every applied fact makes a new one.
structure WriterMachine where
  started : Bool
  claim : AuthoredClaim
  sealed : Seal
  base : Forest
  admitted : Forest
  admittedRoot : Nat
  durable : Forest
  durableRoot : Nat
  durableBatch : BatchId
  nextBatch : BatchId
  pending : PendingBarrier
  flight : Option InFlight
  flushIntervalMin : Instant
  flushBufferBytes : Nat
  lastFlushStartedAt : Option Instant
  flushArmed : Bool
  checkpointAttempt : Nat
  lastCheckpointAttemptedCut : Option BatchId
  retryCheckpointAt : Option BatchId
  checkpoint : Option CheckpointMarker
  collector : Option BatchId
  ingressOpen : Bool
deriving DecidableEq

namespace PendingBarrier

def new : PendingBarrier := ⟨[], 0⟩

def pushFact (pending : PendingBarrier) (fact : OperationFact) (completion : Completion) : PendingBarrier :=
  ⟨pending.commands ++ [⟨some fact, completion⟩], pending.factsBytesEstimated + fact.estimatedEncodedBytes⟩

def pushIdempotent (pending : PendingBarrier) (completion : Completion) : PendingBarrier :=
  { pending with commands := pending.commands ++ [⟨none, completion⟩] }

def bytesEstimated (pending : PendingBarrier) : Nat := WAL_RUN_FIXED_ENCODED_BYTES_MAX + pending.factsBytesEstimated

def hasFacts (pending : PendingBarrier) : Bool := pending.factsBytesEstimated > 0

def isEmpty (pending : PendingBarrier) : Bool := pending.commands.isEmpty

def facts (pending : PendingBarrier) : List OperationFact := pending.commands.filterMap PendingCommand.fact

def replies (pending : PendingBarrier) : List Completion := pending.commands.map PendingCommand.completion

end PendingBarrier

def Completion.refusal (refusal : AdmissionRefusal) : Completion → Completion
  | .create _ reply => .create (.error refusal) reply
  | .close _ reply => .close (.error refusal) reply
  | .delete _ reply => .delete (.error refusal) reply

def FoldContradiction.admissionRefusal : FoldContradiction → Option AdmissionRefusal
  | .pathOccupied => some .pathOccupied
  | .pathCapacityExhausted => some .pathCapacityExhausted
  | .pathNotLive => some .pathNotLive
  | .streamAlreadyClosed => none
  | .uidNotDenseSuccessor => none
  | .pathUidMismatch => none

structure AdmittedCommand where
  forest : Forest
  fact : OperationFact
deriving DecidableEq

inductive Admission where
  | fact (admitted : AdmittedCommand) (completion : Completion)
  | idempotent (completion : Completion)
  | refused (completion : Completion)
deriving DecidableEq

def settledForest (durable : Forest) : Option InFlight → Forest
  | none => durable
  | some flight => flight.forest

theorem OperationFact.estimatedEncodedBytes_pos (fact : OperationFact) : 0 < fact.estimatedEncodedBytes := by
  cases fact <;> simp only [OperationFact.estimatedEncodedBytes, WAL_FACT_ENCODED_FIXED_BYTES_MAX] <;> omega

namespace PendingBarrier

section

variable (pending : PendingBarrier) (fact : OperationFact) (completion : Completion)

theorem facts_pushFact :
    (pending.pushFact fact completion).facts = pending.facts ++ [fact] := by
  simp [facts, pushFact]

theorem replies_pushFact :
    (pending.pushFact fact completion).replies = pending.replies ++ [completion] := by
  simp [replies, pushFact]

end

theorem facts_pushIdempotent (pending : PendingBarrier) (completion : Completion) :
    (pending.pushIdempotent completion).facts = pending.facts := by
  simp [facts, pushIdempotent]

theorem replies_pushIdempotent (pending : PendingBarrier) (completion : Completion) :
    (pending.pushIdempotent completion).replies = pending.replies ++ [completion] := by
  simp [replies, pushIdempotent]

end PendingBarrier

end StromDB
