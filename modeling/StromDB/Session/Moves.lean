import StromDB.Refinement.Admission
import StromDB.Session.Log

namespace StromDB

variable [Rkyv]

def CheckpointMarker.key : CheckpointMarker → EffectKey
  | .preparing ticket => .checkpointPreparation ticket
  | .cancelling ticket => .checkpointPreparation ticket
  | .publishing ticket _ => .sealPublication ticket

def WriterEvent.fails : WriterEvent → Bool
  | .walEstablished _ result => result ≠ .ok .durable
  | .checkpointPrepared _ (.contradiction _) => true
  | .sealPublished _ result => result ≠ .ok .authored
  | _ => false

namespace Session

def observe (session : Session) (now : Instant) (event : WriterEvent) (machine : WriterMachine) (outputs : List WriterOutput) :
    Session :=
  ⟨machine, Log.emits outputs (.observed now event session.machine :: session.log)⟩

def emit (session : Session) (machine : WriterMachine) (output : WriterOutput) : Session :=
  ⟨machine, .emitted output :: session.log⟩

structure Polled (session : Session) (envelope : CommandEnvelope) : Prop where
  fresh : ∀ earlier ∈ Log.commands session.log, earlier.reply ≠ envelope.reply
  opened : session.machine.ingressOpen = true
  room : session.machine.pending.commands.length < WRITER_PENDING_COMMANDS_MAX
  bytes : session.machine.pending.bytesEstimated + WAL_FACT_ENCODED_BYTES_ESTIMATE_MAX ≤ WAL_ENCODED_BYTES_MAX
  quiet : session.machine.flight = none → session.machine.pending.commands = [] ∨ session.machine.pending.facts ≠ []

-- Everything that one event or one scheduling decision can do to a writer that
-- goes on.
inductive Move (now : Instant) (s : Session) : Session → Prop where
  | started (first : s.log = []) : Move now s (s.observe now .started { s.machine with started := true } [])
  | refused (envelope : CommandEnvelope) (completion : Completion) (polled : s.Polled envelope)
      (decided : decideAdmission s.machine.admitted s.machine.nextBatch envelope = .ok (.refused completion)) :
      Move now s (s.observe now (.command envelope) s.machine [.action (.sendReplies [completion])])
  | shed (envelope : CommandEnvelope) (admitted : AdmittedCommand) (completion : Completion) (polled : s.Polled envelope)
      (decided : decideAdmission s.machine.admitted s.machine.nextBatch envelope = .ok (.fact admitted completion))
      (full : runLeavesTakeoverRoom s.machine.sealed.replay.batch s.machine.nextBatch = false) :
      Move now s (s.observe now (.command envelope) { s.machine with retryCheckpointAt := some s.machine.durableBatch }
        [.action (.sendReplies [completion.refusal .overloaded])])
  | accepted (envelope : CommandEnvelope) (admitted : AdmittedCommand) (completion : Completion) (polled : s.Polled envelope)
      (decided : decideAdmission s.machine.admitted s.machine.nextBatch envelope = .ok (.fact admitted completion))
      (fits : runLeavesTakeoverRoom s.machine.sealed.replay.batch s.machine.nextBatch = true) :
      Move now s (s.observe now (.command envelope)
        { s.machine with
          admitted := admitted.forest
          admittedRoot := s.machine.admittedRoot + 1
          pending := s.machine.pending.pushFact admitted.fact completion } [])
  | repeated (envelope : CommandEnvelope) (completion : Completion) (polled : s.Polled envelope)
      (decided : decideAdmission s.machine.admitted s.machine.nextBatch envelope = .ok (.idempotent completion))
      (landed : s.machine.flight = none) (empty : s.machine.pending.commands = []) :
      Move now s (s.observe now (.command envelope) s.machine [.action (.sendReplies [completion])])
  | deferred (envelope : CommandEnvelope) (completion : Completion) (polled : s.Polled envelope)
      (decided : decideAdmission s.machine.admitted s.machine.nextBatch envelope = .ok (.idempotent completion))
      (behind : s.machine.flight ≠ none ∨ s.machine.pending.facts ≠ []) :
      Move now s (s.observe now (.command envelope)
        { s.machine with pending := s.machine.pending.pushIdempotent completion } [])
  | due (armed : s.machine.flushArmed = true) :
      Move now s (s.observe now .flushDue { s.machine with flushArmed := false } [])
  | cancelling (ticket : CheckpointTicket) (opened : s.machine.ingressOpen = true)
      (marked : s.machine.checkpoint = some (.preparing ticket)) :
      Move now s (s.observe now .ingressClosed
        { s.machine with ingressOpen := false, checkpoint := some (.cancelling ticket) }
        [.action (.cancelCheckpointPreparation ticket)])
  | closed (opened : s.machine.ingressOpen = true) (unmarked : ∀ ticket, s.machine.checkpoint ≠ some (.preparing ticket)) :
      Move now s (s.observe now .ingressClosed { s.machine with ingressOpen := false } [])
  | landed (flight : InFlight) (active : s.machine.flight = some flight) :
      Move now s (s.observe now (.walEstablished flight.batch (.ok .durable))
        { s.machine with
          flight := none
          durable := flight.forest
          durableRoot := flight.root
          durableBatch := flight.batch
          admittedRoot := if s.machine.pending.isEmpty then flight.root else s.machine.admittedRoot }
        [.action (.publishView flight.forest), .action (.sendReplies flight.replies)])
  | prepared (input : CheckpointInput) (checkpoint : PreparedCheckpoint)
      (issued : .prepareCheckpoint input ∈ Log.outstanding s.log)
      (built : PreparationOutcome.builtFrom input (.prepared checkpoint) = true)
      (marked : s.machine.checkpoint = some (.preparing input.ticket)) :
      Move now s (s.observe now (.checkpointPrepared input.ticket (.prepared checkpoint))
        { s.machine with checkpoint := some (.publishing input.ticket checkpoint) }
        [.effect (.publishAuthority input.ticket checkpoint.candidate)])
  | abandoned (ticket : CheckpointTicket) (marked : s.machine.checkpoint = some (.preparing ticket)) :
      Move now s (s.observe now (.checkpointPrepared ticket .abandoned) { s.machine with checkpoint := none } [])
  | cancelled (ticket : CheckpointTicket) (event : WriterEvent)
      (finished : event.completes = some (.checkpointPreparation ticket))
      (marked : s.machine.checkpoint = some (.cancelling ticket)) :
      Move now s (s.observe now event { s.machine with checkpoint := none } [])
  | collecting (ticket : CheckpointTicket) (checkpoint : PreparedCheckpoint) (cut : BatchId)
      (marked : s.machine.checkpoint = some (.publishing ticket checkpoint))
      (reaches : checkpoint.successor.replay.batch = some cut)
      (opened : s.machine.ingressOpen = true) (idle : s.machine.collector = none) :
      Move now s (s.observe now (.sealPublished ticket (.ok .authored))
        { s.machine with
          checkpoint := none
          sealed := checkpoint.successor
          base := checkpoint.snapshot
          collector := some cut }
        [.action (.publishView s.machine.durable), .effect (.collect ⟨cut, checkpoint.source, checkpoint.successor⟩)])
  | authored (ticket : CheckpointTicket) (checkpoint : PreparedCheckpoint)
      (marked : s.machine.checkpoint = some (.publishing ticket checkpoint)) :
      Move now s (s.observe now (.sealPublished ticket (.ok .authored))
        { s.machine with checkpoint := none, sealed := checkpoint.successor, base := checkpoint.snapshot }
        [.action (.publishView s.machine.durable)])
  | collected (cut : BatchId) (busy : s.machine.collector = some cut) :
      Move now s (s.observe now (.collectFinished cut) { s.machine with collector := none } [])
  | released (landed : s.machine.flight = none) (nonempty : s.machine.pending.commands ≠ []) (bare : s.machine.pending.facts = []) :
      Move now s (s.emit
        { s.machine with pending := PendingBarrier.new, admittedRoot := s.machine.durableRoot }
        (.action (.sendReplies s.machine.pending.replies)))
  | flushed (facts : WalFacts) (candidate : EncodedWal) (next : BatchId) (landed : s.machine.flight = none)
      (same : facts.facts = s.machine.pending.facts)
      (carries : candidate.object = ⟨s.machine.sealed.partition, s.machine.nextBatch, s.machine.claim.owner, .run facts⟩)
      (follows : next.get = s.machine.nextBatch.get + 1) (clock : Log.clock s.log = now) :
      Move now s (s.emit
        { s.machine with
          pending := PendingBarrier.new
          nextBatch := next
          flight := some ⟨s.machine.nextBatch, s.machine.admitted, s.machine.admittedRoot, s.machine.pending.replies⟩
          lastFlushStartedAt := some now }
        (.effect (.establishWal candidate)))
  | armed (started : Instant) (unarmed : s.machine.flushArmed = false) (last : s.machine.lastFlushStartedAt = some started) :
      Move now s (s.emit { s.machine with flushArmed := true }
        (.action (.armFlush (saturatingAdd started s.machine.flushIntervalMin))))
  | planned (ticket : CheckpointTicket) (idle : s.machine.checkpoint = none) (opened : s.machine.ingressOpen = true)
      (named : ticket = ⟨s.machine.sealed.generation, s.machine.durableBatch,
        ⟨s.machine.claim.generation, s.machine.checkpointAttempt⟩⟩)
      (due : s.machine.lastCheckpointAttemptedCut = some s.machine.durableBatch →
        s.machine.retryCheckpointAt = some s.machine.durableBatch) :
      Move now s (s.emit
        { s.machine with
          checkpointAttempt := s.machine.checkpointAttempt + 1
          lastCheckpointAttemptedCut := some s.machine.durableBatch
          retryCheckpointAt := none
          checkpoint := some (.preparing ticket) }
        (.effect (.prepareCheckpoint ⟨ticket, s.machine.sealed, s.machine.base, s.machine.durable⟩)))

inductive Halt (now : Instant) (s : Session) : WriterExit → Session → Prop where
  | failed (event : WriterEvent) (exit : WriterExit) (flight : Option InFlight) (checkpoint : Option CheckpointMarker)
      (failure : event.fails = true) (other : exit ≠ .shutdown) :
      Halt now s exit ⟨{ s.machine with flight, checkpoint }, .exited exit :: .observed now event s.machine :: s.log⟩
  | shutdown (closed : s.machine.ingressOpen = false) (landed : s.machine.flight = none) (idle : s.machine.checkpoint = none)
      (empty : s.machine.pending.commands = []) :
      Halt now s .shutdown ⟨s.machine, .exited .shutdown :: s.log⟩

end Session

end StromDB
