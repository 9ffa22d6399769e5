import StromDB.Refinement.Replies

namespace StromDB

variable [Rkyv]

-- What happened to one writer, newest first in a log: an observation with the
-- machine that received it, the outputs in their order and the exit.
inductive Entry where
  | observed (now : Instant) (event : WriterEvent) (machine : WriterMachine)
  | emitted (output : WriterOutput)
  | exited (exit : WriterExit)
deriving DecidableEq

structure Session where
  machine : WriterMachine
  log : List Entry
deriving DecidableEq

def WriterEvent.completes : WriterEvent → Option EffectKey
  | .walEstablished batch _ => some (.wal batch)
  | .checkpointPrepared ticket _ => some (.checkpointPreparation ticket)
  | .sealPublished ticket _ => some (.sealPublication ticket)
  | .collectFinished cut => some (.collection cut)
  | .checkpointPreparationCancelled ticket => some (.checkpointPreparation ticket)
  | _ => none

namespace WriterMachine

def admits (machine : WriterMachine) (envelope : CommandEnvelope) : Option OperationFact :=
  match decideAdmission machine.admitted machine.nextBatch envelope with
  | .ok (.fact admitted _) =>
    if runLeavesTakeoverRoom machine.sealed.replay.batch machine.nextBatch then some admitted.fact else none
  | _ => none

-- The completion that admission decides, released at once or kept at the end of
-- the barrier.
def verdict (machine : WriterMachine) (envelope : CommandEnvelope) : Option Completion :=
  match machine.admitCommand envelope with
  | .ok (_, some completion) => some completion
  | .ok (after, none) => after.pending.replies.getLast?
  | .error _ => none

def flightReplies (machine : WriterMachine) : List Completion := (machine.flight.map InFlight.replies).getD []

def held (machine : WriterMachine) : List Completion := machine.flightReplies ++ machine.pending.replies

end WriterMachine

namespace Entry

@[simp] def replies : Entry → List Completion
  | .emitted (.action (.sendReplies replies)) => replies
  | _ => []

@[simp] def effects : Entry → List WriterEffect
  | .emitted (.effect effect) => [effect]
  | _ => []

@[simp] def runs : Entry → List WalObject
  | .emitted (.effect (.establishWal candidate)) => [candidate.object]
  | _ => []

@[simp] def attempts : Entry → List CheckpointInput
  | .emitted (.effect (.prepareCheckpoint input)) => [input]
  | _ => []

@[simp] def commands : Entry → List CommandEnvelope
  | .observed _ (.command envelope) _ => [envelope]
  | _ => []

@[simp] def facts : Entry → List OperationFact
  | .observed _ (.command envelope) machine => (machine.admits envelope).toList
  | _ => []

@[simp] def verdicts : Entry → List Completion
  | .observed _ (.command envelope) machine => (machine.verdict envelope).toList
  | _ => []

@[simp] def lands (object : WalObject) : Entry → Bool
  | .observed _ (.walEstablished batch (.ok .durable)) _ => object.batch = batch
  | _ => false

@[simp] def completes (effect : WriterEffect) : Entry → Bool
  | .observed _ event _ => event.completes = some effect.key
  | _ => false

@[simp] def cancels (ticket : CheckpointTicket) : Entry → Bool
  | .emitted (.action (.cancelCheckpointPreparation cancelled)) => cancelled = ticket
  | _ => false

@[simp] def timer (before : Option Instant) : Entry → Option Instant
  | .emitted (.action (.armFlush deadline)) => some deadline
  | .observed _ .flushDue _ => none
  | _ => before

@[simp] def view (before : Forest) : Entry → Forest
  | .emitted (.action (.publishView forest)) => forest
  | _ => before

@[simp] def exit (before : Option WriterExit) : Entry → Option WriterExit
  | .exited exit => some exit
  | _ => before

@[simp] def clock (before : Instant) : Entry → Instant
  | .observed now _ _ => now
  | _ => before

end Entry

namespace Log

@[simp] def released : List Entry → List Completion
  | [] => []
  | entry :: older => released older ++ entry.replies

@[simp] def runs : List Entry → List WalObject
  | [] => []
  | entry :: older => runs older ++ entry.runs

@[simp] def landed : List Entry → List WalObject
  | [] => []
  | entry :: older => landed older ++ (runs older).filter (fun object => entry.lands object)

@[simp] def attempts : List Entry → List CheckpointInput
  | [] => []
  | entry :: older => attempts older ++ entry.attempts

@[simp] def commands : List Entry → List CommandEnvelope
  | [] => []
  | entry :: older => commands older ++ entry.commands

@[simp] def facts : List Entry → List OperationFact
  | [] => []
  | entry :: older => facts older ++ entry.facts

@[simp] def verdicts : List Entry → List Completion
  | [] => []
  | entry :: older => verdicts older ++ entry.verdicts

@[simp] def outstanding : List Entry → List WriterEffect
  | [] => []
  | entry :: older => (outstanding older).filter (fun effect => !entry.completes effect) ++ entry.effects

def cancelled (ticket : CheckpointTicket) (log : List Entry) : Bool := log.any fun entry => entry.cancels ticket

@[simp] def timer : List Entry → Option Instant
  | [] => none
  | entry :: older => entry.timer (timer older)

@[simp] def view (recovered : Forest) : List Entry → Forest
  | [] => recovered
  | entry :: older => entry.view (view recovered older)

@[simp] def exit : List Entry → Option WriterExit
  | [] => none
  | entry :: older => entry.exit (exit older)

@[simp] def clock : List Entry → Instant
  | [] => 0
  | entry :: older => entry.clock (clock older)

def Every (holds : Entry → List Entry → Prop) : List Entry → Prop
  | [] => True
  | entry :: older => holds entry older ∧ Every holds older

end Log

namespace Log

@[simp] theorem cancelled_nil (ticket : CheckpointTicket) : cancelled ticket [] = false := rfl

@[simp] theorem cancelled_cons (ticket : CheckpointTicket) (entry : Entry) (older : List Entry) :
    cancelled ticket (entry :: older) = (entry.cancels ticket || cancelled ticket older) := rfl

def emits (outputs : List WriterOutput) (log : List Entry) : List Entry := (outputs.map Entry.emitted).reverse ++ log

section

variable (outputs : List WriterOutput) (output : WriterOutput) (log : List Entry)

@[simp] theorem emits_nil : emits [] log = log := rfl

@[simp] theorem emits_cons : emits (output :: outputs) log = emits outputs (.emitted output :: log) := by
  simp [emits]

theorem emits_append (later : List WriterOutput) : emits (outputs ++ later) log = emits later (emits outputs log) := by
  simp [emits]

end

instance Every.decidable (holds : Entry → List Entry → Prop) [∀ entry older, Decidable (holds entry older)] :
    ∀ log, Decidable (Every holds log)
  | [] => isTrue trivial
  | _ :: older =>
    have := Every.decidable holds older
    inferInstanceAs (Decidable (_ ∧ _))

section

variable (holds : Entry → List Entry → Prop)

@[simp] theorem Every.nil : Every holds [] := trivial

theorem Every.older (newer : List Entry) (entry : Entry) (older : List Entry)
    (every : Every holds (newer ++ entry :: older)) : holds entry older := by
  induction newer with
  | nil => exact every.1
  | cons _ _ ih => exact ih every.2

theorem Every.suffix (newer older : List Entry) (every : Every holds (newer ++ older)) : Every holds older := by
  induction newer with
  | nil => exact every
  | cons _ _ ih => exact ih every.2

theorem Every.before (outputs : List WriterOutput) (log : List Entry) (every : Every holds (emits outputs log)) : Every holds log :=
  every.suffix holds _ log

end

section

variable (outputs : List WriterOutput) (log : List Entry)

theorem clock_emits : clock (emits outputs log) = clock log := by
  induction outputs generalizing log with
  | nil => rfl
  | cons output rest ih =>
    rw [emits_cons, ih]
    rfl

theorem exit_emits : exit (emits outputs log) = exit log := by
  induction outputs generalizing log with
  | nil => rfl
  | cons output rest ih =>
    rw [emits_cons, ih]
    rfl

theorem commands_emits : commands (emits outputs log) = commands log := by
  induction outputs generalizing log with
  | nil => rfl
  | cons output rest ih =>
    rw [emits_cons, ih]
    exact List.append_nil _

end

end Log

def PreparationOutcome.builtFrom (input : CheckpointInput) : PreparationOutcome → Bool
  | .prepared checkpoint =>
    PreparedCheckpoint.new input.ticket input.source checkpoint.successor input.snapshot checkpoint.candidate = .ok checkpoint
  | _ => true

namespace Session

def awaits (session : Session) (key : EffectKey) : Bool :=
  (Log.outstanding session.log).any fun effect => effect.key = key

def prepares (session : Session) (ticket : CheckpointTicket) (outcome : PreparationOutcome) : Bool :=
  (Log.outstanding session.log).any fun effect =>
    match effect with
    | .prepareCheckpoint input => input.ticket = ticket && outcome.builtFrom input
    | _ => false

-- Started comes once and first.
def conforms (session : Session) (event : WriterEvent) : Bool :=
  (Log.exit session.log).isNone && (decide (event = .started) == session.log.isEmpty) &&
    match event with
    | .started => true
    | .command envelope =>
      decide (session.machine.admissionOpen = .ok true) &&
        (Log.commands session.log).all fun earlier => earlier.reply ≠ envelope.reply
    | .flushDue => (Log.timer session.log).isSome
    | .ingressClosed => session.machine.admissionOpen = .ok true
    | .walEstablished batch _ => session.awaits (.wal batch)
    | .checkpointPrepared ticket outcome => session.prepares ticket outcome
    | .sealPublished ticket _ => session.awaits (.sealPublication ticket)
    | .collectFinished cut => session.awaits (.collection cut)
    | .checkpointPreparationCancelled ticket =>
      session.awaits (.checkpointPreparation ticket) && Log.cancelled ticket session.log

def after (session : Session) (now : Instant) (event : WriterEvent) (effects : WriterMachine.Effects) : Session :=
  ⟨effects.1, (effects.2.2.map Entry.exited).toList ++ Log.emits effects.2.1 (.observed now event session.machine :: session.log)⟩

def step (label : Instant × WriterEvent) (session : Session) : Option Session :=
  if session.conforms label.2 then
    match session.machine.handle label.1 label.2 with
    | .ok effects => some (session.after label.1 label.2 effects)
    | .error _ => none
  else none

def Opens (recovery : WriterRecovery) (session : Session) : Prop :=
  ∃ flushIntervalMin flushBufferBytes,
    WriterMachine.fromRecovery recovery flushIntervalMin flushBufferBytes = .ok session.machine ∧ session.log = []

end Session

abbrev ReachableSession (recovery : WriterRecovery) (session : Session) : Prop :=
  Transition.Reachable Session.step (Session.Opens recovery) session

end StromDB
