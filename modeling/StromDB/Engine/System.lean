import StromDB.Engine.Task
import StromDB.Lib.Transition

namespace StromDB

variable [Rkyv] [OrdMap.Differ]

abbrev Pid := Nat

inductive Phase where
  | idle
  | bootstrapping (state : BootstrapState) (effect : BootstrapEffect) (pending : Pending)
  | ready (recovery : WriterRecovery)
  | running (machine : WriterMachine) (timer : Option Instant) (view : Forest)
  | failed (exit : BootstrapExit)
  | stopped (exit : WriterExit)
  | panicked (message : String)
  | crashed

-- One process: the bootstrap or the writer, the writer's spawned effects, the
-- requests that are sent and not executed, and the answers to executed ones. A
-- request stays on the wire whether or not anything still waits for it.
structure Proc where
  phase : Phase
  tasks : EffectKey → Option Task
  nextRequest : Nat
  wire : List (Nat × Request)
  replies : Nat → Option Reply

namespace Proc

def idle : Proc := ⟨.idle, fun _ => none, 0, [], fun _ => none⟩

def setTask (proc : Proc) (key : EffectKey) (task : Option Task) : Proc :=
  { proc with tasks := fun other => if other = key then task else proc.tasks other }

def send (proc : Proc) : Option Request → Proc
  | none => proc
  | some request =>
    { proc with nextRequest := proc.nextRequest + 1, wire := proc.wire ++ [(proc.nextRequest, request)] }

def unsend (proc : Proc) (id : Nat) : Proc := { proc with wire := proc.wire.filter fun sent => sent.1 ≠ id }

def answer (proc : Proc) (id : Nat) (reply : Reply) : Proc :=
  { proc.unsend id with replies := fun other => if other = id then some reply else proc.replies other }

-- An answer needs an executed request; a refused one is never executed. A
-- failure says nothing about the request, which stays where it is.
def deliver (proc : Proc) (pending : Pending) : Delivery → Option (Response × Proc)
  | .answer => (proc.replies pending.request).map fun reply => (.answer reply, proc)
  | .failed detail => some (.failed detail, proc)
  | .refused detail =>
    if (proc.wire.lookup pending.request).isSome then some (.refused detail, proc.unsend pending.request) else none

end Proc

inductive Event where
  | sealCreated (pid : Pid) (sealed : Seal)
  | walCreated (pid : Pid) (object : WalObject)
  | tableCreated (pid : Pid) (candidate : EncodedTable)
  | walDeleted (pid : Pid) (object : WalObject)
  | tableDeleted (pid : Pid) (object : TableObjectId)
  | sealIssued (pid : Pid) (candidate : Seal)
  | authored (pid : Pid) (generation : SealGeneration)
  | runDeleteIssued (pid : Pid) (batch : BatchId)
  | completed (pid : Pid) (recovery : WriterRecovery)
  | bootstrapExited (pid : Pid) (exit : BootstrapExit)
  | writerExited (pid : Pid) (exit : WriterExit)
  | commanded (pid : Pid) (envelope : CommandEnvelope)
  | replied (pid : Pid) (owner : OwnerToken) (completion : Completion)
deriving DecidableEq

structure System where
  store : ObjectStore
  procs : Pid → Proc
  history : List Event

def System.initial : System := ⟨ObjectStore.empty, fun _ => Proc.idle, []⟩

inductive Slot where
  | boot
  | task (key : EffectKey)
  | table (key : EffectKey) (index : Nat)
deriving DecidableEq

inductive Label where
  | start (pid : Pid) (genesisPartition : PartitionId)
  | launch (pid : Pid) (flushIntervalMin : Instant) (flushBufferBytes : Nat) (now : Instant)
  | apply (pid : Pid) (id : Nat)
  | respond (pid : Pid) (slot : Slot) (delivery : Delivery)
  | command (pid : Pid) (now : Instant) (envelope : CommandEnvelope)
  | flushDue (pid : Pid) (now : Instant)
  | ingressClosed (pid : Pid) (now : Instant)
  | join (pid : Pid) (now : Instant) (key : EffectKey)
  | spawnTable (pid : Pid) (key : EffectKey)
  | settle (pid : Pid) (key : EffectKey)
  | crash (pid : Pid)
deriving DecidableEq

def CommandEnvelope.reply : CommandEnvelope → ReplySender
  | .create _ reply => reply
  | .close _ reply => reply
  | .delete _ reply => reply

namespace System

def setProc (sys : System) (pid : Pid) (proc : Proc) : System :=
  { sys with procs := fun other => if other = pid then proc else sys.procs other }

def setPhase (sys : System) (pid : Pid) (phase : Phase) : System :=
  sys.setProc pid { sys.procs pid with phase }

def setTask (sys : System) (pid : Pid) (key : EffectKey) (task : Option Task) : System :=
  sys.setProc pid ((sys.procs pid).setTask key task)

def record (sys : System) (events : List Event) : System := { sys with history := events ++ sys.history }

def issued (pid : Pid) : Option Request → List Event
  | some (.createSeal candidate) => [.sealIssued pid candidate]
  | some (.deleteWal batch) => [.runDeleteIssued pid batch]
  | _ => []

def send (sys : System) (pid : Pid) (request : Option Request) : System :=
  (sys.setProc pid ((sys.procs pid).send request)).record (issued pid request)

def effectOf (store : ObjectStore) (pid : Pid) : Request → List Event
  | .createSeal candidate => if store.seals.contains candidate.generation then [] else [.sealCreated pid candidate]
  | .createWal candidate => if store.wal.contains candidate.batch then [] else [.walCreated pid candidate]
  | .createTable candidate => if (store.tables candidate.key).isSome then [] else [.tableCreated pid candidate]
  | .deleteWal batch =>
    match store.wal[batch]? with
    | some object => [.walDeleted pid object]
    | none => []
  | .deleteTable object => if (store.tables object).isSome then [.tableDeleted pid object] else []
  | _ => []

def apply (sys : System) (pid : Pid) (id : Nat) : Option System :=
  match (sys.procs pid).wire.lookup id with
  | none => none
  | some request =>
    let (store, reply) := sys.store.execute request
    some (({ sys with store }.setProc pid ((sys.procs pid).answer id reply)).record (effectOf sys.store pid request))

def bootCall : BootstrapEffect → Call
  | .observeHead => .newestGeneration
  | .establishGenesis candidate => .createSeal candidate.sealed
  | .readSeal generation => .readSeal generation
  | .publishClaim candidate => .createSeal candidate.sealed
  | .readTable partition table => .readTable partition table
  | .observeWalTail => .newestSurvivingBatch
  | .readWal partition batch => .readWal partition batch
  | .establishFence candidate => .createWal candidate

def completeWith {α : Type} (succeeded : α → BootstrapEvent) : Except TypedStoreError α → BootstrapEvent
  | .ok value => succeeded value
  | .error error => .storeFailed error

def bootEvent : BootstrapEffect → CallResult → Option BootstrapEvent
  | .observeHead, .newestGeneration result => some (completeWith .headObserved result)
  | .establishGenesis _, .createSeal result =>
    some (completeWith (fun evidence => .genesisEstablished (establishGenesisOutcome evidence)) result)
  | .readSeal _, .readSeal result => some (completeWith .sealRead result)
  | .publishClaim _, .createSeal result =>
    some (completeWith (fun evidence => .claimPublished (publishAuthorityOutcome evidence)) result)
  | .readTable _ table, .readTable result => some (completeWith (.tableRead table) result)
  | .observeWalTail, .newestSurvivingBatch result => some (completeWith .walTailObserved result)
  | .readWal _ _, .readWal result => some (completeWith .walRead result)
  | .establishFence _, .establishWal result => some (completeWith .fenceEstablished result)
  | _, _ => none

def authoredBy (pid : Pid) : BootstrapEffect → BootstrapEvent → List Event
  | .publishClaim candidate, .claimPublished .authored => [.authored pid candidate.sealed.generation]
  | _, _ => []

def await (sys : System) (pid : Pid) (state : BootstrapState) (effect : BootstrapEffect) (call : Call) : System :=
  (sys.setPhase pid (.bootstrapping state effect ⟨call, (sys.procs pid).nextRequest⟩)).send pid (some call.request)

def driveBootstrap (sys : System) (pid : Pid) (state : BootstrapState) (event : BootstrapEvent) : System :=
  match Bootstrap.handle state event with
  | .error message => sys.setPhase pid (.panicked message)
  | .ok (state, .effect effect) => sys.await pid state effect (bootCall effect)
  | .ok (_, .complete recovery) => (sys.setPhase pid (.ready recovery)).record [.completed pid recovery]
  | .ok (_, .exit exit) => (sys.setPhase pid (.failed exit)).record [.bootstrapExited pid exit]

structure Execution where
  sys : System
  timer : Option Instant
  view : Forest

def spawn (sys : System) (pid : Pid) (key : EffectKey) (sent : Sent Task) : System :=
  (sys.setTask pid key (some sent.1)).send pid sent.2

def executeOutput (pid : Pid) (owner : OwnerToken) (execution : Execution) : WriterOutput → Checked Execution
  | .effect effect => do
    let proc := execution.sys.procs pid
    Checked.require (proc.tasks effect.key).isNone "an effect key is absent before the machine issues it"
    pure { execution with sys := execution.sys.spawn pid effect.key (spawnEffect proc.nextRequest effect) }
  | .action (.armFlush deadline) => do
    Checked.require execution.timer.isNone "the writer interpreter owns at most one flush timer"
    pure { execution with timer := some deadline }
  | .action (.publishView forest) => pure { execution with view := forest }
  | .action (.sendReplies replies) =>
    pure { execution with sys := execution.sys.record (replies.map (Event.replied pid owner)).reverse }
  | .action (.cancelCheckpointPreparation ticket) =>
    match (execution.sys.procs pid).tasks (.checkpointPreparation ticket) with
    | none => .error "checkpoint cancellation targets its exact present preparation"
    | some task =>
      pure { execution with sys := execution.sys.setTask pid (.checkpointPreparation ticket) (some task.cancel) }

def executeOutputs (pid : Pid) (owner : OwnerToken) : List WriterOutput → Execution → Execution × Option String
  | [], execution => (execution, none)
  | output :: rest, execution =>
    match executeOutput pid owner execution output with
    | .error message => (execution, some message)
    | .ok execution => executeOutputs pid owner rest execution

def finishStep (pid : Pid) (machine : WriterMachine) (exit : Option WriterExit) (execution : Execution) : System :=
  match exit with
  | none => execution.sys.setPhase pid (.running machine execution.timer execution.view)
  | some exit => (execution.sys.setPhase pid (.stopped exit)).record [.writerExited pid exit]

def driveWriter (sys : System) (pid : Pid) (machine : WriterMachine) (timer : Option Instant) (view : Forest) (now : Instant)
    (event : WriterEvent) : System :=
  match machine.handle now event with
  | .error message => sys.setPhase pid (.panicked message)
  | .ok (machine, outputs, exit) =>
    match executeOutputs pid machine.claim.owner outputs ⟨sys, timer, view⟩ with
    | (execution, some message) => execution.sys.setPhase pid (.panicked message)
    | (execution, none) => finishStep pid machine exit execution

def taskAuthored (pid : Pid) : Task → Task → List Event
  | .publishAuthority _ ⟨.createSeal candidate, _⟩, .finished (.sealPublished _ (.ok .authored)) =>
    [.authored pid candidate.generation]
  | _, _ => []

def Phase.alive : Phase → Bool
  | .crashed => false
  | _ => true

def respondBoot (sys : System) (pid : Pid) (delivery : Delivery) : Option System :=
  match (sys.procs pid).phase with
  | .bootstrapping state effect pending => do
    let (response, proc) ← (sys.procs pid).deliver pending delivery
    let sys := sys.setProc pid proc
    match ← pending.call.resume response with
    | .wait call => some (sys.await pid state effect call)
    | .done result =>
      let event ← bootEvent effect result
      some ((sys.record (authoredBy pid effect event)).driveBootstrap pid state event)
  | _ => none

def respondTask (sys : System) (pid : Pid) (key : EffectKey) (delivery : Delivery) : Option System := do
  let task ← (sys.procs pid).tasks key
  let pending ← task.pending
  let (response, proc) ← (sys.procs pid).deliver pending delivery
  let resumed ← pending.call.resume response
  let sent ← task.resume proc.nextRequest resumed
  some (((sys.setProc pid proc).record (taskAuthored pid task sent.1)).spawn pid key sent)

def respondTable (sys : System) (pid : Pid) (key : EffectKey) (index : Nat) (delivery : Delivery) : Option System :=
  match (sys.procs pid).tasks key with
  | some (.prepare job) => do
    let pending ← job.active[index]?
    let (response, proc) ← (sys.procs pid).deliver pending delivery
    let resumed ← pending.call.resume response
    let sent ← job.resume index proc.nextRequest resumed
    some ((sys.setProc pid proc).spawn pid key sent)
  | _ => none

def respond (sys : System) (pid : Pid) (slot : Slot) (delivery : Delivery) : Option System :=
  if !Phase.alive (sys.procs pid).phase then none
  else
    match slot with
    | .boot => sys.respondBoot pid delivery
    | .task key => sys.respondTask pid key delivery
    | .table key index => sys.respondTable pid key index delivery

def replyUnused (history : List Event) (reply : ReplySender) : Bool :=
  history.all fun event =>
    match event with
    | .commanded _ envelope => envelope.reply ≠ reply
    | _ => true

def pollIngress (sys : System) (pid : Pid) (now : Instant) (machine : WriterMachine) (timer : Option Instant) (view : Forest)
    (event : WriterEvent) (events : List Event) : Option System :=
  match machine.admissionOpen with
  | .error message => some (sys.setPhase pid (.panicked message))
  | .ok false => none
  | .ok true => some ((sys.record events).driveWriter pid machine timer view now event)

def join (sys : System) (pid : Pid) (now : Instant) (key : EffectKey) : Option System :=
  match (sys.procs pid).phase, (sys.procs pid).tasks key with
  | .running machine timer view, some (.finished event) =>
    some ((sys.setTask pid key none).driveWriter pid machine timer view now event)
  | .running _ _ _, some (.panicked message) => some (sys.setPhase pid (.panicked message))
  | .running machine timer view, some (.prepare job) =>
    if job.aborted then
      some ((sys.setTask pid key none).driveWriter pid machine timer view now (.checkpointPreparationCancelled job.ticket))
    else none
  | _, _ => none

def onJob (sys : System) (pid : Pid) (key : EffectKey) (f : PrepareJob → Option (Sent Task)) : Option System :=
  if !Phase.alive (sys.procs pid).phase then none
  else
    match (sys.procs pid).tasks key with
    | some (.prepare job) => (f job).map (sys.spawn pid key)
    | _ => none

def step : Label → System → Option System
  | .start pid genesisPartition, sys =>
    match (sys.procs pid).phase with
    | .idle => some (sys.driveBootstrap pid .initial (.started genesisPartition))
    | _ => none
  | .launch pid flushIntervalMin flushBufferBytes now, sys =>
    match (sys.procs pid).phase with
    | .ready recovery =>
      match WriterMachine.fromRecovery recovery flushIntervalMin flushBufferBytes with
      | .error message => some (sys.setPhase pid (.panicked message))
      | .ok machine => some (sys.driveWriter pid machine none recovery.durable now .started)
    | _ => none
  | .apply pid id, sys => sys.apply pid id
  | .respond pid slot delivery, sys => sys.respond pid slot delivery
  | .command pid now envelope, sys =>
    match (sys.procs pid).phase with
    | .running machine timer view =>
      if replyUnused sys.history envelope.reply then
        sys.pollIngress pid now machine timer view (.command envelope) [.commanded pid envelope]
      else none
    | _ => none
  | .flushDue pid now, sys =>
    match (sys.procs pid).phase with
    | .running machine (some deadline) view =>
      if deadline ≤ now then some (sys.driveWriter pid machine none view now .flushDue) else none
    | _ => none
  | .ingressClosed pid now, sys =>
    match (sys.procs pid).phase with
    | .running machine timer view => sys.pollIngress pid now machine timer view .ingressClosed []
    | _ => none
  | .join pid now key, sys => sys.join pid now key
  | .spawnTable pid key, sys => sys.onJob pid key fun job => job.spawnTable (sys.procs pid).nextRequest
  | .settle pid key, sys => sys.onJob pid key PrepareJob.settle
  | .crash pid, sys => some (sys.setPhase pid .crashed)

end System

def Initial (sys : System) : Prop := sys = System.initial

abbrev ReachableSystem (sys : System) : Prop := Transition.Reachable System.step Initial sys

inductive StreamStatus where
  | missing
  | deleted
  | live (contentType : StreamContentType) (expiry : ExpiryPolicy) (lifecycle : StreamLifecycle)
deriving DecidableEq

inductive StreamError where
  | occupied
  | capacityExhausted
  | notLive
  | overloaded
  | unavailable
  | indeterminate
deriving DecidableEq, Repr

def PublishedView.stream (forest : Forest) (path : StreamPath) : Checked StreamStatus :=
  match forest.resolve path with
  | none => pure .missing
  | some (.tombstone _) => pure .deleted
  | some (.live uid) => do
    let record ← Checked.expect "a live directory entry has a ledger record" (forest.record uid)
    pure (.live record.contentType record.expiry record.lifecycle)

namespace Engine

def view : Phase → Option (OwnerToken × Forest)
  | .ready recovery => some (recovery.claim.owner, recovery.durable)
  | .running machine _ forest => some (machine.claim.owner, forest)
  | _ => none

def stream (phase : Phase) (path : StreamPath) : Checked (Except StreamError StreamStatus) :=
  match view phase with
  | none => pure (.error .unavailable)
  | some (_, forest) => do
    let status ← PublishedView.stream forest path
    pure (.ok status)

end Engine

end StromDB
