import StromDB.Engine.Prepare
import StromDB.Engine.Store
import StromDB.Protocol.WriterMachine

namespace StromDB

variable [Rkyv] [OrdMap.Differ]

def CHECKPOINT_CHILD_CREATES_MAX : Nat := 16

structure Pending where
  call : Call
  request : Nat
deriving DecidableEq

inductive Delivery where
  | answer
  | failed (detail : String)
  | refused (detail : String)
deriving DecidableEq

-- Checkpoint preparation: the tables still to be sent, those being established
-- and the checkpoint that is published once all of them are.
structure PrepareJob where
  ticket : CheckpointTicket
  queue : List EncodedTable
  active : List Pending
  prepared : PreparedCheckpoint
  aborted : Bool
deriving DecidableEq

inductive CollectStage where
  | reading (batch : BatchId)
  | deletingRun (batch : BatchId)
  | deletingTable (object : TableObjectId) (rest : List TableObjectId)
deriving DecidableEq

structure CollectJob where
  input : CollectionInput
  tableDeletes : List TableObjectId
  stage : CollectStage
  pending : Pending
deriving DecidableEq

inductive Task where
  | establishWal (batch : BatchId) (pending : Pending)
  | publishAuthority (ticket : CheckpointTicket) (pending : Pending)
  | prepare (job : PrepareJob)
  | collect (job : CollectJob)
  | finished (event : WriterEvent)
  | panicked (message : String)
deriving DecidableEq

def establishGenesisOutcome : CreateEvidence → GenesisEstablishment
  | .direct => .established
  | .durableMatch => .established
  | .notOurs => .lostRace
  | .unresolved => .unresolved

def publishAuthorityOutcome : CreateEvidence → SealPublication
  | .direct => .authored
  | .durableMatch => .noAuthority
  | .notOurs => .noAuthority
  | .unresolved => .unresolved

def droppedBy (input : CollectionInput) : List TableObjectId :=
  (input.source.tables.map TableRef.object).filter fun object =>
    !(input.successor.tables.map TableRef.object).contains object

def collectFirst (input : CollectionInput) : Checked BatchId :=
  match input.source.replay.batch with
  | none => Checked.expectOk "batch one is a legal WAL coordinate" (BatchId.tryFrom 1)
  | some previous => Checked.expectOk "a source cut below its prepared successor cut has a successor" previous.successor

omit [Rkyv] [OrdMap.Differ] in
theorem collectFirst_ok {input : CollectionInput} (advances : input.source.replay.cut < input.cut.get) :
    ∃ batch : BatchId, collectFirst input = .ok batch ∧ batch.get = input.source.replay.cut + 1 := by
  unfold collectFirst
  cases replay : input.source.replay with
  | genesis => exact ⟨⟨⟨1, by decide, by decide⟩⟩, rfl, rfl⟩
  | through previous owner =>
    rw [replay] at advances
    simp only [WalReplayPoint.batch, WalReplayPoint.cut] at advances ⊢
    cases found : previous.successor with
    | ok next => exact ⟨next, rfl, BatchId.successor_ok_iff.mp found⟩
    | error exhausted =>
      have last := (BatchId.successor_error_iff _ _).mp found
      have bound := input.cut.raw.bounded
      simp only [BatchId.get] at advances last bound
      omega

abbrev Sent (α : Type) := α × Option Request

namespace CollectJob

def read (input : CollectionInput) (tableDeletes : List TableObjectId) (batch : BatchId) (id : Nat) : Sent Task :=
  (.collect ⟨input, tableDeletes, .reading batch, ⟨.readWal input.source.partition batch, id⟩⟩, some (.getWal batch))

def deleteTables (input : CollectionInput) (tableDeletes : List TableObjectId) (id : Nat) : List TableObjectId → Sent Task
  | [] => (.finished (.collectFinished input.cut), none)
  | object :: rest =>
    (.collect ⟨input, tableDeletes, .deletingTable object rest, ⟨.deleteTable object, id⟩⟩, some (.deleteTable object))

def advance (job : CollectJob) (batch : BatchId) (id : Nat) : Sent Task :=
  if batch = job.input.cut then deleteTables job.input job.tableDeletes id job.tableDeletes
  else
    match batch.successor with
    | .ok next => read job.input job.tableDeletes next id
    | .error _ => (.panicked "a collection coordinate below its cut has a successor", none)

def finish (job : CollectJob) : Sent Task := (.finished (.collectFinished job.input.cut), none)

-- Collection is best effort: any failure ends it, and a FENCE is never deleted.
def step (job : CollectJob) (id : Nat) (result : CallResult) : Option (Sent Task) :=
  match job.stage, result with
  | .reading batch, .readWal (.ok (some observed)) =>
    match observed.body with
    | .run _ =>
      some (.collect { job with stage := .deletingRun batch, pending := ⟨.deleteRun observed.batch, id⟩ },
        some (.deleteWal observed.batch))
    | .fence => some (job.advance batch id)
  | .reading batch, .readWal (.ok none) => some (job.advance batch id)
  | .reading _, .readWal (.error _) => some job.finish
  | .deletingRun batch, .delete (.ok _) => some (job.advance batch id)
  | .deletingRun _, .delete (.error _) => some job.finish
  | .deletingTable _ rest, .delete (.ok _) => some (deleteTables job.input job.tableDeletes id rest)
  | .deletingTable _ _, .delete (.error _) => some job.finish
  | _, _ => none

end CollectJob

def spawnCollect (input : CollectionInput) (id : Nat) : Sent Task :=
  match collectFirst input with
  | .error message => (.panicked message, none)
  | .ok first => CollectJob.read input (droppedBy input) first id

def spawnPrepare (input : CheckpointInput) : Task :=
  match prepareCheckpoint input with
  | .error message =>
    .finished (.checkpointPrepared input.ticket
      (.contradiction ("checkpoint preparation task failed: " ++ message)))
  | .ok (.error detail) => .finished (.checkpointPrepared input.ticket (.contradiction detail))
  | .ok (.ok (tables, prepared)) => .prepare ⟨input.ticket, tables, [], prepared, false⟩

def spawnEffect (id : Nat) : WriterEffect → Sent Task
  | .establishWal candidate =>
    (.establishWal candidate.object.batch ⟨.createWal candidate, id⟩, some (.createWal candidate.object))
  | .prepareCheckpoint input => (spawnPrepare input, none)
  | .publishAuthority ticket candidate =>
    (.publishAuthority ticket ⟨.createSeal candidate.sealed, id⟩, some (.createSeal candidate.sealed))
  | .collect input => spawnCollect input id

namespace PrepareJob

def spawnTable (job : PrepareJob) (id : Nat) : Option (Sent Task) :=
  match job.queue with
  | [] => none
  | table :: queue =>
    if job.active.length < CHECKPOINT_CHILD_CREATES_MAX then
      some (.prepare { job with queue, active := job.active ++ [⟨.createTable table, id⟩] }, some (.createTable table))
    else none

def resume (job : PrepareJob) (index id : Nat) : CallStep → Option (Sent Task)
  | .wait call => some (.prepare { job with active := job.active.set index ⟨call, id⟩ }, some call.request)
  | .done (.establishTable .established) => some (.prepare { job with active := job.active.eraseIdx index }, none)
  | .done (.establishTable .abandoned) => some (.finished (.checkpointPrepared job.ticket .abandoned), none)
  | .done (.establishTable (.contradiction detail)) =>
    some (.finished (.checkpointPrepared job.ticket (.contradiction detail)), none)
  | .done _ => none

def settle (job : PrepareJob) : Option (Sent Task) :=
  if job.queue = [] ∧ job.active = [] then
    some (.finished (.checkpointPrepared job.ticket (.prepared job.prepared)), none)
  else none

end PrepareJob

namespace Task

def pending : Task → Option Pending
  | .establishWal _ pending => some pending
  | .publishAuthority _ pending => some pending
  | .collect job => some job.pending
  | _ => none

def resume (task : Task) (id : Nat) (step : CallStep) : Option (Sent Task) :=
  match task, step with
  | .establishWal batch _, .wait call => some (.establishWal batch ⟨call, id⟩, some call.request)
  | .establishWal batch _, .done (.establishWal result) => some (.finished (.walEstablished batch result), none)
  | .publishAuthority ticket _, .wait call => some (.publishAuthority ticket ⟨call, id⟩, some call.request)
  | .publishAuthority ticket _, .done (.createSeal result) =>
    some (.finished (.sealPublished ticket (result.map publishAuthorityOutcome)), none)
  | .collect job, .done result => job.step id result
  | _, _ => none

def cancel : Task → Task
  | .prepare job => .prepare { job with aborted := true }
  | task => task

end Task

end StromDB
