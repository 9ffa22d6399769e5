import StromDB.Refinement.Calls

namespace StromDB

open List

variable [Rkyv]

inductive Assignment where
  | wal (object : WalObject)
  | prepare (ticket : CheckpointTicket)
  | publish (ticket : CheckpointTicket) (candidate : Seal)
  | collect (input : CollectionInput)

def Assignment.key : Assignment → EffectKey
  | .wal object => .wal object.batch
  | .prepare ticket => .checkpointPreparation ticket
  | .publish ticket _ => .sealPublication ticket
  | .collect input => .collection input.cut

namespace View

structure Planned (view : View) (pid : Pid) (ticket : CheckpointTicket) (created : List EncodedTable)
    (prepared : PreparedCheckpoint) : Prop where
  author : view.Authored pid ticket.attempt.ownerClaim
  source : prepared.source ∈ view.chain
  candidate : prepared.candidate.sealed = prepared.successor
  advance : Advance prepared.source prepared.successor
  replay : prepared.successor.replay = .through ticket.cut ⟨ticket.attempt.ownerClaim⟩
  newest : ∀ claim, view.Claim claim → claim.generation.get ≤ prepared.source.generation.get →
    claim.generation.get ≤ ticket.attempt.ownerClaim.get
  legal : prepared.successor.Legal
  bounds : SourceBounds prepared.successor
  owner : view.OwnerIs ticket.cut.get ticket.attempt.ownerClaim.get
  folded : view.FoldIs ticket.cut.get prepared.snapshot
  fresh : ∀ table ∈ created, table.key.fresh.attempt = ticket.attempt
  keys : (created.map EncodedTable.key).Nodup
  content : ∀ tables : Tables, (∀ object body, view.tables object = some body → tables object = some body) →
    (∀ table ∈ created, tables table.key = some table.object) → Content tables prepared.successor prepared.snapshot

theorem Planned.extend {before after : View} (extended : before.Extends after) (old : before.ChainOk) (new : after.ChainOk)
    (pid : Pid) (ticket : CheckpointTicket) (created : List EncodedTable) (prepared : PreparedCheckpoint)
    (planned : before.Planned pid ticket created prepared) : after.Planned pid ticket created prepared :=
  { planned with
    author := planned.author.extend extended
    source := extended.chain.subset planned.source
    newest := by
      intro claim claimed below
      have within := old.generation_le prepared.source planned.source
      exact planned.newest claim (claimed.reflect extended old new claim (by omega)) below
    owner := planned.owner.extend extended
    folded := planned.folded.extend extended
    content := fun tables kept =>
      planned.content tables fun object body found => kept object body (extended.tables object body found) }

theorem Planned.advanceOp {view : View} {pid : Pid} {ticket : CheckpointTicket} {created : List EncodedTable}
    {prepared : PreparedCheckpoint} (planned : view.Planned pid ticket created prepared)
    (established : ∀ table ∈ created, view.tables table.key = some table.object) : view.AdvanceOp prepared.successor where
  source := by
    refine ⟨prepared.source, planned.source, planned.advance, ?_⟩
    rw [planned.replay]
    exact planned.newest
  legal := planned.legal
  bounds := planned.bounds
  owner := by
    rw [planned.replay]
    exact planned.owner
  content := by
    rw [planned.replay]
    exact ⟨prepared.snapshot, planned.folded, planned.content view.tables (fun _ _ found => found) established⟩

structure CollectPlan (view : View) (pid : Pid) (input : CollectionInput) : Prop where
  source : input.source ∈ view.chain
  successor : input.successor ∈ view.chain
  next : input.successor.generation.get = input.source.generation.get + 1
  author : view.Authored pid input.successor.generation
  cut : input.successor.replay.cut = input.cut.get
  advances : input.source.replay.cut < input.cut.get

theorem CollectPlan.extend {before after : View} (extended : before.Extends after) (pid : Pid) (input : CollectionInput)
    (plan : before.CollectPlan pid input) : after.CollectPlan pid input :=
  { plan with
    source := extended.chain.subset plan.source
    successor := extended.chain.subset plan.successor
    author := plan.author.extend extended }

structure JobOk (view : View) (pid : Pid) (proc : Proc) (ticket : CheckpointTicket) (created : List EncodedTable)
    (job : PrepareJob) : Prop where
  same : job.ticket = ticket
  planned : view.Planned pid ticket created job.prepared
  covered : ∀ table ∈ created, table ∈ job.queue ∨ (∃ pending ∈ job.active, TableCall table pending.call) ∨
    view.tables table.key = some table.object
  queued : job.queue.Sublist created
  unfiled : ∀ table ∈ job.queue, ∀ body, ¬ view.Filed pid proc table.key body
  active : ∀ pending ∈ job.active, view.PendingOk pid proc pending ∧ ∃ table ∈ created, TableCall table pending.call ∧
    ∀ body, view.Filed pid proc table.key body → body = table.object

def StageOk (view : View) (pid : Pid) (input : CollectionInput) (call : Call) : CollectStage → Prop
  | .reading batch => call = .readWal input.source.partition batch ∧ input.source.replay.cut < batch.get ∧
      batch.get ≤ input.cut.get ∧ ∀ later : BatchId, batch.get ≤ later.get → (pid, later) ∉ view.issued
  | .deletingRun batch => call = .deleteRun batch ∧ input.source.replay.cut < batch.get ∧ batch.get ≤ input.cut.get ∧
      ∀ later : BatchId, batch.get < later.get → (pid, later) ∉ view.issued
  | .deletingTable object rest => call = .deleteTable object ∧ rest ⊆ droppedBy input

structure CollectOk (view : View) (pid : Pid) (proc : Proc) (input : CollectionInput) (job : CollectJob) : Prop where
  same : job.input = input
  plan : view.CollectPlan pid input
  deletes : job.tableDeletes = droppedBy input
  pending : view.PendingOk pid proc job.pending
  stage : view.StageOk pid input job.pending.call job.stage

def OutcomeOk (view : View) (pid : Pid) (ticket : CheckpointTicket) : PreparationOutcome → Prop
  | .prepared prepared => ∃ created, view.Planned pid ticket created prepared ∧
      ∀ table ∈ created, view.tables table.key = some table.object
  | .abandoned => True
  | .contradiction _ => 2 ^ 64 ≤ ticket.source.get + 1 ∧ ticket.source.get ≤ view.chain.length

def TaskOk (view : View) (pid : Pid) (proc : Proc) : Assignment → Task → Prop
  | .wal object, .establishWal batch pending => batch = object.batch ∧
      (∃ candidate : EncodedWal, candidate.object = object ∧ WalCall candidate pending.call) ∧
      (∃ sealed ∈ view.chain, object.partition = sealed.partition) ∧ view.PendingOk pid proc pending
  | .wal object, .finished event => ∃ result, event = .walEstablished object.batch result ∧ view.WalResult object result
  | .prepare ticket, .prepare job => ∃ created, view.JobOk pid proc ticket created job
  | .prepare ticket, .finished event => ∃ outcome, event = .checkpointPrepared ticket outcome ∧ view.OutcomeOk pid ticket outcome
  | .publish ticket candidate, .publishAuthority active pending => active = ticket ∧ SealCall candidate pending.call ∧
      view.PendingOk pid proc pending
  | .publish ticket candidate, .finished event => ∃ result, event = .sealPublished ticket result ∧
      (result = .ok .authored → candidate ∈ view.chain ∧ view.Authored pid candidate.generation) ∧
      ∀ detail, result ≠ .error (.contradiction detail)
  | .collect input, .collect job => view.CollectOk pid proc input job
  | .collect input, .finished event => event = .collectFinished input.cut
  | _, _ => False

section

variable {pid : Pid} {before after : View} {proc next : Proc} (held : Keeps pid before after proc next) (old : before.ChainOk)
  (new : after.ChainOk)

include held old new

theorem JobOk.keeps (filed : ∀ object body, after.Filed pid next object body → before.Filed pid proc object body)
    (ticket : CheckpointTicket) (created : List EncodedTable) (job : PrepareJob)
    (ok : before.JobOk pid proc ticket created job) : after.JobOk pid next ticket created job where
  same := ok.same
  planned := ok.planned.extend held.extended old new
  covered := fun table member => (ok.covered table member).imp_right (Or.imp_right (held.extended.tables _ _))
  queued := ok.queued
  unfiled := fun table member body there => ok.unfiled table member body (filed _ body there)
  active := by
    intro pending member
    obtain ⟨waits, table, planned, call, mine⟩ := ok.active pending member
    exact ⟨waits.keeps held pending, table, planned, call, fun body there => mine body (filed _ body there)⟩

omit old new in
theorem CollectOk.keeps (issued : ∀ batch, (pid, batch) ∈ after.issued → (pid, batch) ∈ before.issued) (input : CollectionInput)
    (job : CollectJob) (ok : before.CollectOk pid proc input job) : after.CollectOk pid next input job where
  same := ok.same
  plan := ok.plan.extend held.extended
  deletes := ok.deletes
  pending := ok.pending.keeps held
  stage := by
    have stage := ok.stage
    unfold StageOk at stage ⊢
    split at stage
    · exact ⟨stage.1, stage.2.1, stage.2.2.1, fun later above there => stage.2.2.2 later above (issued later there)⟩
    · exact ⟨stage.1, stage.2.1, stage.2.2.1, fun later above there => stage.2.2.2 later above (issued later there)⟩
    · exact stage

theorem TaskOk.keeps (assignment : Assignment)
    (filed : ∀ ticket, assignment = .prepare ticket → ∀ object body, after.Filed pid next object body →
      before.Filed pid proc object body)
    (issued : ∀ input, assignment = .collect input → ∀ batch, (pid, batch) ∈ after.issued → (pid, batch) ∈ before.issued)
    (task : Task) (ok : before.TaskOk pid proc assignment task) : after.TaskOk pid next assignment task := by
  have extended := held.extended
  unfold TaskOk at ok ⊢
  split at ok
  · obtain ⟨batch, call, ⟨sealed, member, partition⟩, waits⟩ := ok
    exact ⟨batch, call, ⟨sealed, extended.chain.subset member, partition⟩, waits.keeps held⟩
  · obtain ⟨result, event, known⟩ := ok
    exact ⟨result, event, known.extend extended⟩
  · obtain ⟨created, job⟩ := ok
    exact ⟨created, job.keeps held old new (filed _ rfl)⟩
  · obtain ⟨outcome, event, known⟩ := ok
    refine ⟨outcome, event, ?_⟩
    cases outcome with
    | prepared prepared =>
      obtain ⟨created, planned, established⟩ := known
      exact ⟨created, planned.extend extended old new, fun table member => extended.tables _ _ (established table member)⟩
    | abandoned => trivial
    | contradiction detail => exact ⟨known.1, Nat.le_trans known.2 extended.chain.length_le⟩
  · exact ⟨ok.1, ok.2.1, ok.2.2.keeps held⟩
  · obtain ⟨result, event, authored, legal⟩ := ok
    exact ⟨result, event, fun same => ⟨extended.chain.subset (authored same).1, (authored same).2.extend extended⟩, legal⟩
  · exact ok.keeps held (issued _ rfl)
  · exact ok
  · exact ok

end

-- What a task leaves behind when it moves on: its next request is sent, and
-- only tables of its own attempt and coordinates of its own range are asked
-- for.
structure SentOk (view : View) (pid : Pid) (proc : Proc) (assignment : Assignment) (sent : Sent Task) : Prop where
  ok : (view.issue pid sent.2).Ok
  wire : (view.issue pid sent.2).WireOk pid (proc.send sent.2)
  task : (view.issue pid sent.2).TaskOk pid (proc.send sent.2) assignment sent.1
  wrote : ∀ object, (view.issue pid sent.2).Wrote pid (proc.send sent.2) object → view.Wrote pid proc object
  filed : ∀ object body, (view.issue pid sent.2).Filed pid (proc.send sent.2) object body → view.Filed pid proc object body ∨
    ∃ ticket, assignment = .prepare ticket ∧ object.fresh.attempt = ticket.attempt
  issued : ∀ batch, (pid, batch) ∈ (view.issue pid sent.2).issued → (pid, batch) ∈ view.issued ∨
    ∃ input, assignment = .collect input ∧ batch.get ≤ input.cut.get

structure Launched (view : View) (pid : Pid) (proc : Proc) (assignment : Assignment) (sent : Sent Task) : Prop where
  ok : (view.issue pid sent.2).Ok
  wire : (view.issue pid sent.2).WireOk pid (proc.send sent.2)
  task : (view.issue pid sent.2).TaskOk pid (proc.send sent.2) assignment sent.1
  filed : ∀ object body, (view.issue pid sent.2).Filed pid (proc.send sent.2) object body → view.Filed pid proc object body ∨
    ∃ ticket, assignment = .prepare ticket ∧ object.fresh.attempt = ticket.attempt
  issued : ∀ batch, (pid, batch) ∈ (view.issue pid sent.2).issued → (pid, batch) ∈ view.issued ∨
    ∃ input, assignment = .collect input ∧ batch.get ≤ input.cut.get

theorem SentOk.launched {view : View} {pid : Pid} {proc : Proc} {assignment : Assignment} {sent : Sent Task}
    (done : SentOk view pid proc assignment sent) : Launched view pid proc assignment sent :=
  ⟨done.ok, done.wire, done.task, done.filed, done.issued⟩

section

variable {view : View} {pid : Pid} {proc : Proc} (known : view.Ok) (wire : view.WireOk pid proc)

include known wire

theorem SentOk.rest (assignment : Assignment) (task : Task) (ok : view.TaskOk pid proc assignment task) :
    SentOk view pid proc assignment (task, none) :=
  ⟨known, wire, ok, fun _ there => there, fun _ _ there => .inl there, fun _ there => .inl there⟩

theorem SentOk.plain (assignment : Assignment) (task : Task) (request : Request) (plain : Plain request = true)
    (op : view.OpOk pid request) (ok : view.TaskOk pid (proc.send (some request)) assignment task) :
    SentOk view pid proc assignment (task, some request) := by
  have same : view.issue pid (some request) = view := issue_plain plain
  have silent : Silent pid view view proc (proc.send (some request)) := silent_plain plain
  refine ⟨?_, ?_, ?_, ?_, ?_, ?_⟩ <;> simp only [same]
  · exact known
  · exact wire.send_plain known request plain op
  · exact ok
  · exact silent.wrote
  · exact fun object body there => .inl (silent.filed object body there)
  · exact fun _ there => .inl there

omit known in
theorem PendingOk.plain_now (call : Call) (plain : Plain call.request = true) :
    view.PendingOk pid (proc.send (some call.request)) ⟨call, proc.nextRequest⟩ := by
  have waits := PendingOk.sent_now wire call
  rwa [issue_plain plain] at waits

theorem wal_resume (object : WalObject) (batch : BatchId) (pending : Pending)
    (ok : view.TaskOk pid proc (.wal object) (.establishWal batch pending)) (response : Response)
    (told : view.ResponseOk pid pending.call response) (step : CallStep) (resumed : pending.call.resume response = some step)
    (sent : Sent Task) (moved : Task.resume (.establishWal batch pending) proc.nextRequest step = some sent) :
    SentOk view pid proc (.wal object) sent := by
  obtain ⟨same, ⟨candidate, rfl, call⟩, ⟨sealed, member, partition⟩, waits⟩ := ok
  rcases WalCall.resume known candidate sealed member partition _ call response told step resumed with
    ⟨next, rfl, asks⟩ | ⟨result, rfl, outcome⟩
  · cases moved
    have plain : Plain next.request = true := by
      rcases asks with rfl | rfl <;> rfl
    have op : view.OpOk pid next.request := by
      rcases asks with rfl | rfl <;> trivial
    exact SentOk.plain known wire _ _ next.request plain op
      ⟨same, ⟨candidate, rfl, .inr asks⟩, ⟨sealed, member, partition⟩, PendingOk.plain_now wire next plain⟩
  · cases moved
    exact SentOk.rest known wire _ _ ⟨result, by rw [same], outcome⟩

theorem publish_resume (ticket active : CheckpointTicket) (candidate : Seal) (pending : Pending)
    (ok : view.TaskOk pid proc (.publish ticket candidate) (.publishAuthority active pending)) (response : Response)
    (told : view.ResponseOk pid pending.call response) (step : CallStep) (resumed : pending.call.resume response = some step)
    (sent : Sent Task) (moved : Task.resume (.publishAuthority active pending) proc.nextRequest step = some sent) :
    SentOk view pid proc (.publish ticket candidate) sent := by
  obtain ⟨rfl, call, waits⟩ := ok
  rcases SealCall.resume call response told step resumed with rfl | ⟨result, rfl, outcome⟩
  · cases moved
    exact SentOk.plain known wire _ _ _ rfl trivial
      ⟨rfl, .inr rfl, PendingOk.plain_now wire (.compareSeal candidate) rfl⟩
  cases moved
  refine SentOk.rest known wire _ _ ⟨_, rfl, ?_, ?_⟩
  · intro authored
    refine outcome.direct ?_
    cases result with
    | error error => cases authored
    | ok evidence =>
      cases evidence with
      | direct => rfl
      | _ => cases authored
  · intro detail failed
    cases result with
    | ok evidence => cases failed
    | error error =>
      cases failed
      exact outcome.legal detail rfl

end

section

variable {view : View} {pid : Pid} {proc : Proc} (known : view.Ok) (wire : view.WireOk pid proc) (input : CollectionInput)
  (plan : view.CollectPlan pid input)

include known plan

theorem CollectPlan.dropped (object : TableObjectId) (member : object ∈ droppedBy input) : view.Unselectable object := by
  obtain ⟨selected, gone⟩ := mem_filter.mp member
  obtain ⟨table, here, rfl⟩ := mem_map.mp selected
  have born := (known.chain.legal input.source plan.source).births table here
  have next := plan.next
  refine ⟨input.successor, plan.successor, by omega, ?_⟩
  simpa using gone

omit known in
theorem CollectPlan.right (batch : BatchId) (above : input.source.replay.cut < batch.get) (below : batch.get ≤ input.cut.get) :
    view.DeleteRight pid batch :=
  ⟨input.source, plan.source, input.successor, plan.successor, plan.next, plan.author, above, by rw [plan.cut]; exact below⟩

include wire

theorem collect_read (batch : BatchId) (above : input.source.replay.cut < batch.get) (below : batch.get ≤ input.cut.get)
    (ahead : ∀ later : BatchId, batch.get ≤ later.get → (pid, later) ∉ view.issued) :
    SentOk view pid proc (.collect input) (CollectJob.read input (droppedBy input) batch proc.nextRequest) :=
  SentOk.plain known wire _ _ (.getWal batch) rfl trivial
    ⟨rfl, plan, rfl, PendingOk.plain_now wire (.readWal input.source.partition batch) rfl, rfl, above, below, ahead⟩

theorem collect_deleteTables (objects : List TableObjectId) (dropped : objects ⊆ droppedBy input) :
    SentOk view pid proc (.collect input) (CollectJob.deleteTables input (droppedBy input) proc.nextRequest objects) := by
  cases objects with
  | nil => exact SentOk.rest known wire _ _ rfl
  | cons object rest =>
    have first := dropped mem_cons_self
    exact SentOk.plain known wire _ _ (.deleteTable object) rfl (plan.dropped known input object first)
      ⟨rfl, plan, rfl, PendingOk.plain_now wire (.deleteTable object) rfl, rfl, fun _ member => dropped (mem_cons_of_mem _ member)⟩

theorem collect_advance (job : CollectJob) (same : job.input = input) (deletes : job.tableDeletes = droppedBy input) (batch : BatchId)
    (above : input.source.replay.cut < batch.get) (below : batch.get ≤ input.cut.get)
    (ahead : ∀ later : BatchId, batch.get < later.get → (pid, later) ∉ view.issued) :
    SentOk view pid proc (.collect input) (job.advance batch proc.nextRequest) := by
  unfold CollectJob.advance
  rw [same, deletes]
  split
  · exact collect_deleteTables known wire input plan _ (fun _ member => member)
  rename_i differs
  have less : batch.get < input.cut.get := by
    have apart : batch.get ≠ input.cut.get := fun same => differs (BatchId.get_injective _ _ same)
    omega
  cases found : batch.successor with
  | ok next =>
    have number := BatchId.successor_ok_iff.mp found
    exact collect_read known wire input plan next (by omega) (by omega) (fun later here => ahead later (by omega))
  | error exhausted =>
    have last := (BatchId.successor_error_iff _ _).mp found
    have bound := input.cut.raw.bounded
    simp only [BatchId.get] at less last bound
    omega

theorem spawnCollect_ok (ahead : ∀ later : BatchId, input.source.replay.cut < later.get → (pid, later) ∉ view.issued) :
    SentOk view pid proc (.collect input) (spawnCollect input proc.nextRequest) := by
  have advances := plan.advances
  obtain ⟨batch, found, number⟩ := collectFirst_ok advances
  unfold spawnCollect
  rw [found]
  exact collect_read known wire input plan batch (by omega) (by omega) (fun later here => ahead later (by omega))

omit wire plan in
theorem ok_issue (batch : BatchId) (right : view.DeleteRight pid batch) : (view.issue pid (some (.deleteWal batch))).Ok := by
  refine ⟨{ known.log with }, { known.chain with }, { known.residue with collected := ?_, issued := ?_ }⟩
  · intro gone member
    obtain ⟨run, other, issued⟩ := known.residue.collected gone member
    exact ⟨run, other, mem_cons_of_mem _ issued⟩
  · intro other asked issued
    rcases mem_cons.mp issued with same | old
    · cases same
      exact right
    · exact known.residue.issued other asked old

theorem collect_delete (job : CollectJob) (same : job.input = input) (deletes : job.tableDeletes = droppedBy input) (batch : BatchId)
    (observed : WalObject) (seen : view.Seen batch observed) (run : observed.body.isFence = false)
    (above : input.source.replay.cut < batch.get) (below : batch.get ≤ input.cut.get)
    (ahead : ∀ later : BatchId, batch.get ≤ later.get → (pid, later) ∉ view.issued) :
    SentOk view pid proc (.collect input)
      (.collect { job with stage := .deletingRun batch, pending := ⟨.deleteRun batch, proc.nextRequest⟩ },
        some (.deleteWal batch)) := by
  have right := plan.right input batch above below
  have unasked := ahead batch (Nat.le_refl _)
  have inLog : observed ∈ view.log := by
    rcases seen.2 with here | stale
    · exact here
    · rw [(known.residue.stale observed stale).1] at run
      cases run
  have present : batch ∉ view.collected := by
    intro gone
    obtain ⟨_, other, issued⟩ := known.residue.collected batch gone
    have mine := known.chain.deleteRight_unique other pid batch (known.residue.issued other batch issued) right
    rw [mine] at issued
    exact unasked issued
  have after := ok_issue known batch right
  have extended := view.issue_extends pid (some (.deleteWal batch))
  refine ⟨after, ?_, ?_, ?_, ?_, ?_⟩
  · refine wire.send known (.deleteWal batch) ⟨mem_cons_self, present, observed, inLog, seen.1, run⟩ ?_ after.chain
    intro id other member
    cases other with
    | deleteWal asked =>
      intro equal
      rw [equal] at member
      exact unasked (DeleteOp.issued (wire.ops id _ member))
    | _ => trivial
  · refine ⟨same, plan.extend extended, deletes, PendingOk.sent_now wire (.deleteRun batch), rfl, above, below, ?_⟩
    intro later past issued
    rcases mem_cons.mp issued with equal | old
    · cases equal
      exact Nat.lt_irrefl _ past
    · exact ahead later (Nat.le_of_lt past) old
  · intro object there
    rcases there with ⟨id, member⟩ | inLog
    · rcases mem_send_wire.mp member with old | ⟨_, other⟩
      · exact .inl ⟨id, old⟩
      · cases other
    · exact .inr inLog
  · intro object body there
    rcases there with ⟨id, candidate, member, rest⟩ | established
    · rcases mem_send_wire.mp member with old | ⟨_, other⟩
      · exact .inl (.inl ⟨id, candidate, old, rest⟩)
      · cases other
    · exact .inl (.inr established)
  · intro asked issued
    rcases mem_cons.mp issued with equal | old
    · cases equal
      exact .inr ⟨input, rfl, below⟩
    · exact .inl old

omit plan in
theorem collect_resume (job : CollectJob) (ok : view.CollectOk pid proc input job) (response : Response)
    (told : view.ResponseOk pid job.pending.call response) (step : CallStep)
    (resumed : job.pending.call.resume response = some step) (sent : Sent Task)
    (moved : Task.resume (.collect job) proc.nextRequest step = some sent) : SentOk view pid proc (.collect input) sent := by
  have finished : SentOk view pid proc (.collect input) job.finish := by
    refine SentOk.rest known wire _ _ ?_
    rw [ok.same]
    rfl
  have plan := ok.plan
  have stage := ok.stage
  cases step with
  | wait call => cases moved
  | done result =>
    simp only [Task.resume, CollectJob.step] at moved
    cases here : job.stage with
    | reading batch =>
      rw [here] at stage moved
      obtain ⟨call, above, below, ahead⟩ := stage
      have later : ∀ later : BatchId, batch.get < later.get → (pid, later) ∉ view.issued :=
        fun later past => ahead later (Nat.le_of_lt past)
      have advanced := collect_advance known wire input plan job ok.same ok.deletes batch above below later
      rw [call] at told resumed
      cases response with
      | answer reply =>
        cases reply <;> cases resumed
        rename_i observed
        cases observed with
        | none =>
          cases moved
          exact advanced
        | some object =>
          have seen : view.Seen batch object := told _ rfl
          rw [known.seen_decodes input.source plan.source batch object seen] at moved
          cases body : object.body with
          | fence =>
            simp only [body, Option.some.injEq] at moved
            subst moved
            exact advanced
          | run facts =>
            simp only [body, Option.some.injEq, seen.1] at moved
            subst moved
            exact collect_delete known wire input plan job ok.same ok.deletes batch object seen
              (by rw [body]; rfl) above below ahead
      | failed detail | refused detail =>
        cases resumed
        cases moved
        exact finished
    | deletingRun batch =>
      rw [here] at stage moved
      obtain ⟨_, above, below, ahead⟩ := stage
      cases result with
      | delete outcome =>
        cases outcome with
        | ok =>
          cases moved
          exact collect_advance known wire input plan job ok.same ok.deletes batch above below ahead
        | error =>
          cases moved
          exact finished
      | _ => cases moved
    | deletingTable object rest =>
      rw [here] at stage moved
      cases result with
      | delete outcome =>
        cases outcome with
        | ok =>
          cases moved
          rw [ok.same, ok.deletes]
          exact collect_deleteTables known wire input plan rest stage.2
        | error =>
          cases moved
          exact finished
      | _ => cases moved

end

theorem TableCall.unique {first second : EncodedTable} {call : Call} (here : TableCall first call) (there : TableCall second call) :
    first = second := by
  rcases here with rfl | rfl | rfl <;> rcases there with same | same | same <;> cases same <;> rfl

section

variable {view : View} {pid : Pid} {proc : Proc} (known : view.Ok) (wire : view.WireOk pid proc) (ticket : CheckpointTicket)
  (created : List EncodedTable) (job : PrepareJob) (ok : view.JobOk pid proc ticket created job)

include ok

theorem JobOk.key_injective (first second : EncodedTable) (here : first ∈ created) (there : second ∈ created)
    (same : first.key = second.key) : first = second :=
  inj_on_of_nodup_map ok.planned.keys here there same

theorem JobOk.authored (table : EncodedTable) (member : table ∈ created) : view.Authored pid table.key.fresh.attempt.ownerClaim := by
  rw [ok.planned.fresh table member]
  exact ok.planned.author

include known wire

theorem prepare_settle (sent : Sent Task) (moved : job.settle = some sent) : SentOk view pid proc (.prepare ticket) sent := by
  unfold PrepareJob.settle at moved
  split at moved
  · rename_i idle
    cases moved
    refine SentOk.rest known wire _ _ ⟨.prepared job.prepared, by rw [ok.same], created, ok.planned, ?_⟩
    intro table member
    rcases ok.covered table member with queued | ⟨pending, active, _⟩ | established
    · rw [idle.1] at queued
      cases queued
    · rw [idle.2] at active
      cases active
    · exact established
  · cases moved

theorem prepare_spawnTable (sent : Sent Task) (moved : job.spawnTable proc.nextRequest = some sent) :
    SentOk view pid proc (.prepare ticket) sent := by
  unfold PrepareJob.spawnTable at moved
  split at moved
  · cases moved
  rename_i table rest queue
  split at moved
  · cases moved
    have queued : (table :: rest).Sublist created := queue ▸ ok.queued
    have member : table ∈ created := queued.subset mem_cons_self
    have unfiled := ok.unfiled
    rw [queue] at unfiled
    have distinct : ∀ other ∈ rest, other.key ≠ table.key := by
      have nodup := (queued.map EncodedTable.key).nodup ok.planned.keys
      rw [map_cons, nodup_cons] at nodup
      intro other there same
      exact nodup.1 (same ▸ mem_map_of_mem there)
    have authored := ok.authored ticket created job table member
    have filed : ∀ object body, view.Filed pid (proc.send (some (.createTable table))) object body →
        view.Filed pid proc object body ∨ (table.key = object ∧ table.object = body) := by
      intro object body there
      rcases there with ⟨id, candidate, sent, same⟩ | established
      · rcases mem_send_wire.mp sent with old | ⟨_, new⟩
        · exact .inl (.inl ⟨id, candidate, old, same⟩)
        · cases new
          exact .inr same
      · exact .inl (.inr established)
    have held : Keeps pid view view proc (proc.send (some (.createTable table))) := keeps_send (some (.createTable table))
    refine ⟨known, ?_, ⟨created, ok.same, ok.planned, ?_, ?_, ?_, ?_⟩, ?_, ?_, fun _ there => .inl there⟩
    · refine wire.send known (.createTable table) ⟨?_, authored⟩ ?_ known.chain
      · cases found : view.tables table.key with
        | none => exact found
        | some body => exact absurd (.inr ⟨found, authored⟩) (unfiled table mem_cons_self body)
      · intro id other sent
        cases other with
        | createTable candidate =>
          intro same
          exact unfiled table mem_cons_self candidate.object (.inl ⟨id, candidate, sent, same, rfl⟩)
        | _ => trivial
    · intro other there
      rcases ok.covered other there with waiting | ⟨pending, active, call⟩ | established
      · rw [queue] at waiting
        rcases mem_cons.mp waiting with rfl | later
        · exact .inr (.inl ⟨_, mem_append_right _ mem_cons_self, .inl rfl⟩)
        · exact .inl later
      · exact .inr (.inl ⟨pending, mem_append_left _ active, call⟩)
      · exact .inr (.inr established)
    · exact (sublist_cons_self table rest).trans queued
    · intro other there body now
      rcases filed _ body now with old | ⟨same, _⟩
      · exact unfiled other (mem_cons_of_mem _ there) body old
      · exact distinct other there same.symm
    · intro pending active
      rcases mem_append.mp active with old | new
      · obtain ⟨waits, other, there, call, mine⟩ := ok.active pending old
        refine ⟨waits.keeps held, other, there, call, ?_⟩
        intro body now
        rcases filed _ body now with before | ⟨same, content⟩
        · exact mine body before
        · rw [← ok.key_injective ticket created job table other member there same, content]
      · rw [mem_singleton.mp new]
        refine ⟨PendingOk.sent_now wire (.createTable table), table, member, .inl rfl, ?_⟩
        intro body now
        rcases filed _ body now with before | ⟨_, content⟩
        · exact absurd before (unfiled table mem_cons_self body)
        · exact content.symm
    · intro object there
      rcases there with ⟨id, sent⟩ | inLog
      · rcases mem_send_wire.mp sent with old | ⟨_, new⟩
        · exact .inl ⟨id, old⟩
        · cases new
      · exact .inr inLog
    · intro object body there
      rcases filed object body there with old | ⟨same, _⟩
      · exact .inl old
      · exact .inr ⟨ticket, rfl, same ▸ ok.planned.fresh table member⟩
  · cases moved

omit known wire in
theorem JobOk.resumed (pending : Pending) (active : pending ∈ job.active) (response : Response)
    (told : view.ResponseOk pid pending.call response) (step : CallStep) (resumed : pending.call.resume response = some step) :
    ∃ table ∈ created, TableCall table pending.call ∧ (∀ body, view.Filed pid proc table.key body → body = table.object) ∧
      TableStep view table step := by
  obtain ⟨_, table, member, call, mine⟩ := ok.active pending active
  have authored := ok.authored ticket created job table member
  have only : ∀ body, view.tables table.key = some body → body = table.object :=
    fun body found => mine body (.inr ⟨found, authored⟩)
  exact ⟨table, member, call, mine, TableCall.resume table only _ call response told step resumed⟩

theorem prepare_resume (index : Nat) (pending : Pending) (here : job.active[index]? = some pending) (response : Response)
    (told : view.ResponseOk pid pending.call response) (step : CallStep) (resumed : pending.call.resume response = some step)
    (sent : Sent Task) (moved : job.resume index proc.nextRequest step = some sent) : SentOk view pid proc (.prepare ticket) sent := by
  obtain ⟨table, member, call, mine, stepped⟩ := ok.resumed ticket created job pending (mem_of_getElem? here) response told step resumed
  rcases stepped with ⟨next, rfl, asks⟩ | ⟨result, rfl, outcome⟩
  · cases moved
    have plain : Plain next.request = true := by
      rcases asks with rfl | rfl <;> rfl
    have op : view.OpOk pid next.request := by
      rcases asks with rfl | rfl <;> trivial
    have silent : Silent pid view view proc (proc.send (some next.request)) := silent_plain plain
    have held : Keeps pid view view proc (proc.send (some next.request)) := by
      have sends : Keeps pid view (view.issue pid (some next.request)) proc (proc.send (some next.request)) := keeps_send _
      rwa [issue_plain plain] at sends
    have kept := ok.keeps held known.chain known.chain silent.filed
    refine SentOk.plain known wire _ _ next.request plain op ⟨created, ok.same, ok.planned, ?_, ok.queued, kept.unfiled, ?_⟩
    · intro other there
      rcases ok.covered other there with queued | ⟨active, inside, made⟩ | established
      · exact .inl queued
      · by_cases same : other = table
        · refine .inr (.inl ⟨⟨next, proc.nextRequest⟩, ?_, same ▸ .inr asks⟩)
          exact List.mem_set (List.getElem?_eq_some_iff.mp here).1 _
        refine .inr (.inl ⟨active, ?_, made⟩)
        have apart : active ≠ pending := by
          intro equal
          rw [equal] at made
          exact same (TableCall.unique made call)
        obtain ⟨position, found⟩ := mem_iff_getElem?.mp inside
        have differs : index ≠ position := by
          intro equal
          rw [equal, found] at here
          exact apart (Option.some.inj here)
        apply mem_of_getElem? (i := position)
        rw [getElem?_set_ne differs]
        exact found
      · exact .inr (.inr established)
    · intro active inside
      rcases mem_or_eq_of_mem_set inside with old | rfl
      · exact kept.active active old
      · exact ⟨PendingOk.plain_now wire next plain, table, member, .inr asks, fun body there => mine body (silent.filed _ body there)⟩
  cases result with
  | established =>
    cases moved
    refine SentOk.rest known wire _ _ ⟨created, ok.same, ok.planned, ?_, ok.queued, ok.unfiled, ?_⟩
    · intro other there
      rcases ok.covered other there with queued | ⟨active, inside, made⟩ | established
      · exact .inl queued
      · by_cases same : other = table
        · exact .inr (.inr (same ▸ outcome.established rfl))
        · refine .inr (.inl ⟨active, ?_, made⟩)
          have apart : active ≠ pending := by
            intro equal
            rw [equal] at made
            exact same (TableCall.unique made call)
          obtain ⟨position, found⟩ := mem_iff_getElem?.mp inside
          refine mem_eraseIdx_iff_getElem?.mpr ⟨position, ?_, found⟩
          intro equal
          rw [equal, here] at found
          exact apart (Option.some.inj found).symm
      · exact .inr (.inr established)
    · intro active inside
      exact ok.active active (mem_of_mem_eraseIdx inside)
  | abandoned =>
    cases moved
    exact SentOk.rest known wire _ _ ⟨.abandoned, by rw [ok.same], trivial⟩
  | contradiction detail => exact absurd rfl (outcome.legal detail)

end

structure InputOk (view : View) (pid : Pid) (proc : Proc) (input : CheckpointInput) : Prop where
  ticket : input.ticket.source = input.source.generation
  source : input.source ∈ view.chain
  base : view.FoldIs input.source.replay.cut input.base
  snapshot : view.FoldIs input.ticket.cut.get input.snapshot
  owner : view.OwnerIs input.ticket.cut.get input.ticket.attempt.ownerClaim.get
  author : view.Authored pid input.ticket.attempt.ownerClaim
  newest : ∀ claim, view.Claim claim → claim.generation.get ≤ input.source.generation.get →
    claim.generation.get ≤ input.ticket.attempt.ownerClaim.get
  advances : input.source.replay.cut < input.ticket.cut.get
  within : input.ticket.attempt.ownerClaim.get ≤ input.source.generation.get
  unfiled : ∀ object body, object.fresh.attempt = input.ticket.attempt → ¬ view.Filed pid proc object body

section

variable {view : View} {pid : Pid} {proc : Proc} (known : view.Ok) (input : CheckpointInput) (ok : view.InputOk pid proc input)

include known ok

theorem InputOk.valid : input.Valid where
  ticket := ok.ticket
  legal := known.chain.legal _ ok.source
  base := ok.base.consistent
  snapshot := ok.snapshot.consistent
  grows := FoldIs.grows (Nat.le_of_lt ok.advances) _ _ ok.base ok.snapshot
  advances := ok.advances
  owner := ok.within

theorem InputOk.planned (created : List EncodedTable) (prepared : PreparedCheckpoint)
    (made : Prepared input created prepared) : view.Planned pid input.ticket created prepared where
  author := ok.author
  source := made.source ▸ ok.source
  candidate := made.candidate
  advance := by
    rw [made.source]
    refine ⟨made.partition, made.generation, ?_, made.directory, made.ledger⟩
    rw [made.replay]
    exact ok.advances
  replay := made.replay
  newest := made.source ▸ ok.newest
  legal := made.legal
  bounds := made.bounds
  owner := ok.owner
  folded := made.snapshot ▸ ok.snapshot
  fresh := fun table member => (made.fresh table member).2
  keys := made.keys
  content := by
    intro tables kept established
    obtain ⟨forest, folded, content⟩ := known.chain.content _ ok.source
    rw [FoldIs.unique folded ok.base] at content
    rw [made.snapshot]
    exact made.content tables (content.extend kept) established

end

theorem spawnPrepare_ok [OrdMap.Differ] {view : View} {pid : Pid} {proc : Proc} (known : view.Ok) (wire : view.WireOk pid proc)
    (input : CheckpointInput) (ok : view.InputOk pid proc input) :
    SentOk view pid proc (.prepare input.ticket) (spawnPrepare input, none) := by
  refine SentOk.rest known wire _ _ ?_
  by_cases unexhausted : input.source.generation.get + 1 < 2 ^ 64
  · obtain ⟨created, prepared, made, facts⟩ := prepareCheckpoint_ok (ok.valid known input) unexhausted
    unfold spawnPrepare
    rw [made]
    have planned := ok.planned known input created prepared facts
    exact ⟨created, rfl, planned, fun _ member => .inl member, List.Sublist.refl _,
      fun table member body => ok.unfiled _ body (planned.fresh table member), by simp⟩
  have exhausted : ∃ error, input.source.generation.successor = .error error := by
    cases found : input.source.generation.successor with
    | error error => exact ⟨error, rfl⟩
    | ok next =>
      have number := SealGeneration.successor_ok_iff.mp found
      have bound := next.raw.bounded
      simp only [SealGeneration.get] at number unexhausted
      omega
  obtain ⟨error, found⟩ := exhausted
  have made : prepareCheckpoint input = .ok (.error error.toText) := by
    unfold prepareCheckpoint
    rw [found]
    rfl
  unfold spawnPrepare
  rw [made]
  refine ⟨.contradiction _, rfl, ?_⟩
  rw [OutcomeOk, ok.ticket]
  exact ⟨by omega, known.chain.generation_le _ ok.source⟩

end View

end StromDB
