import StromDB.Progress.Machine
import StromDB.Progress.Rounds
import StromDB.Session.Accounts

namespace StromDB

open Checked StromDB.System WriterMachine List

variable [Rkyv] [OrdMap.Differ]

structure Spawned (pid : Pid) (machine : WriterMachine) (key : EffectKey) (sent : Nat → Sent Task) (sys : System) : Prop where
  reached : ReachableSystem sys
  running : ∃ timer view, (sys.procs pid).phase = .running machine timer view
  waits : ∃ id, (∀ other, (sys.procs pid).tasks other = if other = key then some (sent id).1 else none) ∧
    ∀ request, (sent id).2 = some request → (sys.procs pid).wire.lookup id = some request

structure Unspawned (pid : Pid) (machine : WriterMachine) (sys : System) : Prop where
  reached : ReachableSystem sys
  running : ∃ timer view, (sys.procs pid).phase = .running machine timer view
  tasks : ∀ key, (sys.procs pid).tasks key = none

theorem ReachableSystem.numbered (sys : System) (reached : ReachableSystem sys) (pid : Pid) :
    ∀ id other, (id, other) ∈ (sys.procs pid).wire → id < (sys.procs pid).nextRequest :=
  ((reached.ok sys).procs pid).base.wire.numbered

namespace System

theorem executeOutputs_views (pid : Pid) (owner : OwnerToken) (views : List Forest) (rest : List WriterOutput) :
    ∀ execution : Execution, ∃ view,
      executeOutputs pid owner (views.map (fun forest => .action (.publishView forest)) ++ rest) execution =
      executeOutputs pid owner rest { execution with view } := by
  induction views with
  | nil => exact fun execution => ⟨execution.view, rfl⟩
  | cons forest views ih => exact fun execution => ih { execution with view := forest }

theorem driveWriter_eq {sys : System} {pid : Pid} {machine later : WriterMachine} (timer : Option Instant) (view : Forest)
    (now : Instant) (event : WriterEvent) (views : List Forest) (effect : WriterEffect) (free : (sys.procs pid).tasks effect.key = none)
    (handled : machine.handle now event =
      .ok (later, views.map (fun forest => .action (.publishView forest)) ++ [.effect effect], none)) :
    ∃ view', sys.driveWriter pid machine timer view now event =
      (sys.spawn pid effect.key (spawnEffect (sys.procs pid).nextRequest effect)).setPhase pid (.running later timer view') := by
  obtain ⟨view', executed⟩ := executeOutputs_views pid later.claim.owner views [.effect effect] ⟨sys, timer, view⟩
  refine ⟨view', ?_⟩
  simp [driveWriter, handled, executed, executeOutputs, executeOutput, free, require, finishStep]

end System

omit [OrdMap.Differ] in
theorem Proc.spawn_lookup {proc : Proc} (key : EffectKey) (sent : Sent Task) (request : Request) (asks : sent.2 = some request)
    (numbered : ∀ id other, (id, other) ∈ proc.wire → id < proc.nextRequest) :
    (proc.spawn key sent).wire.lookup proc.nextRequest = some request := by
  have found := Proc.send_lookup request numbered
  rw [Proc.spawn, asks]
  exact found

omit [OrdMap.Differ] in
theorem Proc.spawn_tasks (proc : Proc) (key : EffectKey) (sent : Sent Task)
    (only : ∀ other, other ≠ key → proc.tasks other = none) (other : EffectKey) :
    (proc.spawn key sent).tasks other = if other = key then some sent.1 else none := by
  obtain ⟨task, request⟩ := sent
  cases request with
  | none | some request =>
    simp only [Proc.spawn, Proc.send, Proc.setTask]
    split
    · rfl
    · rename_i apart
      exact only other apart

section

variable {sys : System} {pid : Pid} {machine : WriterMachine}

theorem Spawned.driven (before : System) (tasks : ∀ key, (before.procs pid).tasks key = none)
    (numbered : ∀ id other, (id, other) ∈ (before.procs pid).wire → id < (before.procs pid).nextRequest) (later : WriterMachine)
    (timer : Option Instant) (view : Forest) (now : Instant) (event : WriterEvent) (views : List Forest)
    (effect : WriterEffect) (handled : machine.handle now event =
      .ok (later, views.map (fun forest => .action (.publishView forest)) ++ [.effect effect], none))
    (arrived : ReachableSystem (before.driveWriter pid machine timer view now event)) :
    Spawned pid later effect.key (fun id => spawnEffect id effect) (before.driveWriter pid machine timer view now event) ∧
      (before.driveWriter pid machine timer view now event).store = before.store := by
  obtain ⟨view', driven⟩ := System.driveWriter_eq timer view now event views effect (tasks _) handled
  have spawned := Proc.spawn_tasks (before.procs pid) effect.key (spawnEffect (before.procs pid).nextRequest effect)
    (fun other _ => tasks other)
  rw [spawn_eq] at driven
  rw [driven] at arrived ⊢
  refine ⟨⟨arrived, ⟨timer, view', by simp [setPhase]⟩, (before.procs pid).nextRequest, ?_, ?_⟩, rfl⟩
  · intro other
    simpa [setPhase] using spawned other
  · intro request asks
    simpa [setPhase] using Proc.spawn_lookup effect.key _ request asks numbered

theorem Spawned.respawned (before : System) (key : EffectKey)
    (running : ∃ timer view, (before.procs pid).phase = .running machine timer view)
    (only : ∀ other, other ≠ key → (before.procs pid).tasks other = none)
    (numbered : ∀ id other, (id, other) ∈ (before.procs pid).wire → id < (before.procs pid).nextRequest) (next : Nat → Sent Task)
    (arrived : ReachableSystem (before.spawn pid key (next (before.procs pid).nextRequest))) :
    Spawned pid machine key next (before.spawn pid key (next (before.procs pid).nextRequest)) := by
  rw [spawn_eq] at arrived ⊢
  refine ⟨arrived, by simpa using running, (before.procs pid).nextRequest, ?_, ?_⟩
  · intro other
    simpa using Proc.spawn_tasks (before.procs pid) key _ only other
  · intro request asked
    simpa using Proc.spawn_lookup key _ request asked numbered

section

variable {key : EffectKey} {sent : Nat → Sent Task} (spawned : Spawned pid machine key sent sys)

include spawned

theorem Spawned.answered (request : Request) (asks : ∀ id, (sent id).2 = some request)
    (first : ∀ object, request = .createWal object → object.body.isFence = false) (slot : Slot) (next : Nat → Sent Task)
    (responds : ∀ id (middle : System), System.Phase.alive (middle.procs pid).phase = true →
      (middle.procs pid).tasks key = some (sent id).1 → (middle.procs pid).replies id = some (sys.store.execute request).2 →
      ∃ events, step (.respond pid slot .answer) middle =
        some ((middle.record events).spawn pid key (next (middle.procs pid).nextRequest))) :
    ∃ after, Leads (· = pid) sys after ∧ Spawned pid machine key next after ∧ after.store = (sys.store.execute request).1 := by
  obtain ⟨timer, view, phase⟩ := spawned.running
  obtain ⟨id, tasks, wire⟩ := spawned.waits
  have applied := apply_eq sys pid id request (wire _ (asks id))
  have proc := applied_proc sys pid id request
  have middle := spawned.reached.after _ _ _ applied
  obtain ⟨events, responded⟩ := responds id (sys.applied pid id request)
    (by rw [proc, Proc.answer, Proc.unsend, phase]; rfl)
    (by rw [proc]; exact (tasks key).trans (if_pos rfl))
    (by rw [proc]; simp [Proc.answer])
  have passed : calm sys (.apply pid id) = true := by
    refine calm_apply (wire _ (asks id)) fun object same fence => ?_
    rw [first object same] at fence
    cases fence
  refine ⟨_, .tail (.single ⟨_, rfl, passed, applied⟩) ⟨_, rfl, rfl, responded⟩, ?_, rfl⟩
  refine Spawned.respawned ((sys.applied pid id request).record events) key ⟨timer, view, ?_⟩ ?_
    (ReachableSystem.numbered _ middle pid) next (middle.after _ _ _ responded)
  · simp [Proc.answer, Proc.unsend, phase]
  · intro other apart
    simp [Proc.answer, Proc.unsend, tasks, apart]

theorem Spawned.round (call : Call) (waits : ∀ id, (sent id).1.pending = some ⟨call, id⟩) (asks : ∀ id, (sent id).2 = some call.request)
    (first : ∀ object, call.request = .createWal object → object.body.isFence = false)
    (result : CallResult) (resumed : call.resume (.answer (sys.store.execute call.request).2) = some (.done result))
    (next : Nat → Sent Task) (moved : ∀ id later, (sent id).1.resume later (.done result) = some (next later)) :
    ∃ after, Leads (· = pid) sys after ∧ Spawned pid machine key next after ∧ after.store = (sys.store.execute call.request).1 := by
  refine spawned.answered call.request asks first (.task key) next ?_
  intro id middle alive found reply
  refine ⟨taskAuthored pid (sent id).1 (next (middle.procs pid).nextRequest).1, ?_⟩
  simp [step, respond, alive, respondTask, found, waits, Proc.deliver, reply, resumed, moved]

theorem Spawned.joined (event : WriterEvent) (finished : ∀ id, (sent id).1 = .finished event) (later : WriterMachine)
    (views : List Forest) (effect : WriterEffect) (handled : machine.handle 0 event =
      .ok (later, views.map (fun forest => .action (.publishView forest)) ++ [.effect effect], none)) :
    ∃ after, Leads (· = pid) sys after ∧ Spawned pid later effect.key (fun id => spawnEffect id effect) after ∧
      after.store = sys.store := by
  obtain ⟨timer, view, phase⟩ := spawned.running
  obtain ⟨id, tasks, _⟩ := spawned.waits
  have mine : (sys.procs pid).tasks key = some (.finished event) := by rw [tasks key, if_pos rfl, finished id]
  have stepped : step (.join pid 0 key) sys =
      some ((sys.setTask pid key none).driveWriter pid machine timer view 0 event) := by
    simp only [step, join, phase, mine]
  have dropped : ∀ other, ((sys.setTask pid key none).procs pid).tasks other = none := by
    intro other
    simp only [setTask, setProc_self, Proc.setTask]
    split
    · rfl
    · rename_i apart
      rw [tasks other, if_neg apart]
  have numbered : ∀ number other, (number, other) ∈ ((sys.setTask pid key none).procs pid).wire →
      number < ((sys.setTask pid key none).procs pid).nextRequest := by
    simpa [setTask, Proc.setTask] using spawned.reached.numbered sys pid
  obtain ⟨next, store⟩ := Spawned.driven _ dropped numbered later timer view 0 event views effect handled
    (spawned.reached.after _ _ _ stepped)
  exact ⟨_, .single ⟨_, rfl, rfl, stepped⟩, next, store⟩

end

theorem Unspawned.commanded (idle : Unspawned pid machine sys) (envelope : CommandEnvelope)
    (unused : replyUnused sys.history envelope.reply = true) (polls : machine.admissionOpen = .ok true) (later : WriterMachine)
    (effect : WriterEffect) (handled : machine.handle 0 (.command envelope) = .ok (later, [.effect effect], none)) :
    ∃ after, Leads (· = pid) sys after ∧ Spawned pid later effect.key (fun id => spawnEffect id effect) after ∧
      after.store = sys.store := by
  obtain ⟨timer, view, phase⟩ := idle.running
  have stepped : step (.command pid 0 envelope) sys =
      some ((sys.record [.commanded pid envelope]).driveWriter pid machine timer view 0 (.command envelope)) := by
    simp [step, phase, unused, pollIngress, polls]
  obtain ⟨next, store⟩ := Spawned.driven (sys.record [.commanded pid envelope]) idle.tasks (idle.reached.numbered sys pid) later timer
    view 0 (.command envelope) [] effect handled (idle.reached.after _ _ _ stepped)
  exact ⟨_, .single ⟨_, rfl, rfl, stepped⟩, next, store⟩

section

variable {recovery : WriterRecovery} (reached : ReachableSystem sys) (ready : (sys.procs pid).phase = .ready recovery)
  (completed : .completed pid recovery ∈ sys.history)

include reached ready completed

theorem launch_eq : ∃ nextBatch, nextBatch.get = recovery.durableBatch.get + 1 ∧ (∀ key, (sys.procs pid).tasks key = none) ∧
    step (.launch pid 10 1000 0) sys =
      some (sys.driveWriter pid { launched recovery 10 1000 nextBatch with started := false } none recovery.durable 0
        .started) := by
  have starts := (Completes.mk reached ⟨pid, completed⟩).starts
  obtain ⟨nextBatch, follows, made⟩ :=
    fromRecovery_launched recovery 10 1000 _ starts (by decide) (by decide)
  have quiet := ((reached.ok sys).procs pid).phase
  rw [ready] at quiet
  refine ⟨nextBatch, follows, quiet.1.tasks, ?_⟩
  simp only [step, ready, made]

theorem launch_waits (short : recovery.durableBatch.get < recovery.sealed.replay.cut + WAL_SUFFIX_CHECKPOINT_SPAN_TRIGGER) :
    ∃ after nextBatch, Leads (· = pid) sys after ∧ after.store = sys.store ∧ nextBatch.get = recovery.durableBatch.get + 1 ∧
      Unspawned pid (launched recovery 10 1000 nextBatch) after := by
  have starts := (Completes.mk reached ⟨pid, completed⟩).starts
  obtain ⟨nextBatch, follows, quiet, stepped⟩ := launch_eq reached ready completed
  have handled := launched_waits recovery 10 1000 nextBatch 0 ⟨starts.cut, short⟩
  simp only [System.driveWriter, handled, System.executeOutputs, System.finishStep] at stepped
  refine ⟨_, nextBatch, .single ⟨_, rfl, rfl, stepped⟩, rfl, follows, reached.after _ _ _ stepped, ?_, ?_⟩
  · exact ⟨none, recovery.durable, by simp [setPhase]⟩
  · simpa [setPhase] using quiet

theorem launch_checkpoints
    (span : recovery.sealed.replay.cut + WAL_SUFFIX_CHECKPOINT_SPAN_TRIGGER ≤ recovery.durableBatch.get) :
    ∃ after nextBatch, Leads (· = pid) sys after ∧ after.store = sys.store ∧
      Spawned pid (launched recovery 10 1000 nextBatch).duePlan
        (.checkpointPreparation (launched recovery 10 1000 nextBatch).dueTicket)
        (fun _ => (spawnPrepare ⟨(launched recovery 10 1000 nextBatch).dueTicket, recovery.sealed, recovery.base,
          recovery.durable⟩, none)) after := by
  obtain ⟨nextBatch, _, quiet, stepped⟩ := launch_eq reached ready completed
  have handled := launched_checkpoints recovery 10 1000 nextBatch 0 span
  obtain ⟨next, store⟩ := Spawned.driven sys quiet (reached.numbered sys pid) _ none recovery.durable 0 .started [] _ handled
    (reached.after _ _ _ stepped)
  exact ⟨_, nextBatch, .single ⟨_, rfl, rfl, stepped⟩, store, next⟩

end

section

variable (ticket : CheckpointTicket) (prepared : PreparedCheckpoint)

abbrev Preparing (pid : Pid) (machine : WriterMachine) (ticket : CheckpointTicket) (prepared : PreparedCheckpoint)
    (queue : List EncodedTable) (sys : System) : Prop :=
  Spawned pid machine (.checkpointPreparation ticket) (fun _ => (.prepare ⟨ticket, queue, [], prepared, false⟩, none)) sys

theorem Preparing.table (table : EncodedTable) (queue : List EncodedTable)
    (preparing : Preparing pid machine ticket prepared (table :: queue) sys) (free : sys.store.tables table.key = none) :
    ∃ after, Leads (· = pid) sys after ∧ Preparing pid machine ticket prepared queue after ∧
      after.store = (sys.store.execute (.createTable table)).1 := by
  obtain ⟨timer, view, phase⟩ := preparing.running
  obtain ⟨_, tasks, _⟩ := preparing.waits
  have alive : System.Phase.alive (sys.procs pid).phase = true := by
    rw [phase]
    rfl
  have mine : (sys.procs pid).tasks (.checkpointPreparation ticket) =
      some (.prepare ⟨ticket, table :: queue, [], prepared, false⟩) := by
    rw [tasks, if_pos rfl]
  let active : Nat → Sent Task := fun id =>
    (.prepare ⟨ticket, queue, [⟨.createTable table, id⟩], prepared, false⟩, some (.createTable table))
  have sent : step (.spawnTable pid (.checkpointPreparation ticket)) sys =
      some (sys.spawn pid (.checkpointPreparation ticket) (active (sys.procs pid).nextRequest)) := by
    simp only [step, onJob, alive, Bool.not_true, Bool.false_eq_true, if_false, mine, PrepareJob.spawnTable,
      length_nil, CHECKPOINT_CHILD_CREATES_MAX, nil_append]
    rfl
  have waiting := Spawned.respawned sys (.checkpointPreparation ticket) ⟨timer, view, phase⟩
    (fun other apart => by rw [tasks, if_neg apart]) (preparing.reached.numbered sys pid) active (preparing.reached.after _ _ _ sent)
  have created : sys.store.execute (.createTable table) = ((sys.store.execute (.createTable table)).1, .created) := by
    simp [ObjectStore.execute, free]
  obtain ⟨after, leads, next, store⟩ := waiting.answered (.createTable table) (fun _ => rfl) (by simp)
    (.table (.checkpointPreparation ticket) 0) (fun _ => (.prepare ⟨ticket, queue, [], prepared, false⟩, none)) (by
      intro id middle alive found reply
      refine ⟨[], ?_⟩
      have reply : (middle.procs pid).replies id = some .created := by
        rw [reply]
        exact congrArg (fun executed => some executed.2) created
      simp only [step, respond, alive, Bool.not_true, Bool.false_eq_true, if_false, respondTable, found, active,
        getElem?_cons_zero, Option.bind_eq_bind, Option.bind_some, Proc.deliver, reply, Option.map_some, Call.resume,
        tableEvidence, PrepareJob.resume, eraseIdx_cons_zero, setProc_procs]
      rfl)
  exact ⟨after, .head ⟨_, rfl, rfl, sent⟩ leads, next, store⟩

theorem Preparing.tables (queue : List EncodedTable) : ∀ sys : System, Preparing pid machine ticket prepared queue sys →
    (queue.map EncodedTable.key).Nodup → (∀ table ∈ queue, sys.store.tables table.key = none) →
    ∃ after, Leads (· = pid) sys after ∧ Preparing pid machine ticket prepared [] after ∧
      after.store.seals = sys.store.seals ∧ after.store.wal = sys.store.wal := by
  induction queue with
  | nil =>
    intro sys preparing _ _
    exact ⟨sys, .refl, preparing, rfl, rfl⟩
  | cons table queue ih =>
    intro sys preparing distinct free
    obtain ⟨middle, first, next, store⟩ := preparing.table ticket prepared table queue (free table mem_cons_self)
    obtain ⟨fresh, distinct⟩ := nodup_cons.mp distinct
    have created : middle.store = { sys.store with
        tables := fun object => if object = table.key then some table.object else sys.store.tables object } := by
      rw [store]
      simp [ObjectStore.execute, free table mem_cons_self]
    obtain ⟨after, rest, done, seals, wal⟩ := ih middle next distinct (by
      intro other member
      have apart : other.key ≠ table.key := fun same => fresh (same ▸ mem_map_of_mem member)
      rw [created]
      simp only [if_neg apart]
      exact free other (mem_cons_of_mem _ member))
    exact ⟨after, first.trans rest, done, by rw [seals, created], by rw [wal, created]⟩

theorem Preparing.settled (preparing : Preparing pid machine ticket prepared [] sys) : ∃ after, Leads (· = pid) sys after ∧
    Spawned pid machine (.checkpointPreparation ticket)
      (fun _ => (.finished (.checkpointPrepared ticket (.prepared prepared)), none)) after ∧ after.store = sys.store := by
  obtain ⟨timer, view, phase⟩ := preparing.running
  obtain ⟨_, tasks, _⟩ := preparing.waits
  have alive : System.Phase.alive (sys.procs pid).phase = true := by
    rw [phase]
    rfl
  have mine : (sys.procs pid).tasks (.checkpointPreparation ticket) = some (.prepare ⟨ticket, [], [], prepared, false⟩) := by
    rw [tasks, if_pos rfl]
  have settled : step (.settle pid (.checkpointPreparation ticket)) sys =
      some (sys.spawn pid (.checkpointPreparation ticket) (.finished (.checkpointPrepared ticket (.prepared prepared)), none)) := by
    simp [step, onJob, alive, mine, PrepareJob.settle]
  exact ⟨_, .single ⟨_, rfl, rfl, settled⟩, Spawned.respawned sys _ ⟨timer, view, phase⟩
    (fun other apart => by rw [tasks, if_neg apart]) (preparing.reached.numbered sys pid)
    (fun _ => (.finished (.checkpointPrepared ticket (.prepared prepared)), none)) (preparing.reached.after _ _ _ settled), rfl⟩

end

end

end StromDB
