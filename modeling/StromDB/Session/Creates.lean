import StromDB.Progress.Leads

namespace StromDB

open Checked List Option StromDB.System

variable [Rkyv]

variable (proc : Proc) (sys : System) (machine : WriterMachine) (id : Nat)

namespace WriterMachine

theorem admitCommand_counter (after : WriterMachine) (envelope : CommandEnvelope) (completion : Option Completion)
    (admitted : machine.admitCommand envelope = .ok (after, completion)) :
    after.claim = machine.claim ∧ after.checkpointAttempt = machine.checkpointAttempt := by
  obtain ⟨_, _, admitted⟩ := bind_ok admitted
  obtain ⟨admission, _, admitted⟩ := bind_ok admitted
  cases admission with
  | fact fact answer =>
    simp only [acceptFact] at admitted
    split at admitted
    · cases admitted
      exact ⟨rfl, rfl⟩
    · obtain ⟨_, _, admitted⟩ := bind_ok admitted
      cases admitted
      exact ⟨rfl, rfl⟩
  | idempotent answer =>
    simp only [acceptIdempotent] at admitted
    split at admitted <;> cases admitted <;> exact ⟨rfl, rfl⟩
  | refused answer =>
    cases admitted
    exact ⟨rfl, rfl⟩

theorem completeWal_unplanned (batch : BatchId) (result : Except TypedStoreError WalEstablishment)
    (effects : Effects) (completed : machine.completeWal batch result = .ok effects) : Unplanned machine effects.1 effects.2.1 := by
  unfold completeWal at completed
  split at completed
  · obtain ⟨⟨after, outputs⟩, recorded, done⟩ := bind_ok completed
    cases done
    obtain ⟨_, _, recorded⟩ := bind_ok recorded
    split at recorded
    · obtain ⟨_, _, recorded⟩ := bind_ok recorded
      cases recorded
      exact ⟨rfl, rfl, by simp⟩
    · cases recorded
      exact ⟨rfl, rfl, by simp⟩
  all_goals
    obtain ⟨after, discarded, done⟩ := bind_ok completed
    cases done
    obtain ⟨_, _, discarded⟩ := bind_ok discarded
    cases discarded
    exact ⟨rfl, rfl, by simp⟩

theorem completePreparation_unplanned (ticket : CheckpointTicket) (outcome : PreparationOutcome)
    (effects : Effects) (completed : machine.completePreparation ticket outcome = .ok effects) :
    Unplanned machine effects.1 effects.2.1 := by
  obtain ⟨marker, _, completed⟩ := bind_ok completed
  cases marker with
  | cancelling active =>
    obtain ⟨_, _, done⟩ := bind_ok completed
    cases done
    exact ⟨rfl, rfl, by simp⟩
  | preparing active =>
    obtain ⟨_, _, done⟩ := bind_ok completed
    cases outcome <;> cases done <;> exact ⟨rfl, rfl, by simp⟩
  | publishing active prepared => cases completed

theorem completePublication_unplanned (ticket : CheckpointTicket) (result : Except TypedStoreError SealPublication) (effects : Effects)
    (completed : machine.completePublication ticket result = .ok effects) : Unplanned machine effects.1 effects.2.1 := by
  obtain ⟨marker, _, completed⟩ := bind_ok completed
  cases marker with
  | publishing active prepared =>
    obtain ⟨_, _, completed⟩ := bind_ok completed
    split at completed
    · obtain ⟨_, _, completed⟩ := bind_ok completed
      obtain ⟨after, installed, completed⟩ := bind_ok completed
      obtain ⟨_, _, installed⟩ := bind_ok installed
      cases installed
      split at completed <;> cases completed <;> exact ⟨rfl, rfl, by simp⟩
    all_goals
      cases completed
      exact ⟨rfl, rfl, by simp⟩
  | _ => cases completed

theorem applyEvent_unplanned (event : WriterEvent) (effects : Effects)
    (applied : machine.applyEvent event = .ok effects) : Unplanned machine effects.1 effects.2.1 := by
  cases event with
  | started =>
    cases applied
    exact ⟨rfl, rfl, by simp⟩
  | command envelope =>
    obtain ⟨_, _, applied⟩ := bind_ok applied
    obtain ⟨_, _, applied⟩ := bind_ok applied
    obtain ⟨⟨after, completion⟩, admitted, done⟩ := bind_ok applied
    obtain ⟨claim, counter⟩ := admitCommand_counter machine after envelope completion admitted
    cases completion <;> cases done <;> exact ⟨claim, counter, by simp⟩
  | flushDue | collectFinished cut =>
    obtain ⟨_, _, done⟩ := bind_ok applied
    cases done
    exact ⟨rfl, rfl, by simp⟩
  | ingressClosed =>
    obtain ⟨_, _, done⟩ := bind_ok applied
    split at done <;> cases done <;> exact ⟨rfl, rfl, by simp⟩
  | walEstablished batch result => exact completeWal_unplanned machine batch result effects applied
  | checkpointPrepared ticket outcome => exact completePreparation_unplanned machine ticket outcome effects applied
  | sealPublished ticket result => exact completePublication_unplanned machine ticket result effects applied
  | checkpointPreparationCancelled ticket =>
    simp only [applyEvent, cancelPreparation] at applied
    split at applied
    · obtain ⟨_, _, done⟩ := bind_ok applied
      cases done
      exact ⟨rfl, rfl, by simp⟩
    · cases applied

theorem handle_plans (now : Instant) (event : WriterEvent) (effects : Effects)
    (handled : machine.handle now event = .ok effects) : Plans machine effects.1 effects.2.1 := by
  obtain ⟨_, _, handled⟩ := bind_ok handled
  obtain ⟨⟨middle, outputs, exit⟩, applied, handled⟩ := bind_ok handled
  have unplanned : Unplanned machine middle outputs := by
    have acts := applyEvent_unplanned _ event _ applied
    refine ⟨acts.claim.trans ?_, acts.counter.trans ?_, acts.outputs⟩ <;> split <;> rfl
  cases exit with
  | some exit =>
    obtain ⟨_, same, rest⟩ := bind_ok handled
    cases same
    obtain ⟨_, _, rest⟩ := bind_ok rest
    obtain ⟨_, _, done⟩ := bind_ok rest
    cases done
    exact unplanned.plans
  | none =>
    obtain ⟨⟨after, planned, last⟩, scheduled, rest⟩ := bind_ok handled
    obtain ⟨_, joined, rest⟩ := bind_ok rest
    cases joined
    obtain ⟨_, _, rest⟩ := bind_ok rest
    obtain ⟨_, _, done⟩ := bind_ok rest
    cases done
    exact unplanned.append machine middle after outputs planned (schedule_plans middle now _ scheduled).1

end WriterMachine

def Phase.Spends : Phase → Nat → Prop
  | .idle, _ => False
  | .bootstrapping _ _ _, _ => False
  | .ready _, _ => False
  | .running machine _ _, count => count < machine.checkpointAttempt
  | _, _ => True

-- No table create is sent, and every preparation goes on with its queue or has
-- a number that was not spent.
structure Proc.Follows (before after : Proc) : Prop where
  creates : ∀ id table, (id, .createTable table) ∈ after.wire → (id, .createTable table) ∈ before.wire
  jobs : ∀ key job, after.tasks key = some (.prepare job) →
    (∃ old, before.tasks key = some (.prepare old) ∧ job.queue = old.queue ∧ job.ticket = old.ticket) ∨
      ∀ count, before.phase.Spends count → count ≠ job.ticket.attempt.localCounter
  spends : ∀ count, before.phase.Spends count → after.phase.Spends count

namespace Proc

theorem Follows.refl : Follows proc proc :=
  ⟨fun _ _ sent => sent, fun _ job found => .inl ⟨job, found, rfl, rfl⟩, fun _ spent => spent⟩

theorem Follows.trans {first second third : Proc} (before : Follows first second) (after : Follows second third) :
    Follows first third := by
  refine ⟨fun id table sent => before.creates id table (after.creates id table sent), ?_,
    fun count spent => after.spends count (before.spends count spent)⟩
  intro key job found
  rcases after.jobs key job found with ⟨middle, there, queue, ticket⟩ | fresh
  · rcases before.jobs key middle there with ⟨old, here, same, again⟩ | fresh
    · exact .inl ⟨old, here, queue.trans same, ticket.trans again⟩
    · exact .inr (ticket ▸ fresh)
  · exact .inr fun count spent => fresh count (before.spends count spent)

theorem Follows.wire (before after : Proc) (tasks : after.tasks = before.tasks) (phase : after.phase = before.phase)
    (creates : ∀ id table, (id, .createTable table) ∈ after.wire → (id, .createTable table) ∈ before.wire) : Follows before after :=
  ⟨creates, fun _ job found => .inl ⟨job, tasks ▸ found, rfl, rfl⟩, fun _ spent => phase ▸ spent⟩

theorem Follows.send (request : Option Request) (plain : ∀ table, request ≠ some (.createTable table)) :
    Follows proc (proc.send request) := by
  cases request with
  | none => exact .refl proc
  | some request =>
    refine .wire _ _ rfl rfl fun id table sent => ?_
    rcases View.mem_send_wire.mp sent with old | ⟨_, new⟩
    · exact old
    · exact absurd (congrArg some new.symm) (plain table)

theorem Follows.unsend : Follows proc (proc.unsend id) :=
  .wire _ _ rfl rfl fun _ _ sent => (mem_filter.mp sent).1

theorem Follows.answer (reply : Reply) : Follows proc (proc.answer id reply) :=
  .wire _ _ rfl rfl fun _ _ sent => (mem_filter.mp sent).1

theorem Follows.deliver (next : Proc) (pending : Pending) (delivery : Delivery) (response : Response)
    (delivered : proc.deliver pending delivery = some (response, next)) : Follows proc next := by
  rcases proc.deliver_next next pending delivery response delivered with rfl | rfl
  · exact .refl _
  · exact .unsend proc pending.request

theorem Follows.setPhase (phase : Phase) (spends : ∀ count, proc.phase.Spends count → phase.Spends count) :
    Follows proc { proc with phase } :=
  ⟨fun _ _ sent => sent, fun _ job found => .inl ⟨job, found, rfl, rfl⟩, spends⟩

theorem Follows.setTask (key : EffectKey) (task : Option Task) (jobs : ∀ job, task = some (.prepare job) →
      (∃ old, proc.tasks key = some (.prepare old) ∧ job.queue = old.queue ∧ job.ticket = old.ticket) ∨
        ∀ count, proc.phase.Spends count → count ≠ job.ticket.attempt.localCounter) : Follows proc (proc.setTask key task) := by
  refine ⟨fun _ _ sent => sent, fun other job found => ?_, fun _ spent => spent⟩
  simp only [Proc.setTask] at found
  split at found
  · rename_i same
    rw [same]
    exact jobs job found
  · exact .inl ⟨job, found, rfl, rfl⟩

theorem Follows.spawn (key : EffectKey) (sent : Sent Task) (plain : ∀ table, sent.2 ≠ some (.createTable table))
    (jobs : ∀ job, sent.1 = .prepare job →
      (∃ old, proc.tasks key = some (.prepare old) ∧ job.queue = old.queue ∧ job.ticket = old.ticket) ∨
        ∀ count, proc.phase.Spends count → count ≠ job.ticket.attempt.localCounter) : Follows proc (proc.spawn key sent) :=
  Follows.trans (.setTask proc key _ fun job same => jobs job (some.inj same))
    (.send _ sent.2 plain)

end Proc

theorem spawnEffect_plain [OrdMap.Differ] (effect : WriterEffect) (table : EncodedTable) :
    (spawnEffect id effect).2 ≠ some (.createTable table) := by
  cases effect with
  | collect input =>
    simp only [spawnEffect, spawnCollect]
    split <;> simp [CollectJob.read]
  | _ => simp [spawnEffect]

theorem spawnEffect_prepare [OrdMap.Differ] (effect : WriterEffect) (job : PrepareJob)
    (spawned : (spawnEffect id effect).1 = .prepare job) :
    ∃ input, effect = .prepareCheckpoint input ∧ job.ticket = input.ticket := by
  cases effect with
  | prepareCheckpoint input =>
    simp only [spawnEffect, spawnPrepare] at spawned
    split at spawned <;> cases spawned
    exact ⟨input, rfl, rfl⟩
  | collect input =>
    simp only [spawnEffect, spawnCollect] at spawned
    split at spawned <;> cases spawned
  | _ => cases spawned

theorem Call.resume_plain (call next : Call) (response : Response) (resumed : call.resume response = some (.wait next))
    (table : EncodedTable) : next.request ≠ .createTable table := by
  have evidence : ∀ (candidate : EncodedTable) found, tableEvidence candidate found = .wait next →
      next = .reconcileTable candidate := by
    intro candidate found same
    cases found <;> cases same
    rfl
  have walled : ∀ (candidate : EncodedWal) found, walEvidence candidate found = .wait next → next = .reconcileWal candidate := by
    intro candidate found same
    cases found <;> cases same
    rfl
  intro creates
  unfold Call.resume at resumed
  split at resumed <;> first
    | cases resumed
      done
    | cases resumed
      cases creates
    | rw [evidence _ _ (some.inj resumed)] at creates
      cases creates
    | rw [walled _ _ (some.inj resumed)] at creates
      cases creates

theorem CollectJob.step_plain {job : CollectJob} {id : Nat} {result : CallResult} {sent : Sent Task}
    (moved : job.step id result = some sent) : (∀ table, sent.2 ≠ some (.createTable table)) ∧ ∀ other, sent.1 ≠ .prepare other := by
  have deletes : ∀ objects, (∀ table, (deleteTables job.input job.tableDeletes id objects).2 ≠ some (.createTable table)) ∧
      ∀ other, (deleteTables job.input job.tableDeletes id objects).1 ≠ .prepare other := by
    intro objects
    cases objects <;> simp [deleteTables]
  have advances : ∀ batch, (∀ table, (job.advance batch id).2 ≠ some (.createTable table)) ∧
      ∀ other, (job.advance batch id).1 ≠ .prepare other := by
    intro batch
    unfold advance
    split
    · exact deletes _
    · split <;> simp [read]
  unfold step at moved
  split at moved
  · split at moved
    · cases moved
      simp
    · cases moved
      exact advances _
  · cases moved
    exact advances _
  · cases moved
    simp [finish]
  · cases moved
    exact advances _
  · cases moved
    simp [finish]
  · cases moved
    exact deletes _
  · cases moved
    simp [finish]
  · cases moved

theorem Task.resume_plain (task : Task) (id : Nat) (call : Call) (response : Response) (step : CallStep) (sent : Sent Task)
    (resumed : call.resume response = some step) (moved : task.resume id step = some sent) :
    (∀ table, sent.2 ≠ some (.createTable table)) ∧ ∀ job, sent.1 ≠ .prepare job := by
  unfold Task.resume at moved
  split at moved
  · rename_i next
    cases moved
    exact ⟨fun table same => call.resume_plain next response resumed table (some.inj same), by simp⟩
  · cases moved
    simp
  · rename_i next
    cases moved
    exact ⟨fun table same => call.resume_plain next response resumed table (some.inj same), by simp⟩
  · cases moved
    simp
  · exact CollectJob.step_plain moved
  · cases moved

theorem PrepareJob.resume_plain (job : PrepareJob) (index id : Nat) (call : Call) (response : Response) (step : CallStep)
    (sent : Sent Task) (resumed : call.resume response = some step) (moved : job.resume index id step = some sent) :
    (∀ table, sent.2 ≠ some (.createTable table)) ∧
      ∀ next, sent.1 = .prepare next → next.queue = job.queue ∧ next.ticket = job.ticket := by
  unfold PrepareJob.resume at moved
  split at moved
  · rename_i next
    cases moved
    refine ⟨fun table same => call.resume_plain next response resumed table (some.inj same), ?_⟩
    rintro _ ⟨⟩
    exact ⟨rfl, rfl⟩
  · cases moved
    refine ⟨by simp, ?_⟩
    rintro _ ⟨⟩
    exact ⟨rfl, rfl⟩
  · cases moved
    simp
  · cases moved
    simp
  · cases moved

namespace System

theorem spawn_proc (pid : Pid) (key : EffectKey) (sent : Sent Task) :
    (sys.spawn pid key sent).procs pid = (sys.procs pid).spawn key sent := by
  simp [spawn_eq]

section

variable (pid : Pid)

theorem executeOutput_follows [OrdMap.Differ] (owner : OwnerToken) (execution next : Execution) (output : WriterOutput) (number : Nat)
    (unspent : ∀ count, (execution.sys.procs pid).phase.Spends count → count < number)
    (planned : ∀ input, output = .effect (.prepareCheckpoint input) → input.ticket.attempt.localCounter = number)
    (done : executeOutput pid owner execution output = .ok next) :
    Proc.Follows (execution.sys.procs pid) (next.sys.procs pid) ∧ (next.sys.procs pid).phase = (execution.sys.procs pid).phase := by
  cases output with
  | effect effect =>
    obtain ⟨_, _, done⟩ := bind_ok done
    cases done
    rw [spawn_proc]
    refine ⟨.spawn _ _ _ (spawnEffect_plain _ effect) ?_, Proc.spawn_phase _ _ _⟩
    intro job spawned
    obtain ⟨input, rfl, ticket⟩ := spawnEffect_prepare _ effect job spawned
    right
    intro count spent
    rw [ticket, planned input rfl]
    exact Nat.ne_of_lt (unspent count spent)
  | action action =>
    cases action with
    | armFlush deadline =>
      obtain ⟨_, _, done⟩ := bind_ok done
      cases done
      exact ⟨.refl _, rfl⟩
    | publishView forest | sendReplies replies =>
      cases done
      exact ⟨.refl _, rfl⟩
    | cancelCheckpointPreparation ticket =>
      simp only [executeOutput] at done
      split at done
      · cases done
      rename_i task found
      cases done
      rw [setTask, setProc_self]
      refine ⟨.setTask _ _ _ fun job same => ?_, rfl⟩
      cases task with
      | prepare old =>
        cases same
        exact .inl ⟨old, found, rfl, rfl⟩
      | _ => cases same

theorem executeOutputs_follows [OrdMap.Differ] (owner : OwnerToken) (number : Nat) (outputs : List WriterOutput) :
    ∀ execution : Execution,
    (∀ count, (execution.sys.procs pid).phase.Spends count → count < number) →
    (∀ input, .effect (.prepareCheckpoint input) ∈ outputs → input.ticket.attempt.localCounter = number) →
    Proc.Follows (execution.sys.procs pid) ((executeOutputs pid owner outputs execution).1.sys.procs pid) ∧
      ((executeOutputs pid owner outputs execution).1.sys.procs pid).phase = (execution.sys.procs pid).phase := by
  induction outputs with
  | nil => exact fun execution _ _ => ⟨.refl _, rfl⟩
  | cons output rest ih =>
    intro execution unspent planned
    simp only [executeOutputs]
    cases first : executeOutput pid owner execution output with
    | error message => exact ⟨.refl _, rfl⟩
    | ok next =>
      obtain ⟨follows, phase⟩ := executeOutput_follows pid owner execution next output number unspent
        (fun input same => planned input (same ▸ mem_cons_self)) first
      obtain ⟨later, again⟩ := ih next (phase ▸ unspent) fun input member => planned input (mem_cons_of_mem _ member)
      exact ⟨follows.trans later, again.trans phase⟩

theorem setPhase_follows (sys : System) (phase : Phase) (spends : ∀ count, (sys.procs pid).phase.Spends count → phase.Spends count) :
    Proc.Follows (sys.procs pid) ((sys.setPhase pid phase).procs pid) := by
  rw [setPhase, setProc_self]
  exact .setPhase _ phase spends

theorem driveWriter_follows [OrdMap.Differ] (sys : System) (machine : WriterMachine) (timer : Option Instant) (view : Forest)
    (now : Instant)
    (event : WriterEvent) (unspent : ∀ count, (sys.procs pid).phase.Spends count → count < machine.checkpointAttempt) :
    Proc.Follows (sys.procs pid) ((sys.driveWriter pid machine timer view now event).procs pid) := by
  unfold driveWriter
  split
  · exact setPhase_follows pid sys _ fun _ _ => trivial
  rename_i after outputs exit handled
  have plans := machine.handle_plans now event _ handled
  have executed := executeOutputs_follows pid after.claim.owner machine.checkpointAttempt outputs ⟨sys, timer, view⟩
    unspent plans.outputs
  split
  · rename_i execution message same
    rw [same] at executed
    exact executed.1.trans (setPhase_follows pid execution.sys _ fun _ _ => trivial)
  · rename_i execution same
    rw [same] at executed
    refine executed.1.trans ?_
    unfold finishStep
    split
    · refine setPhase_follows pid execution.sys _ fun count spent => ?_
      rw [executed.2] at spent
      exact Nat.lt_of_lt_of_le (unspent count spent) plans.counter
    · exact setPhase_follows pid execution.sys _ fun _ _ => trivial

theorem await_follows (sys : System) (state : BootstrapState) (effect : BootstrapEffect) (call : Call)
    (plain : ∀ table, call.request ≠ .createTable table) (unlaunched : ∀ count, ¬ (sys.procs pid).phase.Spends count) :
    Proc.Follows (sys.procs pid) ((sys.await pid state effect call).procs pid) := by
  rw [await, send, record_procs, setProc_self]
  have booting := setPhase_follows pid sys (.bootstrapping state effect ⟨call, (sys.procs pid).nextRequest⟩)
    fun count spent => absurd spent (unlaunched count)
  exact booting.trans (.send _ _ fun table same => plain table (some.inj same))

theorem driveBootstrap_follows (sys : System) (state : BootstrapState) (event : BootstrapEvent)
    (unlaunched : ∀ count, ¬ (sys.procs pid).phase.Spends count) :
    Proc.Follows (sys.procs pid) ((sys.driveBootstrap pid state event).procs pid) := by
  unfold driveBootstrap
  split
  · exact setPhase_follows pid sys _ fun _ _ => trivial
  · rename_i effect _
    refine await_follows pid sys _ effect (bootCall effect) ?_ unlaunched
    cases effect <;> simp [bootCall, Call.request]
  · exact setPhase_follows pid sys _ fun count spent => absurd spent (unlaunched count)
  · exact setPhase_follows pid sys _ fun _ _ => trivial

end

structure SendsTable (before after : Proc) (table : EncodedTable) : Prop where
  sends : ∃ key job rest active, before.tasks key = some (.prepare job) ∧ job.queue = table :: rest ∧
    after = before.spawn key (.prepare { job with queue := rest, active }, some (.createTable table))

theorem driveRunning_follows [OrdMap.Differ] (pid : Pid) (machine : WriterMachine) (timer : Option Instant) (view : Forest)
    (here : (sys.procs pid).phase = .running machine timer view) (later : Option Instant) (now : Instant) (event : WriterEvent) :
    Proc.Follows (sys.procs pid) ((sys.driveWriter pid machine later view now event).procs pid) := by
  refine driveWriter_follows pid sys machine later view now event fun count spent => ?_
  rwa [here] at spent

theorem BootAnswered.follows {sys after : System} {pid : Pid} {delivery : Delivery} (answered : BootAnswered sys pid delivery after) :
    Proc.Follows (sys.procs pid) (after.procs pid) := by
  have middle : ∀ state effect pending response proc, (sys.procs pid).phase = .bootstrapping state effect pending →
      (sys.procs pid).deliver pending delivery = some (response, proc) →
      Proc.Follows (sys.procs pid) ((sys.setProc pid proc).procs pid) ∧
        ∀ count, ¬ ((sys.setProc pid proc).procs pid).phase.Spends count := by
    intro state effect pending response proc here delivered
    rw [setProc_self, ((sys.procs pid).deliver_same proc pending delivery response delivered).1, here]
    exact ⟨.deliver _ _ pending delivery response delivered, fun _ spent => spent⟩
  cases answered with
  | waits state effect pending response proc call here delivered resumed =>
    obtain ⟨first, unlaunched⟩ := middle state effect pending response proc here delivered
    exact first.trans (await_follows pid _ state effect call (pending.call.resume_plain call response resumed) unlaunched)
  | done state effect pending response proc result event here delivered =>
    obtain ⟨first, unlaunched⟩ := middle state effect pending response proc here delivered
    exact first.trans (driveBootstrap_follows pid ((sys.setProc pid proc).record _) state event unlaunched)

theorem spawnTable_sends (pid : Pid) (key : EffectKey) (job : PrepareJob) (sent : Sent Task)
    (found : (sys.procs pid).tasks key = some (.prepare job)) (moved : job.spawnTable (sys.procs pid).nextRequest = some sent) :
    ∃ table, SendsTable (sys.procs pid) ((sys.spawn pid key sent).procs pid) table := by
  simp only [PrepareJob.spawnTable] at moved
  split at moved
  · cases moved
  · rename_i table rest queue
    split at moved
    · cases moved
      exact ⟨table, key, job, rest, _, found, queue, spawn_proc sys pid key _⟩
    · cases moved

theorem step_follows_or_sends [OrdMap.Differ] (after : System) (label : Label) (stepped : step label sys = some after) :
    Proc.Follows (sys.procs label.pid) (after.procs label.pid) ∨
      ∃ table, SendsTable (sys.procs label.pid) (after.procs label.pid) table := by
  cases step_steps stepped with
  | spawnTable pid key job sent found moved => exact .inr (spawnTable_sends sys pid key job sent found moved)
  | halts label phase dead =>
    refine .inl (setPhase_follows label.pid sys phase fun _ _ => ?_)
    rcases dead with rfl | ⟨_, rfl⟩ <;> trivial
  | start pid partition here => exact .inl (driveBootstrap_follows pid sys _ _ (by rw [here]; exact fun _ spent => spent))
  | launch pid interval bytes now recovery machine here =>
    refine .inl (driveWriter_follows pid sys _ _ _ _ _ fun count spent => ?_)
    rw [here] at spent
    cases spent
  | apply pid id request =>
    rw [record_procs, Label.pid, setProc_self]
    exact .inl (.answer _ id _)
  | boot pid delivery _ answered => exact .inl answered.follows
  | task pid key delivery task pending response proc resumed sent _ _ delivered resume moved =>
    rw [Label.pid, spawn_proc, record_procs, setProc_self]
    obtain ⟨plain, unprepared⟩ := task.resume_plain _ pending.call response resumed sent resume moved
    exact .inl ((Proc.Follows.deliver _ _ pending delivery response delivered).trans
      (.spawn _ _ _ plain fun job same => absurd same (unprepared job)))
  | table pid key index delivery job pending response proc resumed sent found _ delivered resume moved =>
    rw [Label.pid, spawn_proc, setProc_self]
    obtain ⟨plain, kept⟩ := job.resume_plain index _ pending.call response resumed sent resume moved
    refine .inl ((Proc.Follows.deliver _ _ pending delivery response delivered).trans (.spawn _ _ _ plain fun next same => ?_))
    obtain ⟨queue, ticket⟩ := kept next same
    rw [((sys.procs pid).deliver_same proc pending delivery response delivered).2]
    exact .inl ⟨job, found, queue, ticket⟩
  | command pid now envelope machine timer view here =>
    exact .inl (driveRunning_follows (sys.record _) pid machine timer view here timer now _)
  | flushDue pid now deadline machine view here =>
    exact .inl (driveRunning_follows sys pid machine (some deadline) view here none now .flushDue)
  | ingressClosed pid now machine timer view here =>
    exact .inl (driveRunning_follows sys pid machine timer view here timer now .ingressClosed)
  | join pid now key event machine timer view here =>
    have dropped : (sys.setTask pid key none).procs pid = (sys.procs pid).setTask key none := by rw [setTask, setProc_self]
    have first : Proc.Follows (sys.procs pid) ((sys.setTask pid key none).procs pid) := by
      rw [dropped]
      exact .setTask _ _ _ (by simp)
    exact .inl (first.trans (driveRunning_follows _ pid machine timer view (by rw [dropped]; exact here) timer now event))
  | settle pid key job sent found moved =>
    unfold PrepareJob.settle at moved
    split at moved
    · cases moved
      rw [Label.pid, spawn_proc]
      exact .inl (.spawn _ _ _ (by simp) (by simp))
    · cases moved

end System

def Proc.tableCreates (proc : Proc) (since : Nat) : List EncodedTable :=
  proc.wire.filterMap fun
    | (id, .createTable table) => if since ≤ id then some table else none
    | _ => none

structure Traced where
  sys : System
  creates : List (Pid × EncodedTable)

variable (traced : Traced)

namespace Traced

def initial (traced : Traced) : Prop := traced = ⟨System.initial, []⟩

def step [OrdMap.Differ] (label : Label) (traced : Traced) : Option Traced :=
  (System.step label traced.sys).map fun next =>
    ⟨next, ((next.procs label.pid).tableCreates (traced.sys.procs label.pid).nextRequest).map (fun table => (label.pid, table)) ++
      traced.creates⟩

end Traced

def ReachableTrace [OrdMap.Differ] (traced : Traced) : Prop := Transition.Reachable Traced.step Traced.initial traced

-- What the creates of a run leave to each process: the claim is its own, the
-- attempt is behind it, and no preparation has the key again.
structure Spent (sys : System) (pid : Pid) (table : EncodedTable) : Prop where
  authored : sys.view.Authored pid table.key.fresh.attempt.ownerClaim
  spends : (sys.procs pid).phase.Spends table.key.fresh.attempt.localCounter
  unqueued : ∀ key job, (sys.procs pid).tasks key = some (.prepare job) → ∀ other ∈ job.queue, other.key ≠ table.key

structure TracedOk [OrdMap.Differ] (traced : Traced) : Prop where
  reached : ReachableSystem traced.sys
  spent : ∀ pid table, (pid, table) ∈ traced.creates → Spent traced.sys pid table
  once : (traced.creates.map fun sent => sent.2.key).Nodup
  wired : ∀ pid id table, (id, .createTable table) ∈ (traced.sys.procs pid).wire → (pid, table) ∈ traced.creates
  recorded : ∀ pid table, .tableCreated pid table ∈ traced.sys.history → (pid, table) ∈ traced.creates

section

theorem Proc.tableCreates_follows (before after : Proc) (view : View) (pid : Pid) (wire : view.WireOk pid before)
    (follows : Proc.Follows before after) : after.tableCreates before.nextRequest = [] := by
  refine filterMap_eq_nil_iff.mpr ?_
  rintro ⟨id, request⟩ member
  cases request with
  | createTable table =>
    have numbered := wire.numbered id _ (follows.creates id table member)
    simp only [ite_eq_right_iff, reduceCtorEq, imp_false]
    omega
  | _ => rfl

theorem Proc.tableCreates_spawn {before : Proc} {view : View} {pid : Pid} (wire : view.WireOk pid before) (key : EffectKey)
    (task : Task)
    (table : EncodedTable) : (before.spawn key (task, some (.createTable table))).tableCreates before.nextRequest = [table] := by
  have old : before.tableCreates before.nextRequest = [] := before.tableCreates_follows before view pid wire (.refl before)
  rw [Proc.tableCreates] at old ⊢
  simp only [Proc.spawn, Proc.send, Proc.setTask, filterMap_append, old, nil_append]
  simp

theorem SystemOk.job (ok : SystemOk sys) (pid : Pid) (key : EffectKey) (job : PrepareJob)
    (found : (sys.procs pid).tasks key = some (.prepare job)) : key = .checkpointPreparation job.ticket ∧
      ∃ created, sys.view.JobOk pid (sys.procs pid) job.ticket created job := by
  obtain ⟨assignment, named, assigned⟩ := (ok.procs pid).base.tasks.assigned key _ found
  cases assignment with
  | prepare ticket =>
    obtain ⟨created, jobOk⟩ := assigned
    cases jobOk.same
    exact ⟨named.symm, created, jobOk⟩
  | _ => exact absurd assigned id

theorem SystemOk.queued_attempt (ok : SystemOk sys) (pid : Pid) (key : EffectKey) (job : PrepareJob)
    (found : (sys.procs pid).tasks key = some (.prepare job)) (table : EncodedTable) (queued : table ∈ job.queue) :
    table.key.fresh.attempt = job.ticket.attempt := by
  obtain ⟨_, created, jobOk⟩ := ok.job sys pid key job found
  exact jobOk.planned.fresh table (jobOk.queued.subset queued)

variable [OrdMap.Differ] {sys after : System} {label : Label} (ok : SystemOk after) (stepped : System.step label sys = some after)

include stepped

theorem authored_step (pid : Pid) (generation : SealGeneration) (authored : sys.view.Authored pid generation) :
    after.view.Authored pid generation := by
  obtain ⟨events, grown⟩ := step_history stepped
  refine authored.extend ?_
  rw [view, view, grown]
  exact View.of_extends events sys.history

theorem Spent.other (pid : Pid) (table : EncodedTable) (apart : pid ≠ label.pid) (spent : Spent sys pid table) :
    Spent after pid table := by
  have same := step_other stepped pid apart
  exact ⟨authored_step stepped pid _ spent.authored, same ▸ spent.spends, same ▸ spent.unqueued⟩

include ok

theorem Spent.follows (table : EncodedTable) (follows : Proc.Follows (sys.procs label.pid) (after.procs label.pid))
    (spent : Spent sys label.pid table) : Spent after label.pid table := by
  refine ⟨authored_step stepped _ _ spent.authored, follows.spends _ spent.spends, ?_⟩
  intro key job found other queued same
  rcases follows.jobs key job found with ⟨old, here, queue, _⟩ | fresh
  · exact spent.unqueued key old here other (queue ▸ queued) same
  · have attempt := ok.queued_attempt after label.pid key job found other queued
    rw [same] at attempt
    exact fresh _ spent.spends (by rw [attempt])

omit ok in
theorem Spent.sends (table sent : EncodedTable) (sends : System.SendsTable (sys.procs label.pid) (after.procs label.pid) sent)
    (spent : Spent sys label.pid table) : Spent after label.pid table := by
  obtain ⟨key, job, rest, active, found, queue, moved⟩ := sends
  refine ⟨authored_step stepped _ _ spent.authored, ?_, ?_⟩
  · rw [moved, Proc.spawn_phase]
    exact spent.spends
  · intro other next there table queued
    rw [moved] at there
    simp only [Proc.spawn, Proc.send, Proc.setTask] at there
    split at there
    · cases there
      exact spent.unqueued key job found table (queue ▸ mem_cons_of_mem _ queued)
    · exact spent.unqueued other next there table queued

omit ok stepped [OrdMap.Differ] in
theorem SystemOk.preparation_spent (known : SystemOk sys) (pid : Pid) (key : EffectKey) (job : PrepareJob)
    (found : (sys.procs pid).tasks key = some (.prepare job)) : (sys.procs pid).phase.Spends job.ticket.attempt.localCounter := by
  have phase := (known.procs pid).phase
  obtain ⟨rfl, _⟩ := known.job sys pid key job found
  cases here : (sys.procs pid).phase with
  | idle | ready recovery =>
    rw [here] at phase
    rw [phase.1.tasks] at found
    cases found
  | bootstrapping state effect pending =>
    rw [here] at phase
    rw [phase.quiet.tasks] at found
    cases found
  | running machine timer view =>
    rw [here] at phase
    have marker := phase.marker
    rcases phase.preparing job.ticket (isSome_of_eq_some found) with marked | marked
    · rw [marked] at marker
      exact marker.2.1
    · rw [marked] at marker
      exact marker.2.1
  | _ => trivial

omit ok in
theorem sends_spent (known : SystemOk sys) (sent : EncodedTable)
    (sends : System.SendsTable (sys.procs label.pid) (after.procs label.pid) sent) : Spent after label.pid sent := by
  obtain ⟨key, job, rest, active, found, queue, moved⟩ := sends
  obtain ⟨named, created, jobOk⟩ := known.job sys label.pid key job found
  have queued : (sent :: rest).Sublist created := queue ▸ jobOk.queued
  have member : sent ∈ created := queued.subset mem_cons_self
  refine ⟨authored_step stepped _ _ (jobOk.authored _ created job sent member), ?_, ?_⟩
  · rw [moved, Proc.spawn_phase, jobOk.planned.fresh sent member]
    exact known.preparation_spent label.pid key job found
  intro other next there table waits same
  rw [moved] at there
  simp only [Proc.spawn, Proc.send, Proc.setTask] at there
  split at there
  · cases there
    have distinct := (queued.map EncodedTable.key).nodup jobOk.planned.keys
    rw [map_cons, nodup_cons] at distinct
    exact distinct.1 (same ▸ mem_map_of_mem waits)
  · rename_i apart
    obtain ⟨here, _⟩ := known.job sys label.pid other next there
    refine apart ?_
    rw [named] at found ⊢
    rw [here] at there ⊢
    rw [(known.procs label.pid).base.tasks.preparation _ _ (isSome_of_eq_some there) (isSome_of_eq_some found)]

end

theorem recorded_step [OrdMap.Differ] (after : System) (label : Label) (ok : TracedOk traced)
    (stepped : System.step label traced.sys = some after) (pid : Pid) (table : EncodedTable)
    (member : .tableCreated pid table ∈ after.history) : (pid, table) ∈ traced.creates := by
  rcases step_applied_or_aside traced.sys after label stepped with ⟨owner, id, request, _, found, applied⟩ | aside
  · rw [applied.history] at member
    rcases mem_append.mp member with new | old
    · rcases effectOf_cases traced.sys.store owner request with none | ⟨event, one, _⟩
      · rw [none] at new
        cases new
      · rw [one, mem_singleton] at new
        subst new
        obtain ⟨sent, wire⟩ := applied.sent
        obtain ⟨rfl, rfl⟩ := effectOf_tableCreated traced.sys.store owner pid request table one
        exact ok.wired owner sent table wire
    · exact ok.recorded pid table old
  · obtain ⟨events, grown, quiet⟩ := aside.history
    rw [grown] at member
    rcases mem_append.mp member with new | old
    · cases quiet _ new
    · exact ok.recorded pid table old

theorem TracedOk.unsent [OrdMap.Differ] (ok : TracedOk traced) (pid : Pid) (key : EffectKey) (job : PrepareJob)
    (found : (traced.sys.procs pid).tasks key = some (.prepare job)) (table : EncodedTable) (queued : table ∈ job.queue) :
    table.key ∉ traced.creates.map fun sent => sent.2.key := by
  intro again
  obtain ⟨⟨owner, created⟩, member, same⟩ := mem_map.mp again
  have spent := ok.spent owner created member
  obtain ⟨_, made, jobOk⟩ := (ReachableSystem.ok traced.sys ok.reached).job traced.sys pid key job found
  have mine := jobOk.authored _ made job table (jobOk.queued.subset queued)
  have author : owner = pid := by
    have theirs := spent.authored
    rw [same] at theirs
    exact some.inj (theirs.symm.trans mine)
  subst author
  exact spent.unqueued key job found table queued same.symm

theorem TracedOk.follows [OrdMap.Differ] (after : System) (label : Label) (ok : TracedOk traced)
    (stepped : System.step label traced.sys = some after)
    (follows : Proc.Follows (traced.sys.procs label.pid) (after.procs label.pid)) : TracedOk ⟨after, traced.creates⟩ := by
  have reached : ReachableSystem after := ok.reached.after _ _ label stepped
  refine ⟨reached, ?_, ok.once, ?_, recorded_step traced after label ok stepped⟩
  · intro pid table member
    by_cases mine : pid = label.pid
    · subst mine
      exact (ok.spent _ table member).follows (ReachableSystem.ok after reached) stepped table follows
    · exact (ok.spent pid table member).other stepped pid table mine
  · intro pid id table sent
    by_cases mine : pid = label.pid
    · subst mine
      exact ok.wired _ id table (follows.creates id table sent)
    · rw [step_other stepped pid mine] at sent
      exact ok.wired pid id table sent

theorem TracedOk.sends [OrdMap.Differ] (after : System) (label : Label) (ok : TracedOk traced)
    (stepped : System.step label traced.sys = some after) (table : EncodedTable)
    (sends : System.SendsTable (traced.sys.procs label.pid) (after.procs label.pid) table) :
    TracedOk ⟨after, (label.pid, table) :: traced.creates⟩ := by
  have known := ReachableSystem.ok traced.sys ok.reached
  refine ⟨ok.reached.after _ _ label stepped, ?_, ?_, ?_, ?_⟩
  · intro pid created member
    rcases mem_cons.mp member with same | earlier
    · cases same
      exact sends_spent stepped known table sends
    · by_cases mine : pid = label.pid
      · subst mine
        exact (ok.spent _ created earlier).sends stepped created table sends
      · exact (ok.spent pid created earlier).other stepped pid created mine
  · obtain ⟨key, job, rest, active, found, queue, _⟩ := sends
    exact nodup_cons.mpr ⟨ok.unsent traced label.pid key job found table (queue ▸ mem_cons_self), ok.once⟩
  · intro pid id created sent
    by_cases mine : pid = label.pid
    · subst mine
      obtain ⟨key, job, rest, active, _, _, moved⟩ := sends
      simp only [moved, Proc.spawn] at sent
      rcases View.mem_send_wire.mp sent with old | ⟨_, new⟩
      · exact mem_cons_of_mem _ (ok.wired _ id created old)
      · cases new
        exact mem_cons_self
    · have same := step_other stepped pid mine
      exact mem_cons_of_mem _ (ok.wired pid id created (same ▸ sent))
  · exact fun pid created member => mem_cons_of_mem _ (recorded_step traced after label ok stepped pid created member)

theorem TracedOk.step [OrdMap.Differ] (next : Traced) (label : Label) (ok : TracedOk traced)
    (stepped : traced.step label = some next) : TracedOk next := by
  obtain ⟨after, moved, rfl⟩ := map_eq_some_iff.mp stepped
  have wire := ((ReachableSystem.ok traced.sys ok.reached).procs label.pid).base.wire
  rcases step_follows_or_sends traced.sys after label moved with follows | ⟨table, sends⟩
  · rw [Proc.tableCreates_follows _ _ _ label.pid wire follows]
    exact ok.follows traced after label moved follows
  · have single : (after.procs label.pid).tableCreates (traced.sys.procs label.pid).nextRequest = [table] := by
      obtain ⟨key, job, rest, active, _, _, same⟩ := sends
      rw [same]
      exact Proc.tableCreates_spawn wire key _ table
    rw [single]
    exact ok.sends traced after label moved table sends

theorem ReachableTrace.ok [OrdMap.Differ] (reached : ReachableTrace traced) : TracedOk traced := by
  refine Transition.Reachable.invariant TracedOk ?_ ?_ traced reached
  · rintro _ rfl
    exact ⟨.start _ rfl, by simp, by simp, by simp [initial, Proc.idle], by simp [initial]⟩
  · exact fun traced next label ok stepped => ok.step traced next label stepped

end StromDB
