import StromDB.Progress.Leads
import StromDB.Session.Accounts

namespace StromDB

open Checked StromDB.System List Session

variable [Rkyv]

def Attends (log : List Entry) (effect : WriterEffect) : Task → Prop
  | .establishWal batch _ => effect.key = .wal batch
  | .publishAuthority ticket _ => effect.key = .sealPublication ticket
  | .prepare job => ∃ input, effect = .prepareCheckpoint input ∧ job.ticket = input.ticket ∧
      PreparationOutcome.builtFrom input (.prepared job.prepared) = true ∧
      (job.aborted = true → Log.cancelled job.ticket log = true)
  | .collect job => effect.key = .collection job.input.cut
  | .finished event => event.completes = some effect.key ∧ (∀ ticket, event ≠ .checkpointPreparationCancelled ticket) ∧
      ∀ ticket outcome, event = .checkpointPrepared ticket outcome →
        ∃ input, effect = .prepareCheckpoint input ∧ outcome.builtFrom input = true
  | .panicked _ => True

structure Hosts (tasks : EffectKey → Option Task) (timer : Option Instant) (log : List Entry) : Prop where
  attends : ∀ key task, tasks key = some task → ∃ effect ∈ Log.outstanding log, effect.key = key ∧ Attends log effect task
  present : ∀ effect ∈ Log.outstanding log, (tasks effect.key).isSome
  timer : Log.timer log = timer

section

variable {log : List Entry} {effect : WriterEffect}

theorem Attends.later (task : Task) (entry : Entry) (attends : Attends log effect task) : Attends (entry :: log) effect task := by
  cases task with
  | prepare job =>
    obtain ⟨input, same, ticket, built, aborted⟩ := attends
    refine ⟨input, same, ticket, built, ?_⟩
    intro stopped
    rw [Log.cancelled_cons, aborted stopped, Bool.or_true]
  | _ => exact attends

theorem Attends.cancel {task : Task} {ticket : CheckpointTicket} (named : effect.key = .checkpointPreparation ticket)
    (attends : Attends log effect task) :
    Attends (.emitted (.action (.cancelCheckpointPreparation ticket)) :: log) effect task.cancel := by
  cases task with
  | prepare job =>
    obtain ⟨input, rfl, same, built, _⟩ := attends
    refine ⟨input, rfl, same, built, fun _ => ?_⟩
    have mine : job.ticket = ticket := same.trans (EffectKey.checkpointPreparation.inj named)
    simp [mine]
  | _ => exact attends

theorem Attends.told (event : WriterEvent) (completes : event.completes = some effect.key)
    (running : ∀ ticket, event ≠ .checkpointPreparationCancelled ticket)
    (unprepared : ∀ ticket outcome, event ≠ .checkpointPrepared ticket outcome) : Attends log effect (.finished event) :=
  ⟨completes, running, fun ticket outcome same => absurd same (unprepared ticket outcome)⟩

section

variable (job : CollectJob) (attends : Attends log effect (.collect job))

include attends

theorem Attends.collected : Attends log effect job.finish.1 :=
  .told _ (congrArg some (Eq.symm attends)) (by simp) (by simp)

theorem Attends.deleteTables (id : Nat) (objects : List TableObjectId) :
    Attends log effect (CollectJob.deleteTables job.input job.tableDeletes id objects).1 := by
  cases objects with
  | nil => exact attends.collected job
  | cons object rest => exact attends

theorem Attends.advance (batch : BatchId) (id : Nat) : Attends log effect (job.advance batch id).1 := by
  unfold CollectJob.advance
  split
  · exact attends.deleteTables job id _
  · split
    · exact attends
    · trivial

theorem Attends.collect (id : Nat) (result : CallResult)
    (sent : Sent Task) (moved : job.step id result = some sent) : Attends log effect sent.1 := by
  unfold CollectJob.step at moved
  split at moved
  · split at moved
    · cases moved
      exact attends
    · cases moved
      exact attends.advance job _ id
  · cases moved
    exact attends.advance job _ id
  · cases moved
    exact attends.collected job
  · cases moved
    exact attends.advance job _ id
  · cases moved
    exact attends.collected job
  · cases moved
    exact attends.deleteTables job id _
  · cases moved
    exact attends.collected job
  · cases moved

end

theorem Attends.resume {task : Task} (attends : Attends log effect task) (id : Nat) (step : CallStep) (sent : Sent Task)
    (moved : task.resume id step = some sent) : Attends log effect sent.1 := by
  unfold Task.resume at moved
  split at moved
  · cases moved
    exact attends
  · cases moved
    exact .told _ (congrArg some (Eq.symm attends)) (by simp) (by simp)
  · cases moved
    exact attends
  · cases moved
    exact .told _ (congrArg some (Eq.symm attends)) (by simp) (by simp)
  · exact attends.collect _ id _ sent moved
  · cases moved

section

variable (job : PrepareJob) (attends : Attends log effect (.prepare job)) (sent : Sent Task)

include attends

theorem Attends.prepared (outcome : PreparationOutcome)
    (built : ∀ input, PreparationOutcome.builtFrom input (.prepared job.prepared) = true → outcome.builtFrom input = true) :
    Attends log effect (.finished (.checkpointPrepared job.ticket outcome)) := by
  obtain ⟨input, rfl, same, made, _⟩ := attends
  refine ⟨congrArg (fun ticket => some (EffectKey.checkpointPreparation ticket)) same, by simp, ?_⟩
  rintro ticket outcome ⟨⟩
  exact ⟨input, rfl, built input made⟩

theorem Attends.spawnTable (id : Nat) (moved : job.spawnTable id = some sent) : Attends log effect sent.1 := by
  unfold PrepareJob.spawnTable at moved
  split at moved
  · cases moved
  · split at moved
    · cases moved
      exact attends
    · cases moved

theorem Attends.table (index id : Nat) (step : CallStep) (moved : job.resume index id step = some sent) :
    Attends log effect sent.1 := by
  unfold PrepareJob.resume at moved
  split at moved
  · cases moved
    exact attends
  · cases moved
    exact attends
  · cases moved
    exact attends.prepared job .abandoned (fun _ _ => rfl)
  · cases moved
    exact attends.prepared job (.contradiction _) (fun _ _ => rfl)
  · cases moved

theorem Attends.settle (moved : job.settle = some sent) : Attends log effect sent.1 := by
  unfold PrepareJob.settle at moved
  split at moved
  · cases moved
    exact attends.prepared job (.prepared job.prepared) (fun _ made => made)
  · cases moved

end

theorem prepareCheckpoint_builtFrom [OrdMap.Differ] {input : CheckpointInput} {tables : List EncodedTable}
    {prepared : PreparedCheckpoint}
    (made : prepareCheckpoint input = .ok (.ok (tables, prepared))) :
    PreparationOutcome.builtFrom input (.prepared prepared) = true := by
  unfold prepareCheckpoint at made
  split at made
  · cases made
  obtain ⟨delta, _, made⟩ := bind_ok made
  obtain ⟨⟨cells, carried⟩, _, made⟩ := bind_ok made
  obtain ⟨⟨directoryTables, directory, ordinal⟩, _, made⟩ := bind_ok made
  obtain ⟨⟨ledgerTables, ledger, _⟩, _, made⟩ := bind_ok made
  obtain ⟨⟨successor, encoded⟩, _, made⟩ := bind_ok made
  obtain ⟨checkpoint, built, done⟩ := bind_ok made
  cases done
  have fields : prepared.successor = successor ∧ prepared.candidate = encoded := by
    obtain ⟨_, _, built⟩ := bind_ok built
    obtain ⟨_, _, built⟩ := bind_ok built
    obtain ⟨_, _, built⟩ := bind_ok built
    obtain ⟨_, _, built⟩ := bind_ok built
    obtain ⟨_, _, built⟩ := bind_ok built
    obtain ⟨_, _, built⟩ := bind_ok built
    cases built
    exact ⟨rfl, rfl⟩
  simp [PreparationOutcome.builtFrom, fields.1, fields.2, built]

theorem spawnPrepare_attends [OrdMap.Differ] (input : CheckpointInput) :
    Attends log (.prepareCheckpoint input) (spawnPrepare input) := by
  have failed : ∀ detail,
      Attends log (.prepareCheckpoint input) (.finished (.checkpointPrepared input.ticket (.contradiction detail))) := by
    intro detail
    refine ⟨rfl, by simp, ?_⟩
    rintro ticket outcome ⟨⟩
    exact ⟨input, rfl, rfl⟩
  unfold spawnPrepare
  split
  · exact failed _
  · exact failed _
  · rename_i tables prepared made
    exact ⟨input, rfl, rfl, prepareCheckpoint_builtFrom made, nofun⟩

theorem spawnEffect_attends [OrdMap.Differ] (id : Nat) : Attends log effect (spawnEffect id effect).1 := by
  cases effect with
  | establishWal candidate | publishAuthority ticket candidate => rfl
  | prepareCheckpoint input => exact spawnPrepare_attends input
  | collect input =>
    simp only [spawnEffect, spawnCollect]
    split
    · trivial
    · rfl

end

section

variable {pid : Pid} {log : List Entry} (owner : OwnerToken)

omit owner in
theorem Hosts.moved (tasks later : EffectKey → Option Task) (timer : Option Instant) (newer : List Entry)
    (hosts : Hosts tasks timer log)
    (outstanding : Log.outstanding newer = Log.outstanding log)
    (moves : ∀ key task, later key = some task → ∃ old, tasks key = some old ∧
      ∀ effect : WriterEffect, effect.key = key → Attends log effect old → Attends newer effect task)
    (present : ∀ key, (tasks key).isSome → (later key).isSome) : Hosts later (Log.timer newer) newer where
  attends := by
    intro key task found
    obtain ⟨old, before, attends⟩ := moves key task found
    obtain ⟨effect, issued, same, known⟩ := hosts.attends key old before
    exact ⟨effect, outstanding ▸ issued, same, attends effect same known⟩
  present := fun effect issued => present _ (hosts.present effect (outstanding ▸ issued))
  timer := rfl

omit owner in
theorem Hosts.later (tasks : EffectKey → Option Task) (timer : Option Instant) (entry : Entry) (hosts : Hosts tasks timer log)
    (outstanding : Log.outstanding (entry :: log) = Log.outstanding log) : Hosts tasks (entry.timer timer) (entry :: log) := by
  have moved := hosts.moved tasks tasks timer (entry :: log) outstanding
    (fun key task found => ⟨task, found, fun _ _ known => known.later task entry⟩) (fun _ found => found)
  rwa [Log.timer, hosts.timer] at moved

omit owner in
theorem Hosts.spawned (tasks later : EffectKey → Option Task) (timer : Option Instant) (effect : WriterEffect) (task : Task)
    (hosts : Hosts tasks timer log) (attends : Attends log effect task) (here : later effect.key = some task)
    (others : ∀ key, key ≠ effect.key → later key = tasks key) : Hosts later timer (.emitted (.effect effect) :: log) := by
  have outstanding : Log.outstanding (.emitted (.effect effect) :: log) = Log.outstanding log ++ [effect] := by simp
  refine ⟨?_, ?_, hosts.timer⟩
  · intro key found there
    by_cases same : key = effect.key
    · rw [same, here] at there
      cases there
      exact ⟨effect, by rw [outstanding]; simp, same.symm, attends.later task _⟩
    · rw [others key same] at there
      obtain ⟨other, issued, other_key, old⟩ := hosts.attends key found there
      exact ⟨other, by rw [outstanding]; exact mem_append_left _ issued, other_key, old.later found _⟩
  intro other issued
  by_cases same : other.key = effect.key
  · rw [same, here]
    rfl
  · rw [others _ same]
    rw [outstanding] at issued
    rcases mem_append.mp issued with old | new
    · exact hosts.present other old
    · exact absurd (congrArg WriterEffect.key (mem_singleton.mp new)) same

theorem Hosts.output [OrdMap.Differ] (execution : System.Execution) (output : WriterOutput)
    (hosts : Hosts (execution.sys.procs pid).tasks execution.timer log) (slotted : Slotted (.emitted output) log) :
    ∃ next, executeOutput pid owner execution output = .ok next ∧
      Hosts (next.sys.procs pid).tasks next.timer (.emitted output :: log) ∧
      next.view = Entry.view execution.view (.emitted output) := by
  cases output with
  | effect effect =>
    have vacant : (execution.sys.procs pid).tasks effect.key = none := by
      cases found : (execution.sys.procs pid).tasks effect.key with
      | none => rfl
      | some task =>
        obtain ⟨other, issued, same, _⟩ := hosts.attends _ task found
        exact absurd (congrArg EffectKey.slot same) (slotted other issued)
    let sent := spawnEffect (execution.sys.procs pid).nextRequest effect
    have tasks : ((execution.sys.spawn pid effect.key sent).procs pid).tasks =
        ((execution.sys.procs pid).spawn effect.key sent).tasks := by
      simp [spawn_eq]
    refine ⟨{ execution with sys := execution.sys.spawn pid effect.key sent }, ?_, ?_, rfl⟩
    · simp [executeOutput, vacant, require, sent]
    · refine hosts.spawned _ _ _ effect sent.1 (spawnEffect_attends _) ?_ ?_
      · rw [tasks, Proc.spawn, Proc.send_tasks, Proc.setTask_self]
      · intro key apart
        rw [tasks, Proc.spawn, Proc.send_tasks, Proc.setTask_other _ _ _ _ apart]
  | action action =>
    cases action with
    | armFlush deadline =>
      have idle : execution.timer = none := hosts.timer.symm.trans slotted
      refine ⟨{ execution with timer := some deadline }, ?_, hosts.later _ _ (.emitted (.action (.armFlush deadline))) (by simp), rfl⟩
      simp [executeOutput, idle, require]
    | publishView forest => 
        exact ⟨{ execution with view := forest }, rfl, hosts.later _ _ (.emitted (.action (.publishView forest))) (by simp), rfl⟩
    | sendReplies replies =>
      exact ⟨{ execution with sys := execution.sys.record (replies.map (Event.replied pid owner)).reverse }, rfl,
        hosts.later _ _ (.emitted (.action (.sendReplies replies))) (by simp), rfl⟩
    | cancelCheckpointPreparation ticket =>
      obtain ⟨input, issued, named⟩ := slotted
      obtain ⟨task, found⟩ := Option.isSome_iff_exists.mp (hosts.present _ issued)
      rw [show WriterEffect.key (.prepareCheckpoint input) = .checkpointPreparation ticket by rw [← named]; rfl] at found
      refine ⟨{ execution with sys := execution.sys.setTask pid (.checkpointPreparation ticket) (some task.cancel) }, ?_, ?_, rfl⟩
      · simp [executeOutput, found]
      have tasks : ((execution.sys.setTask pid (.checkpointPreparation ticket) (some task.cancel)).procs pid).tasks =
          ((execution.sys.procs pid).setTask (.checkpointPreparation ticket) (some task.cancel)).tasks := by
        simp [setTask]
      have moved := hosts.moved _ ((execution.sys.procs pid).setTask (.checkpointPreparation ticket) (some task.cancel)).tasks _
        (.emitted (.action (.cancelCheckpointPreparation ticket)) :: log) (by simp) ?_ ?_
      · rw [tasks]
        simpa [hosts.timer] using moved
      · intro key now there
        by_cases same : key = .checkpointPreparation ticket
        · rw [same, Proc.setTask_self] at there
          cases there
          exact ⟨task, same ▸ found, fun _ named known => known.cancel (named.trans same)⟩
        · rw [Proc.setTask_other _ _ _ _ same] at there
          exact ⟨now, there, fun _ _ known => known.later now _⟩
      · intro key there
        by_cases same : key = .checkpointPreparation ticket
        · rw [same, Proc.setTask_self]
          rfl
        · rwa [Proc.setTask_other _ _ _ _ same]

theorem Hosts.outputs [OrdMap.Differ] (outputs : List WriterOutput) : ∀ (log : List Entry) (execution : System.Execution),
    Hosts (execution.sys.procs pid).tasks execution.timer log → Log.Every Slotted (Log.emits outputs log) →
    ∃ next, executeOutputs pid owner outputs execution = (next, none) ∧
      Hosts (next.sys.procs pid).tasks next.timer (Log.emits outputs log) ∧
      ∀ recovered, Log.view recovered log = execution.view → Log.view recovered (Log.emits outputs log) = next.view := by
  induction outputs with
  | nil => exact fun log execution hosts _ => ⟨execution, rfl, hosts, fun _ viewed => viewed⟩
  | cons output rest ih =>
    intro log execution hosts slotted
    rw [Log.emits_cons] at slotted ⊢
    obtain ⟨middle, first, hosts, viewed⟩ := hosts.output owner execution output (Log.Every.before _ rest _ slotted).1
    obtain ⟨next, executed, hosts, views⟩ := ih _ middle hosts slotted
    refine ⟨next, by simp only [executeOutputs, first, executed], hosts, fun recovered same => views recovered ?_⟩
    rw [viewed, Log.view, same]

end

section

variable {tasks : EffectKey → Option Task} {timer : Option Instant} {log : List Entry} (hosts : Hosts tasks timer log) (now : Instant)
  (event : WriterEvent) (machine : WriterMachine)

include hosts

theorem Hosts.told (idle : event.completes = none) :
    Hosts tasks (Entry.timer timer (.observed now event machine)) (.observed now event machine :: log) :=
  hosts.later tasks timer _ (by simp [idle])

theorem Hosts.joined (key : EffectKey) (completes : event.completes = some key) (later : EffectKey → Option Task)
    (gone : later key = none) (others : ∀ other, other ≠ key → later other = tasks other) :
    Hosts later timer (.observed now event machine :: log) := by
  have outstanding : ∀ effect, effect ∈ Log.outstanding (.observed now event machine :: log) ↔
      effect ∈ Log.outstanding log ∧ effect.key ≠ key := by
    simp [Log.outstanding, Entry.effects, Entry.completes, completes, ne_comm]
  refine ⟨?_, ?_, ?_⟩
  · intro other task found
    have apart : other ≠ key := by
      rintro rfl
      rw [gone] at found
      cases found
    rw [others other apart] at found
    obtain ⟨effect, issued, same, attends⟩ := hosts.attends other task found
    exact ⟨effect, (outstanding effect).mpr ⟨issued, same ▸ apart⟩, same, attends.later task _⟩
  · intro effect issued
    obtain ⟨old, apart⟩ := (outstanding effect).mp issued
    rw [others _ apart]
    exact hosts.present effect old
  · rw [← hosts.timer]
    cases event with
    | flushDue => cases completes
    | _ => rfl

end

-- A running process is a session: the machine is the session's and the tasks
-- are its outstanding effects.
structure Hosted (sys : System) (pid : Pid) (machine : WriterMachine) (timer : Option Instant) (view : Forest)
    (recovery : WriterRecovery)
    (s : Session) : Prop where
  completed : .completed pid recovery ∈ sys.history
  reached : ReachableSession recovery s
  machine : s.machine = machine
  going : Log.exit s.log = none
  begun : s.log ≠ []
  view : Log.view recovery.durable s.log = view
  commands : ∀ envelope ∈ Log.commands s.log, .commanded pid envelope ∈ sys.history
  hosts : Hosts (sys.procs pid).tasks timer s.log

def ProcHosted (sys : System) (pid : Pid) : Prop :=
  match (sys.procs pid).phase with
  | .ready recovery => .completed pid recovery ∈ sys.history
  | .running machine timer view => ∃ recovery s, Hosted sys pid machine timer view recovery s
  | _ => True

section

variable [OrdMap.Differ] {sys base : System} {pid : Pid} {recovery : WriterRecovery} (completes : Completes sys recovery) (s : Session)
  (reached : ReachableSession recovery s) (now : Instant) (event : WriterEvent) (conforms : s.conforms event = true)
  (timer : Option Instant) (view : Forest) (hosts : Hosts (base.procs pid).tasks timer (.observed now event s.machine :: s.log))

include completes reached conforms hosts

theorem Hosts.step (owner : OwnerToken) (machine : WriterMachine) (outputs : List WriterOutput) (exit : Option WriterExit)
    (handled : s.machine.handle now event = .ok (machine, outputs, exit)) :
    ∃ next, executeOutputs pid owner outputs ⟨base, timer, view⟩ = (next, none) ∧
      Hosts (next.sys.procs pid).tasks next.timer (Log.emits outputs (.observed now event s.machine :: s.log)) ∧
      (Log.view recovery.durable s.log = view →
        Log.view recovery.durable (Log.emits outputs (.observed now event s.machine :: s.log)) = next.view) := by
  have stepped := step_eq_some_iff.mpr ⟨conforms, _, handled, rfl⟩
  obtain ⟨last, _, accounts, finished⟩ := completes.last _ (reached.after _ _ _ stepped)
  have every := finished.every Slotted (fun _ _ => trivial) (fun _ _ _ _ _ => trivial) accounts.slotted
  have slotted : Log.Every Slotted (Log.emits outputs (.observed now event s.machine :: s.log)) := by
    cases exit with
    | none => exact every
    | some exit => exact every.2
  obtain ⟨next, executed, hosts, views⟩ := hosts.outputs owner outputs _ ⟨base, timer, view⟩ slotted
  exact ⟨next, executed, hosts, fun viewed => views _ viewed⟩

theorem drive_hosted (viewed : Log.view recovery.durable s.log = view) (completed : .completed pid recovery ∈ base.history)
    (commands : ∀ envelope ∈ Log.commands (.observed now event s.machine :: s.log), .commanded pid envelope ∈ base.history) :
    ProcHosted (base.driveWriter pid s.machine timer view now event) pid := by
  have aside := (driveWriter_moves pid base s.machine timer view now event).plain
  obtain ⟨events, grown, _⟩ := aside.history
  unfold driveWriter at grown ⊢
  split
  · simp [ProcHosted, setPhase]
  rename_i machine outputs exit handled
  obtain ⟨next, executed, hosts, views⟩ :=
    Hosts.step completes s reached now event conforms timer view hosts machine.claim.owner machine outputs exit handled
  simp only [handled, executed] at grown ⊢
  cases exit with
  | some exit => simp [ProcHosted, finishStep, setPhase]
  | none =>
    have stepped := step_eq_some_iff.mpr ⟨conforms, _, handled, rfl⟩
    have phase : ((finishStep pid machine none next).procs pid).phase = .running machine next.timer next.view := by
      simp [finishStep, setPhase]
    rw [ProcHosted, phase]
    refine ⟨recovery, s.after now event (machine, outputs, none), ?_, reached.after _ _ _ stepped, rfl, ?_, ?_, views viewed, ?_, ?_⟩
    · rw [grown]
      exact mem_append_right _ completed
    · exact (Log.exit_emits outputs _).trans (s.conforms_running event conforms)
    · simp [Session.after, Log.emits]
    · intro envelope member
      rw [grown]
      exact mem_append_right _ (commands envelope (Log.commands_emits outputs _ ▸ member))
    · simpa [finishStep, setPhase, Session.after] using hosts

end

section

variable {sys after : System} {pid : Pid}

section

variable (hosted : ProcHosted sys pid) (phase : (after.procs pid).phase = (sys.procs pid).phase)

include hosted phase

theorem ProcHosted.moved
    (history : ∃ events, after.history = events ++ sys.history)
    (moves : ∀ log key task, (after.procs pid).tasks key = some task → ∃ old, (sys.procs pid).tasks key = some old ∧
      ∀ effect : WriterEffect, effect.key = key → Attends log effect old → Attends log effect task)
    (present : ∀ key, ((sys.procs pid).tasks key).isSome → ((after.procs pid).tasks key).isSome) : ProcHosted after pid := by
  obtain ⟨events, grown⟩ := history
  have kept : ∀ event ∈ sys.history, event ∈ after.history := by
    intro event member
    rw [grown]
    exact mem_append_right _ member
  unfold ProcHosted at hosted ⊢
  rw [phase]
  cases here : (sys.procs pid).phase with
  | ready recovery =>
    rw [here] at hosted
    exact kept _ hosted
  | running machine timer view =>
    rw [here] at hosted
    obtain ⟨recovery, s, hosted⟩ := hosted
    have hosts := hosted.hosts.moved _ (after.procs pid).tasks timer s.log rfl (moves s.log) present
    rw [hosted.hosts.timer] at hosts
    exact ⟨recovery, s, kept _ hosted.completed, hosted.reached, hosted.machine, hosted.going, hosted.begun, hosted.view,
      fun envelope member => kept _ (hosted.commands envelope member), hosts⟩
  | _ => trivial

theorem ProcHosted.still
    (tasks : (after.procs pid).tasks = (sys.procs pid).tasks) (history : ∃ events, after.history = events ++ sys.history) :
    ProcHosted after pid := by
  refine hosted.moved phase history ?_ (by rw [tasks]; exact fun _ found => found)
  intro log key task found
  rw [tasks] at found
  exact ⟨task, found, fun _ _ known => known⟩

end

theorem ProcHosted.resumed (hosted : ProcHosted sys pid) (proc : Proc) (phase : proc.phase = (sys.procs pid).phase)
    (tasks : proc.tasks = (sys.procs pid).tasks) (key : EffectKey) (task : Task) (found : (sys.procs pid).tasks key = some task)
    (sent : Sent Task) (spawned : after.procs pid = proc.spawn key sent) (history : ∃ events, after.history = events ++ sys.history)
    (moves : ∀ log (effect : WriterEffect), Attends log effect task → Attends log effect sent.1) : ProcHosted after pid := by
  have lookup : ∀ other, (after.procs pid).tasks other = if other = key then some sent.1 else (sys.procs pid).tasks other := by
    intro other
    rw [spawned, Proc.spawn, Proc.send_tasks, Proc.setTask, ← tasks]
  refine hosted.moved (by rw [spawned, Proc.spawn_phase, phase]) history ?_ ?_
  · intro log other now there
    rw [lookup] at there
    split at there
    · rename_i same
      cases there
      exact ⟨task, same ▸ found, fun effect _ known => moves log effect known⟩
    · exact ⟨now, there, fun _ _ known => known⟩
  · intro other there
    rw [lookup]
    split
    · rfl
    · exact there

theorem driveBootstrap_hosted (state : BootstrapState) (event : BootstrapEvent) :
    ProcHosted (sys.driveBootstrap pid state event) pid := by
  unfold driveBootstrap
  split
  · simp [ProcHosted, setPhase]
  · simp [ProcHosted, await, send, setPhase]
  · simp [ProcHosted, setPhase, record]
  · simp [ProcHosted, setPhase]

section

variable [OrdMap.Differ] (reached : ReachableSystem sys) {machine : WriterMachine} {timer : Option Instant} {view : Forest}
  {recovery : WriterRecovery}
  {s : Session} (hosted : Hosted sys pid machine timer view recovery s)

include hosted

omit [OrdMap.Differ] in
theorem Hosted.exitless : (Log.exit s.log).isNone = true ∧ s.log.isEmpty = false :=
  ⟨by rw [hosted.going]; rfl, by simpa using hosted.begun⟩

omit [OrdMap.Differ] in
theorem Hosted.conforms_finished (key : EffectKey) (event : WriterEvent) (found : (sys.procs pid).tasks key = some (.finished event)) :
    s.conforms event = true ∧ event.completes = some key := by
  obtain ⟨effect, issued, rfl, completes, running, built⟩ := hosted.hosts.attends key _ found
  obtain ⟨exitless, begun⟩ := hosted.exitless
  have awaited : ∀ key, some key = some effect.key → s.awaits key = true := by
    rintro _ ⟨⟩
    exact any_eq_true.mpr ⟨effect, issued, decide_eq_true rfl⟩
  refine ⟨?_, completes⟩
  cases event with
  | walEstablished batch result | sealPublished ticket result
  | collectFinished cut => simp [conforms, exitless, begun, awaited _ completes]
  | checkpointPrepared ticket outcome =>
    obtain ⟨input, rfl, made⟩ := built ticket outcome rfl
    have prepares : s.prepares ticket outcome = true := by
      refine any_eq_true.mpr ⟨_, issued, ?_⟩
      have named := EffectKey.checkpointPreparation.inj (Option.some.inj completes)
      simp [named, made]
    simp [conforms, exitless, begun, prepares]
  | checkpointPreparationCancelled ticket => exact absurd rfl (running ticket)
  | _ => cases completes

omit [OrdMap.Differ] in
theorem Hosted.conforms_cancelled (key : EffectKey) (job : PrepareJob) (found : (sys.procs pid).tasks key = some (.prepare job))
    (aborted : job.aborted = true) : s.conforms (.checkpointPreparationCancelled job.ticket) = true ∧
      WriterEvent.completes (.checkpointPreparationCancelled job.ticket) = some key := by
  obtain ⟨effect, issued, rfl, input, rfl, named, _, cancelled⟩ := hosted.hosts.attends key _ found
  obtain ⟨exitless, begun⟩ := hosted.exitless
  have same : EffectKey.checkpointPreparation job.ticket = WriterEffect.key (.prepareCheckpoint input) :=
    congrArg EffectKey.checkpointPreparation named
  have awaited : s.awaits (.checkpointPreparation job.ticket) = true :=
    any_eq_true.mpr ⟨_, issued, decide_eq_true same.symm⟩
  refine ⟨?_, congrArg some same⟩
  simp [conforms, exitless, begun, awaited, cancelled aborted]

include reached

theorem Hosted.completes : Completes sys recovery := ⟨reached, pid, hosted.completed⟩

theorem Hosted.join (now : Instant) (key : EffectKey) (event : WriterEvent)
    (conforms : s.conforms event = true ∧ event.completes = some key) :
    ProcHosted ((sys.setTask pid key none).driveWriter pid machine timer view now event) pid := by
  obtain ⟨accepted, completes⟩ := conforms
  have hosts : Hosts (((sys.setTask pid key none).procs pid).tasks) timer (.observed now event s.machine :: s.log) := by
    refine hosted.hosts.joined now event s.machine key completes _ ?_ ?_
    · simp [setTask]
    · intro other apart
      simp [setTask, Proc.setTask_other _ _ _ _ apart]
  have silent : Entry.commands (.observed now event s.machine) = [] := by
    cases event with
    | command envelope => cases completes
    | _ => rfl
  rw [← hosted.machine]
  refine drive_hosted (hosted.completes reached) s hosted.reached now event accepted timer view hosts hosted.view hosted.completed ?_
  intro envelope member
  rw [Log.commands, silent, append_nil] at member
  exact hosted.commands envelope member

theorem Hosted.told (base : System) (procs : base.procs = sys.procs) (kept : ∀ event ∈ sys.history, event ∈ base.history)
    (now : Instant) (event : WriterEvent) (accepted : s.conforms event = true) (idle : event.completes = none)
    (polled : ∀ envelope, event = .command envelope → .commanded pid envelope ∈ base.history) :
    ProcHosted (base.driveWriter pid machine (Entry.timer timer (.observed now event s.machine)) view now event) pid := by
  have hosts : Hosts (base.procs pid).tasks (Entry.timer timer (.observed now event s.machine))
      (.observed now event s.machine :: s.log) := by
    rw [procs]
    exact hosted.hosts.told now event s.machine idle
  rw [← hosted.machine]
  refine drive_hosted (hosted.completes reached) s hosted.reached now event accepted _ view hosts hosted.view
    (kept _ hosted.completed) ?_
  intro envelope member
  rcases mem_append.mp member with old | new
  · exact kept _ (hosted.commands envelope old)
  · cases event with
    | command polledEnvelope =>
      cases mem_singleton.mp new
      exact polled _ rfl
    | _ => cases new

end

theorem launch_hosted [OrdMap.Differ] (reached : ReachableSystem sys) (hosted : ProcHosted sys pid) (recovery : WriterRecovery)
    (here : (sys.procs pid).phase = .ready recovery) (flushIntervalMin : Instant) (flushBufferBytes : Nat) (now : Instant)
    (machine : WriterMachine) (made : WriterMachine.fromRecovery recovery flushIntervalMin flushBufferBytes = .ok machine) :
    ProcHosted (sys.driveWriter pid machine none recovery.durable now .started) pid := by
  have completed : .completed pid recovery ∈ sys.history := by
    rwa [ProcHosted, here] at hosted
  have phase := ((reached.ok sys).procs pid).phase
  rw [here] at phase
  have idle : Hosts (sys.procs pid).tasks none [] := by
    refine ⟨?_, by simp, rfl⟩
    intro key task found
    rw [phase.1.tasks key] at found
    cases found
  exact drive_hosted ⟨reached, pid, completed⟩ ⟨machine, []⟩ (.start _ ⟨_, _, made, rfl⟩) now .started rfl none recovery.durable
    (idle.told now .started machine rfl) rfl completed (by simp)

theorem Hosted.conforms_command [OrdMap.Differ] {machine : WriterMachine} {timer : Option Instant} {view : Forest}
    {recovery : WriterRecovery}
    {s : Session} (hosted : Hosted sys pid machine timer view recovery s) (envelope : CommandEnvelope)
    (unused : replyUnused sys.history envelope.reply = true) (opened : machine.admissionOpen = .ok true) :
    s.conforms (.command envelope) = true := by
  obtain ⟨exitless, begun⟩ := hosted.exitless
  have fresh : (Log.commands s.log).all (fun earlier => decide (earlier.reply ≠ envelope.reply)) = true := by
    refine all_eq_true.mpr ?_
    intro earlier member
    exact all_eq_true.mp unused _ (hosted.commands earlier member)
  rw [← hosted.machine] at opened
  simp only [conforms, exitless, begun, opened, fresh]
  rfl

theorem ProcHosted.running (hosted : ProcHosted sys pid) {machine : WriterMachine} {timer : Option Instant} {view : Forest}
    (here : (sys.procs pid).phase = .running machine timer view) : ∃ recovery s, Hosted sys pid machine timer view recovery s := by
  rwa [ProcHosted, here] at hosted

theorem step_hosted [OrdMap.Differ] {label : Label} (reached : ReachableSystem sys) (hosted : ∀ pid, ProcHosted sys pid)
    (stepped : System.step label sys = some after) (pid : Pid) : ProcHosted after pid := by
  have history := step_history stepped
  by_cases moves : pid ≠ label.pid
  · have same := step_other stepped pid moves
    exact (hosted pid).still (by rw [same]) (by rw [same]) history
  rw [not_not.mp moves]
  have known := hosted label.pid
  cases step_steps stepped with
  | halts _ phase dead => rcases dead with rfl | ⟨_, rfl⟩ <;> simp [ProcHosted, setPhase]
  | start => exact driveBootstrap_hosted _ _
  | launch pid interval bytes now recovery machine here made =>
    exact launch_hosted reached known recovery here interval bytes now machine made
  | apply pid id =>
    exact known.still (by simp [Label.pid, Proc.answer, Proc.unsend]) (by simp [Label.pid, Proc.answer, Proc.unsend]) history
  | boot pid delivery _ answered =>
    cases answered with
    | waits => simp [ProcHosted, await, send, setPhase, Label.pid]
    | done => exact driveBootstrap_hosted _ _
  | task pid key _ task _ _ proc _ sent found _ delivered _ moved =>
    obtain ⟨phase, tasks⟩ := Proc.deliver_same _ _ _ _ _ delivered
    exact known.resumed proc phase tasks key task found sent (by simp [spawn_eq, Label.pid]) history
      fun _ _ attends => attends.resume _ _ sent moved
  | table pid key index _ job _ _ proc _ sent found _ delivered _ moved =>
    obtain ⟨phase, tasks⟩ := Proc.deliver_same _ _ _ _ _ delivered
    exact known.resumed proc phase tasks key _ found sent (by simp [spawn_eq, Label.pid]) history
      fun _ _ attends => attends.table job sent index _ _ moved
  | command pid now envelope machine timer view here unused opened =>
    obtain ⟨recovery, s, hosted⟩ := known.running here
    exact hosted.told reached (sys.record [.commanded pid envelope]) rfl (fun _ member => mem_append_right _ member) now _
      (hosted.conforms_command envelope unused opened) rfl (by rintro _ ⟨⟩; exact mem_cons_self)
  | flushDue pid now deadline machine view here =>
    obtain ⟨recovery, s, hosted⟩ := known.running here
    obtain ⟨exitless, begun⟩ := hosted.exitless
    exact hosted.told reached sys rfl (fun _ member => member) now .flushDue
      (by simp [conforms, exitless, begun, hosted.hosts.timer]) rfl (by simp)
  | ingressClosed pid now machine timer view here opened =>
    obtain ⟨recovery, s, hosted⟩ := known.running here
    obtain ⟨exitless, begun⟩ := hosted.exitless
    exact hosted.told reached sys rfl (fun _ member => member) now .ingressClosed
      (by simp [conforms, exitless, begun, hosted.machine, opened]) rfl (by simp)
  | join pid now key event machine timer view here found =>
    obtain ⟨recovery, s, hosted⟩ := known.running here
    rcases found with found | ⟨job, found, aborted, rfl⟩
    · exact hosted.join reached now key event (hosted.conforms_finished key event found)
    · exact hosted.join reached now key _ (hosted.conforms_cancelled key job found aborted)
  | spawnTable pid key job sent found moved =>
    exact known.resumed (sys.procs pid) rfl rfl key _ found sent (by simp [spawn_eq, Label.pid]) history
      fun _ _ attends => attends.spawnTable job sent _ moved
  | settle pid key job sent found moved =>
    exact known.resumed (sys.procs pid) rfl rfl key _ found sent (by simp [spawn_eq, Label.pid]) history
      fun _ _ attends => attends.settle job sent moved

end

theorem ReachableSystem.hosted [OrdMap.Differ] {sys : System} (reached : ReachableSystem sys) (pid : Pid) (machine : WriterMachine)
    (timer : Option Instant) (view : Forest) (here : (sys.procs pid).phase = .running machine timer view) :
    ∃ recovery s, Hosted sys pid machine timer view recovery s := by
  have hosted : ReachableSystem sys ∧ ∀ pid, ProcHosted sys pid := by
    refine Transition.Reachable.invariant (fun sys => ReachableSystem sys ∧ ∀ pid, ProcHosted sys pid) ?_ ?_ sys reached
    · intro sys initial
      refine ⟨.start sys initial, ?_⟩
      cases initial
      exact fun _ => trivial
    · intro sys after label known stepped
      exact ⟨known.1.after _ _ label stepped, step_hosted known.1 known.2 stepped⟩
  have known := hosted.2 pid
  rwa [ProcHosted, here] at known

end StromDB
