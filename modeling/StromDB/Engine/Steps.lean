import StromDB.Engine.System

namespace StromDB

open Option

variable [Rkyv] [OrdMap.Differ]

def Label.pid : Label → Pid
  | .start pid _ => pid
  | .launch pid _ _ _ => pid
  | .apply pid _ => pid
  | .respond pid _ _ => pid
  | .command pid _ _ => pid
  | .flushDue pid _ => pid
  | .ingressClosed pid _ => pid
  | .join pid _ _ => pid
  | .spawnTable pid _ => pid
  | .settle pid _ => pid
  | .crash pid => pid

namespace System

inductive BootAnswered (sys : System) (pid : Pid) (delivery : Delivery) : System → Prop where
  | waits (state effect pending response proc call) (here : (sys.procs pid).phase = .bootstrapping state effect pending)
      (delivered : (sys.procs pid).deliver pending delivery = some (response, proc))
      (resumed : pending.call.resume response = some (.wait call)) :
      BootAnswered sys pid delivery ((sys.setProc pid proc).await pid state effect call)
  | done (state effect pending response proc result event) (here : (sys.procs pid).phase = .bootstrapping state effect pending)
      (delivered : (sys.procs pid).deliver pending delivery = some (response, proc))
      (resumed : pending.call.resume response = some (.done result)) (told : bootEvent effect result = some event) :
      BootAnswered sys pid delivery (((sys.setProc pid proc).record (authoredBy pid effect event)).driveBootstrap pid state event)

inductive Steps (sys : System) : Label → System → Prop where
  | halts (label : Label) (phase) (dead : phase = .crashed ∨ ∃ message, phase = .panicked message) :
      Steps sys label (sys.setPhase label.pid phase)
  | start (pid partition) (here : (sys.procs pid).phase = .idle) :
      Steps sys (.start pid partition) (sys.driveBootstrap pid .initial (.started partition))
  | launch (pid interval bytes now recovery machine) (here : (sys.procs pid).phase = .ready recovery)
      (made : WriterMachine.fromRecovery recovery interval bytes = .ok machine) :
      Steps sys (.launch pid interval bytes now) (sys.driveWriter pid machine none recovery.durable now .started)
  | apply (pid id request) (found : (sys.procs pid).wire.lookup id = some request) :
      Steps sys (.apply pid id) (({ sys with store := (sys.store.execute request).1 }.setProc pid
        ((sys.procs pid).answer id (sys.store.execute request).2)).record (effectOf sys.store pid request))
  | boot (pid delivery after) (answered : BootAnswered sys pid delivery after) : Steps sys (.respond pid .boot delivery) after
  | task (pid key delivery) (task : Task) (pending response proc resumed sent) (found : (sys.procs pid).tasks key = some task)
      (waits : task.pending = some pending) (delivered : (sys.procs pid).deliver pending delivery = some (response, proc))
      (resume : pending.call.resume response = some resumed) (moved : task.resume proc.nextRequest resumed = some sent) :
      Steps sys (.respond pid (.task key) delivery)
        (((sys.setProc pid proc).record (taskAuthored pid task sent.1)).spawn pid key sent)
  | table (pid key index delivery) (job : PrepareJob) (pending response proc resumed sent)
      (found : (sys.procs pid).tasks key = some (.prepare job)) (waits : job.active[index]? = some pending)
      (delivered : (sys.procs pid).deliver pending delivery = some (response, proc))
      (resume : pending.call.resume response = some resumed) (moved : job.resume index proc.nextRequest resumed = some sent) :
      Steps sys (.respond pid (.table key index) delivery) ((sys.setProc pid proc).spawn pid key sent)
  | command (pid now envelope machine timer view) (here : (sys.procs pid).phase = .running machine timer view)
      (unused : replyUnused sys.history envelope.reply = true) (opened : machine.admissionOpen = .ok true) :
      Steps sys (.command pid now envelope)
        ((sys.record [.commanded pid envelope]).driveWriter pid machine timer view now (.command envelope))
  | flushDue (pid now deadline machine view) (here : (sys.procs pid).phase = .running machine (some deadline) view) :
      Steps sys (.flushDue pid now) (sys.driveWriter pid machine none view now .flushDue)
  | ingressClosed (pid now machine timer view) (here : (sys.procs pid).phase = .running machine timer view)
      (opened : machine.admissionOpen = .ok true) :
      Steps sys (.ingressClosed pid now) (sys.driveWriter pid machine timer view now .ingressClosed)
  | join (pid now key event machine timer view) (here : (sys.procs pid).phase = .running machine timer view)
      (found : (sys.procs pid).tasks key = some (.finished event) ∨ ∃ job, (sys.procs pid).tasks key = some (.prepare job) ∧
        job.aborted = true ∧ event = .checkpointPreparationCancelled job.ticket) :
      Steps sys (.join pid now key) ((sys.setTask pid key none).driveWriter pid machine timer view now event)
  | spawnTable (pid key) (job : PrepareJob) (sent) (found : (sys.procs pid).tasks key = some (.prepare job))
      (moved : job.spawnTable (sys.procs pid).nextRequest = some sent) : Steps sys (.spawnTable pid key) (sys.spawn pid key sent)
  | settle (pid key) (job : PrepareJob) (sent) (found : (sys.procs pid).tasks key = some (.prepare job))
      (moved : job.settle = some sent) : Steps sys (.settle pid key) (sys.spawn pid key sent)

section

variable (sys after : System) (pid : Pid)

omit [OrdMap.Differ] in
theorem respondBoot_answered (delivery : Delivery) (stepped : sys.respondBoot pid delivery = some after) :
    BootAnswered sys pid delivery after := by
  unfold respondBoot at stepped
  split at stepped
  · rename_i state effect pending here
    obtain ⟨⟨response, proc⟩, delivered, stepped⟩ := bind_eq_some_iff.mp stepped
    obtain ⟨resumed, resume, stepped⟩ := bind_eq_some_iff.mp stepped
    cases resumed with
    | wait call =>
      cases stepped
      exact .waits _ _ _ _ _ _ here delivered resume
    | done result =>
      obtain ⟨event, told, stepped⟩ := bind_eq_some_iff.mp stepped
      cases stepped
      exact .done _ _ _ _ _ _ _ here delivered resume told
  · cases stepped

theorem respond_steps (slot : Slot) (delivery : Delivery) (stepped : sys.respond pid slot delivery = some after) :
    Steps sys (.respond pid slot delivery) after := by
  unfold respond at stepped
  split at stepped
  · cases stepped
  cases slot with
  | boot => exact .boot pid delivery after (respondBoot_answered sys after pid delivery stepped)
  | task key =>
    obtain ⟨task, found, stepped⟩ := bind_eq_some_iff.mp stepped
    obtain ⟨pending, waits, stepped⟩ := bind_eq_some_iff.mp stepped
    obtain ⟨⟨response, proc⟩, delivered, stepped⟩ := bind_eq_some_iff.mp stepped
    obtain ⟨resumed, resume, stepped⟩ := bind_eq_some_iff.mp stepped
    obtain ⟨sent, moved, stepped⟩ := bind_eq_some_iff.mp stepped
    cases stepped
    exact .task _ _ _ _ _ _ _ _ _ found waits delivered resume moved
  | table key index =>
    simp only [respondTable] at stepped
    split at stepped
    · rename_i job found
      obtain ⟨pending, waits, stepped⟩ := bind_eq_some_iff.mp stepped
      obtain ⟨⟨response, proc⟩, delivered, stepped⟩ := bind_eq_some_iff.mp stepped
      obtain ⟨resumed, resume, stepped⟩ := bind_eq_some_iff.mp stepped
      obtain ⟨sent, moved, stepped⟩ := bind_eq_some_iff.mp stepped
      cases stepped
      exact .table _ _ _ _ _ _ _ _ _ _ found waits delivered resume moved
    · cases stepped

theorem pollIngress_steps (label : Label) (own : label.pid = pid) (now : Instant) (machine : WriterMachine) (timer : Option Instant)
    (view : Forest) (event : WriterEvent) (events : List Event) (polled : machine.admissionOpen = .ok true →
      Steps sys label ((sys.record events).driveWriter pid machine timer view now event))
    (stepped : sys.pollIngress pid now machine timer view event events = some after) : Steps sys label after := by
  unfold pollIngress at stepped
  split at stepped
  · cases stepped
    exact own ▸ .halts label _ (.inr ⟨_, rfl⟩)
  · cases stepped
  · rename_i opened
    cases stepped
    exact polled opened

theorem join_steps (now : Instant) (key : EffectKey) (stepped : sys.join pid now key = some after) :
    Steps sys (.join pid now key) after := by
  unfold join at stepped
  split at stepped
  · rename_i here found
    cases stepped
    exact .join pid now key _ _ _ _ here (.inl found)
  · cases stepped
    exact .halts (.join pid now key) _ (.inr ⟨_, rfl⟩)
  · rename_i job here found
    split at stepped
    · rename_i aborted
      cases stepped
      exact .join pid now key _ _ _ _ here (.inr ⟨job, found, aborted, rfl⟩)
    · cases stepped
  · cases stepped

omit [OrdMap.Differ] in
theorem onJob_spawns (key : EffectKey) (f : PrepareJob → Option (Sent Task)) (stepped : sys.onJob pid key f = some after) :
    ∃ job sent, (sys.procs pid).tasks key = some (.prepare job) ∧ f job = some sent ∧ sys.spawn pid key sent = after := by
  unfold onJob at stepped
  split at stepped
  · cases stepped
  · split at stepped
    · rename_i job found
      obtain ⟨sent, moved, same⟩ := map_eq_some_iff.mp stepped
      exact ⟨job, sent, found, moved, same⟩
    · cases stepped

end

theorem step_steps {sys after : System} {label : Label} (stepped : step label sys = some after) : Steps sys label after := by
  cases label with
  | start pid partition =>
    simp only [step] at stepped
    split at stepped
    · rename_i here
      cases stepped
      exact .start pid partition here
    · cases stepped
  | launch pid interval bytes now =>
    simp only [step] at stepped
    split at stepped
    · rename_i recovery here
      split at stepped
      · cases stepped
        exact .halts (.launch pid interval bytes now) _ (.inr ⟨_, rfl⟩)
      · rename_i machine made
        cases stepped
        exact .launch pid interval bytes now recovery machine here made
    · cases stepped
  | apply pid id =>
    simp only [step, apply] at stepped
    split at stepped
    · cases stepped
    · rename_i request found
      cases stepped
      exact .apply pid id request found
  | respond pid slot delivery => exact respond_steps sys after pid slot delivery stepped
  | command pid now envelope =>
    simp only [step] at stepped
    split at stepped
    · rename_i machine timer view here
      split at stepped
      · rename_i unused
        exact pollIngress_steps sys after pid _ rfl now machine timer view _ _
          (fun opened => .command pid now envelope machine timer view here unused opened) stepped
      · cases stepped
    · cases stepped
  | flushDue pid now =>
    simp only [step] at stepped
    split at stepped
    · rename_i machine deadline view here
      split at stepped
      · cases stepped
        exact .flushDue pid now deadline machine view here
      · cases stepped
    · cases stepped
  | ingressClosed pid now =>
    simp only [step] at stepped
    split at stepped
    · rename_i machine timer view here
      exact pollIngress_steps sys after pid _ rfl now machine timer view .ingressClosed []
        (fun opened => .ingressClosed pid now machine timer view here opened) stepped
    · cases stepped
  | join pid now key => exact join_steps sys after pid now key stepped
  | spawnTable pid key =>
    obtain ⟨job, sent, found, moved, rfl⟩ := onJob_spawns sys after pid key _ stepped
    exact .spawnTable pid key job sent found moved
  | settle pid key =>
    obtain ⟨job, sent, found, moved, rfl⟩ := onJob_spawns sys after pid key _ stepped
    exact .settle pid key job sent found moved
  | crash pid =>
    cases stepped
    exact .halts (.crash pid) _ (.inl rfl)

end System

end StromDB
