import StromDB.Engine.Steps
import StromDB.Refinement.Phases

namespace StromDB

open Checked View List StromDB.System

variable [Rkyv]

variable (sys : System) (pid : Pid)

namespace System

@[simp] theorem setProc_self (proc : Proc) : (sys.setProc pid proc).procs pid = proc := by
  simp [setProc]

theorem setProc_other (other : Pid) (proc : Proc) (apart : other ≠ pid) : (sys.setProc pid proc).procs other = sys.procs other := by
  simp [setProc, apart]

@[simp] theorem setProc_setProc (first second : Proc) : (sys.setProc pid first).setProc pid second = sys.setProc pid second := by
  simp only [setProc, mk.injEq, true_and, and_true]
  funext other
  split <;> rfl

@[simp] theorem setProc_procs : sys.setProc pid (sys.procs pid) = sys := by
  obtain ⟨store, procs, history⟩ := sys
  simp only [setProc, mk.injEq, true_and, and_true]
  funext other
  split
  · rename_i same
    rw [same]
  · rfl

@[simp] theorem record_procs (events : List Event) : (sys.record events).procs = sys.procs := rfl

theorem record_setProc (events : List Event) (pid : Pid) (proc : Proc) :
    (sys.record events).setProc pid proc = (sys.setProc pid proc).record events := rfl

theorem record_record (first second : List Event) : (sys.record first).record second = sys.record (second ++ first) := by
  simp [record]

theorem spawn_eq (key : EffectKey) (sent : Sent Task) :
    sys.spawn pid key sent = (sys.setProc pid ((sys.procs pid).spawn key sent)).record (issued pid sent.2) := by
  simp [spawn, send, setTask, Proc.spawn]

end System

def Locally (before : System) (pid : Pid) (proc : Proc) (after : System) : Prop :=
  ∃ events, after = (before.setProc pid proc).record events ∧ ∀ event ∈ events, after.view.EventFact event

structure SystemOk (sys : System) : Prop where
  stored : View.Stored sys.store sys.view
  view : sys.view.Ok
  procs : ∀ pid, sys.view.ProcOk pid (sys.procs pid)
  history : ∀ event ∈ sys.history, sys.view.EventFact event
  tokens : (sys.view.commands.map CommandEnvelope.reply).Nodup

section

variable {before after : System} {pid : Pid} {proc : Proc}

theorem Locally.procs (moved : Locally before pid proc after) : after.procs pid = proc := by
  obtain ⟨events, rfl, _⟩ := moved
  simp

theorem Locally.trans {middle : System} {later : Proc} (first : Locally before pid proc middle)
    (second : Locally middle pid later after)
    (extended : middle.view.Extends after.view) : Locally before pid later after := by
  obtain ⟨events, rfl, facts⟩ := first
  obtain ⟨more, rfl, others⟩ := second
  refine ⟨more ++ events, by simp [record_setProc, record_record], ?_⟩
  intro event member
  rcases mem_append.mp member with new | old
  · exact others event new
  · exact (facts event old).extend extended

theorem SystemOk.local (ok : SystemOk before) (moved : Locally before pid proc after) (known : after.view.Ok)
    (stored : View.Stored before.store after.view) (mine : after.view.ProcOk pid proc)
    (others : ∀ other, other ≠ pid → View.Rely other before.view after.view ∧
      ∀ batch, (other, batch) ∈ after.view.issued → (other, batch) ∈ before.view.issued)
    (extended : before.view.Extends after.view) (tokens : (after.view.commands.map CommandEnvelope.reply).Nodup) : SystemOk after := by
  have there := moved.procs
  obtain ⟨events, rfl, facts⟩ := moved
  refine ⟨stored, known, ?_, ?_, tokens⟩
  · intro other
    by_cases same : other = pid
    · rw [same, there]
      exact mine
    · rw [record_procs, setProc_other _ _ _ _ same]
      exact (ok.procs other).rely (others other same).1 (others other same).2 ok.view known
  · intro event member
    rcases mem_append.mp member with new | old
    · exact facts event new
    · exact (ok.history event old).extend extended

theorem SystemOk.local_same (ok : SystemOk before) (moved : Locally before pid proc after) (same : after.view = before.view)
    (mine : before.view.ProcOk pid proc) : SystemOk after := by
  refine ok.local moved (same ▸ ok.view) (same ▸ ok.stored) (same ▸ mine) ?_ (same ▸ View.Extends.refl _) (same ▸ ok.tokens)
  intro other _
  rw [same]
  exact ⟨⟨View.Extends.refl _, fun _ member authored => ⟨member, authored⟩, fun _ _ found authored => ⟨found, authored⟩,
    fun _ gone _ => gone⟩, fun _ there => there⟩

end

namespace View

def Neutral (event : Event) : Prop := ∀ view : View, view.record event = view

theorem of_neutral (events history : List Event) (neutral : ∀ event ∈ events, Neutral event) : of (events ++ history) = of history := by
  induction events with
  | nil => rfl
  | cons event rest ih =>
    simp only [cons_append, of]
    rw [neutral event mem_cons_self]
    exact ih fun other member => neutral other (mem_cons_of_mem _ member)

theorem Stored.issue {store : ObjectStore} {view : View} (stored : Stored store view) (pid : Pid) (request : Option Request) :
    Stored store (view.issue pid request) := by
  unfold View.issue
  split
  · exact { stored with }
  · exact stored

theorem issue_commands (view : View) (pid : Pid) (request : Option Request) : (view.issue pid request).commands = view.commands := by
  unfold issue
  split <;> rfl

theorem issued_facts {view : View} {pid : Pid} {proc : Proc} {request : Option Request} (known : view.Ok)
    (wire : view.WireOk pid (proc.send request)) : ∀ event ∈ System.issued pid request, view.EventFact event := by
  intro event member
  unfold System.issued at member
  split at member
  · rename_i candidate
    rw [mem_singleton.mp member]
    have op : view.SealOp candidate := wire.ops proc.nextRequest _ (mem_send_wire.mpr (.inr ⟨rfl, rfl⟩))
    exact fun table inside => op.established known candidate table inside
  · rw [mem_singleton.mp member]
    trivial
  · cases member

end View

section

variable {sys : System} {pid : Pid} (ok : SystemOk sys) (phase : Phase)

include ok

theorem SystemOk.setPhase (events : List Event) (neutral : ∀ event ∈ events, View.Neutral event)
    (facts : ∀ event ∈ events, sys.view.EventFact event) (settled : sys.view.PhaseOk pid (sys.procs pid) phase) :
    SystemOk ((sys.setPhase pid phase).record events) := by
  have same : System.view ((sys.setPhase pid phase).record events) = sys.view := of_neutral events sys.history neutral
  exact ok.local_same ⟨events, rfl, by rw [same]; exact facts⟩ same (View.ProcOk.setPhase ok.view (ok.procs pid).base phase settled)

theorem SystemOk.halts (dead : phase = .crashed ∨ ∃ message, phase = .panicked message) : SystemOk (sys.setPhase pid phase) := by
  rcases dead with rfl | ⟨_, rfl⟩ <;> exact ok.setPhase _ [] (by simp) (by simp) trivial

end

section

variable {sys : System} {pid : Pid} (ok : SystemOk sys) {proc : Proc} (base : sys.view.BaseOk pid proc)
  (phase : sys.view.PhaseOk pid proc proc.phase)

include ok base phase

theorem SystemOk.resumed (key : EffectKey) (task : Task) (found : proc.tasks key = some task) (sent : Sent Task)
    (moves : ∀ assignment : Assignment, assignment.key = key → sys.view.TaskOk pid proc assignment task →
      View.SentOk sys.view pid proc assignment sent) (events : List Event) (neutral : ∀ event ∈ events, View.Neutral event)
    (facts : ∀ event ∈ events, (sys.view.issue pid sent.2).EventFact event) :
    SystemOk ((sys.setProc pid (proc.spawn key sent)).record (System.issued pid sent.2 ++ events)) := by
  obtain ⟨mine, rfl, assigned⟩ := base.tasks.assigned key task found
  have done := moves mine rfl assigned
  have same := sameWire_spawn proc mine.key sent
  have view : System.view ((sys.setProc pid (proc.spawn mine.key sent)).record (System.issued pid sent.2 ++ events)) =
      sys.view.issue pid sent.2 := by
    rw [System.view, System.record, List.append_assoc, of_issued, of_neutral _ _ neutral]
    rfl
  have tasks : (sys.view.issue pid sent.2).TasksOk pid (proc.spawn mine.key sent) := by
    refine base.tasks.spawn ok.view mine sent done.launched ?_ ?_
    · rintro ticket rfl other present
      exact base.tasks.preparation other ticket present (Option.isSome_of_eq_some found)
    · rintro input rfl cut present
      exact base.tasks.collection cut input.cut present (Option.isSome_of_eq_some found)
  have phases : (sys.view.issue pid sent.2).PhaseOk pid (proc.spawn mine.key sent) (proc.spawn mine.key sent).phase := by
    have untouched : (proc.spawn mine.key sent).phase = proc.phase := by
      rw [Proc.spawn, Proc.send_phase]
      rfl
    have busy : ¬ sys.view.Quiet pid proc := by
      intro quiet
      rw [quiet.tasks] at found
      cases found
    rw [untouched]
    cases here : proc.phase with
    | idle | ready recovery =>
      rw [here] at phase
      exact absurd phase.1 busy
    | bootstrapping state effect pending =>
      rw [here] at phase
      exact absurd phase.quiet busy
    | running machine timer forest =>
      rw [here] at phase
      exact phase.resumed ok.view machine base.tasks mine.key task found sent moves
    | _ => trivial
  refine ok.local ⟨_, rfl, ?_⟩ (view ▸ done.ok) (view ▸ ok.stored.issue pid sent.2)
    (view ▸ ⟨⟨done.wire.sameWire same, tasks⟩, phases⟩) ?_ (view ▸ sys.view.issue_extends pid sent.2) ?_
  · rw [view]
    intro event member
    rcases List.mem_append.mp member with new | old
    · exact issued_facts done.ok done.wire event new
    · exact facts event old
  · intro other apart
    rw [view]
    exact ⟨sys.view.issue_rely pid other sent.2, (sys.view.issue_silent pid other apart sent.2 proc).issued⟩
  · rw [view, issue_commands]
    exact ok.tokens

theorem SystemOk.resumedJob (key : EffectKey) (job : PrepareJob) (found : proc.tasks key = some (.prepare job)) (sent : Sent Task)
    (moves : ∀ ticket created, sys.view.JobOk pid proc ticket created job → View.SentOk sys.view pid proc (.prepare ticket) sent) :
    SystemOk ((sys.setProc pid (proc.spawn key sent)).record (System.issued pid sent.2)) := by
  rw [← append_nil (issued pid sent.2)]
  refine ok.resumed base phase key (.prepare job) found sent ?_ [] (by simp) (by simp)
  intro assignment _ working
  cases assignment with
  | prepare ticket =>
    obtain ⟨created, jobOk⟩ := working
    exact moves ticket created jobOk
  | _ => exact absurd working id

end

namespace View

theorem TaskOk.pending {view : View} {pid : Pid} {proc : Proc} {assignment : Assignment} {task : Task} {pending : Pending}
    (ok : view.TaskOk pid proc assignment task) (waits : task.pending = some pending) : view.PendingOk pid proc pending := by
  cases task with
  | establishWal batch active =>
    cases waits
    cases assignment with
    | wal object => exact ok.2.2.2
    | _ => exact absurd ok id
  | publishAuthority ticket active =>
    cases waits
    cases assignment with
    | publish ticket candidate => exact ok.2.2
    | _ => exact absurd ok id
  | collect job =>
    cases waits
    cases assignment with
    | collect input => exact CollectOk.pending ok
    | _ => exact absurd ok id
  | prepare job | finished event | panicked message => cases waits

theorem task_resume {view : View} {pid : Pid} {proc : Proc} (known : view.Ok) (wire : view.WireOk pid proc) (assignment : Assignment)
    (task : Task) (ok : view.TaskOk pid proc assignment task) (pending : Pending) (waits : task.pending = some pending)
    (response : Response) (told : view.ResponseOk pid pending.call response) (step : CallStep)
    (resumed : pending.call.resume response = some step) (sent : Sent Task) (moved : task.resume proc.nextRequest step = some sent) :
    SentOk view pid proc assignment sent := by
  cases task with
  | establishWal batch active =>
    cases waits
    cases assignment with
    | wal object => exact wal_resume known wire object batch pending ok response told step resumed sent moved
    | _ => exact absurd ok id
  | publishAuthority active waiting =>
    cases waits
    cases assignment with
    | publish ticket candidate =>
      exact publish_resume known wire ticket active candidate pending ok response told step resumed sent moved
    | _ => exact absurd ok id
  | collect job =>
    cases waits
    cases assignment with
    | collect input => exact collect_resume known wire input job ok response told step resumed sent moved
    | _ => exact absurd ok id
  | prepare job | finished event | panicked message => cases waits

theorem taskAuthored_facts {view : View} {pid : Pid} {proc next : Proc} {assignment : Assignment} {task after : Task}
    (ok : view.TaskOk pid proc assignment task) (extended : View) (done : extended.TaskOk pid next assignment after) :
    ∀ event ∈ System.taskAuthored pid task after, Neutral event ∧ extended.EventFact event := by
  intro event member
  unfold taskAuthored at member
  split at member
  · rename_i active candidate request ticket
    rw [mem_singleton.mp member]
    cases assignment with
    | publish ticket sealed =>
      obtain ⟨_, call, _⟩ := ok
      obtain ⟨result, same, authored, _⟩ := done
      cases same
      have equal : candidate = sealed := by
        rcases call with here | here <;> cases here
        rfl
      rw [equal]
      exact ⟨fun _ => rfl, (authored rfl).2⟩
    | _ => exact absurd ok id
  · cases member

end View

section

variable {sys after : System} {pid : Pid} (ok : SystemOk sys) (key : EffectKey) (delivery : Delivery)

include ok

theorem respondTask_ok [OrdMap.Differ] (steps : sys.Steps (.respond pid (.task key) delivery) after) : SystemOk after := by
  cases steps with
  | halts _ phase dead => exact ok.halts phase dead
  | task _ _ _ task pending response proc step sent found waits delivered resumed moved =>
    have mine := ok.procs pid
    obtain ⟨assignment, _, assigned⟩ := mine.base.tasks.assigned key task found
    have waiting := assigned.pending waits
    obtain ⟨done, phase, tasks, _, _, _⟩ := waiting.deliver mine.base.wire delivery response delivered
    have kept := mine.keeps done.keeps done.silent ok.view ok.view tasks phase done.wire
    have there : proc.tasks key = some task := by
      rw [tasks]
      exact found
    have moves : ∀ assignment : Assignment, assignment.key = key → sys.view.TaskOk pid proc assignment task →
        View.SentOk sys.view pid proc assignment sent :=
      fun assignment _ working => task_resume ok.view done.wire assignment task working pending waits response done.response
        step resumed sent moved
    obtain ⟨again, same, working⟩ := kept.base.tasks.assigned key task there
    have facts := taskAuthored_facts working _ (moves again same working).task
    rw [spawn_eq, record_procs, setProc_self, record_setProc, setProc_setProc,
      record_record]
    exact ok.resumed kept.base kept.phase key task there sent moves _ (fun event member => (facts event member).1)
      (fun event member => (facts event member).2)

theorem respondTable_ok [OrdMap.Differ] (index : Nat) (steps : sys.Steps (.respond pid (.table key index) delivery) after) :
    SystemOk after := by
  cases steps with
  | halts _ phase dead => exact ok.halts phase dead
  | table _ _ _ _ job pending response proc step sent found waits delivered resumed moved =>
    have mine := ok.procs pid
    have waiting : sys.view.PendingOk pid (sys.procs pid) pending := by
      obtain ⟨assignment, _, assigned⟩ := mine.base.tasks.assigned key _ found
      cases assignment with
      | prepare ticket =>
        obtain ⟨created, jobOk⟩ := assigned
        exact (jobOk.active pending (mem_of_getElem? waits)).1
      | _ => exact absurd assigned id
    obtain ⟨done, phase, tasks, _, _, _⟩ := waiting.deliver mine.base.wire delivery response delivered
    have kept := mine.keeps done.keeps done.silent ok.view ok.view tasks phase done.wire
    rw [spawn_eq, setProc_self, setProc_setProc]
    refine ok.resumedJob kept.base kept.phase key job (by rw [tasks]; exact found) sent ?_
    intro ticket created jobOk
    exact prepare_resume ok.view done.wire ticket created job jobOk index pending waits response done.response step resumed sent moved

end

theorem mem_of_lookup {wire : List (Nat × Request)} {id : Nat} {request : Request} (found : wire.lookup id = some request) :
    (id, request) ∈ wire := by
  induction wire with
  | nil => cases found
  | cons head rest ih =>
    rw [lookup_cons] at found
    split at found
    · rename_i same
      cases found
      rw [beq_iff_eq.mp same]
      exact mem_cons_self
    · exact mem_cons_of_mem _ (ih found)

theorem apply_ok [OrdMap.Differ] (after : System) (ok : SystemOk sys) (pid : Pid) (id : Nat) (steps : sys.Steps (.apply pid id) after) :
    SystemOk after := by
  cases steps with
  | halts _ phase dead => exact ok.halts phase dead
  | apply _ _ request found =>
    have mine := ok.procs pid
    have sent := mem_of_lookup found
    obtain ⟨view, done⟩ := executed pid ok.stored ok.view request (mine.base.wire.ops id request sent)
    have known := done.effect.ok ok.view pid request view
    have extended := done.effect.extends pid request view
    have same := done.events sys.history rfl
    have issued := done.effect.issued pid request view
    refine ⟨?_, ?_, ?_, ?_, ?_⟩
    · simp only [System.view, System.record, System.setProc, same]
      exact done.stored
    · simp only [System.view, System.record, System.setProc, same]
      exact known
    · intro other
      simp only [System.view, System.record, System.setProc, same]
      split
      · rename_i here
        subst here
        exact mine.keeps (done.keeps ok.stored sent) (done.silent ok.view sent) ok.view known rfl rfl
          (mine.base.wire.executed ok.view sent done)
      · rename_i apart
        refine (ok.procs other).rely (done.effect.rely ok.view pid request view other apart) ?_ ok.view known
        intro batch there
        rwa [issued] at there
    · intro event member
      simp only [System.view, System.record, System.setProc, same]
      rcases List.mem_append.mp member with new | old
      · unfold System.effectOf at new
        split at new <;> (try split at new) <;> first | (rw [List.mem_singleton.mp new]; trivial) | cases new
      · exact (ok.history event old).extend extended
    · simp only [System.view, System.record, System.setProc, same]
      rw [done.effect.commands pid request view]
      exact ok.tokens

section

variable {sys : System} {pid : Pid} (ok : SystemOk sys)

include ok

theorem SystemOk.await (quiet : sys.view.Quiet pid (sys.procs pid)) (state : BootstrapState) (effect : BootstrapEffect) (call : Call)
    (wire : sys.view.WireOk pid ((sys.procs pid).send (some call.request))) (silent : sys.view.issue pid (some call.request) = sys.view)
    (booting : sys.view.BootOk pid ((sys.procs pid).send (some call.request)) state)
    (filed : ∀ object body, sys.view.Filed pid ((sys.procs pid).send (some call.request)) object body →
      sys.view.Filed pid (sys.procs pid) object body)
    (waits : View.BootCall state effect call) : SystemOk (sys.await pid state effect call) := by
  have base := (ok.procs pid).base
  have sent := View.BootingOk.sent base.wire quiet state effect call silent booting filed waits
  have moved : sys.await pid state effect call = (sys.setProc pid { (sys.procs pid).send (some call.request) with
      phase := .bootstrapping state effect ⟨call, (sys.procs pid).nextRequest⟩ }).record (System.issued pid (some call.request)) := by
    simp [System.await, System.send, System.setPhase, Proc.send]
  have same : (sys.await pid state effect call).view = sys.view := by
    rw [moved, System.view, System.record, of_issued]
    exact silent
  refine ok.local_same ⟨_, moved, ?_⟩ same (View.ProcOk.setPhase ok.view ⟨wire, ?_⟩ _ sent)
  · rw [same]
    exact issued_facts ok.view wire
  refine ⟨?_, ?_, ?_⟩
  · intro key task found
    rw [Proc.send_tasks, quiet.tasks] at found
    cases found
  · intro first second found
    rw [Proc.send_tasks, quiet.tasks] at found
    cases found
  · intro first second found
    rw [Proc.send_tasks, quiet.tasks] at found
    cases found

theorem driveBootstrap_ok (quiet : sys.view.Quiet pid (sys.procs pid)) (state before : BootstrapState) (response : Response)
    (event : BootstrapEvent)
    (handled : ∀ next, Bootstrap.handle state event = .ok next → sys.view.StepOk pid (sys.procs pid) before response next) :
    SystemOk (sys.driveBootstrap pid state event) := by
  unfold driveBootstrap
  split
  · rename_i message _
    exact ok.setPhase (.panicked message) [] (by simp) (by simp) trivial
  · rename_i next effect outcome
    obtain ⟨booting, waits⟩ := handled _ outcome
    obtain ⟨wire, silent, kept, filed⟩ := boot_send ok.view (ok.procs pid).base.wire next effect booting waits
    exact ok.await quiet next effect _ wire silent kept filed waits
  · rename_i next recovery outcome
    have final := handled _ outcome
    refine ok.setPhase (.ready recovery) [.completed pid recovery] ?_ ?_ ⟨quiet, final⟩
    · intro event member
      rw [mem_singleton.mp member]
      exact fun _ => rfl
    · intro event member
      rw [mem_singleton.mp member]
      exact final.recovered
  rename_i next exit outcome
  refine ok.setPhase (.failed exit) [.bootstrapExited pid exit] ?_ ?_ trivial
  · intro event member
    rw [mem_singleton.mp member]
    exact fun _ => rfl
  · intro event member
    rw [mem_singleton.mp member]
    trivial

theorem start_ok (idle : sys.view.Quiet pid (sys.procs pid) ∧ sys.view.Unwritten pid (sys.procs pid)) (partition : PartitionId) :
    SystemOk (sys.driveBootstrap pid .initial (.started partition)) := by
  refine driveBootstrap_ok ok idle.1 .initial .initial (.failed "") (.started partition) ?_
  intro next handled
  cases handled
  exact ⟨idle.2, rfl, rfl⟩

theorem boot_delivered (state : BootstrapState) (effect : BootstrapEffect) (pending : Pending)
    (here : (sys.procs pid).phase = .bootstrapping state effect pending) (delivery : Delivery) (response : Response) (proc : Proc)
    (delivered : (sys.procs pid).deliver pending delivery = some (response, proc)) :
    sys.view.ProcOk pid proc ∧ sys.view.BootingOk pid proc state effect pending ∧
      ∀ step, pending.call.resume response = some step → View.Resumed sys.view pid proc state response effect step := by
  have mine := ok.procs pid
  have booting : sys.view.BootingOk pid (sys.procs pid) state effect pending := by
    have phase := mine.phase
    rwa [here] at phase
  obtain ⟨done, phase, tasks, _, _, answered⟩ := booting.waits.deliver mine.base.wire delivery response delivered
  have again := booting.keeps done.keeps done.silent ok.view ok.view tasks
  have told : ∀ answer, response = .answer answer → sys.view.BootReply pid proc state answer :=
    fun answer same => (booting.reply answer (answered answer same)).keeps done.keeps.extended done.silent state answer
  refine ⟨mine.keeps done.keeps done.silent ok.view ok.view tasks phase done.wire, again, fun step resumed => ?_⟩
  exact boot_resume ok.view state response effect again.booting pending.call again.call done.response told step resumed

theorem respondBoot_ok (after : System) (delivery : Delivery) (answered : System.BootAnswered sys pid delivery after) :
    SystemOk after := by
  cases answered with
  | waits state effect pending response proc call here delivered resumed =>
    obtain ⟨kept, again, next⟩ := boot_delivered ok state effect pending here delivery response proc delivered
    have middle : SystemOk (sys.setProc pid proc) := ok.local_same ⟨[], rfl, by simp⟩ rfl kept
    rcases next _ resumed with ⟨_, same, waits, plain, op⟩ | ⟨_, _, same, _⟩ <;> cases same
    have silent : View.Silent pid sys.view sys.view proc (proc.send (some call.request)) := silent_plain plain
    refine middle.await ?_ state effect call ?_ (issue_plain plain) ?_ ?_ waits <;> rw [setProc_self]
    · exact again.quiet
    · exact kept.base.wire.send_plain ok.view call.request plain op
    · exact again.booting.keeps (View.Extends.refl _) silent ok.view.log state
    · exact silent.filed
  | done state effect pending response proc result event here delivered resumed completed =>
    obtain ⟨kept, again, next⟩ := boot_delivered ok state effect pending here delivery response proc delivered
    rcases next _ resumed with ⟨_, same, _⟩ | ⟨_, _, same, found, told⟩ <;> cases same
    cases found.symm.trans completed
    have neutral : ∀ recorded ∈ authoredBy pid effect event, View.Neutral recorded := by
      intro recorded member
      obtain ⟨generation, rfl, _⟩ := told.1 recorded member
      exact fun _ => rfl
    have view : view ((sys.setProc pid proc).record (authoredBy pid effect event)) = sys.view :=
      of_neutral _ _ neutral
    have recorded : SystemOk ((sys.setProc pid proc).record (authoredBy pid effect event)) := by
      refine ok.local_same ⟨_, rfl, ?_⟩ view kept
      intro recorded member
      rw [view]
      obtain ⟨generation, rfl, authored⟩ := told.1 recorded member
      exact authored
    refine driveBootstrap_ok recorded ?_ state state response event ?_ <;> rw [view, record_procs, setProc_self]
    · exact again.quiet
    · exact told.stepped

end

section

theorem executeOutput_perform [OrdMap.Differ] (owner : OwnerToken) (execution next : System.Execution) (output : WriterOutput)
    (executed : System.executeOutput pid owner execution output = .ok next) :
    View.Enabled (execution.sys.procs pid) output ∧
      next.sys = (execution.sys.setProc pid (perform pid owner (execution.sys.procs pid) output).1).record
        (perform pid owner (execution.sys.procs pid) output).2 := by
  cases output with
  | effect effect =>
    obtain ⟨_, absent, done⟩ := bind_ok executed
    rw [require_ok_iff] at absent
    cases done
    exact ⟨Option.isNone_iff_eq_none.mp absent, spawn_eq _ _ _ _⟩
  | action action =>
    cases action with
    | armFlush deadline =>
      obtain ⟨_, _, done⟩ := bind_ok executed
      cases done
      exact ⟨trivial, by simp [perform, System.record]⟩
    | publishView forest =>
      cases executed
      exact ⟨trivial, by simp [perform, System.record]⟩
    | sendReplies replies =>
      cases executed
      exact ⟨trivial, by simp [perform]⟩
    | cancelCheckpointPreparation ticket =>
      simp only [executeOutput] at executed
      split at executed
      · cases executed
      · rename_i task found
        cases executed
        exact ⟨Option.isSome_of_eq_some found, by simp [perform, found, System.setTask, System.record]⟩

variable {view : View} (known : view.Ok) (pid : Pid) (owner : OwnerToken) (post : Proc → Prop)

include known

theorem executeOutputs_ok [OrdMap.Differ] (outputs : List WriterOutput) : ∀ execution : System.Execution, execution.sys.view = view →
    view.BaseOk pid (execution.sys.procs pid) → View.Performs view pid owner outputs (execution.sys.procs pid) post →
    ∃ proc, Locally execution.sys pid proc (System.executeOutputs pid owner outputs execution).1.sys ∧
      (System.executeOutputs pid owner outputs execution).1.sys.view = view ∧ view.BaseOk pid proc ∧
      ((System.executeOutputs pid owner outputs execution).2 = none → post proc) := by
  induction outputs with
  | nil =>
    intro execution same base done
    exact ⟨_, ⟨[], by simp [System.executeOutputs, System.record], by simp⟩, same, base, fun _ => done⟩
  | cons output rest ih =>
    intro execution same base done
    simp only [executeOutputs]
    split
    · exact ⟨_, ⟨[], by simp [System.record], by simp⟩, same, base, nofun⟩
    rename_i next executed
    obtain ⟨enabled, moved⟩ := executeOutput_perform pid owner execution next output executed
    obtain ⟨kept, facts⟩ := base.perform known owner output done.1
    have silent : next.sys.view = view := by
      rw [moved, System.view, System.record, ← same]
      exact perform_view pid owner _ output execution.sys.history (by rw [← System.view, same]; exact done.1)
    have first : Locally execution.sys pid _ next.sys := ⟨_, moved, by rw [silent]; exact facts⟩
    have now : next.sys.procs pid = _ := first.procs
    obtain ⟨proc, later, view, settled, finished⟩ := ih next silent (by rw [now]; exact kept) (by rw [now]; exact done.2 enabled)
    exact ⟨proc, first.trans later (by rw [silent, view]; exact View.Extends.refl _), view, settled, finished⟩

end

section

variable {sys : System} {pid : Pid} (ok : SystemOk sys)

include ok

theorem Locally.finish {middle : System} {proc : Proc} (moved : Locally sys pid proc middle) (same : middle.view = sys.view)
    (base : sys.view.BaseOk pid proc) (phase : Phase) (settled : sys.view.PhaseOk pid proc phase) (events : List Event)
    (neutral : ∀ event ∈ events, View.Neutral event) (facts : ∀ event ∈ events, sys.view.EventFact event) :
    SystemOk ((middle.setPhase pid phase).record events) := by
  have view : view ((middle.setPhase pid phase).record events) = sys.view :=
    (of_neutral events middle.history neutral).trans same
  have next : Locally middle pid { proc with phase } ((middle.setPhase pid phase).record events) := by
    refine ⟨events, by rw [setPhase, moved.procs], ?_⟩
    rw [view]
    exact facts
  exact ok.local_same (moved.trans next (by rw [same, view]; exact View.Extends.refl _)) view
    (View.ProcOk.setPhase ok.view base phase settled)

theorem driveWriter_ok [OrdMap.Differ] (machine : WriterMachine) (writer : sys.view.WriterOk pid (sys.procs pid) machine)
    (timer : Option Instant)
    (forest : Forest) (now : Instant) (event : WriterEvent) (told : sys.view.Told pid (sys.procs pid) machine event) :
    SystemOk (sys.driveWriter pid machine timer forest now event) := by
  unfold driveWriter
  split
  · rename_i message _
    exact ok.setPhase (.panicked message) [] (by simp) (by simp) trivial
  rename_i after outputs exit handled
  have base := (ok.procs pid).base
  have stage := handle_stage ok.view base machine writer now event told _ handled
  have owner : after.claim.owner = machine.claim.owner := congrArg AuthoredClaim.owner stage.claim
  rw [owner]
  obtain ⟨proc, moved, same, settled, finished⟩ := executeOutputs_ok ok.view pid machine.claim.owner _ outputs ⟨sys, timer, forest⟩ rfl
    base stage.performs
  split
  · rename_i execution message executed
    rw [executed] at moved same
    exact moved.finish ok same settled (.panicked message) trivial [] (by simp) (by simp)
  · rename_i execution executed
    rw [executed] at moved same finished
    cases exit with
    | none =>
      exact moved.finish ok same settled (.running after execution.timer execution.view) (finished rfl rfl) [] (by simp) (by simp)
    | some exit =>
      refine moved.finish ok same settled (.stopped exit) trivial [.writerExited pid exit] ?_ ?_
      · intro event member
        rw [mem_singleton.mp member]
        exact fun _ => rfl
      · intro event member
        rw [mem_singleton.mp member]
        exact stage.exit exit rfl

end

namespace View

theorem record_commands (view : View) (event : Event) (envelope : CommandEnvelope) :
    envelope ∈ (view.record event).commands ↔ envelope ∈ view.commands ∨ ∃ pid, event = .commanded pid envelope := by
  cases event with
  | commanded pid issued =>
    simp only [record, mem_cons, Event.commanded.injEq, exists_eq_left']
    rw [or_comm, eq_comm]
  | walCreated pid object => simp [record_wal_commands]
  | _ => simp [record]

theorem mem_commands {history : List Event} {envelope : CommandEnvelope} :
    envelope ∈ (of history).commands ↔ ∃ pid, Event.commanded pid envelope ∈ history := by
  induction history with
  | nil => simp [of, empty]
  | cons event older ih =>
    rw [of, record_commands, ih]
    constructor
    · rintro (⟨pid, member⟩ | ⟨pid, rfl⟩)
      · exact ⟨pid, mem_cons_of_mem _ member⟩
      · exact ⟨pid, mem_cons_self⟩
    · rintro ⟨pid, member⟩
      rcases mem_cons.mp member with same | old
      · exact .inr ⟨pid, same.symm⟩
      · exact .inl ⟨pid, old⟩

end View

theorem commanded_ok (ok : SystemOk sys) (pid : Pid) (envelope : CommandEnvelope)
    (fresh : System.replyUnused sys.history envelope.reply = true) : SystemOk (sys.record [.commanded pid envelope]) := by
  have extended : sys.view.Extends (sys.view.record (.commanded pid envelope)) := record_extends _ _
  have known : (sys.view.record (.commanded pid envelope)).Ok :=
    ⟨{ ok.view.log with }, { ok.view.chain with }, { ok.view.residue with }⟩
  have stored : View.Stored sys.store (sys.view.record (.commanded pid envelope)) := { ok.stored with }
  have others : ∀ other, View.Rely other sys.view (sys.view.record (.commanded pid envelope)) := fun other =>
    ⟨extended, fun _ member authored => ⟨member, authored⟩, fun _ _ found authored => ⟨found, authored⟩, fun _ gone _ => gone⟩
  refine ⟨stored, known, fun other => (ok.procs other).rely (others other) (fun _ there => there) ok.view known, ?_, ?_⟩
  · intro event member
    rcases mem_cons.mp member with rfl | old
    · trivial
    · exact (ok.history event old).extend extended
  · refine nodup_cons.mpr ⟨?_, ok.tokens⟩
    intro used
    obtain ⟨other, member, same⟩ := mem_map.mp used
    obtain ⟨by', inside⟩ := mem_commands.mp member
    have apart := all_eq_true.mp fresh _ inside
    simp only [decide_eq_true_eq] at apart
    exact apart same

section

variable {sys : System} {pid : Pid} (ok : SystemOk sys)

include ok

theorem SystemOk.running (machine : WriterMachine) (timer : Option Instant) (forest : Forest)
    (here : (sys.procs pid).phase = .running machine timer forest) : sys.view.WriterOk pid (sys.procs pid) machine := by
  have phase := (ok.procs pid).phase
  rwa [here] at phase

theorem dropTask_ok (key : EffectKey) (machine : WriterMachine) (timer : Option Instant) (forest : Forest)
    (here : (sys.procs pid).phase = .running machine timer forest) : SystemOk (sys.setTask pid key none) ∧
      sys.view.WriterOk pid ((sys.procs pid).setTask key none) machine := by
  have kept := (ok.running machine timer forest here).drop ok.view machine key
  refine ⟨ok.local_same ⟨[], rfl, by simp⟩ rfl ⟨(ok.procs pid).base.setTask ok.view key none (by simp) (by simp), ?_⟩, kept⟩
  rw [show ((sys.procs pid).setTask key none).phase = _ from here]
  exact kept

theorem join_ok [OrdMap.Differ] (after : System) (now : Instant) (key : EffectKey) (steps : sys.Steps (.join pid now key) after) :
    SystemOk after := by
  cases steps with
  | halts _ phase dead => exact ok.halts phase dead
  | join _ _ _ event machine timer forest here found =>
    have tasks := (ok.procs pid).base.tasks
    have told : sys.view.Told pid ((sys.procs pid).setTask key none) machine event := by
      rcases found with found | ⟨job, found, _, rfl⟩
      · exact told_join tasks machine key (ok.running machine timer forest here) event found
      · exact told_cancelled tasks machine key job found
    obtain ⟨dropped, kept⟩ := dropTask_ok ok key machine timer forest here
    refine driveWriter_ok dropped machine ?_ timer forest now event ?_ <;> rw [setTask, setProc_self]
    · exact kept
    · exact told

end

theorem step_ok [OrdMap.Differ] (after : System) (label : Label) (ok : SystemOk sys)
    (stepped : System.step label sys = some after) : SystemOk after := by
  cases step_steps stepped with
  | halts _ phase dead => exact ok.halts phase dead
  | start pid partition here =>
    have phase := (ok.procs pid).phase
    rw [here] at phase
    exact start_ok ok phase partition
  | launch pid interval bytes now recovery machine here made =>
    have phase := (ok.procs pid).phase
    rw [here] at phase
    have writer := fromRecovery_ok ok.view recovery phase.1 phase.2 interval bytes machine made
    exact driveWriter_ok ok machine writer none recovery.durable now .started trivial
  | apply pid id => exact apply_ok sys _ ok pid id (step_steps stepped)
  | boot pid delivery _ answered => exact respondBoot_ok ok after delivery answered
  | task pid key delivery => exact respondTask_ok ok key delivery (step_steps stepped)
  | table pid key index delivery => exact respondTable_ok ok key delivery index (step_steps stepped)
  | command pid now envelope machine timer forest here unused =>
    have recorded := commanded_ok sys ok pid envelope unused
    exact driveWriter_ok recorded machine (recorded.running machine timer forest here) timer forest now _ mem_cons_self
  | flushDue pid now deadline machine forest here =>
    exact driveWriter_ok ok machine (ok.running machine _ forest here) none forest now .flushDue trivial
  | ingressClosed pid now machine timer forest here =>
    exact driveWriter_ok ok machine (ok.running machine timer forest here) timer forest now .ingressClosed trivial
  | join pid now key => exact join_ok ok _ now key (step_steps stepped)
  | spawnTable pid key job sent found moved =>
    rw [spawn_eq]
    exact ok.resumedJob (ok.procs pid).base (ok.procs pid).phase key job found sent fun ticket created jobOk =>
      prepare_spawnTable ok.view (ok.procs pid).base.wire ticket created job jobOk sent moved
  | settle pid key job sent found moved =>
    rw [spawn_eq]
    exact ok.resumedJob (ok.procs pid).base (ok.procs pid).phase key job found sent fun ticket created jobOk =>
      prepare_settle ok.view (ok.procs pid).base.wire ticket created job jobOk sent moved

theorem View.empty_ok : View.empty.Ok where
  log := ⟨by simp [empty], EpochLog.Legal.nil, ⟨Forest.empty, rfl⟩, by simp [empty], by simp [empty], by simp [empty]⟩
  chain := by
    refine ⟨by simp [empty], rfl, by simp [empty], by simp [empty], by simp [empty], by simp [empty],
      by simp [empty], by simp [empty], ?_⟩
    nofun
  residue := ⟨by simp [empty], by simp [empty], by simp [empty], by simp [empty], by simp [empty]⟩

theorem View.empty_stored : View.Stored ObjectStore.empty View.empty :=
  ⟨by simp [empty, ObjectStore.empty], by simp [empty], by simp [empty], by simp [ObjectStore.empty],
    by simp [ObjectStore.empty], by simp [empty]⟩

theorem View.idle_ok : View.empty.ProcOk pid Proc.idle where
  base := ⟨⟨by simp [Proc.idle], by simp [Proc.idle], by simp [Proc.idle], List.Pairwise.nil⟩,
    ⟨by simp [Proc.idle], by simp [Proc.idle], by simp [Proc.idle]⟩⟩
  phase := by
    refine ⟨⟨fun _ => rfl, ?_, by simp [empty]⟩, ?_⟩
    · rintro object body (⟨id, candidate, sent, _⟩ | ⟨found, _⟩)
      · cases sent
      · cases found
    · rintro object (⟨id, sent⟩ | ⟨member, _⟩)
      · cases sent
      · cases member

theorem initial_ok : SystemOk System.initial :=
  ⟨empty_stored, empty_ok, idle_ok, by simp [initial], nodup_nil⟩

theorem ReachableSystem.ok [OrdMap.Differ] (reached : ReachableSystem sys) : SystemOk sys :=
  Transition.Reachable.invariant SystemOk (fun s initial => by rw [show s = _ from initial]; exact initial_ok)
    (fun s s' label held stepped => step_ok s s' label held stepped) sys reached

end StromDB
