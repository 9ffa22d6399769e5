import StromDB.Progress.Leads

namespace StromDB

open StromDB.System

variable [Rkyv] [OrdMap.Differ]

namespace System

def applied (sys : System) (pid : Pid) (id : Nat) (request : Request) : System :=
  ({ sys with store := (sys.store.execute request).1 }.setProc pid
    ((sys.procs pid).answer id (sys.store.execute request).2)).record (effectOf sys.store pid request)

def bootRound (pid : Pid) (sys : System) : Option System :=
  match (sys.procs pid).phase with
  | .bootstrapping _ _ pending => (step (.apply pid pending.request) sys).bind (step (.respond pid .boot .answer))
  | _ => none

section

variable (sys : System) (pid : Pid) (id : Nat) (request : Request)

theorem apply_eq (sent : (sys.procs pid).wire.lookup id = some request) :
    step (.apply pid id) sys = some (sys.applied pid id request) := by
  simp only [step, apply, sent]
  rfl

omit [OrdMap.Differ] in
@[simp] theorem applied_proc : (sys.applied pid id request).procs pid = (sys.procs pid).answer id (sys.store.execute request).2 := by
  simp [applied]

omit [OrdMap.Differ] in
@[simp] theorem applied_store :
    (sys.applied pid id request).store = (sys.store.execute request).1 := rfl

end

theorem bootRound_eq {sys : System} {pid : Pid} {state : BootstrapState} {effect : BootstrapEffect} {pending : Pending}
    (waits : (sys.procs pid).phase = .bootstrapping state effect pending) (request : Request)
    (sent : (sys.procs pid).wire.lookup pending.request = some request) (result : CallResult)
    (resumed : pending.call.resume (.answer (sys.store.execute request).2) = some (.done result)) (event : BootstrapEvent)
    (completes : bootEvent effect result = some event) :
    bootRound pid sys =
      some (((sys.applied pid pending.request request).record (authoredBy pid effect event)).driveBootstrap pid state event) := by
  have phase : ((sys.applied pid pending.request request).procs pid).phase = .bootstrapping state effect pending := by
    rw [applied_proc]
    exact waits
  have delivered : ((sys.applied pid pending.request request).procs pid).deliver pending .answer =
      some (.answer (sys.store.execute request).2, (sys.applied pid pending.request request).procs pid) := by
    simp [Proc.deliver, Proc.answer]
  have kept : (sys.applied pid pending.request request).setProc pid ((sys.applied pid pending.request request).procs pid) =
      sys.applied pid pending.request request := setProc_procs _ _
  simp only [bootRound, waits]
  rw [apply_eq sys pid _ request sent, Option.bind_some]
  simp only [step, respond, phase, Phase.alive, Bool.not_true, Bool.false_eq_true, if_false, respondBoot, delivered,
    Option.bind_eq_bind, Option.bind_some, kept, resumed, completes]

end System

omit [OrdMap.Differ] in
theorem Proc.send_lookup {proc : Proc} (request : Request) (numbered : ∀ id other, (id, other) ∈ proc.wire → id < proc.nextRequest) :
    (proc.send (some request)).wire.lookup proc.nextRequest = some request := by
  have fresh : proc.wire.lookup proc.nextRequest = none := by
    cases found : proc.wire.lookup proc.nextRequest with
    | none => rfl
    | some other => exact absurd (numbered _ other (mem_of_lookup found)) (Nat.lt_irrefl _)
  simp [Proc.send, List.lookup_append, fresh, List.lookup]

structure Booting (pid : Pid) (state : BootstrapState) (effect : BootstrapEffect) (sys : System) : Prop where
  reached : ReachableSystem sys
  waits : ∃ id, (sys.procs pid).phase = .bootstrapping state effect ⟨bootCall effect, id⟩ ∧
    (sys.procs pid).wire.lookup id = some (bootCall effect).request

theorem Booting.sent {sys : System} {pid : Pid} {state : BootstrapState} {effect : BootstrapEffect}
    (numbered : ∀ id other, (id, other) ∈ (sys.procs pid).wire → id < (sys.procs pid).nextRequest)
    (reached : ReachableSystem (sys.await pid state effect (bootCall effect))) :
    Booting pid state effect (sys.await pid state effect (bootCall effect)) := by
  refine ⟨reached, (sys.procs pid).nextRequest, ?_, ?_⟩
  · simp [await, send, setPhase, Proc.send]
  · have found := Proc.send_lookup (bootCall effect).request numbered
    simpa [await, send, setPhase, Proc.send] using found

section

variable {sys : System} {pid : Pid} {state : BootstrapState} {effect : BootstrapEffect} (booting : Booting pid state effect sys)

include booting

theorem Booting.ok : sys.view.BootOk pid (sys.procs pid) state := by
  obtain ⟨id, phase, _⟩ := booting.waits
  have known := ((booting.reached.ok sys).procs pid).phase
  rw [phase] at known
  exact known.booting

theorem Booting.bootRound_reached (after : System) (stepped : sys.bootRound pid = some after) : ReachableSystem after := by
  unfold System.bootRound at stepped
  split at stepped
  · obtain ⟨middle, first, second⟩ := Option.bind_eq_some_iff.mp stepped
    exact (booting.reached.after _ _ _ first).after _ _ _ second
  · cases stepped

theorem Booting.leads {after : System} (round : sys.bootRound pid = some after)
    (first : ∀ fence, effect = .establishFence fence → sys.store.head.map (fun newest => newest.replay.cut) =
      sys.store.seals[fence.object.owner.generation]?.map fun claim => claim.replay.cut) : Leads (· = pid) sys after := by
  obtain ⟨id, phase, sent⟩ := booting.waits
  simp only [System.bootRound, phase] at round
  obtain ⟨middle, applied, responded⟩ := Option.bind_eq_some_iff.mp round
  have passed : calm sys (.apply pid id) = true := by
    refine calm_apply sent ?_
    intro object same _
    cases effect with
    | establishFence fence =>
      cases same
      exact first fence rfl
    | _ => cases same
  exact .tail (.single ⟨_, rfl, passed, applied⟩) ⟨_, rfl, rfl, responded⟩

variable (result : CallResult)
  (resumed : (bootCall effect).resume (.answer (sys.store.execute (bootCall effect).request).2) = some (.done result))
  (event : BootstrapEvent) (told : System.bootEvent effect result = some event)

include resumed told

theorem Booting.round (next : BootstrapState) (asked : BootstrapEffect)
    (handled : Bootstrap.handle state event = .ok (Bootstrap.effect next asked)) :
    ∃ after, sys.bootRound pid = some after ∧ Booting pid next asked after ∧
      after.store = (sys.store.execute (bootCall effect).request).1 := by
  obtain ⟨id, phase, sent⟩ := booting.waits
  have stepped := System.bootRound_eq phase _ sent result resumed event told
  have reached := booting.bootRound_reached _ stepped
  simp only [driveBootstrap, handled, Bootstrap.effect] at stepped reached
  refine ⟨_, stepped, Booting.sent ?_ reached, rfl⟩
  intro number other member
  rw [record_procs, System.applied_proc] at member ⊢
  exact ((booting.reached.ok sys).procs pid).base.wire.numbered number other (View.Proc.mem_answer_wire.mp member).1

theorem Booting.completed (next : BootstrapState) (recovery : WriterRecovery)
    (handled : Bootstrap.handle state event = .ok (next, .complete recovery)) :
    ∃ after, sys.bootRound pid = some after ∧ ReachableSystem after ∧ (after.procs pid).phase = .ready recovery ∧
      .completed pid recovery ∈ after.history ∧ after.store = (sys.store.execute (bootCall effect).request).1 := by
  obtain ⟨id, phase, sent⟩ := booting.waits
  have stepped := System.bootRound_eq phase _ sent result resumed event told
  have reached := booting.bootRound_reached _ stepped
  simp only [driveBootstrap, handled] at stepped reached
  exact ⟨_, stepped, reached, by simp [setPhase], by simp [record], rfl⟩

theorem Booting.exited (next : BootstrapState) (exit : BootstrapExit)
    (handled : Bootstrap.handle state event = .ok (next, .exit exit)) :
    ∃ after, sys.bootRound pid = some after ∧ .bootstrapExited pid exit ∈ after.history ∧
      after.store = (sys.store.execute (bootCall effect).request).1 := by
  obtain ⟨id, phase, sent⟩ := booting.waits
  have stepped := System.bootRound_eq phase _ sent result resumed event told
  simp only [driveBootstrap, handled] at stepped
  exact ⟨_, stepped, by simp [record], rfl⟩

end

end StromDB
