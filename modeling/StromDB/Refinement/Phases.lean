import StromDB.Refinement.BootSteps
import StromDB.Refinement.Schedule

namespace StromDB

open Checked

variable [Rkyv]

namespace View

structure Quiet (view : View) (pid : Pid) (proc : Proc) : Prop where
  tasks : ∀ key, proc.tasks key = none
  unfiled : ∀ object body, ¬ view.Filed pid proc object body
  unissued : ∀ batch, (pid, batch) ∉ view.issued

structure BootingOk (view : View) (pid : Pid) (proc : Proc) (state : BootstrapState) (effect : BootstrapEffect) (pending : Pending) :
    Prop where
  quiet : view.Quiet pid proc
  booting : view.BootOk pid proc state
  call : BootCall state effect pending.call
  waits : view.PendingOk pid proc pending
  reply : ∀ reply, proc.replies pending.request = some reply → view.BootReply pid proc state reply

def PhaseOk (view : View) (pid : Pid) (proc : Proc) : Phase → Prop
  | .idle => view.Quiet pid proc ∧ view.Unwritten pid proc
  | .bootstrapping state effect pending => view.BootingOk pid proc state effect pending
  | .ready recovery => view.Quiet pid proc ∧ view.Final pid proc recovery
  | .running machine _ _ => view.WriterOk pid proc machine
  | _ => True

structure ProcOk (view : View) (pid : Pid) (proc : Proc) : Prop where
  base : view.BaseOk pid proc
  phase : view.PhaseOk pid proc proc.phase

section

variable {pid : Pid} {before after : View} {proc next : Proc} (held : Keeps pid before after proc next)
  (silent : Silent pid before after proc next) (known : before.Ok) (new : after.Ok) (tasks : next.tasks = proc.tasks)

include silent tasks

theorem Quiet.keeps (quiet : before.Quiet pid proc) : after.Quiet pid next :=
  ⟨by rw [tasks]; exact quiet.tasks, fun object body there => quiet.unfiled object body (silent.filed object body there),
    fun batch there => quiet.unissued batch (silent.issued batch there)⟩

include held known new

theorem BootingOk.keeps (state : BootstrapState) (effect : BootstrapEffect) (pending : Pending)
    (ok : before.BootingOk pid proc state effect pending) : after.BootingOk pid next state effect pending where
  quiet := ok.quiet.keeps silent tasks
  booting := ok.booting.keeps held.extended silent new.log state
  call := ok.call
  waits := ok.waits.keeps held
  reply := by
    intro reply found
    rcases held.replies _ reply found with old | ⟨request, store, sent, stored, answer, _⟩
    · exact (ok.reply reply old).keeps held.extended silent state reply
    · rw [ok.waits.wire request sent] at answer
      have told := ok.booting.answered stored known pid proc state effect pending.call ok.call
      rw [answer] at told
      exact told.keeps held.extended silent state reply

theorem PhaseOk.keeps (phase : Phase) (ok : before.PhaseOk pid proc phase) : after.PhaseOk pid next phase := by
  cases phase with
  | idle => exact ⟨ok.1.keeps silent tasks, ok.2.keeps silent⟩
  | bootstrapping state effect pending => exact BootingOk.keeps held silent known new tasks state effect pending ok
  | ready recovery => exact ⟨ok.1.keeps silent tasks, ok.2.keeps held.extended silent⟩
  | running machine timer view => exact WriterOk.silent held known.chain new.chain silent tasks machine ok
  | _ => trivial

theorem ProcOk.keeps (phase : next.phase = proc.phase) (wire : after.WireOk pid next) (ok : before.ProcOk pid proc) :
    after.ProcOk pid next where
  base := ⟨wire, ok.base.tasks.keeps held silent known.chain new.chain tasks⟩
  phase := by
    rw [phase]
    exact ok.phase.keeps held silent known new tasks proc.phase

end

theorem ProcOk.rely {pid : Pid} {before after : View} {proc : Proc} (others : Rely pid before after)
    (issued : ∀ batch, (pid, batch) ∈ after.issued → (pid, batch) ∈ before.issued) (known : before.Ok) (new : after.Ok)
    (ok : before.ProcOk pid proc) : after.ProcOk pid proc :=
  ok.keeps (others.keeps proc) (others.silent proc issued) known new rfl rfl (ok.base.wire.rely proc others known.chain new.chain)

theorem sameWire_phase (proc : Proc) (phase : Phase) : SameWire proc { proc with phase } := ⟨rfl, rfl, rfl⟩

section

variable {view : View} {pid : Pid} {proc : Proc} (known : view.Ok)

include known

theorem BaseOk.setPhase (base : view.BaseOk pid proc) (phase : Phase) : view.BaseOk pid { proc with phase } :=
  ⟨base.wire.sameWire (sameWire_phase proc phase),
    base.tasks.keeps (sameWire_phase proc phase).keeps (sameWire_phase proc phase).silent known.chain known.chain rfl⟩

theorem PhaseOk.setPhase (phase : Phase) (ok : view.PhaseOk pid proc phase) : view.PhaseOk pid { proc with phase } phase :=
  ok.keeps (sameWire_phase proc phase).keeps (sameWire_phase proc phase).silent known known rfl phase

theorem ProcOk.setPhase (base : view.BaseOk pid proc) (phase : Phase)
    (ok : view.PhaseOk pid proc phase) : view.ProcOk pid { proc with phase } :=
  ⟨base.setPhase known phase, ok.setPhase known phase⟩

end

section

variable {view : View} {pid : Pid} {proc : Proc} (known : view.Ok) (wire : view.WireOk pid proc)

include known wire

theorem boot_send (state : BootstrapState) (effect : BootstrapEffect) (ok : view.BootOk pid proc state)
    (waits : BootCall state effect (System.bootCall effect)) :
    view.WireOk pid (proc.send (some (System.bootCall effect).request)) ∧
      view.issue pid (some (System.bootCall effect).request) = view ∧
      view.BootOk pid (proc.send (some (System.bootCall effect).request)) state ∧
      ∀ object body, view.Filed pid (proc.send (some (System.bootCall effect).request)) object body →
        view.Filed pid proc object body := by
  have plainly : ∀ request : Request, Plain request = true → view.OpOk pid request →
      view.WireOk pid (proc.send (some request)) ∧ view.issue pid (some request) = view ∧
        view.BootOk pid (proc.send (some request)) state ∧
        ∀ object body, view.Filed pid (proc.send (some request)) object body → view.Filed pid proc object body := by
    intro request plain op
    have silent : Silent pid view view proc (proc.send (some request)) := silent_plain plain
    exact ⟨wire.send_plain known request plain op, issue_plain plain, ok.keeps (Extends.refl view) silent known.log state,
      silent.filed⟩
  cases state with
  | establishingGenesis partition =>
    obtain ⟨encoded, rfl, made, _⟩ := waits
    obtain ⟨sealed, genesis, rest⟩ := genesisSeal_ok partition
    rw [made] at genesis
    cases genesis
    exact plainly (.createSeal encoded.sealed) rfl (.inl rest)
  | publishingClaim candidate sources =>
    obtain ⟨encoded, rfl, same, _⟩ := waits
    obtain ⟨_, claimed, _⟩ := ok
    exact plainly (.createSeal encoded.sealed) rfl (same ▸ .inr (.inl claimed))
  | establishingFence loaded fence =>
    obtain ⟨encoded, rfl, same, _⟩ := waits
    obtain ⟨ready, passed, wrote⟩ := ok
    have mine := ready.claimed
    have op : view.FenceOp pid encoded.object := by
      have bounded := encoded.bounded
      rw [same] at bounded ⊢
      exact ⟨rfl, mine.author, ⟨loaded.claimed.sealed, mine.claim, mine.same.symm, passed.above, rfl⟩, passed.reached, passed.older,
        bounded⟩
    have isFence : encoded.object.body.isFence = true := by
      rw [op.fence]
      rfl
    refine ⟨wire.send known (.createWal encoded.object) (.inl op) ?_ known.chain, rfl, ⟨ready, passed, ?_⟩, ?_⟩
    · intro id other sent
      cases other with
      | createWal before =>
        refine ⟨.inr isFence, fun _ run => ?_, fun _ run => ?_⟩
        · rw [isFence] at run
          cases run
        · rcases wrote before (.inl ⟨id, sent⟩) with rfl | ⟨spent, _⟩
          · cases run
          · rw [spent.1] at run
            cases run
      | _ => trivial
    · rintro object (⟨id, member⟩ | inLog)
      · rcases mem_send_wire.mp member with old | ⟨_, new⟩
        · exact wrote object (.inl ⟨id, old⟩)
        · cases new
          exact .inl same
      · exact wrote object (.inr inLog)
    · rintro object body (⟨id, candidate, member, rest⟩ | established)
      · rcases mem_send_wire.mp member with old | ⟨_, new⟩
        · exact .inl ⟨id, candidate, old, rest⟩
        · cases new
      · exact .inr established
  | initial | complete => exact absurd ok id
  | _ =>
    obtain ⟨rfl, _⟩ := waits
    exact plainly _ rfl trivial

omit known in
theorem BootingOk.sent (quiet : view.Quiet pid proc) (state : BootstrapState) (effect : BootstrapEffect) (call : Call)
    (silent : view.issue pid (some call.request) = view) (ok : view.BootOk pid (proc.send (some call.request)) state)
    (filed : ∀ object body, view.Filed pid (proc.send (some call.request)) object body → view.Filed pid proc object body)
    (waits : BootCall state effect call) :
    view.BootingOk pid (proc.send (some call.request)) state effect ⟨call, proc.nextRequest⟩ where
  quiet := ⟨by rw [Proc.send_tasks]; exact quiet.tasks, fun object body there => quiet.unfiled object body (filed object body there),
    quiet.unissued⟩
  booting := ok
  call := waits
  waits := by
    have sent := PendingOk.sent_now wire call
    rwa [silent] at sent
  reply := by
    intro reply found
    have fresh : (proc.send (some call.request)).replies proc.nextRequest = none := wire.unanswered _ (Nat.le_refl _)
    rw [fresh] at found
    cases found

end

theorem fromRecovery_ok {view : View} {pid : Pid} {proc : Proc} (known : view.Ok) (recovery : WriterRecovery)
    (quiet : view.Quiet pid proc) (final : view.Final pid proc recovery) (flushIntervalMin : Instant) (flushBufferBytes : Nat)
    (machine : WriterMachine) (made : WriterMachine.fromRecovery recovery flushIntervalMin flushBufferBytes = .ok machine) :
    view.WriterOk pid proc machine := by
  obtain ⟨nextBatch, next, rfl⟩ := WriterMachine.fromRecovery_eq made
  have recovered := final.recovered
  have same : recovery.claim.generation = recovery.sealed.generation := recovered.claimed.same
  have absent : ∀ key, ¬ (proc.tasks key).isSome := by
    intro key found
    rw [quiet.tasks key] at found
    cases found
  refine ⟨⟨recovered.claimed.author, recovered.claimed.claim.1, Nat.le_of_eq (congrArg _ same), ?_, recovered.base,
    Nat.le_of_lt recovered.above, ?_,
    recovered.durable⟩, ⟨next, fun object there => (final.wrote object there).2⟩, ⟨rfl, rfl, ?_⟩, trivial,
    fun ticket found => absurd found (absent _), fun cut found => absurd found (absent _),
    fun object body there => absurd there (quiet.unfiled object body), fun batch there => absurd there (quiet.unissued batch)⟩
  · intro granted _ bound
    exact (congrArg SealGeneration.get same).symm ▸ bound
  · refine ⟨recovered.durable.1, ?_⟩
    exact known.log.ownerAt_batch _ recovered.fence
  · nofun

section

variable {view : View} {pid : Pid} {proc : Proc} (tasks : view.TasksOk pid proc) (machine : WriterMachine) (key : EffectKey)

include tasks

theorem told_join (writer : view.WriterOk pid proc machine) (event : WriterEvent) (found : proc.tasks key = some (.finished event)) :
    view.Told pid (proc.setTask key none) machine event := by
  obtain ⟨assignment, rfl, ok⟩ := tasks.assigned key _ found
  cases assignment with
  | wal object =>
    obtain ⟨result, rfl, _⟩ := ok
    intro flight here same
    have active := writer.flight
    rw [here] at active
    obtain ⟨_, _, entry, batch, run, owner, applied, _, working, _⟩ := active
    have equal : entry.batch = object.batch := batch.trans same
    obtain ⟨told, event, known⟩ := working _ (by rw [Assignment.key, equal]; exact found)
    rw [(WriterEvent.walEstablished.inj event).2]
    exact ⟨entry, equal, run, owner, same ▸ applied, known⟩
  | prepare ticket =>
    obtain ⟨outcome, rfl, known⟩ := ok
    exact ⟨Proc.setTask_self _ _ _, known⟩
  | publish ticket candidate =>
    obtain ⟨result, rfl, _⟩ := ok
    intro prepared marker
    have active := writer.marker
    rw [marker] at active
    obtain ⟨told, event, known⟩ := active.2.2 _ found
    cases event
    exact known
  | collect input =>
    cases ok
    exact Proc.setTask_self _ _ _

theorem told_cancelled (job : PrepareJob) (found : proc.tasks key = some (.prepare job)) :
    view.Told pid (proc.setTask key none) machine (.checkpointPreparationCancelled job.ticket) := by
  obtain ⟨assignment, rfl, ok⟩ := tasks.assigned key _ found
  cases assignment with
  | prepare ticket =>
    obtain ⟨created, known⟩ := ok
    rw [known.same]
    exact Proc.setTask_self _ _ _
  | wal object | publish ticket candidate | collect input => exact absurd ok id

end

end View

end StromDB
