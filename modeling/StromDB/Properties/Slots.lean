import StromDB.Properties.Checkpoints
import StromDB.Session.Hosted

namespace StromDB

section

variable [Rkyv] [OrdMap.Differ] (sys : System) (recovery : WriterRecovery) (completes : Completes sys recovery) (s : Session)
  (reached : ReachableSession recovery s)

include completes reached

theorem shutdown_clean :
    (∀ newer effect older, s.log = newer ++ .emitted (.effect effect) :: older →
      (∃ now machine, .observed now .ingressClosed machine ∈ older) → ∃ candidate, effect = .establishWal candidate) ∧
    (Log.exit s.log = some .shutdown →
      (∀ effect ∈ Log.outstanding s.log, (∀ batch, effect.key ≠ .wal batch) ∧ ∀ ticket, effect.key ≠ .sealPublication ticket) ∧
      s.machine.pending.commands = [] ∧ s.machine.flight = none ∧ Log.view recovery.durable s.log = s.machine.durable) := by
  refine ⟨?_, ?_⟩
  · rintro newer effect older split ⟨now, machine, closes⟩
    obtain ⟨last, _, accounts, finished⟩ := completes.last s reached
    have drains : Log.Every Drains s.log :=
      finished.every Drains (fun _ _ => trivial) (fun _ _ _ _ _ => trivial) accounts.closing.drains
    rw [split] at drains
    exact Log.Every.older _ newer _ older drains (List.any_eq_true.mpr ⟨_, closes, rfl⟩)
  · intro ended
    cases completes.fate s reached with
    | running going held rest here =>
      rw [going] at ended
      cases ended
    | ended now last exit held here halt =>
      cases halt with
      | failed event exit flight checkpoint failure other =>
        cases ended
        exact absurd rfl other
      | shutdown closed landed idle empty =>
        refine ⟨?_, empty, landed, here.views.view⟩
        intro effect member
        have issued : effect ∈ Log.outstanding last.log := by simpa using member
        rcases held.slot_taken effect issued with ⟨flight, active, _⟩ | ⟨marker, marked, _⟩ | ⟨cut, _, same⟩
        · rw [landed] at active
          cases active
        · rw [idle] at marked
          cases marked
        · simp [same]

theorem effect_slots :
    (∀ newer older, s.log = newer ++ older →
      ((Log.outstanding older).map fun effect => effect.key.slot).Nodup ∧ ((Log.outstanding older).map WriterEffect.key).Nodup) ∧
    (∀ newer ticket older, s.log = newer ++ .emitted (.action (.cancelCheckpointPreparation ticket)) :: older →
      ∃ input, .prepareCheckpoint input ∈ Log.outstanding older ∧ input.ticket = ticket) ∧
    (∀ newer deadline older, s.log = newer ++ .emitted (.action (.armFlush deadline)) :: older → Log.timer older = none) ∧
    (∀ now event machine outputs exit, s.conforms event = true → s.machine.handle now event = .ok (machine, outputs, exit) →
      ∀ pid owner execution, Hosts (execution.sys.procs pid).tasks execution.timer (.observed now event s.machine :: s.log) →
        ∃ next, System.executeOutputs pid owner outputs execution = (next, none) ∧
          Hosts (next.sys.procs pid).tasks next.timer (Log.emits outputs (.observed now event s.machine :: s.log))) ∧
    (∀ pid machine timer view, (sys.procs pid).phase = .running machine timer view →
      ∃ recovery s, Hosted sys pid machine timer view recovery s) := by
  obtain ⟨last, _, accounts, finished⟩ := completes.last s reached
  have slotted : Log.Every Slotted s.log :=
    finished.every Slotted (fun _ _ => trivial) (fun _ _ _ _ _ => trivial) accounts.slotted
  refine ⟨?_, ?_, ?_, ?_, fun pid machine timer view here => completes.reached.hosted pid machine timer view here⟩
  · intro newer older split
    rw [split] at slotted
    have slots := Log.slots_nodup (slotted.suffix _ newer older)
    refine ⟨slots, ?_⟩
    rw [← Function.comp_def EffectKey.slot WriterEffect.key, ← List.map_map] at slots
    exact slots.of_map
  · intro newer ticket older split
    rw [split] at slotted
    exact Log.Every.older _ newer _ older slotted
  · intro newer deadline older split
    rw [split] at slotted
    exact Log.Every.older _ newer _ older slotted
  · intro now event machine outputs exit conforms handled pid owner execution hosts
    obtain ⟨next, executed, hosts, _⟩ :=
      Hosts.step completes s reached now event conforms execution.timer execution.view hosts owner machine outputs exit handled
    exact ⟨next, executed, hosts⟩

end

attribute [local instance] plainRkyv OrdMap.exactDiffer

def stopping : List (Instant × WriterEvent) :=
  sending ++ [(1, .ingressClosed), (2, .walEstablished ⟨.two⟩ (.ok .durable))]

theorem stopping_runs : (Transition.run Session.step stopping openedSession).isSome = true := by decide +kernel

def stoppedSession : Session := (Transition.run Session.step stopping openedSession).get stopping_runs

theorem stopped_reached : ReachableSession openedRecovery stoppedSession :=
  Transition.Reachable.run stopping _ _ opened_reached (Option.some_get stopping_runs).symm

theorem shutdown_clean_stopped : Log.exit stoppedSession.log = some .shutdown ∧ stoppedSession.machine.flight = none ∧
    Log.view openedRecovery.durable stoppedSession.log = stoppedSession.machine.durable :=
  have ended : Log.exit stoppedSession.log = some .shutdown := by decide +kernel
  ⟨ended, ((shutdown_clean openedSystem openedRecovery opened_completes stoppedSession stopped_reached).2 ended).2.2⟩

def dueRecovery : WriterRecovery := spanning 511 (by decide)

theorem due_starts : (WriterMachine.fromRecovery dueRecovery 10 1000).toOption.isSome = true := by decide +kernel

def closing : Option Session :=
  Transition.run Session.step [(0, .started), (1, .command sampleCreate), (2, .ingressClosed)] (Session.launch dueRecovery due_starts)

theorem closing_isSome : closing.isSome = true := by decide +kernel

def closingSession : Session := closing.get closing_isSome

theorem closing_reached : ReachableSession dueRecovery closingSession :=
  Transition.Reachable.run _ _ _ (launch_reached _ _) (Option.some_get closing_isSome).symm

def closingTicket : CheckpointTicket :=
  ⟨dueRecovery.sealed.generation, dueRecovery.durableBatch, ⟨dueRecovery.claim.generation, 0⟩⟩

theorem effect_slots_closing : (Log.outstanding closingSession.log).length = 2 ∧
    ((Log.outstanding closingSession.log).map fun effect => effect.key.slot).Nodup ∧
    ∃ older, closingSession.log = .emitted (.action (.cancelCheckpointPreparation closingTicket)) :: older ∧
      ∃ input, .prepareCheckpoint input ∈ Log.outstanding older ∧ input.ticket = closingTicket := by
  obtain ⟨sys, completes⟩ := spanning_completes 511 (by decide)
  obtain ⟨slots, cancels, _⟩ := effect_slots sys dueRecovery completes closingSession closing_reached
  have split : closingSession.log =
      [] ++ .emitted (.action (.cancelCheckpointPreparation closingTicket)) :: closingSession.log.drop 1 := by decide +kernel
  exact ⟨by decide +kernel, (slots [] _ rfl).1, _, split, cancels [] closingTicket _ split⟩

end StromDB
