import StromDB.Properties.Writer

namespace StromDB

open Log

def Entry.unobserved [Rkyv] : Entry → Bool
  | .observed _ _ _ => false
  | _ => true

theorem Log.landed_unobserved [Rkyv] (newer older : List Entry) (quiet : ∀ entry ∈ newer, entry.unobserved = true) :
    Log.landed (newer ++ older) = Log.landed older := by
  induction newer with
  | nil => rfl
  | cons entry rest ih =>
    have here := quiet entry List.mem_cons_self
    rw [List.cons_append, Log.landed, ih fun other member => quiet other (List.mem_cons_of_mem _ member)]
    cases entry with
    | observed now event machine => cases here
    | emitted output | exited exit => simp

theorem Session.after_log [Rkyv] (s : Session) (now : Instant) (event : WriterEvent) (effects : WriterMachine.Effects) :
    ∃ top, (s.after now event effects).log = top ++ .observed now event s.machine :: s.log ∧
      ∀ entry ∈ top, entry.unobserved = true := by
  refine ⟨(effects.2.2.map Entry.exited).toList ++ (effects.2.1.map Entry.emitted).reverse, ?_, ?_⟩
  · simp [Session.after, emits]
  · intro entry member
    rcases List.mem_append.mp member with exits | outputs
    · obtain ⟨exit, _, rfl⟩ := Option.map_eq_some_iff.mp (Option.mem_toList.mp exits)
      rfl
    · obtain ⟨output, _, rfl⟩ := List.mem_map.mp (List.mem_reverse.mp outputs)
      rfl

theorem Log.observer_unobserved [Rkyv] (newer older : List Entry) (quiet : ∀ entry ∈ newer, entry.unobserved = true) :
    Log.observer (newer ++ older) = Log.observer older := by
  induction newer with
  | nil => rfl
  | cons entry rest ih =>
    have here := quiet entry List.mem_cons_self
    have below := ih fun other member => quiet other (List.mem_cons_of_mem _ member)
    cases entry with
    | observed now event machine => cases here
    | emitted output | exited exit => exact below

section

variable [Rkyv] [OrdMap.Differ] (sys : System) (recovery : WriterRecovery) (completes : Completes sys recovery) (s : Session)
  (reached : ReachableSession recovery s)

include completes reached

theorem durable_folds : foldLog (Log.landed s.log) recovery.durable = some s.machine.durable := by
  obtain ⟨last, held, _, finished⟩ := completes.last s reached
  obtain ⟨flight, checkpoint, machine⟩ := finished.machine
  rw [finished.landed, machine]
  exact held.core.durable

theorem successes_follow_publication :
    (∀ now event later, Session.step (now, event) s = some later →
      ∀ newer replies older, later.log = newer ++ .emitted (.action (.sendReplies replies)) :: older → s.log.length < older.length →
        ∀ completion ∈ replies, completion.succeeds = true →
          view recovery.durable older = later.machine.durable ∧
          foldLog (Log.landed older) recovery.durable = some (view recovery.durable older) ∧
          (∃ envelope ∈ commands older, envelope.reply = completion.reply) ∧
          facts (through completion.reply older) <+: (Log.landed older).flatMap WalObject.facts) ∧
    (∀ newer forest older, s.log = newer ++ .emitted (.action (.publishView forest)) :: older →
      foldLog (Log.landed older) recovery.durable = some forest ∧
      ∃ earlier later, Log.landed older = earlier ++ later ∧
        foldLog earlier recovery.durable = some (view recovery.durable older) ∧
        foldLog later (view recovery.durable older) = some forest) ∧
    (verdicts s.log).map Completion.reply = (commands s.log).map CommandEnvelope.reply ∧
    (released s.log).filter Completion.succeeds <+: (verdicts s.log).filter Completion.succeeds := by
  obtain ⟨last, held, accounts, finished⟩ := completes.last s reached
  have books := accounts.views.books
  refine ⟨?_, ?_, ?_, ?_⟩
  · intro now event later stepped newer replies older split inside completion member success
    have following : ReachableSession recovery later := reached.after s later _ stepped
    obtain ⟨_, _, ended, finishes⟩ := completes.last later following
    have answered : Log.Every (Answered recovery) later.log :=
      finishes.every _ (by simp [Answered]) (by simp [Answered]) ended.views.answered
    rw [split] at answered
    obtain ⟨folds, heard, carried⟩ := Log.Every.older _ newer _ older answered completion member success
    refine ⟨?_, folds, heard, carried⟩
    have landed : Log.landed later.log = Log.landed older := by
      obtain ⟨_, effects, _, same⟩ := Session.step_eq_some_iff.mp stepped
      obtain ⟨top, logged, quiet⟩ := s.after_log now event effects
      rw [← same, split] at logged
      have within : newer <+: top := by
        apply List.prefix_of_prefix_length_le (List.prefix_append newer _) (logged ▸ List.prefix_append top _)
        have lengths := congrArg List.length logged
        simp only [List.length_append, List.length_cons] at lengths
        omega
      rw [split, landed_unobserved newer _ fun entry member => quiet entry (within.subset member)]
      simp
    have durable := durable_folds sys recovery completes later following
    rw [landed, folds] at durable
    exact Option.some.inj durable
  · intro newer forest older split
    have published : Log.Every (Published recovery) s.log :=
      finished.every _ (by simp [Published]) (by simp [Published]) accounts.views.published
    rw [split] at published
    exact Log.Every.older _ newer _ older published forest rfl
  · rw [finished.verdicts, finished.commands]
    exact books.tokens.same
  · rw [finished.released, finished.verdicts]
    exact books.balanced.released_prefix

theorem overloaded_step (now : Instant) (event : WriterEvent) (later : Session) (stepped : Session.step (now, event) s = some later)
    (sheds : Log.sheds later.log = true) :
    Log.exit later.log = none ∧ Held recovery (sys.past recovery) later ∧ Rest later ∧ Accounts recovery later ∧
      Shedding later s.machine := by
  obtain ⟨conforms, effects, _, after⟩ := Session.step_eq_some_iff.mp stepped
  obtain ⟨held, rest, accounts⟩ := completes.running s reached (s.conforms_running event conforms)
  obtain ⟨top, logged, quiet⟩ := s.after_log now event effects
  have observed : Log.observer later.log = some s.machine := by
    rw [after, logged, observer_unobserved top _ quiet]
    rfl
  cases held.steps rest stepped with
  | goes path rests running =>
    obtain ⟨held, here⟩ := Moves.keep (Accounts recovery) Accounts.move now s later held accounts path
    obtain ⟨machine, observer, shedding⟩ := here.attempts.sheds sheds
    rw [observed] at observer
    cases observer
    exact ⟨running, held, rests, here, shedding⟩
  | fails exit halt =>
    cases halt with
    | failed event exit flight checkpoint failure other => cases sheds
    | shutdown closed landed idle empty =>
      obtain ⟨machine, _, shedding⟩ := accounts.attempts.sheds sheds
      have opened := shedding.opened
      rw [closed] at opened
      cases opened
  | closes middle path halt =>
    obtain ⟨_, here⟩ := Moves.keep (Accounts recovery) Accounts.move now s middle held accounts path
    cases halt with
    | failed event exit flight checkpoint failure other => exact absurd rfl other
    | shutdown closed landed idle empty =>
      obtain ⟨machine, _, shedding⟩ := here.attempts.sheds sheds
      have opened := shedding.opened
      rw [closed] at opened
      cases opened

theorem admission_serves_catalogue :
    (∀ newer now envelope machine older, s.log = newer ++ .observed now (.command envelope) machine :: older →
      machine.verdict envelope = some ((Log.catalogue recovery.durable older).answer envelope) ∨
      (((Log.catalogue recovery.durable older).answer envelope).mutates = true ∧
        machine.verdict envelope = some (((Log.catalogue recovery.durable older).answer envelope).refusal .overloaded))) ∧
    s.machine.admitted.catalogue = Log.catalogue recovery.durable s.log ∧
    (verdicts s.log).map Completion.reply = (commands s.log).map CommandEnvelope.reply ∧
    (∀ completion ∈ released s.log, completion ∈ verdicts s.log) ∧
    ∀ now event later, Session.step (now, event) s = some later → Log.sheds later.log = true →
      Log.catalogue recovery.durable later.log = Log.catalogue recovery.durable s.log ∧
      later.machine.admitted = s.machine.admitted ∧ later.machine.pending = s.machine.pending ∧
      later.machine.nextBatch = s.machine.nextBatch := by
  obtain ⟨last, held, accounts, finished⟩ := completes.last s reached
  obtain ⟨flight, checkpoint, machine⟩ := finished.machine
  have books := accounts.views.books
  have catalogue : s.machine.admitted.catalogue = Log.catalogue recovery.durable s.log := by
    rw [finished.catalogue, machine]
    exact accounts.serial.catalogue
  refine ⟨?_, catalogue, ?_, ?_, ?_⟩
  · intro newer now envelope machine older split
    have serves : Log.Every (Serves recovery.durable) s.log := by
      refine finished.every _ (by simp [Serves]) ?_ accounts.serial.serves
      rintro now event machine older failure _ _ _ ⟨rfl⟩
      cases failure
    rw [split] at serves
    rcases Log.Every.older _ newer _ older serves now envelope machine rfl with answered | ⟨mutates, shed, _⟩
    · exact .inl answered
    · exact .inr ⟨mutates, shed⟩
  · rw [finished.verdicts, finished.commands]
    exact books.tokens.same
  · intro completion member
    rw [finished.released] at member
    rw [finished.verdicts]
    exact books.balanced.kept.mem_iff.mp (List.mem_append_left _ member)
  · intro now event later stepped sheds
    obtain ⟨_, _, _, here, shedding⟩ := overloaded_step sys recovery completes s reached now event later stepped sheds
    refine ⟨?_, shedding.admitted, shedding.pending, shedding.nextBatch⟩
    rw [← here.serial.catalogue, ← catalogue, shedding.admitted]

theorem conflict_seen_by_admission (newer older : List Entry) (replies : List Completion)
    (split : s.log = newer ++ .emitted (.action (.sendReplies replies)) :: older) (reply : ReplySender)
    (refused : .create (.error .pathOccupied) reply ∈ replies) :
    ∃ now command machine earlier, older = .observed now (.command (.create command reply)) machine :: earlier ∧
      machine.admitted.catalogue.answer (.create command reply) = .create (.error .pathOccupied) reply ∧
      ((∀ object ∈ (runs earlier).drop (Log.landed earlier).length, ∀ fact ∈ object.facts, command.path ≠ fact.path) →
        (∀ fact ∈ machine.pending.facts, command.path ≠ fact.path) →
        machine.durable.catalogue.answer (.create command reply) = .create (.error .pathOccupied) reply) := by
  obtain ⟨last, held, accounts, finished⟩ := completes.last s reached
  have conflicts : Log.Every Conflicts s.log := finished.every _ (by simp [Conflicts]) (by simp [Conflicts]) accounts.conflicts
  rw [split] at conflicts
  exact Log.Every.older _ newer _ older conflicts reply refused

end

attribute [local instance] plainRkyv OrdMap.exactDiffer

theorem successes_follow_publication_waiting : (released waitingSession.log).filter Completion.succeeds =
      [.create (.ok .created) 0] ∧
    (released waitingSession.log).filter Completion.succeeds <+: (verdicts waitingSession.log).filter Completion.succeeds :=
  ⟨by decide +kernel,
    (successes_follow_publication openedSystem openedRecovery opened_completes waitingSession waiting_reached).2.2.2⟩

theorem admission_serves_catalogue_waiting : verdicts waitingSession.log = [.create (.ok .created) 0, .create (.ok .created) 1] ∧
    waitingSession.machine.admitted.catalogue = Log.catalogue openedRecovery.durable waitingSession.log :=
  ⟨by decide +kernel,
    (admission_serves_catalogue openedSystem openedRecovery opened_completes waitingSession waiting_reached).2.1⟩

def otherCreate : CreateStream := ⟨samplePath, ⟨.json, ESSENCE_JSON, by decide⟩, .none, .opened⟩

def conflicting : List (Instant × WriterEvent) := sending ++ [(0, .command (.create otherCreate 1))]

theorem conflicting_runs : (Transition.run Session.step conflicting openedSession).isSome = true := by decide +kernel

def conflictingSession : Session := (Transition.run Session.step conflicting openedSession).get conflicting_runs

theorem conflicting_reached : ReachableSession openedRecovery conflictingSession :=
  Transition.Reachable.run conflicting _ _ opened_reached (Option.some_get conflicting_runs).symm

theorem conflict_with_work_in_flight : Completes openedSystem openedRecovery ∧ ReachableSession openedRecovery conflictingSession ∧
    .create (.error .pathOccupied) 1 ∈ released conflictingSession.log ∧
    conflictingSession.machine.durable.catalogue.answer (.create otherCreate 1) = .create (.ok .created) 1 :=
  ⟨opened_completes, conflicting_reached, by decide +kernel, by decide +kernel⟩

theorem conflict_seen_by_admission_conflicting : ∃ now command machine earlier,
    (Entry.observed 0 (.command (.create otherCreate 1)) sendingSession.machine :: sendingSession.log) =
      .observed now (.command (.create command 1)) machine :: earlier ∧
    machine.admitted.catalogue.answer (.create command 1) = .create (.error .pathOccupied) 1 := by
  have split : conflictingSession.log = [] ++ .emitted (.action (.sendReplies [.create (.error .pathOccupied) 1])) ::
      .observed 0 (.command (.create otherCreate 1)) sendingSession.machine :: sendingSession.log := by decide +kernel
  obtain ⟨now, command, machine, earlier, same, answer, _⟩ :=
    conflict_seen_by_admission openedSystem openedRecovery opened_completes conflictingSession conflicting_reached _ _ _ split 1
      (by decide)
  exact ⟨now, command, machine, earlier, same, answer⟩

end StromDB
