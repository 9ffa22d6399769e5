import StromDB.Properties.Instances
import StromDB.Session.Accounts

namespace StromDB

open Checked Log WriterMachine

theorem handle_bounds [Rkyv] {m machine : WriterMachine} {now : Instant} {event : WriterEvent} {outputs : List WriterOutput}
    {exit : Option WriterExit} (handled : m.handle now event = .ok (machine, outputs, exit)) :
    outputs.length ≤ WRITER_OUTPUTS_PER_STEP_MAX ∧ (exit.isSome = true → outputs.all WriterOutput.isAction = true) := by
  have checks : ∀ (m : WriterMachine) (out : List WriterOutput) (left : Option WriterExit),
      (do
        require (out.length ≤ WRITER_OUTPUTS_PER_STEP_MAX) "one writer event stays inside the named output bound"
        require (left.isSome = true → out.all WriterOutput.isAction = true)
          "a terminal writer step contains immediate actions only"
        pure (m, out, left) : Checked WriterMachine.Effects) = .ok (machine, outputs, exit) →
      outputs.length ≤ WRITER_OUTPUTS_PER_STEP_MAX ∧ (exit.isSome = true → outputs.all WriterOutput.isAction = true) := by
    intro m out left checked
    obtain ⟨_, few, checked⟩ := bind_ok checked
    obtain ⟨_, actions, done⟩ := bind_ok checked
    rw [require_ok_iff] at few actions
    cases done
    exact ⟨few, actions⟩
  obtain ⟨_, _, handled⟩ := bind_ok handled
  obtain ⟨⟨applied, first, ended⟩, _, handled⟩ := bind_ok handled
  cases ended with
  | some left => exact checks applied first (some left) handled
  | none =>
    obtain ⟨⟨scheduled, more, left⟩, _, handled⟩ := bind_ok handled
    exact checks scheduled (first ++ more) left handled

section

variable [Rkyv] [OrdMap.Differ] (sys : System) (recovery : WriterRecovery) (completes : Completes sys recovery)

include completes

theorem writer_never_panics :
    (∀ flushIntervalMin flushBufferBytes, 1 ≤ flushBufferBytes → flushBufferBytes ≤ WAL_ENCODED_BYTES_MAX →
      ∃ machine, fromRecovery recovery flushIntervalMin flushBufferBytes = .ok machine) ∧
    ∀ s, ReachableSession recovery s → (attempts s.log).length + 1 < 2 ^ 64 → ∀ now event, s.conforms event = true →
      ∃ machine outputs exit, s.machine.handle now event = .ok (machine, outputs, exit) ∧
        outputs.length ≤ WRITER_OUTPUTS_PER_STEP_MAX ∧ (exit.isSome = true → outputs.all WriterOutput.isAction = true) := by
  refine ⟨fun interval bytes positive fits => fromRecovery_starts completes.starts interval bytes positive fits, ?_⟩
  intro s reached few now event conforms
  obtain ⟨held, rest, accounts⟩ := completes.running s reached (s.conforms_running event conforms)
  rcases handle_turned held now rest event conforms with ⟨⟨machine, outputs, exit⟩, handled, _⟩ | ⟨full, _⟩
  · exact ⟨machine, outputs, exit, handled, handle_bounds handled⟩
  · rw [accounts.attempts.count] at full
    omega

end

def Session.launch [Rkyv] (recovery : WriterRecovery) (starts : (fromRecovery recovery 10 1000).toOption.isSome = true) : Session :=
  ⟨(fromRecovery recovery 10 1000).toOption.get starts, []⟩

theorem launch_reached [Rkyv] (recovery : WriterRecovery) (starts : (fromRecovery recovery 10 1000).toOption.isSome = true) :
    ReachableSession recovery (Session.launch recovery starts) := by
  refine .start _ ⟨10, 1000, ?_, rfl⟩
  cases found : fromRecovery recovery 10 1000 with
  | ok machine => simp [Session.launch, found, Except.toOption]
  | error message =>
    rw [found] at starts
    cases starts

def firstPartition : PartitionId := ⟨List.replicate 16 1, by decide, by decide⟩

attribute [local instance] plainRkyv OrdMap.exactDiffer

def opening : List Label :=
  .start 0 firstPartition :: (List.range 8).flatMap fun i => [.apply 0 i, .respond 0 .boot .answer]

theorem opening_runs : (Transition.run System.step opening System.initial).isSome = true := by decide +kernel

def openedSystem : System := (Transition.run System.step opening System.initial).get opening_runs

def Event.recovery : Event → Option WriterRecovery
  | .completed _ recovery => some recovery
  | _ => none

theorem opened_recovers : (openedSystem.history.findSome? Event.recovery).isSome = true := by decide +kernel

def openedRecovery : WriterRecovery := (openedSystem.history.findSome? Event.recovery).get opened_recovers

theorem opened_completes : Completes openedSystem openedRecovery where
  reached := Transition.Reachable.run opening _ _ (.start _ rfl) (Option.some_get opening_runs).symm
  completed := ⟨0, by decide +kernel⟩

theorem opened_starts : (fromRecovery openedRecovery 10 1000).toOption.isSome = true := by decide +kernel

def openedSession : Session := Session.launch openedRecovery opened_starts

theorem opened_reached : ReachableSession openedRecovery openedSession := launch_reached openedRecovery opened_starts

def samplePath : StreamPath := ⟨"a", by decide +kernel⟩

def sampleCreate : CommandEnvelope := .create ⟨samplePath, .octetStream, .none, .opened⟩ 0

def sending : List (Instant × WriterEvent) := [(0, .started), (0, .command sampleCreate)]

theorem sending_runs : (Transition.run Session.step sending openedSession).isSome = true := by decide +kernel

def sendingSession : Session := (Transition.run Session.step sending openedSession).get sending_runs

theorem sending_reached : ReachableSession openedRecovery sendingSession :=
  Transition.Reachable.run sending _ _ opened_reached (Option.some_get sending_runs).symm

def secondCreate : CommandEnvelope := .create ⟨⟨"b", by decide +kernel⟩, .octetStream, .none, .opened⟩ 1

def thirdCreate : CommandEnvelope := .create ⟨⟨"c", by decide +kernel⟩, .octetStream, .none, .opened⟩ 2

-- The first RUN is durable, the second is in flight and a third command waits.
def working : List (Instant × WriterEvent) :=
  sending ++ [(1, .walEstablished ⟨.two⟩ (.ok .durable)), (20, .command secondCreate), (21, .command thirdCreate)]

theorem working_runs : (Transition.run Session.step working openedSession).isSome = true := by decide +kernel

def workingSession : Session := (Transition.run Session.step working openedSession).get working_runs

theorem working_reached : ReachableSession openedRecovery workingSession :=
  Transition.Reachable.run working _ _ opened_reached (Option.some_get working_runs).symm

theorem writer_never_panics_working : ∃ machine outputs exit,
    workingSession.machine.handle 22 (.walEstablished ⟨.three⟩ (.ok .durable)) = .ok (machine, outputs, exit) ∧
      outputs.length = 3 ∧ outputs.length ≤ WRITER_OUTPUTS_PER_STEP_MAX ∧
      (exit.isSome = true → outputs.all WriterOutput.isAction = true) := by
  obtain ⟨machine, outputs, exit, handled, bounds⟩ := (writer_never_panics openedSystem openedRecovery opened_completes).2
    workingSession working_reached (by decide +kernel) 22 (.walEstablished ⟨.three⟩ (.ok .durable)) (by decide +kernel)
  have count : ((workingSession.machine.handle 22 (.walEstablished ⟨.three⟩ (.ok .durable))).toOption.map
      fun effects => effects.2.1.length) = some 3 := by decide +kernel
  rw [handled] at count
  exact ⟨machine, outputs, exit, handled, Option.some.inj count, bounds⟩

section

variable [Rkyv] [OrdMap.Differ] (sys : System) (recovery : WriterRecovery) (completes : Completes sys recovery) (s : Session)
  (reached : ReachableSession recovery s)

include completes reached

theorem writer_levels :
    (∀ i object, (sys.past recovery ++ Log.landed s.log)[i]? = some object → object.batch.get = i + 1) ∧
    s.machine.durableBatch.get = (sys.past recovery ++ Log.landed s.log).length ∧
    foldLog ((sys.past recovery ++ Log.landed s.log).drop s.machine.sealed.replay.cut) s.machine.base = some s.machine.durable ∧
    (Log.exit s.log = none →
      (match s.machine.flight with
        | some flight => flight.batch.get = s.machine.durableBatch.get + 1 ∧
            s.machine.nextBatch.get = s.machine.durableBatch.get + 2 ∧
            ∃ object, runs s.log = Log.landed s.log ++ [object] ∧ object.batch = flight.batch ∧
              Forest.applyFacts flight.batch object.facts s.machine.durable = some flight.forest
        | none => s.machine.nextBatch.get = s.machine.durableBatch.get + 1 ∧ runs s.log = Log.landed s.log) ∧
      Forest.applyFacts s.machine.nextBatch s.machine.pending.facts (settledForest s.machine.durable s.machine.flight) =
        some s.machine.admitted) := by
  obtain ⟨last, held, _, finished⟩ := completes.last s reached
  obtain ⟨flight, checkpoint, machine⟩ := finished.machine
  refine ⟨?_, ?_, ?_, ?_⟩
  · intro i object found
    rw [finished.landed] at found
    exact completes.coordinates _ _ _ held.core i object found
  · rw [finished.landed, machine, List.length_append]
    exact held.core.count
  · rw [finished.landed, machine]
    exact held.core.based
  · intro going
    obtain ⟨held, _⟩ := completes.running s reached going
    refine ⟨?_, held.core.admitted⟩
    have flying := held.core.flight
    cases active : s.machine.flight with
    | none | some flight =>
      rw [active] at flying
      exact flying

end

theorem writer_levels_sending : sendingSession.machine.flight.isSome = true ∧
    foldLog ((openedSystem.past openedRecovery ++ Log.landed sendingSession.log).drop sendingSession.machine.sealed.replay.cut)
      sendingSession.machine.base = some sendingSession.machine.durable :=
  ⟨by decide +kernel, (writer_levels openedSystem openedRecovery opened_completes sendingSession sending_reached).2.2.1⟩

def fencing : List (Instant × WriterEvent) := sending ++ [(0, .walEstablished ⟨.two⟩ (.ok .occupied))]

theorem fencing_runs : (Transition.run Session.step fencing openedSession).isSome = true := by decide +kernel

def fencedSession : Session := (Transition.run Session.step fencing openedSession).get fencing_runs

theorem fenced_reached : ReachableSession openedRecovery fencedSession :=
  Transition.Reachable.run fencing _ _ opened_reached (Option.some_get fencing_runs).symm

theorem fenced_coordinate_spent : ReachableSession openedRecovery fencedSession ∧ fencedSession.machine.flight = none ∧
    fencedSession.machine.nextBatch.get = fencedSession.machine.durableBatch.get + 2 ∧
    fencedSession.machine.admitted ≠ fencedSession.machine.durable ∧ fencedSession.machine.pending.facts = [] :=
  ⟨fenced_reached, by decide +kernel⟩

section

variable [Rkyv] [OrdMap.Differ] (sys : System) (recovery : WriterRecovery) (completes : Completes sys recovery) (s : Session)
  (reached : ReachableSession recovery s)

include completes reached

theorem Completes.runs_numbered : (runs s.log).map (fun object => object.batch.get) =
    List.range' (recovery.durableBatch.get + 1) (runs s.log).length := by
  obtain ⟨last, held, _, finished⟩ := completes.last s reached
  have numbered := held.core.runs_numbered
  rw [completes.starts.length] at numbered
  rw [finished.runs]
  exact numbered

theorem wal_emission_exact :
    (runs s.log).map (fun object => object.batch.get) =
      List.range' (recovery.durableBatch.get + 1) (runs s.log).length ∧
    (∀ newer candidate older, s.log = newer ++ .emitted (.effect (.establishWal candidate)) :: older →
      Log.landed older = runs older) ∧
    (∀ object ∈ runs s.log, object.facts ≠ [] ∧ object.owner = recovery.claim.owner ∧
      object.partition = recovery.sealed.partition) ∧
    (runs s.log).flatMap WalObject.facts ++ s.machine.pending.facts = Log.facts s.log := by
  obtain ⟨last, held, accounts, finished⟩ := completes.last s reached
  obtain ⟨flight, checkpoint, machine⟩ := finished.machine
  have books := accounts.views.books
  refine ⟨completes.runs_numbered sys recovery s reached, ?_, ?_, ?_⟩
  · intro newer candidate older split
    have paced : Log.Every Paced s.log :=
      finished.every Paced (by simp [Paced]) (by simp [Paced]) books.paced
    rw [split] at paced
    exact Log.Every.older _ newer _ older paced (by simp)
  · intro object member
    rw [finished.runs] at member
    have signed := books.runs object member
    exact ⟨signed.nonempty, signed.owner, signed.partition⟩
  · rw [finished.runs, finished.facts, machine]
    exact books.facts_eq

theorem reply_conservation :
    ((commands s.log).map CommandEnvelope.reply).Nodup ∧
    (Log.exit s.log = none →
      ((released s.log ++ (s.machine.flightReplies ++ s.machine.pending.replies)).map Completion.reply).Perm
        ((commands s.log).map CommandEnvelope.reply)) ∧
    ∀ now event later exit, Session.step (now, event) s = some later → Log.exit later.log = some exit →
      (exit = .shutdown → ((released later.log).map Completion.reply).Perm
        ((commands later.log).map CommandEnvelope.reply)) ∧
      (exit ≠ .shutdown → released later.log = released s.log ∧
        ((released later.log ++ (s.machine.flightReplies ++ s.machine.pending.replies)).map Completion.reply).Perm
          ((commands later.log).map CommandEnvelope.reply)) := by
  have balance : ∀ s, Books recovery s →
      ((released s.log ++ (s.machine.flightReplies ++ s.machine.pending.replies)).map Completion.reply).Perm
        ((commands s.log).map CommandEnvelope.reply) := by
    intro s books
    have kept := books.balanced.kept
    rw [ledger_owed] at kept
    rw [← books.tokens.same]
    exact kept.map Completion.reply
  refine ⟨?_, ?_, ?_⟩
  · obtain ⟨last, held, accounts, finished⟩ := completes.last s reached
    rw [finished.commands]
    exact accounts.views.books.tokens.fresh
  · intro going
    obtain ⟨_, _, accounts⟩ := completes.running s reached going
    exact balance s accounts.views.books
  · intro now event later exit stepped ended
    have conforms := (Session.step_eq_some_iff.mp stepped).1
    obtain ⟨held, rest, accounts⟩ := completes.running s reached (s.conforms_running event conforms)
    cases held.steps rest stepped with
    | goes path rests running =>
      rw [running] at ended
      cases ended
    | fails cause halt =>
      have finished := halt.finished
      have same := halt.exit_eq
      rw [ended] at same
      cases same
      rw [finished.released, finished.commands]
      refine ⟨fun closes => ?_, fun _ => ⟨rfl, balance s accounts.views.books⟩⟩
      cases halt with
      | failed event exit flight checkpoint failure other => exact absurd closes other
      | shutdown closed landed idle empty =>
        have total := balance s accounts.views.books
        simpa [flightReplies_landed landed, PendingBarrier.replies, empty] using total
    | closes middle path halt =>
      have same := halt.exit_eq
      rw [ended] at same
      cases same
      obtain ⟨_, here⟩ := Moves.keep (Accounts recovery) Accounts.move now s middle held accounts path
      cases halt with
      | failed event exit flight checkpoint failure other => exact absurd rfl other
      | shutdown closed landed idle empty =>
        have total := balance middle here.views.books
        simpa [flightReplies_landed landed, PendingBarrier.replies, empty] using total

end

theorem wal_emission_exact_working : (runs workingSession.log).map (fun object => object.batch.get) = [2, 3] ∧
    workingSession.machine.pending.facts.length = 1 ∧
    (runs workingSession.log).flatMap WalObject.facts ++ workingSession.machine.pending.facts = Log.facts workingSession.log :=
  ⟨by decide +kernel, by decide +kernel,
    (wal_emission_exact openedSystem openedRecovery opened_completes workingSession working_reached).2.2.2⟩

theorem reply_conservation_working : released workingSession.log = [.create (.ok .created) 0] ∧
    workingSession.machine.flightReplies = [.create (.ok .created) 1] ∧
    workingSession.machine.pending.replies = [.create (.ok .created) 2] ∧
    ((released workingSession.log ++ (workingSession.machine.flightReplies ++ workingSession.machine.pending.replies)).map
      Completion.reply).Perm ((commands workingSession.log).map CommandEnvelope.reply) :=
  ⟨by decide +kernel, by decide +kernel, by decide +kernel,
    (reply_conservation openedSystem openedRecovery opened_completes workingSession working_reached).2.1 (by decide +kernel)⟩

section

variable [Rkyv] [OrdMap.Differ] (sys : System) (recovery : WriterRecovery) (completes : Completes sys recovery) (s : Session)
  (reached : ReachableSession recovery s)

include completes reached

omit completes reached [OrdMap.Differ] in
theorem hardFull_empty {m : WriterMachine} (bounded : Bounded m.pending) (empty : m.pending.commands = []) :
    m.hardFull = .ok false := by
  obtain ⟨full, found, iff⟩ := hardFull_ok bounded
  have bytes : m.pending.bytesEstimated = WAL_RUN_FIXED_ENCODED_BYTES_MAX := by
    rw [PendingBarrier.bytesEstimated, bounded.bytes, show m.pending.facts = [] by simp [PendingBarrier.facts, empty]]
    rfl
  rw [found, iff.mpr ⟨by rw [empty]; exact Nat.zero_lt_succ _, by rw [bytes]; decide⟩]

theorem writer_never_stuck (going : Log.exit s.log = none) (ordered : Log.Every InOrder s.log) :
    (s.machine.flight = none → s.machine.pending.commands ≠ [] →
      s.machine.pending.facts ≠ [] ∧ s.machine.ingressOpen = true ∧ s.machine.hardFull = .ok false ∧
      s.machine.pending.bytesEstimated < s.machine.flushBufferBytes ∧ s.machine.flushArmed = true ∧
      ∃ deadline started, Log.timer s.log = some deadline ∧ s.machine.lastFlushStartedAt = some started ∧
        deadline ≤ saturatingAdd started s.machine.flushIntervalMin) ∧
    (s.machine.ingressOpen = true → s.machine.admissionOpen ≠ .ok true →
      ∃ effect ∈ Log.outstanding s.log, ∃ batch, effect.key = .wal batch) ∧
    (s.machine.ingressOpen = false → ∃ effect ∈ Log.outstanding s.log,
      (∃ batch, effect.key = .wal batch) ∨ ∃ ticket, effect.key = .checkpointPreparation ticket ∨
      effect.key = .sealPublication ticket) := by
  obtain ⟨held, rest, accounts⟩ := completes.running s reached going
  have timely := accounts.timely ordered
  have outstanding : ∀ key ∈ s.machine.slotKeys, ∃ effect ∈ Log.outstanding s.log, effect.key = key := by
    intro key member
    exact List.mem_map.mp (held.slots.keys.mem_iff.mpr member)
  have flying : s.machine.flight ≠ none → ∃ effect ∈ Log.outstanding s.log, ∃ batch, effect.key = .wal batch := by
    intro active
    obtain ⟨flight, found⟩ := Option.ne_none_iff_exists'.mp active
    obtain ⟨effect, member, key⟩ := outstanding (.wal flight.batch) (by simp [slotKeys, found])
    exact ⟨effect, member, flight.batch, key⟩
  refine ⟨?_, ?_, ?_⟩
  · intro down nonempty
    obtain ⟨facts, opened, armed, full, bytes⟩ := (rest.quiet down).resolve_left nonempty
    obtain ⟨deadline, timer⟩ := Option.isSome_iff_exists.mp (held.slots.timer.trans armed)
    obtain ⟨started, last, bound⟩ := timely.timer deadline timer
    exact ⟨facts, opened, full, bytes, armed, deadline, started, timer, last, bound⟩
  · intro opened busy
    apply flying
    intro down
    apply busy
    have full : s.machine.hardFull = .ok false := by
      rcases rest.quiet down with empty | waiting
      · exact hardFull_empty held.core.barrier empty
      · exact waiting.2.2.2.1
    rw [admissionOpen, if_pos opened, full]
    rfl
  · intro closed
    rcases rest.closing closed with active | marked
    · obtain ⟨effect, member, batch, key⟩ := flying active
      exact ⟨effect, member, .inl ⟨batch, key⟩⟩
    · obtain ⟨marker, found⟩ := Option.ne_none_iff_exists'.mp marked
      obtain ⟨effect, member, key⟩ := outstanding marker.key (by simp [slotKeys, found])
      refine ⟨effect, member, .inr ⟨marker.ticket, ?_⟩⟩
      cases marker with
      | preparing ticket | cancelling ticket => exact .inl key
      | publishing ticket checkpoint => exact .inr key

end

def waiting : List (Instant × WriterEvent) :=
  sending ++ [(1, .walEstablished ⟨.two⟩ (.ok .durable)),
    (2, .command secondCreate)]

theorem waiting_runs : (Transition.run Session.step waiting openedSession).isSome = true := by decide +kernel

def waitingSession : Session := (Transition.run Session.step waiting openedSession).get waiting_runs

theorem waiting_reached : ReachableSession openedRecovery waitingSession :=
  Transition.Reachable.run waiting _ _ opened_reached (Option.some_get waiting_runs).symm

theorem writer_never_stuck_waiting : Log.timer waitingSession.log = some 10 ∧
    ∃ deadline started, Log.timer waitingSession.log = some deadline ∧ waitingSession.machine.lastFlushStartedAt = some started ∧
      deadline ≤ saturatingAdd started waitingSession.machine.flushIntervalMin := by
  refine ⟨by decide +kernel, ?_⟩
  have ordered : Log.Every InOrder waitingSession.log := by decide +kernel
  exact ((writer_never_stuck openedSystem openedRecovery opened_completes waitingSession waiting_reached (by decide +kernel)
    ordered).1 (by decide +kernel) (by decide +kernel)).2.2.2.2.2

end StromDB
