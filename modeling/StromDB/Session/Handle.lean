import StromDB.Session.Held

namespace StromDB

open Checked WriterMachine List Option PendingBarrier

variable [Rkyv]

def WriterMachine.Quiet (m : WriterMachine) : Prop :=
  m.flight = none → m.pending.commands = [] ∨ (m.pending.facts ≠ [] ∧ m.ingressOpen = true ∧ m.flushArmed = true ∧
    m.hardFull = .ok false ∧ m.pending.bytesEstimated < m.flushBufferBytes)

structure Rest (s : Session) : Prop where
  started : s.machine.started = !s.log.isEmpty
  quiet : s.machine.Quiet
  closing : s.machine.ingressOpen = false → s.machine.flight ≠ none ∨ s.machine.checkpoint ≠ none
  settled : s.log ≠ [] → s.machine.ingressOpen = true → s.machine.checkpoint = none →
    s.machine.durableBatch.get < s.machine.sealed.replay.cut + WAL_SUFFIX_CHECKPOINT_SPAN_TRIGGER ∨
      (s.machine.lastCheckpointAttemptedCut = some s.machine.durableBatch ∧
        s.machine.retryCheckpointAt ≠ some s.machine.durableBatch)

inductive Acted (now : Instant) (s : Session) (event : WriterEvent) : WriterMachine.Effects → Prop where
  | goes (machine : WriterMachine) (outputs : List WriterOutput) (move : Session.Move now s (s.observe now event machine outputs))
      (few : outputs.length ≤ 2) (attempts : machine.checkpointAttempt = s.machine.checkpointAttempt)
      (busy : ∀ output ∈ outputs, output.isAction = false → machine.checkpoint ≠ none ∨ machine.ingressOpen = true) :
      Acted now s event (machine, outputs, none)
  | halts (machine : WriterMachine) (exit : WriterExit)
      (halt : Session.Halt now s exit ⟨machine, .exited exit :: .observed now event s.machine :: s.log⟩) :
      Acted now s event (machine, [], some exit)

section

variable {now : Instant} {s : Session} {event : WriterEvent} (machine : WriterMachine)

theorem Acted.silent
    (move : Session.Move now s (s.observe now event machine []))
    (attempts : machine.checkpointAttempt = s.machine.checkpointAttempt) : Acted now s event (machine, [], none) :=
  .goes machine [] move (by simp) attempts (by simp)

theorem Acted.action (action : WriterAction)
    (move : Session.Move now s (s.observe now event machine [.action action]))
    (attempts : machine.checkpointAttempt = s.machine.checkpointAttempt) : Acted now s event (machine, [.action action], none) :=
  .goes machine _ move (by simp) attempts (by simp [WriterOutput.isAction])

end

theorem hardFull_ok {m : WriterMachine} (bounded : Bounded m.pending) : ∃ full, m.hardFull = .ok full ∧
    (full = false ↔ m.pending.commands.length < WRITER_PENDING_COMMANDS_MAX ∧
      m.pending.bytesEstimated + WAL_FACT_ENCODED_BYTES_ESTIMATE_MAX ≤ WAL_ENCODED_BYTES_MAX) := by
  have count := bounded.count
  refine ⟨_, by rw [hardFull, require, if_pos count]; rfl, ?_⟩
  simp only [Bool.or_eq_false_iff, decide_eq_false_iff_not, gt_iff_lt, Nat.not_lt]
  omega

def WriterMachine.conclude (machine : WriterMachine) : Admission → Checked (WriterMachine × Option Completion)
  | .fact admitted completion => machine.acceptFact admitted completion
  | .idempotent completion => pure (machine.acceptIdempotent completion)
  | .refused completion => pure (machine, some completion)

theorem admit_decided {m : WriterMachine} {envelope : CommandEnvelope} {admission : Admission}
    (guarded : m.flight.isNone = true → m.pending.isEmpty = true ∨ m.pending.hasFacts = true)
    (decided : decideAdmission m.admitted m.nextBatch envelope = .ok admission) : m.admitCommand envelope = m.conclude admission := by
  simp only [admitCommand, require, if_pos guarded, decided, ok_bind]
  cases admission <;> rfl

section

variable (m : WriterMachine) (admitted : AdmittedCommand) (completion : Completion)

theorem conclude_shed (full : runLeavesTakeoverRoom m.sealed.replay.batch m.nextBatch = false) :
    m.conclude (.fact admitted completion) =
      .ok ({ m with retryCheckpointAt := some m.durableBatch }, some (completion.refusal .overloaded)) := by
  simp only [conclude, acceptFact, full]
  rfl

theorem conclude_accepted (fits : runLeavesTakeoverRoom m.sealed.replay.batch m.nextBatch = true)
    (bound : (m.pending.pushFact admitted.fact completion).bytesEstimated ≤ WAL_ENCODED_BYTES_MAX) :
    m.conclude (.fact admitted completion) =
      .ok ({ m with
        admitted := admitted.forest
        admittedRoot := m.admittedRoot + 1
        pending := m.pending.pushFact admitted.fact completion }, none) := by
  simp only [conclude, acceptFact, fits, require, if_pos bound]
  rfl

variable (bounded : Bounded m.pending)

include bounded

theorem conclude_repeated (landed : m.flight = none) (empty : m.pending.commands = []) :
    m.conclude (.idempotent completion) = .ok (m, some completion) := by
  have bare : m.pending.hasFacts = false := by
    rw [← Bool.not_eq_true, bounded.hasFacts_iff]
    simp [facts, empty]
  simp [conclude, acceptIdempotent, landed, bare]

theorem conclude_deferred (behind : m.flight ≠ none ∨ m.pending.facts ≠ []) :
    m.conclude (.idempotent completion) = .ok ({ m with pending := m.pending.pushIdempotent completion }, none) := by
  have waits : ¬ (m.flight.isNone ∧ !m.pending.hasFacts) := by
    rintro ⟨down, bare⟩
    rcases behind with flying | facts
    · exact flying (isNone_iff_eq_none.mp down)
    · rw [(bounded.hasFacts_iff).mpr facts] at bare
      cases bare
  simp only [conclude, acceptIdempotent, if_neg waits]
  rfl

end

section

variable {recovery : WriterRecovery} {past : List WalObject} {s : Session} (held : Held recovery past s) (rest : Rest s)
  (now : Instant)

include held

theorem admissionOpen_true (polling : s.machine.admissionOpen = .ok true) : s.machine.ingressOpen = true ∧
    s.machine.pending.commands.length < WRITER_PENDING_COMMANDS_MAX ∧
    s.machine.pending.bytesEstimated + WAL_FACT_ENCODED_BYTES_ESTIMATE_MAX ≤ WAL_ENCODED_BYTES_MAX := by
  obtain ⟨full, found, iff⟩ := hardFull_ok held.core.barrier
  unfold admissionOpen at polling
  split at polling
  · rename_i opened
    rw [found] at polling
    cases full with
    | true => cases polling
    | false => exact ⟨opened, iff.mp rfl⟩
  · cases polling

theorem Session.Polled.guarded (envelope : CommandEnvelope) (polled : s.Polled envelope) :
    s.machine.flight.isNone = true → s.machine.pending.isEmpty = true ∨ s.machine.pending.hasFacts = true := by
  intro down
  rcases polled.quiet (isNone_iff_eq_none.mp down) with empty | facts
  · exact .inl (isEmpty_iff.mpr empty)
  · exact .inr ((held.core.barrier.hasFacts_iff).mpr facts)

include rest

theorem command_acted (envelope : CommandEnvelope) (fresh : ∀ earlier ∈ Log.commands s.log, earlier.reply ≠ envelope.reply)
    (polling : s.machine.admissionOpen = .ok true) :
    ∃ effects, s.machine.applyCommand envelope = .ok effects ∧ Acted now s (.command envelope) effects := by
  obtain ⟨opened, room, bytes⟩ := admissionOpen_true held polling
  have quiet : s.machine.flight = none → s.machine.pending.commands = [] ∨ s.machine.pending.facts ≠ [] := by
    intro down
    rcases rest.quiet down with empty | waiting
    · exact .inl empty
    · exact .inr waiting.1
  have polled : s.Polled envelope := ⟨fresh, opened, room, bytes, quiet⟩
  obtain ⟨admission, decided, _⟩ :=
    decideAdmission_answers s.machine.admitted held.core.admitted_consistent s.machine.nextBatch envelope
  have answered : ∀ after completion, s.machine.admitCommand envelope = .ok (after, some completion) →
      s.machine.applyCommand envelope = .ok (after, [.action (.sendReplies [completion])], none) := by
    intro after completion admitted
    simp only [applyCommand, polling, ok_bind, require, if_true, admitted]
    rfl
  have kept : ∀ after, s.machine.admitCommand envelope = .ok (after, none) →
      s.machine.applyCommand envelope = .ok (after, [], none) := by
    intro after admitted
    simp only [applyCommand, polling, ok_bind, require, if_true, admitted]
    rfl
  have concludes := admit_decided (Session.Polled.guarded held envelope polled) decided
  cases admission with
  | refused completion => exact ⟨_, answered _ _ concludes, .action _ _ (.refused envelope completion polled decided) rfl⟩
  | idempotent completion =>
    by_cases behind : s.machine.flight ≠ none ∨ s.machine.pending.facts ≠ []
    · exact ⟨_, kept _ (concludes.trans (conclude_deferred _ completion held.core.barrier behind)),
        .silent _ (.deferred envelope completion polled decided behind) rfl⟩
    · simp only [not_or, ne_eq, not_not] at behind
      obtain ⟨down, bare⟩ := behind
      have empty : s.machine.pending.commands = [] := (quiet down).resolve_right (fun facts => facts bare)
      exact ⟨_, answered _ _ (concludes.trans (conclude_repeated _ completion held.core.barrier down empty)),
        .action _ _ (.repeated envelope completion polled decided down empty) rfl⟩
  | fact admitted completion =>
    cases fits : runLeavesTakeoverRoom s.machine.sealed.replay.batch s.machine.nextBatch with
    | false =>
      exact ⟨_, answered _ _ (concludes.trans (conclude_shed _ admitted completion fits)),
        .action _ _ (.shed envelope admitted completion polled decided fits) rfl⟩
    | true =>
      have bound := (held.core.barrier.pushFact admitted.fact completion room bytes).fits
      exact ⟨_, kept _ (concludes.trans (conclude_accepted _ admitted completion fits bound)),
        .silent _ (.accepted envelope admitted completion polled decided fits) rfl⟩

omit rest

theorem awaited (key : EffectKey) (awaits : s.awaits key = true) : key ∈ s.machine.slotKeys := by
  simp only [Session.awaits, List.any_eq_true, decide_eq_true_eq] at awaits
  exact held.slots.mem key awaits

theorem awaited_wal (batch : BatchId) (awaits : s.awaits (.wal batch) = true) :
    ∃ flight, s.machine.flight = some flight ∧ flight.batch = batch := by
  have key := awaited held _ awaits
  simp only [slotKeys, mem_append, mem_toList, map_eq_some_iff, reduceCtorEq,
    and_false, exists_false, or_false, EffectKey.wal.injEq] at key
  rcases key with found | ⟨marker, _, same⟩
  · exact found
  · cases marker <;> cases same

theorem awaited_seal (ticket : CheckpointTicket) (awaits : s.awaits (.sealPublication ticket) = true) :
    ∃ checkpoint, s.machine.checkpoint = some (.publishing ticket checkpoint) := by
  have key := awaited held _ awaits
  simp only [slotKeys, mem_append, mem_toList, map_eq_some_iff, reduceCtorEq,
    and_false, exists_false, or_false, false_or] at key
  obtain ⟨marker, found, same⟩ := key
  cases marker with
  | preparing _ | cancelling _ => cases same
  | publishing other checkpoint =>
    cases same
    exact ⟨checkpoint, found⟩

theorem awaited_collection (cut : BatchId) (awaits : s.awaits (.collection cut) = true) : s.machine.collector = some cut := by
  have key := awaited held _ awaits
  simp only [slotKeys, mem_append, mem_toList, map_eq_some_iff, reduceCtorEq,
    and_false, exists_false, false_or, EffectKey.collection.injEq] at key
  rcases key with ⟨marker, _, same⟩ | ⟨_, found, rfl⟩
  · cases marker <;> cases same
  · exact found

section

variable (flight : InFlight) (active : s.machine.flight = some flight)

include active

omit held in
theorem activeFlight_ok (absent other : String) : s.machine.activeFlight flight.batch absent other = .ok flight := by
  simp [activeFlight, active, expect, require]

theorem durable_acted :
    ∃ effects, s.machine.completeWal flight.batch (.ok .durable) = .ok effects ∧
      Acted now s (.walEstablished flight.batch (.ok .durable)) effects := by
  refine ⟨_, ?_, .goes _ _ (.landed flight active) (by simp) rfl (by simp [WriterOutput.isAction])⟩
  simp only [completeWal, recordWalDurable, activeFlight_ok flight active, ok_bind]
  cases empty : s.machine.pending.isEmpty with
  | false => rfl
  | true =>
    have bare : s.machine.pending.facts = [] := by
      simp only [PendingBarrier.isEmpty, List.isEmpty_iff] at empty
      simp [facts, empty]
    have same : s.machine.admitted = flight.forest := by
      have settled := held.core.quiescent bare
      rwa [WriterMachine.settled, active, settledForest] at settled
    simp only [require, same, if_true]
    rfl

omit held in
theorem lost_acted (result : Except TypedStoreError WalEstablishment) (lost : result ≠ .ok .durable) :
    ∃ effects, s.machine.completeWal flight.batch result = .ok effects ∧ Acted now s (.walEstablished flight.batch result) effects := by
  have discarded : s.machine.discardWalFlight flight.batch = .ok { s.machine with flight := none } := by
    simp [discardWalFlight, activeFlight_ok flight active]
  have failure : (WriterEvent.walEstablished flight.batch result).fails = true := by simp [WriterEvent.fails, lost]
  have halts : ∀ exit : WriterExit, exit ≠ .shutdown → Acted now s (.walEstablished flight.batch result)
      ({ s.machine with flight := none }, [], some exit) :=
    fun exit other => .halts _ exit (.failed _ exit none s.machine.checkpoint failure other)
  cases result with
  | ok outcome =>
    cases outcome with
    | durable => exact absurd rfl lost
    | occupied | unresolvedAbsent => exact ⟨_, by simp [completeWal, discarded]; rfl, halts _ (by simp)⟩
  | error error =>
    cases error with
    | retryable detail | rejected detail
    | contradiction detail => exact ⟨_, by simp [completeWal, discarded]; rfl, halts _ (by simp)⟩

end

omit held in
theorem closed_acted (opened : s.machine.ingressOpen = true) :
    ∃ effects, s.machine.closeIngress = .ok effects ∧ Acted now s .ingressClosed effects := by
  simp only [closeIngress, opened, require, if_true, ok_bind]
  split
  · rename_i ticket marked
    exact ⟨_, rfl, .action _ _ (.cancelling ticket opened marked) rfl⟩
  · rename_i unmarked
    exact ⟨_, rfl, .silent _ (.closed opened fun ticket marked => unmarked ticket marked) rfl⟩

theorem prepared_acted (ticket : CheckpointTicket) (outcome : PreparationOutcome) (prepares : s.prepares ticket outcome = true) :
    ∃ effects, s.machine.completePreparation ticket outcome = .ok effects ∧
      Acted now s (.checkpointPrepared ticket outcome) effects := by
  simp only [Session.prepares, List.any_eq_true] at prepares
  obtain ⟨effect, member, issued⟩ := prepares
  split at issued
  · rename_i input
    simp only [Bool.and_eq_true, decide_eq_true_eq] at issued
    obtain ⟨rfl, built⟩ := issued
    rcases held.slots.marker input member with marked | marked
    · cases outcome with
      | prepared checkpoint =>
        refine ⟨_, ?_, .goes _ _ (.prepared input checkpoint member built marked) (by simp) rfl (by simp)⟩
        simp [completePreparation, marked, expect, require]
      | abandoned =>
        refine ⟨_, ?_, .silent _ (.abandoned input.ticket marked) rfl⟩
        simp [completePreparation, marked, expect, require]
      | contradiction detail =>
        refine ⟨_, ?_, .halts _ (.contradiction input.ticket.cut detail) (.failed _ _ s.machine.flight none rfl (by simp))⟩
        simp [completePreparation, marked, expect, require]
    · refine ⟨_, ?_, .silent _ (.cancelled input.ticket _ rfl marked) rfl⟩
      simp [completePreparation, marked, expect, require]
  · cases issued

theorem published_acted (ticket : CheckpointTicket) (result : Except TypedStoreError SealPublication)
    (awaits : s.awaits (.sealPublication ticket) = true) :
    ∃ effects, s.machine.completePublication ticket result = .ok effects ∧ Acted now s (.sealPublished ticket result) effects := by
  obtain ⟨checkpoint, marked⟩ := awaited_seal held ticket awaits
  have publishing := held.slots.publishing ticket checkpoint marked
  have reaches : checkpoint.successor.replay.batch = some ticket.cut := by rw [publishing.replay]; rfl
  have halts : result ≠ .ok .authored → ∀ exit : WriterExit, exit ≠ .shutdown → Acted now s (.sealPublished ticket result)
      ({ s.machine with checkpoint := none }, [], some exit) := by
    intro lost exit other
    exact .halts _ exit (.failed _ exit s.machine.flight none (by simp [WriterEvent.fails, lost]) other)
  cases result with
  | ok outcome =>
    cases outcome with
    | authored =>
      by_cases collects : s.machine.ingressOpen = true ∧ s.machine.collector = none
      · refine ⟨_, ?_, .goes _ _ (.collecting ticket checkpoint ticket.cut marked reaches collects.1 collects.2) (by simp) rfl
          (fun _ _ _ => .inr collects.1)⟩
        simp [completePublication, marked, expect, require, completeAuthored,
          CollectionInput.fromAuthored, reaches, installPrepared, publishing.snapshot.source, collects]
      · refine ⟨_, ?_, .action _ _ (.authored ticket checkpoint marked) rfl⟩
        simp [completePublication, marked, expect, require, completeAuthored,
          CollectionInput.fromAuthored, reaches, installPrepared, publishing.snapshot.source, collects]
    | noAuthority | unresolved =>
      exact ⟨_, by simp [completePublication, marked, expect, require]; rfl,
        halts (by simp) _ (by simp)⟩
  | error error =>
    cases error with
    | retryable detail | rejected detail | contradiction detail =>
      exact ⟨_, by simp [completePublication, marked, expect, require]; rfl,
        halts (by simp) _ (by simp)⟩

theorem cancelled_acted (ticket : CheckpointTicket) (awaits : s.awaits (.checkpointPreparation ticket) = true)
    (cancelled : Log.cancelled ticket s.log = true) :
    ∃ effects, s.machine.cancelPreparation ticket = .ok effects ∧ Acted now s (.checkpointPreparationCancelled ticket) effects := by
  have key := awaited held _ awaits
  simp only [slotKeys, mem_append, mem_toList, map_eq_some_iff, reduceCtorEq,
    and_false, exists_false, or_false, false_or] at key
  obtain ⟨marker, found, same⟩ := key
  cases marker with
  | preparing other =>
    have opened := held.slots.opened other found
    rw [held.slots.uncancelled opened ticket] at cancelled
    cases cancelled
  | cancelling other =>
    cases same
    refine ⟨_, ?_, .silent _ (.cancelled ticket _ rfl found) rfl⟩
    simp [cancelPreparation, found, require]
  | publishing other checkpoint => cases same

include rest

theorem event_acted (event : WriterEvent) (conforms : s.conforms event = true) :
    ∃ effects, (if event = .started then { s.machine with started := true } else s.machine).applyEvent event = .ok effects ∧
      Acted now s event effects := by
  simp only [Session.conforms, Bool.and_eq_true, beq_iff_eq] at conforms
  obtain ⟨⟨_, first⟩, conforms⟩ := conforms
  cases event with
  | started =>
    refine ⟨_, rfl, .silent _ (.started ?_) rfl⟩
    simpa using first.symm
  | command envelope =>
    simp only [Bool.and_eq_true, decide_eq_true_eq, List.all_eq_true, ne_eq] at conforms
    exact command_acted held rest now envelope conforms.2 conforms.1
  | flushDue =>
    have armed : s.machine.flushArmed = true := held.slots.timer ▸ conforms
    refine ⟨_, ?_, .silent _ (.due armed) rfl⟩
    simp [applyEvent, require, armed]
  | ingressClosed => exact closed_acted now (admissionOpen_true held (of_decide_eq_true conforms)).1
  | walEstablished batch result =>
    obtain ⟨flight, active, rfl⟩ := awaited_wal held batch conforms
    by_cases durable : result = .ok .durable
    · subst durable
      exact durable_acted held now flight active
    · exact lost_acted now flight active result durable
  | checkpointPrepared ticket outcome => exact prepared_acted held now ticket outcome conforms
  | sealPublished ticket result => exact published_acted held now ticket result conforms
  | collectFinished cut =>
    have busy := awaited_collection held cut conforms
    refine ⟨_, ?_, .silent _ (.collected cut busy) rfl⟩
    simp [applyEvent, require, busy]
  | checkpointPreparationCancelled ticket =>
    simp only [Bool.and_eq_true] at conforms
    exact cancelled_acted held now ticket conforms.1 conforms.2

end

end StromDB
