import StromDB.Session.Moves

namespace StromDB

open Checked Session List Option WriterMachine Log PendingBarrier

variable [Rkyv]

def settledRoot (durableRoot : Nat) : Option InFlight → Nat
  | none => durableRoot
  | some flight => flight.root

namespace WriterMachine

def settled (machine : WriterMachine) : Forest := settledForest machine.durable machine.flight

def slotKeys (machine : WriterMachine) : List EffectKey :=
  (machine.flight.map fun flight => EffectKey.wal flight.batch).toList ++
    ((machine.checkpoint.map CheckpointMarker.key).toList ++ (machine.collector.map EffectKey.collection).toList)

end WriterMachine

def Flying (landed runs : List WalObject) (durable : Forest) (durableBatch nextBatch : BatchId) : Option InFlight → Prop
  | none => nextBatch.get = durableBatch.get + 1 ∧ runs = landed
  | some flight => flight.batch.get = durableBatch.get + 1 ∧ nextBatch.get = durableBatch.get + 2 ∧
      ∃ object : WalObject, runs = landed ++ [object] ∧ object.batch = flight.batch ∧
        Forest.applyFacts flight.batch object.facts durable = some flight.forest

structure Bounded (pending : PendingBarrier) : Prop where
  bytes : pending.factsBytesEstimated = (pending.facts.map OperationFact.estimatedEncodedBytes).sum
  fits : pending.bytesEstimated ≤ WAL_ENCODED_BYTES_MAX
  count : pending.commands.length ≤ WRITER_PENDING_COMMANDS_MAX

structure Core (recovery : WriterRecovery) (past landed runs : List WalObject) (m : WriterMachine) : Prop where
  claim : m.claim = recovery.claim
  partition : m.sealed.partition = recovery.sealed.partition
  cut : m.sealed.replay.cut ≤ m.durableBatch.get
  count : m.durableBatch.get = past.length + landed.length
  numbered : landed.map (fun object => object.batch.get) = List.range' (past.length + 1) landed.length
  durable : foldLog landed recovery.durable = some m.durable
  based : foldLog ((past ++ landed).drop m.sealed.replay.cut) m.base = some m.durable
  consistent : m.durable.Consistent
  flight : Flying landed runs m.durable m.durableBatch m.nextBatch m.flight
  admitted : Forest.applyFacts m.nextBatch m.pending.facts m.settled = some m.admitted
  roots : m.pending.facts = [] → m.admittedRoot = settledRoot m.durableRoot m.flight
  barrier : Bounded m.pending
  reserve : m.pending.facts ≠ [] → m.nextBatch.get + 1 < 2 ^ 64
  attempted : ∀ cut, m.lastCheckpointAttemptedCut = some cut → cut.get ≤ m.durableBatch.get

structure Snapshot (log : List WalObject) (sealed : Seal) (durable : Forest) (durableBatch cut : BatchId) (source : Seal)
    (snapshot : Forest) : Prop where
  source : source = sealed
  within : cut.get ≤ durableBatch.get
  folds : foldLog (log.drop cut.get) snapshot = some durable

structure Publishing (log : List WalObject) (sealed : Seal) (durable : Forest) (durableBatch : BatchId) (ticket : CheckpointTicket)
    (checkpoint : PreparedCheckpoint) : Prop where
  partition : checkpoint.successor.partition = sealed.partition
  replay : checkpoint.successor.replay = .through ticket.cut ⟨ticket.attempt.ownerClaim⟩
  advances : sealed.replay.cut < ticket.cut.get
  snapshot : Snapshot log sealed durable durableBatch ticket.cut checkpoint.source checkpoint.snapshot

structure Slots (log : List WalObject) (outstanding : List WriterEffect) (timer : Option Instant)
    (cancelled : CheckpointTicket → Bool) (m : WriterMachine) : Prop where
  keys : (outstanding.map WriterEffect.key).Perm m.slotKeys
  timer : timer.isSome = m.flushArmed
  opened : ∀ ticket, m.checkpoint = some (.preparing ticket) → m.ingressOpen = true
  closing : ∀ ticket, m.checkpoint = some (.cancelling ticket) → m.ingressOpen = false
  uncancelled : m.ingressOpen = true → ∀ ticket, cancelled ticket = false
  prepare : ∀ input, .prepareCheckpoint input ∈ outstanding →
    Snapshot log m.sealed m.durable m.durableBatch input.ticket.cut input.source input.snapshot
  publishing : ∀ ticket checkpoint, m.checkpoint = some (.publishing ticket checkpoint) →
    Publishing log m.sealed m.durable m.durableBatch ticket checkpoint

structure Held (recovery : WriterRecovery) (past : List WalObject) (s : Session) : Prop where
  core : Core recovery past (Log.landed s.log) (Log.runs s.log) s.machine
  slots : Slots (past ++ Log.landed s.log) (Log.outstanding s.log) (Log.timer s.log) (fun ticket => Log.cancelled ticket s.log)
    s.machine

structure Unheard (log later : List Entry) : Prop where
  landed : Log.landed later = Log.landed log
  runs : Log.runs later = Log.runs log
  outstanding : Log.outstanding later = Log.outstanding log
  timer : Log.timer later = Log.timer log
  cancelled : ∀ ticket, Log.cancelled ticket later = Log.cancelled ticket log

theorem Unheard.observed (now : Instant) (event : WriterEvent) (machine : WriterMachine) (log : List Entry)
    (idle : event.completes = none) (early : event ≠ .flushDue) : Unheard log (.observed now event machine :: log) := by
  cases event <;> first | exact absurd rfl early | cases idle
  all_goals constructor <;> simp [WriterEvent.completes]

theorem Unheard.replied (replies : List Completion) (log later : List Entry) (known : Unheard log later) :
    Unheard log (.emitted (.action (.sendReplies replies)) :: later) where
  landed := by simpa using known.landed
  runs := by simpa using known.runs
  outstanding := by simpa using known.outstanding
  timer := by simpa using known.timer
  cancelled := by simpa using known.cancelled

section

variable {recovery : WriterRecovery} {past landed runs : List WalObject} {m : WriterMachine}

theorem Bounded.hasFacts_iff {pending : PendingBarrier} (bounded : Bounded pending) : pending.hasFacts = true ↔ pending.facts ≠ [] := by
  rw [hasFacts, decide_eq_true_eq, bounded.bytes]
  cases pending.facts with
  | nil => simp
  | cons fact rest =>
    have positive := fact.estimatedEncodedBytes_pos
    simp only [map_cons, sum_cons, ne_eq, reduceCtorEq, not_false_eq_true, iff_true]
    omega

theorem Bounded.new : Bounded PendingBarrier.new :=
  ⟨rfl, by simp [bytesEstimated, PendingBarrier.new, WAL_RUN_FIXED_ENCODED_BYTES_MAX, WAL_ENCODED_BYTES_MAX], Nat.zero_le _⟩

theorem Bounded.pushFact {pending : PendingBarrier} (bounded : Bounded pending) (fact : OperationFact) (completion : Completion)
    (room : pending.commands.length < WRITER_PENDING_COMMANDS_MAX)
    (bytes : pending.bytesEstimated + WAL_FACT_ENCODED_BYTES_ESTIMATE_MAX ≤ WAL_ENCODED_BYTES_MAX) :
    Bounded (pending.pushFact fact completion) where
  bytes := by
    rw [PendingBarrier.facts_pushFact]
    simp [PendingBarrier.pushFact, bounded.bytes]
  fits := by
    have estimate := fact.estimatedEncodedBytes_le
    simp only [PendingBarrier.bytesEstimated, PendingBarrier.pushFact, WAL_FACT_ENCODED_BYTES_ESTIMATE_MAX] at bytes ⊢
    omega
  count := by
    simp only [PendingBarrier.pushFact, List.length_append, List.length_singleton]
    omega

theorem Bounded.pushIdempotent {pending : PendingBarrier} (bounded : Bounded pending) (completion : Completion)
    (room : pending.commands.length < WRITER_PENDING_COMMANDS_MAX) : Bounded (pending.pushIdempotent completion) where
  bytes := by
    rw [facts_pushIdempotent]
    exact bounded.bytes
  fits := bounded.fits
  count := by
    simp only [PendingBarrier.pushIdempotent, List.length_append, List.length_singleton]
    omega

variable (core : Core recovery past landed runs m)

include core

theorem Core.settled_consistent : m.settled.Consistent := by
  have flight := core.flight
  unfold settled
  cases active : m.flight with
  | none => exact core.consistent
  | some flying =>
    rw [active] at flight
    obtain ⟨_, _, object, _, _, applied⟩ := flight
    exact core.consistent.applyFacts flying.batch object.facts m.durable flying.forest applied

theorem Core.admitted_consistent : m.admitted.Consistent :=
  core.settled_consistent.applyFacts m.nextBatch m.pending.facts m.settled m.admitted core.admitted

theorem Core.quiescent (bare : m.pending.facts = []) : m.admitted = m.settled := by
  have folds := core.admitted
  rw [bare] at folds
  exact (some.inj folds).symm

theorem Core.next_above : m.sealed.replay.cut < m.nextBatch.get := by
  have cut := core.cut
  have flight := core.flight
  cases active : m.flight with
  | none =>
    rw [active] at flight
    have next := flight.1
    omega
  | some flying =>
    rw [active] at flight
    have next := flight.2.1
    omega

end

section

variable {recovery : WriterRecovery} {past : List WalObject} {now : Instant} {s : Session}

theorem Held.unheard {later : List Entry} (same : Unheard s.log later) (machine : WriterMachine)
    (core : Core recovery past (Log.landed s.log) (Log.runs s.log) machine)
    (slots : Slots (past ++ Log.landed s.log) (Log.outstanding s.log) (Log.timer s.log) (fun ticket => Log.cancelled ticket s.log)
      machine) : Held recovery past ⟨machine, later⟩ where
  core := by
    simp only [same.landed, same.runs]
    exact core
  slots := by
    simp only [same.landed, same.outstanding, same.timer, same.cancelled]
    exact slots

section

variable (held : Held recovery past s) (envelope : CommandEnvelope) (completion : Completion) (polled : s.Polled envelope)

include held polled

omit polled in
theorem Held.answers (admission : Admission)
    (decided : decideAdmission s.machine.admitted s.machine.nextBatch envelope = .ok admission) :
    Answers s.machine.admitted s.machine.nextBatch envelope admission := by
  obtain ⟨other, found, answers⟩ := decideAdmission_answers s.machine.admitted held.core.admitted_consistent s.machine.nextBatch
    envelope
  rw [decided] at found
  cases found
  exact answers

theorem Held.accepted (admitted : AdmittedCommand)
    (decided : decideAdmission s.machine.admitted s.machine.nextBatch envelope = .ok (.fact admitted completion))
    (fits : runLeavesTakeoverRoom s.machine.sealed.replay.batch s.machine.nextBatch = true) :
    Core recovery past (Log.landed s.log) (Log.runs s.log)
      { s.machine with
        admitted := admitted.forest
        admittedRoot := s.machine.admittedRoot + 1
        pending := s.machine.pending.pushFact admitted.fact completion } := by
  obtain ⟨_, _, applied, _⟩ := held.answers envelope _ decided
  have room := (runLeavesTakeoverRoom_iff _ _).mp fits
  refine { held.core with admitted := ?_, roots := ?_, barrier := ?_, reserve := fun _ => room.1 }
  · simp only [facts_pushFact, Forest.applyFacts_append]
    refine bind_eq_some_iff.mpr ⟨s.machine.admitted, held.core.admitted, ?_⟩
    simp [Forest.applyFacts, applied]
  · intro bare
    simp [facts_pushFact] at bare
  · exact held.core.barrier.pushFact admitted.fact completion polled.room polled.bytes

end

theorem foldLog_drop_append {log : List WalObject} {object : WalObject} {cut : Nat} {base durable forest : Forest}
    (within : cut ≤ log.length) (folded : foldLog (log.drop cut) base = some durable)
    (applied : Forest.applyFacts object.batch object.facts durable = some forest) :
    foldLog ((log ++ [object]).drop cut) base = some forest := by
  rw [drop_append_of_le_length within, foldLog_append, folded]
  simp [foldLog, applied]

theorem Snapshot.extend {log : List WalObject} {sealed : Seal} {durable forest : Forest} {durableBatch cut : BatchId} {source : Seal}
    {snapshot : Forest} {object : WalObject} (known : Snapshot log sealed durable durableBatch cut source snapshot)
    (length : durableBatch.get = log.length) (later : durableBatch.get ≤ object.batch.get)
    (applied : Forest.applyFacts object.batch object.facts durable = some forest) :
    Snapshot (log ++ [object]) sealed forest object.batch cut source snapshot where
  source := known.source
  within := Nat.le_trans known.within later
  folds := foldLog_drop_append (length ▸ known.within) known.folds applied

section

variable {landed runs : List WalObject} {m : WriterMachine} (core : Core recovery past landed runs m) (flight : InFlight)
  (active : m.flight = some flight)

include core active

theorem Core.lands : ∃ object : WalObject, runs = landed ++ [object] ∧ object.batch = flight.batch ∧
    runs.filter (fun issued => decide (issued.batch = flight.batch)) = [object] ∧
    Forest.applyFacts object.batch object.facts m.durable = some flight.forest := by
  have flying := core.flight
  rw [active] at flying
  obtain ⟨batch, _, object, issued, same, applied⟩ := flying
  refine ⟨object, issued, same, ?_, same ▸ applied⟩
  have earlier : landed.filter (fun issued => decide (issued.batch = flight.batch)) = [] := by
    rw [filter_eq_nil_iff]
    intro other member here
    have number : other.batch.get ∈ landed.map fun object => object.batch.get := mem_map_of_mem member
    rw [core.numbered, mem_range'_1] at number
    have count := core.count
    have sameBatch : other.batch = flight.batch := by simpa using here
    rw [sameBatch] at number
    omega
  rw [issued, filter_append, earlier]
  simp [same]

theorem Core.landing : ∃ object : WalObject, runs = landed ++ [object] ∧ object.batch = flight.batch ∧
    runs.filter (fun issued => decide (issued.batch = flight.batch)) = [object] ∧
    Forest.applyFacts object.batch object.facts m.durable = some flight.forest ∧
    Core recovery past (landed ++ [object]) runs
      { m with
        flight := none
        durable := flight.forest
        durableRoot := flight.root
        durableBatch := flight.batch
        admittedRoot := if m.pending.isEmpty then flight.root else m.admittedRoot } := by
  obtain ⟨object, issued, same, found, applied⟩ := core.lands flight active
  refine ⟨object, issued, same, found, applied, ?_⟩
  have flying := core.flight
  rw [active] at flying
  obtain ⟨batch, next, _⟩ := flying
  have count := core.count
  have settled : m.settled = flight.forest := by simp [settled, active, settledForest]
  refine { core with
    cut := ?_, count := ?_, numbered := ?_, durable := ?_, based := ?_
    consistent := ?_, flight := ?_, admitted := ?_, roots := ?_, attempted := ?_ }
  · have cut := core.cut
    simp only
    omega
  · simp only [length_append, length_singleton]
    omega
  · rw [map_append, core.numbered, length_append, length_singleton, range'_concat]
    simp only [map_cons, map_nil, same, batch, count]
    congr 2
    omega
  · simp [foldLog_append, core.durable, foldLog, applied]
  · rw [← append_assoc]
    have within : m.sealed.replay.cut ≤ (past ++ landed).length := by
      rw [length_append, ← count]
      exact core.cut
    exact foldLog_drop_append within core.based applied
  · exact core.consistent.applyFacts object.batch object.facts m.durable flight.forest applied
  · refine ⟨?_, issued⟩
    simp only
    omega
  · have folds := core.admitted
    rw [settled] at folds
    exact folds
  · intro bare
    have root := core.roots bare
    simp only [active, settledRoot] at root
    simp [settledRoot, root]
  · intro cut here
    have bound := core.attempted cut here
    simp only
    omega

end

section

variable {landed runs : List WalObject} {m : WriterMachine} (core : Core recovery past landed runs m)

include core

theorem Core.flushed
    (down : m.flight = none) (facts : WalFacts) (same : facts.facts = m.pending.facts) (object : WalObject)
    (carries : object = ⟨m.sealed.partition, m.nextBatch, m.claim.owner, .run facts⟩) (next : BatchId)
    (follows : next.get = m.nextBatch.get + 1) :
    Core recovery past landed (runs ++ [object])
      { m with
        pending := PendingBarrier.new
        nextBatch := next
        flight := some ⟨m.nextBatch, m.admitted, m.admittedRoot, m.pending.replies⟩
        lastFlushStartedAt := some now } := by
  have flying := core.flight
  rw [down] at flying
  obtain ⟨number, issued⟩ := flying
  have folds := core.admitted
  simp only [settled, down, settledForest] at folds
  refine { core with flight := ?_, admitted := rfl, roots := fun _ => rfl, barrier := Bounded.new, reserve := ?_ }
  · refine ⟨number, ?_, object, ?_, ?_, ?_⟩
    · simp only
      omega
    · rw [issued]
    · rw [carries]
    · have carried : object.facts = m.pending.facts := by
        rw [carries]
        exact same
      rw [carried]
      exact folds
  · intro some
    exact absurd rfl some

theorem Core.released
    (down : m.flight = none) (bare : m.pending.facts = []) :
    Core recovery past landed runs { m with pending := PendingBarrier.new, admittedRoot := m.durableRoot } := by
  refine { core with admitted := ?_, roots := ?_, barrier := Bounded.new, reserve := fun some => absurd rfl some }
  · have folds := core.admitted
    rw [bare] at folds
    exact folds
  · intro _
    simp only [down, settledRoot]

theorem Core.advanced
    (ticket : CheckpointTicket) (checkpoint : PreparedCheckpoint) (collector : Option BatchId)
    (publishing : Publishing (past ++ landed) m.sealed m.durable m.durableBatch ticket checkpoint) :
    Core recovery past landed runs
      { m with checkpoint := none, sealed := checkpoint.successor, base := checkpoint.snapshot, collector } := by
  have replay : checkpoint.successor.replay.cut = ticket.cut.get := by
    rw [publishing.replay]
    rfl
  refine { core with partition := publishing.partition.trans core.partition, cut := ?_, based := ?_ }
  · simp only [replay]
    exact publishing.snapshot.within
  · simp only [replay]
    exact publishing.snapshot.folds

end

theorem filter_flight_ne {done : EffectKey} (flight : Option InFlight) (other : ∀ batch, done ≠ .wal batch) :
    (flight.map fun flight => EffectKey.wal flight.batch).toList.filter (fun key => !decide (done = key)) =
      (flight.map fun flight => EffectKey.wal flight.batch).toList := by
  cases flight with
  | none => rfl
  | some flight => simp [other flight.batch]

theorem filter_checkpoint_ne {done : EffectKey} {checkpoint : Option CheckpointMarker}
    (other : ∀ marker, checkpoint = some marker → done ≠ marker.key) :
    (checkpoint.map CheckpointMarker.key).toList.filter (fun key => !decide (done = key)) =
      (checkpoint.map CheckpointMarker.key).toList := by
  cases checkpoint with
  | none => rfl
  | some marker => simp [other marker rfl]

omit [Rkyv] in
theorem filter_collector_ne {done : EffectKey} (collector : Option BatchId) (other : ∀ cut, done ≠ .collection cut) :
    (collector.map EffectKey.collection).toList.filter (fun key => !decide (done = key)) =
      (collector.map EffectKey.collection).toList := by
  cases collector with
  | none => rfl
  | some cut => simp [other cut]

section

variable (m : WriterMachine)

theorem slotKeys_landed (flight : InFlight) (active : m.flight = some flight) :
    m.slotKeys.filter (fun key => !decide (EffectKey.wal flight.batch = key)) = { m with flight := none }.slotKeys := by
  rw [slotKeys, filter_append, filter_append, filter_collector_ne _ (by simp),
    filter_checkpoint_ne (by rintro (_ | _ | _) <;> simp [CheckpointMarker.key]), active]
  simp [slotKeys]

theorem slotKeys_settled (marker : CheckpointMarker) (marked : m.checkpoint = some marker) :
    m.slotKeys.filter (fun key => !decide (marker.key = key)) = { m with checkpoint := none }.slotKeys := by
  rw [slotKeys, filter_append, filter_append,
    filter_collector_ne _ (by cases marker <;> simp [CheckpointMarker.key]),
    filter_flight_ne _ (by cases marker <;> simp [CheckpointMarker.key]), marked]
  simp [slotKeys]

theorem slotKeys_collected (cut : BatchId) (busy : m.collector = some cut) :
    m.slotKeys.filter (fun key => !decide (EffectKey.collection cut = key)) = { m with collector := none }.slotKeys := by
  rw [slotKeys, filter_append, filter_append, filter_flight_ne _ (by simp),
    filter_checkpoint_ne (by rintro (_ | _ | _) <;> simp [CheckpointMarker.key]), busy]
  simp [slotKeys]

theorem slotKeys_flight (flight : InFlight) (down : m.flight = none) :
    (m.slotKeys ++ [EffectKey.wal flight.batch]).Perm { m with flight := some flight }.slotKeys := by
  simp only [slotKeys, down, map_none, toList_none, nil_append, map_some,
    toList_some, cons_append]
  exact perm_append_singleton _ _

theorem slotKeys_marker (marker : CheckpointMarker) (idle : m.checkpoint = none) :
    (m.slotKeys ++ [marker.key]).Perm { m with checkpoint := some marker }.slotKeys := by
  simp only [slotKeys, idle, map_none, toList_none, nil_append, map_some,
    toList_some, cons_append, append_assoc]
  exact List.Perm.append_left _ (perm_append_singleton _ _)

theorem slotKeys_collector (cut : BatchId) (idle : m.collector = none) :
    (m.slotKeys ++ [EffectKey.collection cut]).Perm { m with collector := some cut }.slotKeys := by
  simp only [slotKeys, idle, map_none, toList_none, append_nil, map_some,
    toList_some, append_assoc]
  exact List.Perm.refl _

end

section

variable {log : List WalObject} {outstanding : List WriterEffect} {timer : Option Instant} {cancelled : CheckpointTicket → Bool}
  {m : WriterMachine}

theorem keys_done {slots : List EffectKey} (perm : (outstanding.map WriterEffect.key).Perm slots) (done : EffectKey) :
    ((outstanding.filter fun effect => !decide (some done = some effect.key)).map WriterEffect.key).Perm
      (slots.filter fun key => !decide (done = key)) := by
  have swapped : (outstanding.filter fun effect => !decide (some done = some effect.key)).map WriterEffect.key =
      (outstanding.map WriterEffect.key).filter fun key => !decide (done = key) := by
    rw [List.filter_map]
    simp [Function.comp_def]
  rw [swapped]
  exact perm.filter _

theorem Slots.idle (idle : m.checkpoint = none) (keys : (outstanding.map WriterEffect.key).Perm m.slotKeys)
    (timed : timer.isSome = m.flushArmed) (uncancelled : m.ingressOpen = true → ∀ ticket, cancelled ticket = false)
    (prepare : ∀ input, .prepareCheckpoint input ∈ outstanding →
      Snapshot log m.sealed m.durable m.durableBatch input.ticket.cut input.source input.snapshot) :
    Slots log outstanding timer cancelled m where
  keys := keys
  timer := timed
  opened := by simp [idle]
  closing := by simp [idle]
  uncancelled := uncancelled
  prepare := prepare
  publishing := by simp [idle]

theorem Slots.mem (slots : Slots log outstanding timer cancelled m) (key : EffectKey)
    (awaited : ∃ effect ∈ outstanding, effect.key = key) : key ∈ m.slotKeys := by
  obtain ⟨effect, member, rfl⟩ := awaited
  exact slots.keys.mem_iff.mp (mem_map_of_mem member)

theorem Slots.marker (slots : Slots log outstanding timer cancelled m) (input : CheckpointInput)
    (member : .prepareCheckpoint input ∈ outstanding) :
    m.checkpoint = some (.preparing input.ticket) ∨ m.checkpoint = some (.cancelling input.ticket) := by
  have key := slots.mem (.checkpointPreparation input.ticket) ⟨_, member, rfl⟩
  simp only [slotKeys, mem_append, mem_toList, map_eq_some_iff,
    reduceCtorEq, and_false, exists_false, or_false, false_or] at key
  obtain ⟨marker, found, same⟩ := key
  cases marker with
  | preparing ticket =>
    cases same
    exact .inl found
  | cancelling ticket =>
    cases same
    exact .inr found
  | publishing ticket checkpoint => cases same

end

theorem builtFrom_prepared {input : CheckpointInput} {checkpoint : PreparedCheckpoint}
    (built : PreparationOutcome.builtFrom input (.prepared checkpoint) = true) :
    checkpoint.source = input.source ∧ checkpoint.snapshot = input.snapshot ∧
      checkpoint.successor.partition = input.source.partition ∧
      checkpoint.successor.replay = .through input.ticket.cut ⟨input.ticket.attempt.ownerClaim⟩ ∧
      input.source.replay.cut < input.ticket.cut.get := by
  simp only [PreparationOutcome.builtFrom, decide_eq_true_eq] at built
  obtain ⟨_, _, built⟩ := bind_ok built
  obtain ⟨_, partition, built⟩ := bind_ok built
  obtain ⟨_, _, built⟩ := bind_ok built
  obtain ⟨_, replay, built⟩ := bind_ok built
  obtain ⟨_, advances, built⟩ := bind_ok built
  obtain ⟨_, _, done⟩ := bind_ok built
  rw [require_ok_iff] at partition replay advances
  rw [pure_eq_ok, Except.ok.injEq] at done
  rw [← done]
  refine ⟨rfl, rfl, partition.symm, replay.symm, ?_⟩
  cases cut : input.source.replay with
  | genesis => exact input.ticket.cut.positive
  | through batch owner =>
    rw [cut] at advances
    exact of_decide_eq_true advances

theorem Held.of (later : Session) (landed runs : List WalObject) (outstanding : List WriterEffect) (timer : Option Instant)
    (cancelled : CheckpointTicket → Bool) (reads : Log.landed later.log = landed ∧ Log.runs later.log = runs ∧
      Log.outstanding later.log = outstanding ∧ Log.timer later.log = timer ∧ ∀ ticket,
      Log.cancelled ticket later.log = cancelled ticket)
    (core : Core recovery past landed runs later.machine)
    (slots : Slots (past ++ landed) outstanding timer cancelled later.machine) : Held recovery past later := by
  obtain ⟨rfl, rfl, rfl, rfl, cancels⟩ := reads
  obtain rfl : (fun ticket => Log.cancelled ticket later.log) = cancelled := funext cancels
  exact ⟨core, slots⟩

def without (done : EffectKey) (outstanding : List WriterEffect) : List WriterEffect :=
  outstanding.filter fun effect => !decide (some done = some effect.key)

theorem mem_without {done : EffectKey} {outstanding : List WriterEffect} {effect : WriterEffect}
    (member : effect ∈ without done outstanding) : effect ∈ outstanding := mem_of_mem_filter member

section

variable (held : Held recovery past s)

include held

theorem Held.landed (flight : InFlight) (active : s.machine.flight = some flight) : Held recovery past
    (s.observe now (.walEstablished flight.batch (.ok .durable))
      { s.machine with
        flight := none
        durable := flight.forest
        durableRoot := flight.root
        durableBatch := flight.batch
        admittedRoot := if s.machine.pending.isEmpty then flight.root else s.machine.admittedRoot }
      [.action (.publishView flight.forest), .action (.sendReplies flight.replies)]) := by
  obtain ⟨object, _, same, found, applied, core⟩ := held.core.landing flight active
  have flying := held.core.flight
  rw [active] at flying
  have later : s.machine.durableBatch.get ≤ object.batch.get := by
    rw [same, flying.1]
    omega
  have length : s.machine.durableBatch.get = (past ++ Log.landed s.log).length := by
    rw [length_append, held.core.count]
  refine Held.of _ (Log.landed s.log ++ [object]) (Log.runs s.log) (without (.wal flight.batch) (Log.outstanding s.log))
    (Log.timer s.log) (fun ticket => Log.cancelled ticket s.log) (by simp [observe, found, without, WriterEvent.completes]) core ?_
  rw [← append_assoc]
  refine { held.slots with keys := ?_, prepare := ?_, publishing := ?_ }
  · exact (keys_done held.slots.keys _).trans (List.Perm.of_eq (slotKeys_landed s.machine flight active))
  · intro input member
    have known := held.slots.prepare input (mem_without member)
    exact same ▸ known.extend length later applied
  · intro ticket checkpoint marked
    have known := held.slots.publishing ticket checkpoint marked
    exact ⟨known.partition, known.replay, known.advances, same ▸ known.snapshot.extend length later applied⟩

theorem Held.prepared (input : CheckpointInput) (checkpoint : PreparedCheckpoint)
    (issued : .prepareCheckpoint input ∈ Log.outstanding s.log)
    (built : PreparationOutcome.builtFrom input (.prepared checkpoint) = true)
    (marked : s.machine.checkpoint = some (.preparing input.ticket)) : Held recovery past
      (s.observe now (.checkpointPrepared input.ticket (.prepared checkpoint))
        { s.machine with checkpoint := some (.publishing input.ticket checkpoint) }
        [.effect (.publishAuthority input.ticket checkpoint.candidate)]) := by
  obtain ⟨source, snapshot, partition, replay, advances⟩ := builtFrom_prepared built
  have known := held.slots.prepare input issued
  refine Held.of _ (Log.landed s.log) (Log.runs s.log)
    (without (.checkpointPreparation input.ticket) (Log.outstanding s.log) ++
      [.publishAuthority input.ticket checkpoint.candidate]) (Log.timer s.log) (fun ticket => Log.cancelled ticket s.log)
    (by simp [observe, without, WriterEvent.completes]) { held.core with } ?_
  refine { held.slots with keys := ?_, opened := ?_, closing := ?_, prepare := ?_, publishing := ?_ }
  · rw [List.map_append]
    refine ((keys_done held.slots.keys _).append_right _).trans ?_
    have settled := slotKeys_settled s.machine (.preparing input.ticket) marked
    rw [CheckpointMarker.key] at settled
    rw [settled]
    exact slotKeys_marker { s.machine with checkpoint := none } (.publishing input.ticket checkpoint) rfl
  · nofun
  · nofun
  · intro other member
    rcases List.mem_append.mp member with member | member
    · exact held.slots.prepare other (mem_without member)
    · simp at member
  · intro ticket other here
    cases here
    have above : s.machine.sealed.replay.cut < input.ticket.cut.get := known.source ▸ advances
    refine ⟨partition.trans (congrArg Seal.partition known.source), replay, above, source.trans known.source, known.within, ?_⟩
    rw [snapshot]
    exact known.folds

theorem Held.dropped (event : WriterEvent) (ticket : CheckpointTicket) (marker : CheckpointMarker)
    (finished : event.completes = some (.checkpointPreparation ticket)) (marked : s.machine.checkpoint = some marker)
    (named : marker.key = .checkpointPreparation ticket) :
    Held recovery past (s.observe now event { s.machine with checkpoint := none } []) := by
  have quiet : Log.landed (.observed now event s.machine :: s.log) = Log.landed s.log ∧
      Log.timer (.observed now event s.machine :: s.log) = Log.timer s.log ∧
      Log.outstanding (.observed now event s.machine :: s.log) = without marker.key (Log.outstanding s.log) := by
    rw [named]
    cases event <;> cases finished <;> simp [without, WriterEvent.completes]
  refine Held.of _ (Log.landed s.log) (Log.runs s.log) (without marker.key (Log.outstanding s.log)) (Log.timer s.log)
    (fun ticket => Log.cancelled ticket s.log) ⟨quiet.1, by simp [observe], quiet.2.2, quiet.2.1, by simp [observe]⟩
    { held.core with } ?_
  refine Slots.idle rfl ?_ held.slots.timer held.slots.uncancelled ?_
  · exact (keys_done held.slots.keys _).trans (List.Perm.of_eq (slotKeys_settled s.machine marker marked))
  · intro other member
    exact held.slots.prepare other (mem_without member)

section

variable (ticket : CheckpointTicket) (checkpoint : PreparedCheckpoint)

theorem Held.unprepared
    (marked : s.machine.checkpoint = some (.publishing ticket checkpoint)) (input : CheckpointInput) :
    .prepareCheckpoint input ∉ Log.outstanding s.log := by
  intro member
  have marker := held.slots.marker input member
  rw [marked] at marker
  rcases marker with here | here <;> cases here

theorem Held.advanced
    (marked : s.machine.checkpoint = some (.publishing ticket checkpoint)) : Held recovery past
      (s.observe now (.sealPublished ticket (.ok .authored))
        { s.machine with checkpoint := none, sealed := checkpoint.successor, base := checkpoint.snapshot }
        [.action (.publishView s.machine.durable)]) := by
  refine Held.of _ (Log.landed s.log) (Log.runs s.log) (without (.sealPublication ticket) (Log.outstanding s.log))
    (Log.timer s.log) (fun ticket => Log.cancelled ticket s.log) (by simp [observe, without, WriterEvent.completes])
    (held.core.advanced ticket checkpoint s.machine.collector (held.slots.publishing ticket checkpoint marked)) ?_
  refine Slots.idle rfl ?_ held.slots.timer held.slots.uncancelled ?_
  · exact (keys_done held.slots.keys _).trans (List.Perm.of_eq (slotKeys_settled s.machine (.publishing ticket checkpoint) marked))
  · intro input member
    exact absurd (mem_without member) (held.unprepared ticket checkpoint marked input)

theorem Held.collecting (cut : BatchId)
    (marked : s.machine.checkpoint = some (.publishing ticket checkpoint)) (idle : s.machine.collector = none) : Held recovery past
      (s.observe now (.sealPublished ticket (.ok .authored))
        { s.machine with
          checkpoint := none
          sealed := checkpoint.successor
          base := checkpoint.snapshot
          collector := some cut }
        [.action (.publishView s.machine.durable), .effect (.collect ⟨cut, checkpoint.source, checkpoint.successor⟩)]) := by
  refine Held.of _ (Log.landed s.log) (Log.runs s.log)
    (without (.sealPublication ticket) (outstanding s.log) ++ [.collect ⟨cut, checkpoint.source, checkpoint.successor⟩])
    (Log.timer s.log) (fun ticket => Log.cancelled ticket s.log) (by simp [observe, without, WriterEvent.completes])
    (held.core.advanced ticket checkpoint (some cut) (held.slots.publishing ticket checkpoint marked)) ?_
  refine Slots.idle rfl ?_ held.slots.timer held.slots.uncancelled ?_
  · rw [map_append]
    refine ((keys_done held.slots.keys _).append_right _).trans ?_
    have settled := slotKeys_settled s.machine (.publishing ticket checkpoint) marked
    rw [CheckpointMarker.key] at settled
    rw [settled]
    exact slotKeys_collector { s.machine with checkpoint := none } cut idle
  · intro input member
    rcases mem_append.mp member with member | member
    · exact absurd (mem_without member) (held.unprepared ticket checkpoint marked input)
    · simp at member

end

theorem Held.collected (cut : BatchId) (busy : s.machine.collector = some cut) :
    Held recovery past (s.observe now (.collectFinished cut) { s.machine with collector := none } []) := by
  refine Held.of _ (Log.landed s.log) (Log.runs s.log) (without (.collection cut) (Log.outstanding s.log)) (Log.timer s.log)
    (fun ticket => Log.cancelled ticket s.log) (by simp [observe, without, WriterEvent.completes])
    { held.core with } ?_
  refine { held.slots with keys := ?_, prepare := ?_ }
  · exact (keys_done held.slots.keys _).trans (List.Perm.of_eq (slotKeys_collected s.machine cut busy))
  · intro input member
    exact held.slots.prepare input (mem_without member)

theorem Held.flushed (facts : WalFacts) (candidate : EncodedWal) (next : BatchId) (down : s.machine.flight = none)
    (same : facts.facts = s.machine.pending.facts)
    (carries : candidate.object = ⟨s.machine.sealed.partition, s.machine.nextBatch, s.machine.claim.owner, .run facts⟩)
    (follows : next.get = s.machine.nextBatch.get + 1) : Held recovery past
      (s.emit
        { s.machine with
          pending := PendingBarrier.new
          nextBatch := next
          flight := some ⟨s.machine.nextBatch, s.machine.admitted, s.machine.admittedRoot, s.machine.pending.replies⟩
          lastFlushStartedAt := some now }
        (.effect (.establishWal candidate))) := by
  refine Held.of _ (Log.landed s.log) (Log.runs s.log ++ [candidate.object])
    (Log.outstanding s.log ++ [.establishWal candidate]) (Log.timer s.log) (fun ticket => Log.cancelled ticket s.log)
    (by simp [emit]) (held.core.flushed down facts same candidate.object carries next follows) ?_
  refine { held.slots with keys := ?_, prepare := ?_ }
  · rw [List.map_append]
    refine (held.slots.keys.append_right _).trans ?_
    simp only [List.map_cons, List.map_nil, WriterEffect.key, carries]
    exact slotKeys_flight s.machine ⟨s.machine.nextBatch, s.machine.admitted, s.machine.admittedRoot, s.machine.pending.replies⟩ down
  · intro input member
    rcases List.mem_append.mp member with member | member
    · exact held.slots.prepare input member
    · simp at member

theorem Held.planned (ticket : CheckpointTicket) (idle : s.machine.checkpoint = none) (opened : s.machine.ingressOpen = true)
    (cut : ticket.cut = s.machine.durableBatch) : Held recovery past
      (s.emit
        { s.machine with
          checkpointAttempt := s.machine.checkpointAttempt + 1
          lastCheckpointAttemptedCut := some s.machine.durableBatch
          retryCheckpointAt := none
          checkpoint := some (.preparing ticket) }
        (.effect (.prepareCheckpoint ⟨ticket, s.machine.sealed, s.machine.base, s.machine.durable⟩))) := by
  have length : s.machine.durableBatch.get = (past ++ Log.landed s.log).length := by
    rw [List.length_append, held.core.count]
  refine Held.of _ (Log.landed s.log) (Log.runs s.log)
    (Log.outstanding s.log ++ [.prepareCheckpoint ⟨ticket, s.machine.sealed, s.machine.base, s.machine.durable⟩])
    (Log.timer s.log) (fun ticket => Log.cancelled ticket s.log)
    (by simp [emit]) { held.core with attempted := ?_ } ?_
  · intro other here
    cases here
    exact Nat.le_refl _
  refine { held.slots with keys := ?_, opened := fun _ _ => opened, closing := ?_, prepare := ?_, publishing := ?_ }
  · rw [List.map_append]
    exact (held.slots.keys.append_right _).trans (slotKeys_marker s.machine (.preparing ticket) idle)
  · intro other here
    cases here
  · intro input member
    rcases List.mem_append.mp member with member | member
    · exact held.slots.prepare input member
    · simp only [List.mem_singleton, WriterEffect.prepareCheckpoint.injEq] at member
      subst member
      refine ⟨rfl, Nat.le_of_eq (congrArg BatchId.get cut), ?_⟩
      simp only [cut, length, List.drop_length, foldLog]
      rfl
  · intro other checkpoint here
    cases here

omit held in
theorem Held.replied (envelope : CommandEnvelope) (completion : Completion) (machine : WriterMachine)
    (core : Core recovery past (Log.landed s.log) (Log.runs s.log) machine)
    (slots : Slots (past ++ Log.landed s.log) (Log.outstanding s.log) (Log.timer s.log) (fun ticket => Log.cancelled ticket s.log)
      machine) : Held recovery past (s.observe now (.command envelope) machine [.action (.sendReplies [completion])]) :=
  Held.unheard (Unheard.replied _ _ _ (Unheard.observed now (.command envelope) s.machine s.log rfl (by simp))) machine core slots

theorem Held.move (later : Session) (move : Session.Move now s later) : Held recovery past later := by
  cases move with
  | started first =>
    exact Held.unheard (Unheard.observed now .started s.machine s.log rfl (by simp)) _ { held.core with } { held.slots with }
  | refused envelope completion polled decided
  | repeated envelope completion polled decided down empty => exact Held.replied envelope completion s.machine held.core held.slots
  | shed envelope admitted completion polled decided full =>
    exact Held.replied envelope _ _ { held.core with } { held.slots with }
  | accepted envelope admitted completion polled decided fits =>
    exact Held.unheard (Unheard.observed now (.command envelope) s.machine s.log rfl (by simp)) _
      (held.accepted envelope completion polled admitted decided fits) { held.slots with }
  | deferred envelope completion polled decided behind =>
    refine Held.unheard (Unheard.observed now (.command envelope) s.machine s.log rfl (by simp)) _ ?_ { held.slots with }
    refine { held.core with admitted := ?_, roots := ?_, barrier := ?_, reserve := ?_ }
    · simp only [PendingBarrier.facts_pushIdempotent]
      exact held.core.admitted
    · simpa only [PendingBarrier.facts_pushIdempotent] using held.core.roots
    · exact held.core.barrier.pushIdempotent completion polled.room
    · simpa only [PendingBarrier.facts_pushIdempotent] using held.core.reserve
  | due armed =>
    exact Held.of _ (Log.landed s.log) (Log.runs s.log) (Log.outstanding s.log) none (fun ticket => Log.cancelled ticket s.log)
      (by simp [observe, WriterEvent.completes]) { held.core with } { held.slots with timer := rfl }
  | cancelling ticket opened marked =>
    refine Held.of _ (Log.landed s.log) (Log.runs s.log) (Log.outstanding s.log) (Log.timer s.log) _
      ⟨by simp [observe], by simp [observe], by simp [observe, WriterEvent.completes], by simp [observe], fun _ => rfl⟩
      { held.core with } ?_
    refine { held.slots with keys := ?_, opened := ?_, closing := fun _ _ => rfl, uncancelled := ?_, publishing := ?_ }
    · have keys := held.slots.keys
      simp only [WriterMachine.slotKeys, marked] at keys
      exact keys
    · nofun
    · nofun
    · nofun
  | closed opened unmarked =>
    refine Held.unheard (Unheard.observed now .ingressClosed s.machine s.log rfl (by simp)) _ { held.core with } ?_
    refine { held.slots with opened := ?_, closing := fun _ _ => rfl, uncancelled := ?_ }
    · intro ticket here
      exact absurd here (unmarked ticket)
    · nofun
  | landed flight active => exact held.landed flight active
  | prepared input checkpoint issued built marked => exact held.prepared input checkpoint issued built marked
  | abandoned ticket marked => exact held.dropped _ ticket _ rfl marked rfl
  | cancelled ticket event finished marked => exact held.dropped event ticket _ finished marked rfl
  | collecting ticket checkpoint cut marked reaches opened idle => exact held.collecting ticket checkpoint cut marked idle
  | authored ticket checkpoint marked => exact held.advanced ticket checkpoint marked
  | collected cut busy => exact held.collected cut busy
  | released down nonempty bare =>
    have log : Unheard s.log s.log := ⟨rfl, rfl, rfl, rfl, fun _ => rfl⟩
    exact Held.unheard (Unheard.replied _ _ _ log) _ (held.core.released down bare) { held.slots with }
  | flushed facts candidate next down same carries follows _ => exact held.flushed facts candidate next down same carries follows
  | armed started unarmed last =>
    exact Held.of _ (Log.landed s.log) (Log.runs s.log) (Log.outstanding s.log) (some _) (fun ticket => Log.cancelled ticket s.log)
      ⟨by simp [emit], by simp [emit], by simp [emit], by simp [emit]; rfl, by simp [emit]⟩ { held.core with }
      { held.slots with timer := rfl }
  | planned ticket idle opened named due => exact held.planned ticket idle opened (by rw [named])

end

end

end StromDB
