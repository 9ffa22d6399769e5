import StromDB.Session.Handle

namespace StromDB

open Checked List Option WriterMachine PendingBarrier

variable [Rkyv]

theorem PendingBarrier.facts_length_le (pending : PendingBarrier) : pending.facts.length ≤ pending.commands.length :=
  length_filterMap_le _ _

inductive Flushed (now : Instant) (s : Session) : WriterMachine × List WriterOutput → Prop where
  | idle : Flushed now s (s.machine, [])
  | moved (machine : WriterMachine) (output : WriterOutput) (move : Session.Move now s (s.emit machine output))
      (effect : output.isAction = false → machine.flight ≠ none) (opened : machine.ingressOpen = s.machine.ingressOpen)
      (marked : machine.checkpoint = s.machine.checkpoint)
      (attempts : machine.checkpointAttempt = s.machine.checkpointAttempt) : Flushed now s (machine, [output])

section

variable {recovery : WriterRecovery} {past : List WalObject} {s : Session} (held : Held recovery past s) (now : Instant)

theorem advancing (above : s.machine.sealed.replay.cut < s.machine.durableBatch.get) :
    s.machine.sealed.replay.batch.all (fun cut => decide (cut < s.machine.durableBatch)) = true := by
  cases replay : s.machine.sealed.replay with
  | genesis => rfl
  | through batch owner =>
    rw [replay] at above
    exact decide_eq_true above

theorem planCheckpoint_plans (above : s.machine.sealed.replay.cut < s.machine.durableBatch.get)
    (room : s.machine.checkpointAttempt + 1 < 2 ^ 64) :
    s.machine.planCheckpoint = .ok ({ s.machine with
      checkpointAttempt := s.machine.checkpointAttempt + 1
      lastCheckpointAttemptedCut := some s.machine.durableBatch
      retryCheckpointAt := none
      checkpoint := some (.preparing ⟨s.machine.sealed.generation, s.machine.durableBatch,
        ⟨s.machine.claim.generation, s.machine.checkpointAttempt⟩⟩) },
      some ⟨⟨s.machine.sealed.generation, s.machine.durableBatch, ⟨s.machine.claim.generation, s.machine.checkpointAttempt⟩⟩,
        s.machine.sealed, s.machine.base, s.machine.durable⟩) := by
  simp only [WriterMachine.planCheckpoint, require, advancing above, room, CheckpointInput.new, if_true, ok_bind]
  rfl

theorem planCheckpoint_exhausted (above : s.machine.sealed.replay.cut < s.machine.durableBatch.get)
    (full : ¬ s.machine.checkpointAttempt + 1 < 2 ^ 64) : ∃ message, s.machine.planCheckpoint = .error message := by
  refine ⟨"the process-local checkpoint attempt counter is not exhausted", ?_⟩
  simp only [WriterMachine.planCheckpoint, require, advancing above, full, if_true, if_false, ok_bind]
  rfl

inductive Planned (now : Instant) (s : Session) : WriterMachine.Effects → Prop where
  | idle : Planned now s (s.machine, [], none)
  | moved (machine : WriterMachine) (output : WriterOutput) (move : Session.Move now s (s.emit machine output)) :
      Planned now s (machine, [output], none)
  | ends (halt : Session.Halt now s .shutdown ⟨s.machine, .exited .shutdown :: s.log⟩)
      (closed : s.machine.ingressOpen = false) (landed : s.machine.flight = none) (idle : s.machine.checkpoint = none) :
      Planned now s (s.machine, [], some .shutdown)

structure Scheduled (m : WriterMachine) : Prop where
  quiet : m.Quiet
  closing : m.ingressOpen = false → m.flight ≠ none ∨ m.checkpoint ≠ none
  settled : m.ingressOpen = true → m.checkpoint = none →
    m.durableBatch.get < m.sealed.replay.cut + WAL_SUFFIX_CHECKPOINT_SPAN_TRIGGER ∨
      (m.lastCheckpointAttemptedCut = some m.durableBatch ∧ m.retryCheckpointAt ≠ some m.durableBatch)

abbrev Moves (now : Instant) : Session → Session → Prop := Relation.ReflTransGen (Session.Move now)

theorem Flushed.moves (machine : WriterMachine) (outputs : List WriterOutput) (flushed : Flushed now s (machine, outputs)) :
    Moves now s ⟨machine, Log.emits outputs s.log⟩ := by
  cases flushed with
  | idle => exact .refl
  | moved _ output move => exact .single move

theorem Flushed.facts (machine : WriterMachine) (outputs : List WriterOutput) (flushed : Flushed now s (machine, outputs)) :
    outputs.length ≤ 1 ∧ machine.ingressOpen = s.machine.ingressOpen ∧ machine.checkpoint = s.machine.checkpoint ∧
      machine.checkpointAttempt = s.machine.checkpointAttempt ∧
      ∀ output ∈ outputs, output.isAction = false → machine.flight ≠ none := by
  cases flushed with
  | idle => exact ⟨by simp, rfl, rfl, rfl, by simp⟩
  | moved _ output move effect opened marked attempts => exact ⟨by simp, opened, marked, attempts, by simpa using effect⟩

inductive Turned (now : Instant) (s : Session) (event : WriterEvent) : WriterMachine.Effects → Prop where
  | goes (machine : WriterMachine) (outputs : List WriterOutput) (path : Moves now s (s.after now event (machine, outputs, none)))
      (rest : Rest (s.after now event (machine, outputs, none))) : Turned now s event (machine, outputs, none)
  | fails (machine : WriterMachine) (exit : WriterExit)
      (halt : Session.Halt now s exit (s.after now event (machine, [], some exit))) : Turned now s event (machine, [], some exit)
  | closes (machine : WriterMachine) (outputs : List WriterOutput) (middle : Session) (path : Moves now s middle)
      (halt : Session.Halt now middle .shutdown (s.after now event (machine, outputs, some .shutdown))) :
      Turned now s event (machine, outputs, some .shutdown)

theorem Session.Move.begun (later : Session) (move : Session.Move now s later) (begun : s.machine.started = true) :
    later.machine.started = true := by
  cases move <;> first | rfl | exact begun

theorem Moves.begun (later : Session) (path : Moves now s later) (begun : s.machine.started = true) : later.machine.started = true := by
  induction path with
  | refl => exact begun
  | tail _ move ih => exact move.begun now _ ih

include held

theorem drainPending_moves (clock : Log.clock s.log = now) (down : s.machine.flight = none)
    (nonempty : s.machine.pending.commands ≠ []) :
    ∃ machine output, s.machine.drainPending now = .ok (machine, output) ∧ Flushed now s (machine, [output]) ∧ machine.Quiet := by
  have filled : s.machine.pending.isEmpty = false := by simpa [PendingBarrier.isEmpty] using nonempty
  by_cases bare : s.machine.pending.facts = []
  · have same : s.machine.admitted = s.machine.durable := by
      have settled := held.core.quiescent bare
      rwa [WriterMachine.settled, down, settledForest] at settled
    refine ⟨_, _, ?_, .moved _ _ (.released down nonempty bare) (by simp [WriterOutput.isAction]) rfl rfl rfl, fun _ => .inl rfl⟩
    simp [drainPending, down, filled, bare, require, same]
  have few : s.machine.pending.facts.length ≤ WAL_RUN_FACTS_MAX :=
    Nat.le_trans s.machine.pending.facts_length_le held.core.barrier.count
  let facts : WalFacts := ⟨s.machine.pending.facts, bare, few⟩
  let object : WalObject := ⟨s.machine.sealed.partition, s.machine.nextBatch, s.machine.claim.owner, .run facts⟩
  have bounded : walLength object ≤ WAL_ENCODED_BYTES_MAX := by
    have length := walLength_le object
    have fits := held.core.barrier.fits
    rw [bytesEstimated, held.core.barrier.bytes] at fits
    exact Nat.le_trans length fits
  have collected : WalFacts.tryFrom s.machine.pending.facts = .ok facts := (WalFacts.tryFrom_ok_iff _ _).mpr rfl
  have encoded : EncodedWal.new object = .ok ⟨object, bounded⟩ := EncodedWal.new_ok_iff.mpr rfl
  have reserve := held.core.reserve bare
  let next : BatchId := ⟨⟨s.machine.nextBatch.get + 1, Nat.succ_pos _, reserve⟩⟩
  have follows : s.machine.nextBatch.successor = .ok next := BatchId.successor_ok_iff.mpr rfl
  refine ⟨_, _, ?_, .moved _ _ (.flushed facts ⟨object, bounded⟩ next down rfl rfl rfl clock) (by simp) rfl rfl rfl,
    fun idle => by cases idle⟩
  simp only [drainPending, down, filled, bare, require, collected, expectOk, ok_bind,
    follows, if_false]
  rw [encoded]
  rfl

theorem drainDue_ok : ∃ due, s.machine.drainDue now = .ok due ∧ (due = false → s.machine.pending.facts ≠ [] ∧
    s.machine.ingressOpen = true ∧ s.machine.hardFull = .ok false ∧ s.machine.pending.bytesEstimated < s.machine.flushBufferBytes ∧
    s.machine.spacingSatisfied now = false) := by
  obtain ⟨full, found, _⟩ := hardFull_ok held.core.barrier
  unfold drainDue
  split
  · exact ⟨true, rfl, nofun⟩
  · rename_i waits
    simp only [Bool.not_eq_true', not_or, Bool.not_eq_false] at waits
    refine ⟨_, by rw [found]; rfl, ?_⟩
    intro due
    simp only [ge_iff_le, Bool.or_eq_false_iff, decide_eq_false_iff_not, Nat.not_le] at due
    obtain ⟨⟨rfl, bytes⟩, spacing⟩ := due
    exact ⟨(held.core.barrier.hasFacts_iff).mp waits.1, waits.2, found, bytes, spacing⟩

theorem scheduleFlush_moves (clock : Log.clock s.log = now) :
    ∃ result, s.machine.scheduleFlush now = .ok result ∧ Flushed now s result ∧ result.1.Quiet := by
  unfold scheduleFlush
  split
  · rename_i waits
    have down := isNone_iff_eq_none.mp waits.1
    have nonempty : s.machine.pending.commands ≠ [] := by
      simpa [PendingBarrier.isEmpty] using waits.2
    obtain ⟨due, decided, waiting⟩ := drainDue_ok held now
    rw [decided]
    cases due with
    | true =>
      obtain ⟨machine, output, drained, flushed, quiet⟩ := drainPending_moves held now clock down nonempty
      refine ⟨_, ?_, flushed, quiet⟩
      simp [drained]
    | false =>
      obtain ⟨facts, opened, full, bytes, spacing⟩ := waiting rfl
      cases armed : s.machine.flushArmed with
      | true => exact ⟨_, rfl, .idle, fun _ => .inr ⟨facts, opened, armed, full, bytes⟩⟩
      | false =>
        obtain ⟨started, last⟩ : ∃ started, s.machine.lastFlushStartedAt = some started := by
          cases last : s.machine.lastFlushStartedAt with
          | none => simp [spacingSatisfied, last] at spacing
          | some started => exact ⟨started, rfl⟩
        refine ⟨_, ?_, .moved _ _ (.armed started armed last) (by simp [WriterOutput.isAction]) rfl rfl rfl,
          fun _ => .inr ⟨facts, opened, rfl, full, bytes⟩⟩
        simp [last, expect]
  · rename_i busy
    refine ⟨_, rfl, .idle, fun down => .inl ?_⟩
    by_contra nonempty
    apply busy
    rw [show s.machine.flight = none from down]
    simpa [PendingBarrier.isEmpty] using nonempty

theorem headIsUnattempted_ok : ∃ unattempted, s.machine.headIsUnattempted = .ok unattempted ∧
    (unattempted = false ↔ s.machine.lastCheckpointAttemptedCut = some s.machine.durableBatch) := by
  cases last : s.machine.lastCheckpointAttemptedCut with
  | none => exact ⟨true, by simp [headIsUnattempted, last], by simp⟩
  | some cut =>
    have bound := held.core.attempted cut last
    refine ⟨decide (cut < s.machine.durableBatch), ?_, ?_⟩
    · simp [headIsUnattempted, last, require, bound]
    · rw [decide_eq_false_iff_not, BatchId.lt_iff, some.injEq]
      constructor
      · intro equal
        exact BatchId.get_injective _ _ (by omega)
      · rintro rfl
        omega

theorem takeCheckpoint_moves (opened : s.machine.ingressOpen = true) :
    (s.machine.takeCheckpoint = .ok (s.machine, none) ∧ (s.machine.checkpoint = none →
      s.machine.durableBatch.get < s.machine.sealed.replay.cut + WAL_SUFFIX_CHECKPOINT_SPAN_TRIGGER ∨
        (s.machine.lastCheckpointAttemptedCut = some s.machine.durableBatch ∧
          s.machine.retryCheckpointAt ≠ some s.machine.durableBatch))) ∨
    (∃ machine input, s.machine.takeCheckpoint = .ok (machine, some input) ∧ machine.checkpoint ≠ none ∧
      Session.Move now s (s.emit machine (.effect (.prepareCheckpoint input))) ∧ (s.machine.Quiet → machine.Quiet)) ∨
    (2 ^ 64 ≤ s.machine.checkpointAttempt + 1 ∧ ∃ message, s.machine.takeCheckpoint = .error message) := by
  by_cases marked : s.machine.checkpoint = none
  · obtain ⟨span, spanned⟩ : ∃ span, s.machine.sealed.replay.cut + span = s.machine.durableBatch.get :=
      ⟨s.machine.durableBatch.get - s.machine.sealed.replay.cut, Nat.add_sub_of_le held.core.cut⟩
    have found : spanThrough s.machine.sealed.replay.batch s.machine.durableBatch = some span := by
      rw [spanThrough_eq_some_iff, cutNumber_batch]
      exact spanned
    by_cases short : span < WAL_SUFFIX_CHECKPOINT_SPAN_TRIGGER
    · refine .inl ⟨by simp [takeCheckpoint, marked, found, short, expect], fun _ => .inl ?_⟩
      omega
    obtain ⟨unattempted, attempted, last⟩ := headIsUnattempted_ok held
    by_cases given : (!unattempted) = true ∧ s.machine.retryCheckpointAt ≠ some s.machine.durableBatch
    · refine .inl ⟨?_, fun _ => .inr ⟨last.mp (by simpa using given.1), given.2⟩⟩
      simp only [takeCheckpoint, marked, found, expect, ok_bind, if_neg short, attempted]
      rw [if_pos given]
      rfl
    have takes : s.machine.takeCheckpoint = s.machine.planCheckpoint := by
      simp only [takeCheckpoint, marked, found, expect, ok_bind, if_neg short, attempted]
      rw [if_neg given]
      rfl
    have above : s.machine.sealed.replay.cut < s.machine.durableBatch.get := by
      have trigger : 0 < WAL_SUFFIX_CHECKPOINT_SPAN_TRIGGER := by decide
      omega
    by_cases room : s.machine.checkpointAttempt + 1 < 2 ^ 64
    · have planned := planCheckpoint_plans above room
      refine .inr (.inl ⟨_, _, takes.trans planned, by simp, .planned _ marked opened rfl ?_, fun quiet => quiet⟩)
      intro same
      have refused := last.mpr same
      by_contra retry
      exact given ⟨by simp [refused], retry⟩
    · refine .inr (.inr ⟨Nat.le_of_not_lt room, ?_⟩)
      rw [takes]
      exact planCheckpoint_exhausted above room
  · refine .inl ⟨?_, fun here => absurd here marked⟩
    simp [takeCheckpoint, isSome_iff_ne_none.mpr marked]

theorem scheduleCheckpoint_moves (quiet : s.machine.Quiet) :
    (∃ effects, s.machine.scheduleCheckpoint = .ok effects ∧ Planned now s effects ∧
      (effects.2.2 = none → Scheduled effects.1)) ∨
    (2 ^ 64 ≤ s.machine.checkpointAttempt + 1 ∧ ∃ message, s.machine.scheduleCheckpoint = .error message) := by
  cases opened : s.machine.ingressOpen with
  | true =>
    rcases takeCheckpoint_moves held now opened with ⟨taken, settled⟩ | ⟨machine, input, taken, marked, move, quiets⟩ | full
    · refine .inl ⟨_, by simp [scheduleCheckpoint, opened, taken], .idle, fun _ => ⟨quiet, ?_, fun _ => settled⟩⟩
      intro closed
      rw [opened] at closed
      cases closed
    · refine .inl ⟨_, by simp [scheduleCheckpoint, opened, taken], .moved machine _ move, fun _ => ?_⟩
      exact ⟨quiets quiet, fun _ => .inr marked, fun _ here => absurd here marked⟩
    · obtain ⟨full, message, taken⟩ := full
      exact .inr ⟨full, message, by simp [scheduleCheckpoint, opened, taken]⟩
  | false =>
    left
    by_cases ends : s.machine.flight.isNone ∧ s.machine.checkpoint.isNone ∧ s.machine.pending.isEmpty
    · have down := isNone_iff_eq_none.mp ends.1
      have idle := isNone_iff_eq_none.mp ends.2.1
      have empty : s.machine.pending.commands = [] := isEmpty_iff.mp ends.2.2
      have roots : s.machine.admittedRoot = s.machine.durableRoot := by
        have shared := held.core.roots (by simp [facts, empty])
        rwa [down, settledRoot] at shared
      refine ⟨_, ?_, .ends (.shutdown opened down idle empty) opened down idle, (by intros; contradiction)⟩
      simp only [scheduleCheckpoint, opened, if_pos ends, assertQuiescent, require,
        if_pos (And.intro ends.1 ends.2.2), roots, if_true, ok_bind]
      rfl
    refine ⟨_, by simp only [scheduleCheckpoint, opened, if_neg ends]; rfl, .idle, fun _ => ⟨quiet, ?_, ?_⟩⟩
    · intro _
      by_contra none
      simp only [not_or, ne_eq, not_not] at none
      apply ends
      rcases quiet none.1 with empty | waiting
      · exact ⟨by simp [none.1], by simp [none.2], isEmpty_iff.mpr empty⟩
      · rw [opened] at waiting
        cases waiting.2.1
    · intro here
      rw [opened] at here
      cases here

theorem Held.moves (later : Session) (path : Moves now s later) : Held recovery past later := by
  induction path with
  | refl => exact held
  | tail _ move ih => exact ih.move _ move

section

variable (m : WriterMachine) (event : WriterEvent) (starts : (!m.started) = decide (event = .started))

include starts

omit held in
theorem handle_halts (machine : WriterMachine) (exit : WriterExit)
    (applied : (if event = .started then { m with started := true } else m).applyEvent event = .ok (machine, [], some exit)) :
    m.handle now event = .ok (machine, [], some exit) := by
  simp only [handle, require, if_pos starts, applied, ok_bind]
  rfl

omit held in
theorem handle_goes (machine later : WriterMachine) (outputs more : List WriterOutput) (exit : Option WriterExit)
    (applied : (if event = .started then { m with started := true } else m).applyEvent event = .ok (machine, outputs, none))
    (scheduled : machine.schedule now = .ok (later, more, exit)) (few : (outputs ++ more).length ≤ WRITER_OUTPUTS_PER_STEP_MAX)
    (actions : exit.isSome = true → (outputs ++ more).all WriterOutput.isAction = true) :
    m.handle now event = .ok (later, outputs ++ more, exit) := by
  simp only [handle, require, if_pos starts, applied, scheduled, ok_bind, pure_eq_ok,
    if_pos few, if_pos actions]

omit held in
theorem handle_stops (machine : WriterMachine) (outputs : List WriterOutput) (message : String)
    (applied : (if event = .started then { m with started := true } else m).applyEvent event = .ok (machine, outputs, none))
    (scheduled : machine.schedule now = .error message) : m.handle now event = .error message := by
  simp only [handle, require, if_pos starts, applied, scheduled, ok_bind, error_bind]

end

theorem handle_turned (rest : Rest s) (event : WriterEvent) (conforms : s.conforms event = true) :
    (∃ effects, s.machine.handle now event = .ok effects ∧ Turned now s event effects) ∨
    (2 ^ 64 ≤ s.machine.checkpointAttempt + 1 ∧ ∃ message, s.machine.handle now event = .error message) := by
  have starts : (!s.machine.started) = decide (event = .started) := by
    simp only [Session.conforms, Bool.and_eq_true, beq_iff_eq] at conforms
    rw [rest.started, Bool.not_not]
    exact conforms.1.2.symm
  obtain ⟨effects, applied, acted⟩ := event_acted held rest now event conforms
  cases acted with
  | halts machine exit halt =>
    exact .inl ⟨_, handle_halts now s.machine event starts machine exit applied, .fails machine exit halt⟩
  | goes machine outputs move few attempts busy =>
    have middle := held.move _ move
    obtain ⟨⟨flushed, pushed⟩, flushes, flushing, quiet⟩ := scheduleFlush_moves middle now (Log.clock_emits outputs _)
    have path := Relation.ReflTransGen.head move (flushing.moves now flushed pushed)
    have later := held.moves now _ path
    obtain ⟨single, opened, marked, attempted, flying⟩ := flushing.facts now flushed pushed
    have begun : flushed.started = true := by
      by_cases first : event = .started
      · subst first
        cases applied
        exact Moves.begun now _ (flushing.moves now flushed pushed) rfl
      · refine Moves.begun now _ path ?_
        simpa [first] using starts
    rcases scheduleCheckpoint_moves later now quiet with ⟨⟨final, planned, exit⟩, checked, plan, settled⟩ | ⟨full, message, failed⟩
    · have schedules : machine.schedule now = .ok (final, pushed ++ planned, exit) := by
        simp only [schedule]
        rw [show machine.scheduleFlush now = .ok (flushed, pushed) from flushes]
        simp only [ok_bind]
        rw [show flushed.scheduleCheckpoint = .ok (final, planned, exit) from checked]
        rfl
      have logged : ∀ exit, s.after now event (final, outputs ++ (pushed ++ planned), exit) =
          ⟨final, (exit.map Entry.exited).toList ++
            Log.emits planned (Log.emits pushed (s.observe now event machine outputs).log)⟩ := by
        intro exit
        simp only [Session.after, Session.observe, Log.emits_append]
      have few : (outputs ++ (pushed ++ planned)).length ≤ WRITER_OUTPUTS_PER_STEP_MAX := by
        have last : planned.length ≤ 1 := by cases plan <;> simp
        simp only [length_append, WRITER_OUTPUTS_PER_STEP_MAX]
        omega
      have rested : exit = none → final.started = true → Rest (s.after now event (final, outputs ++ (pushed ++ planned), none)) := by
        intro goes started
        have left := settled goes
        refine ⟨?_, left.quiet, left.closing, fun _ => left.settled⟩
        rw [logged]
        simp [started, Log.emits, Session.observe]
      left
      cases plan with
      | idle =>
        refine ⟨_, handle_goes now s.machine event starts machine flushed outputs _ none applied schedules few (by simp), ?_⟩
        refine .goes _ _ ?_ (rested rfl begun)
        rw [logged]
        exact path
      | moved _ output more =>
        refine ⟨_, handle_goes now s.machine event starts machine final outputs _ none applied schedules few (by simp), ?_⟩
        refine .goes _ _ ?_ (rested rfl (more.begun now _ begun))
        rw [logged]
        exact path.tail more
      | ends halt closed landed idle =>
        have actions : (outputs ++ (pushed ++ [])).all WriterOutput.isAction = true := by
          rw [List.all_eq_true]
          intro output member
          cases kind : output.isAction with
          | true => rfl
          | false =>
            rcases mem_append.mp member with early | late
            · rcases busy output early kind with active | still
              · exact absurd (marked.symm.trans idle) active
              · rw [show machine.ingressOpen = false from opened.symm.trans closed] at still
                cases still
            · exact absurd landed (flying output (by simpa using late) kind)
        refine ⟨_, handle_goes now s.machine event starts machine flushed outputs _ _ applied schedules few (fun _ => actions), ?_⟩
        refine .closes _ _ _ path ?_
        rw [logged]
        exact halt
    refine .inr ⟨?_, message, ?_⟩
    · have count : flushed.checkpointAttempt = s.machine.checkpointAttempt := attempted.trans attempts
      exact count ▸ full
    · refine handle_stops now s.machine event starts machine outputs message applied ?_
      simp only [schedule]
      rw [show machine.scheduleFlush now = .ok (flushed, pushed) from flushes]
      simp only [ok_bind]
      rw [show flushed.scheduleCheckpoint = .error message from failed]
      rfl

end

end StromDB
