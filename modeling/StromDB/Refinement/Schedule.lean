import StromDB.Refinement.WriterSteps

namespace StromDB

open Checked WriterMachine

variable [Rkyv]

variable (machine after : WriterMachine)

namespace WriterMachine

structure Unplanned (machine after : WriterMachine) (outputs : List WriterOutput) : Prop where
  claim : after.claim = machine.claim
  counter : after.checkpointAttempt = machine.checkpointAttempt
  outputs : ∀ input, .effect (.prepareCheckpoint input) ∉ outputs

theorem drainPending_unplanned (now : Instant) (output : WriterOutput)
    (drained : machine.drainPending now = .ok (after, output)) : Unplanned machine after [output] := by
  obtain ⟨_, _, drained⟩ := bind_ok drained
  obtain ⟨_, _, drained⟩ := bind_ok drained
  split at drained
  · obtain ⟨_, _, done⟩ := bind_ok drained
    cases done
    exact ⟨rfl, rfl, by simp⟩
  · obtain ⟨_, _, drained⟩ := bind_ok drained
    obtain ⟨_, _, drained⟩ := bind_ok drained
    obtain ⟨_, _, done⟩ := bind_ok drained
    cases done
    exact ⟨rfl, rfl, by simp⟩

theorem scheduleFlush_unplanned (now : Instant) (outputs : List WriterOutput)
    (scheduled : machine.scheduleFlush now = .ok (after, outputs)) : Unplanned machine after outputs := by
  unfold scheduleFlush at scheduled
  split at scheduled
  · obtain ⟨_, _, scheduled⟩ := bind_ok scheduled
    split at scheduled
    · obtain ⟨⟨drained, output⟩, drain, done⟩ := bind_ok scheduled
      cases done
      exact drainPending_unplanned machine _ now output drain
    · split at scheduled
      · obtain ⟨_, _, done⟩ := bind_ok scheduled
        cases done
        exact ⟨rfl, rfl, by simp⟩
      · cases scheduled
        exact ⟨rfl, rfl, by simp⟩
  · cases scheduled
    exact ⟨rfl, rfl, by simp⟩

structure Plans (machine after : WriterMachine) (outputs : List WriterOutput) : Prop where
  claim : after.claim = machine.claim
  counter : machine.checkpointAttempt ≤ after.checkpointAttempt
  outputs : ∀ input, .effect (.prepareCheckpoint input) ∈ outputs → input.ticket.attempt.localCounter = machine.checkpointAttempt

theorem Unplanned.plans (outputs : List WriterOutput) (unplanned : Unplanned machine after outputs) : Plans machine after outputs :=
  ⟨unplanned.claim, Nat.le_of_eq unplanned.counter.symm, fun input planned => absurd planned (unplanned.outputs input)⟩

theorem Unplanned.append (middle after : WriterMachine) (first second : List WriterOutput)
    (unplanned : Unplanned machine middle first) (plans : Plans middle after second) : Plans machine after (first ++ second) := by
  refine ⟨plans.claim.trans unplanned.claim, unplanned.counter ▸ plans.counter, fun input planned => ?_⟩
  rcases List.mem_append.mp planned with here | there
  · exact absurd here (unplanned.outputs input)
  · rw [plans.outputs input there, unplanned.counter]

theorem takeCheckpoint_plans (input : Option CheckpointInput) (taken : machine.takeCheckpoint = .ok (after, input)) :
    Plans machine after (input.toList.map fun planned => .effect (.prepareCheckpoint planned)) := by
  unfold takeCheckpoint planCheckpoint at taken
  split at taken
  · cases taken
    exact ⟨rfl, Nat.le_refl _, by simp⟩
  obtain ⟨_, _, taken⟩ := bind_ok taken
  split at taken
  · cases taken
    exact ⟨rfl, Nat.le_refl _, by simp⟩
  · obtain ⟨_, _, taken⟩ := bind_ok taken
    split at taken
    · cases taken
      exact ⟨rfl, Nat.le_refl _, by simp⟩
    · obtain ⟨_, _, taken⟩ := bind_ok taken
      obtain ⟨_, _, taken⟩ := bind_ok taken
      obtain ⟨planned, made, taken⟩ := bind_ok taken
      obtain ⟨_, _, made⟩ := bind_ok made
      cases made
      cases taken
      exact ⟨rfl, Nat.le_succ _, by simp⟩

theorem scheduleCheckpoint_plans (effects : Effects) (scheduled : machine.scheduleCheckpoint = .ok effects) :
    Plans machine effects.1 effects.2.1 ∧ (effects.2.2 = none ∨ effects.2.2 = some .shutdown) := by
  unfold scheduleCheckpoint at scheduled
  split at scheduled
  · obtain ⟨⟨after, input⟩, taken, done⟩ := bind_ok scheduled
    have plans := takeCheckpoint_plans machine after input taken
    cases input <;> cases done <;> exact ⟨plans, .inl rfl⟩
  · split at scheduled
    · obtain ⟨_, _, done⟩ := bind_ok scheduled
      cases done
      exact ⟨⟨rfl, Nat.le_refl _, by simp⟩, .inr rfl⟩
    · cases scheduled
      exact ⟨⟨rfl, Nat.le_refl _, by simp⟩, .inl rfl⟩

theorem schedule_plans (now : Instant) (effects : Effects) (scheduled : machine.schedule now = .ok effects) :
    Plans machine effects.1 effects.2.1 ∧ (effects.2.2 = none ∨ effects.2.2 = some .shutdown) := by
  obtain ⟨⟨flushed, first⟩, flush, scheduled⟩ := bind_ok scheduled
  obtain ⟨⟨after, second, exit⟩, checkpoint, done⟩ := bind_ok scheduled
  cases done
  obtain ⟨plans, exits⟩ := scheduleCheckpoint_plans flushed _ checkpoint
  exact ⟨(scheduleFlush_unplanned machine flushed now first flush).append machine flushed after first second plans, exits⟩

end WriterMachine

namespace View

section

variable {view : View} {pid : Pid} {proc : Proc} (known : view.Ok) (base : view.BaseOk pid proc) (machine : WriterMachine)
  (writer : view.WriterOk pid proc machine) (landed : machine.flight = none)

include known writer landed

theorem WriterOk.wire_fence (base : view.BaseOk pid proc) (id : Nat) (object : WalObject)
    (sent : (id, .createWal object) ∈ proc.wire) : object.body.isFence = true ∧ object.batch.get ≤ machine.durableBatch.get := by
  have flight := writer.flight
  rw [landed] at flight
  have below := flight.2 object (.inl ⟨id, sent⟩)
  refine ⟨?_, below⟩
  rcases base.wire.ops id _ sent with fence | run
  · rw [fence.fence]
    rfl
  obtain ⟨within, owned⟩ := writer.seat.owner
  obtain ⟨entry, member, number⟩ := known.log.exists_object machine.durableBatch.get machine.durableBatch.positive within
  rw [← number, known.log.ownerAt_batch entry member] at owned
  have mine : view.Authored pid entry.owner.generation := by
    rw [SealGeneration.get_injective entry.owner.generation machine.claim.generation owned]
    exact writer.seat.author
  have last := run.last entry member mine
  have positive := object.batch.positive
  omega

omit known in
theorem runOp (facts : WalFacts) (same : facts.facts = machine.pending.facts)
    (bounded : walLength ⟨machine.sealed.partition, machine.nextBatch, machine.claim.owner, .run facts⟩ ≤ WAL_ENCODED_BYTES_MAX) :
    view.RunOp pid ⟨machine.sealed.partition, machine.nextBatch, machine.claim.owner, .run facts⟩ := by
  have flight := writer.flight
  have folds := writer.barrier.folds
  rw [landed] at flight folds
  have number : machine.nextBatch.get - 1 = machine.durableBatch.get := by
    rw [flight.1, Nat.add_sub_cancel]
  refine ⟨rfl, writer.seat.author, ?_, ⟨machine.durable, machine.admitted, ?_, ?_⟩, ?_,
    ⟨machine.sealed, writer.seat.published, rfl⟩, bounded⟩
  · rw [number]
    exact writer.seat.owner
  · rw [number]
    exact writer.seat.folded
  · simp only [WalObject.facts, same]
    exact folds
  · rw [number]
    exact fun object member authored => flight.2 object (.inr ⟨member, authored⟩)

include base

theorem establishWal_performs [OrdMap.Differ] (facts : WalFacts) (same : facts.facts = machine.pending.facts) (encoded : EncodedWal)
    (object : encoded.object = ⟨machine.sealed.partition, machine.nextBatch, machine.claim.owner, .run facts⟩) (nextBatch : BatchId)
    (next : nextBatch.get = machine.nextBatch.get + 1) (now : Instant) :
    Performs view pid machine.claim.owner [.effect (.establishWal encoded)] proc fun later =>
      view.WriterOk pid later { machine with
        pending := PendingBarrier.new
        nextBatch
        flight := some ⟨machine.nextBatch, machine.admitted, machine.admittedRoot, machine.pending.replies⟩
        lastFlushStartedAt := some now } := by
  have flight := writer.flight
  have folds := writer.barrier.folds
  rw [landed] at flight folds
  have number : machine.nextBatch.get = machine.durableBatch.get + 1 := flight.1
  have op : view.RunOp pid encoded.object := by
    have bounded := encoded.bounded
    rw [object] at bounded ⊢
    exact runOp machine writer landed facts same bounded
  have wire : view.WireOk pid (proc.send (some (.createWal encoded.object))) := by
    refine base.wire.send known (.createWal encoded.object) (.inr op) ?_ known.chain
    intro id other sent
    cases other with
    | createWal before =>
      obtain ⟨fence, below⟩ := writer.wire_fence known machine landed base id before sent
      refine ⟨.inl fence, fun _ _ => ?_, fun wrong => ?_⟩
      · rw [object]
        simp only [BatchId.lt_iff]
        omega
      · rw [op.run] at wrong
        cases wrong
    | _ => trivial
  have wrote : ∀ other, view.Wrote pid (proc.send (some (.createWal encoded.object))) other →
      view.Wrote pid proc other ∨ other = encoded.object := by
    rintro other (⟨id, member⟩ | inLog)
    · rcases mem_send_wire.mp member with old | ⟨_, new⟩
      · exact .inl (.inl ⟨id, old⟩)
      · cases new
        exact .inr rfl
    · exact .inl (.inr inLog)
  have done : Launched view pid proc (.wal encoded.object) (spawnEffect proc.nextRequest (.establishWal encoded)) := by
    refine ⟨known, wire, ⟨rfl, ⟨encoded, rfl, .inl rfl⟩, ⟨machine.sealed, writer.seat.published, by rw [object]⟩,
      PendingOk.sent_now base.wire (.createWal encoded)⟩, ?_, fun _ there => .inl there⟩
    rintro table body (⟨id, candidate, member, rest⟩ | established)
    · rcases mem_send_wire.mp member with old | ⟨_, new⟩
      · exact .inl (.inl ⟨id, candidate, old, rest⟩)
      · cases new
    · exact .inl (.inr established)
  refine ⟨⟨.wal encoded.object, rfl, done, rfl, ?_, ?_, ?_⟩, fun _ => ?_⟩
  · intros
    contradiction
  · intros
    contradiction
  · intro candidate here
    cases here
  refine ⟨writer.seat, ⟨number, by simp only; omega, encoded.object, by rw [object], op.run, by rw [object], ?_, ?_, ?_, ?_⟩,
    ⟨rfl, rfl, ?_⟩,
    MarkerOk.beside known (show view.issue pid (spawnEffect proc.nextRequest (.establishWal encoded)).2 = view from rfl)
      (.wal encoded.object) (fun _ same => by cases same) _ _ _ _ writer.marker, ?_, ?_, ?_, writer.issued⟩
  · rw [object]
    simp only [WalObject.facts, same]
    exact folds
  · intro other there
    rcases wrote other ((sameWire_spawn proc _ _).silent.wrote other there) with old | new
    · exact .inl (flight.2 other old)
    · exact .inr new
  · exact Working.spawned known rfl done rfl
  · exact writer.barrier.acks
  · intros
    contradiction
  · intro ticket found
    exact writer.preparing ticket found
  · intro cut found
    exact writer.collecting cut found
  · intro table body there
    exact writer.filed table body (Filed.beside rfl done (fun _ same => by cases same) table body there)

theorem drainPending_performs [OrdMap.Differ] (now : Instant) (after : WriterMachine) (output : WriterOutput)
    (drained : machine.drainPending now = .ok (after, output)) :
    Performs view pid machine.claim.owner [output] proc fun next => view.WriterOk pid next after := by
  obtain ⟨_, _, drained⟩ := bind_ok drained
  obtain ⟨_, _, drained⟩ := bind_ok drained
  split at drained
  · obtain ⟨_, settled, done⟩ := bind_ok drained
    rw [require_ok_iff] at settled
    cases done
    refine ⟨?_, fun _ => ?_⟩
    · intro completion member
      exact writer.reply machine completion (settled ▸ writer.barrier.acks completion member)
    · refine ⟨writer.seat, writer.flight, ⟨rfl, ?_, ?_⟩, writer.marker, writer.preparing, writer.collecting, writer.filed,
        writer.issued⟩
      · rw [landed]
        rfl
      · intros
        contradiction
  obtain ⟨facts, made, drained⟩ := bind_ok drained
  obtain ⟨encoded, fits, drained⟩ := bind_ok drained
  obtain ⟨nextBatch, next, done⟩ := bind_ok drained
  rw [expectOk_ok_iff, WalFacts.tryFrom_ok_iff] at made
  rw [expectOk_ok_iff, EncodedWal.new_ok_iff] at fits
  rw [expectOk_ok_iff, BatchId.successor_ok_iff] at next
  cases done
  exact establishWal_performs known base machine writer landed facts made encoded fits nextBatch next now

end

section

variable {view : View} {pid : Pid} {proc : Proc} (known : view.Ok) (base : view.BaseOk pid proc) (machine : WriterMachine)
  (writer : view.WriterOk pid proc machine)

include known base writer

theorem scheduleFlush_performs [OrdMap.Differ] (now : Instant) (after : WriterMachine) (outputs : List WriterOutput)
    (scheduled : machine.scheduleFlush now = .ok (after, outputs)) :
    Performs view pid machine.claim.owner outputs proc fun next => view.WriterOk pid next after := by
  unfold scheduleFlush at scheduled
  split at scheduled
  · rename_i ready
    obtain ⟨due, _, scheduled⟩ := bind_ok scheduled
    split at scheduled
    · obtain ⟨⟨drained, output⟩, drain, done⟩ := bind_ok scheduled
      cases done
      exact drainPending_performs known base machine writer (Option.isNone_iff_eq_none.mp ready.1) now _ output drain
    · split at scheduled
      · obtain ⟨_, _, done⟩ := bind_ok scheduled
        cases done
        exact ⟨trivial, fun _ => ⟨writer.seat, writer.flight, writer.barrier, writer.marker, writer.preparing, writer.collecting,
          writer.filed, writer.issued⟩⟩
      · cases scheduled
        exact writer
  · cases scheduled
    exact writer

theorem planCheckpoint_performs [OrdMap.Differ] (free : machine.checkpoint = none) (after : WriterMachine) (input : CheckpointInput)
    (planned : machine.planCheckpoint = .ok (after, some input)) :
    Performs view pid machine.claim.owner [.effect (.prepareCheckpoint input)] proc fun next => view.WriterOk pid next after := by
  obtain ⟨_, advances, planned⟩ := bind_ok planned
  obtain ⟨_, _, planned⟩ := bind_ok planned
  obtain ⟨made, new, done⟩ := bind_ok planned
  obtain ⟨_, _, new⟩ := bind_ok new
  cases new
  cases done
  have ahead : machine.sealed.replay.cut < machine.durableBatch.get := by
    cases replay : machine.sealed.replay with
    | genesis => exact machine.durableBatch.positive
    | through cut owner =>
      rw [replay] at advances
      simpa [WalReplayPoint.batch, WalReplayPoint.cut] using advances
  have idle : ∀ other, proc.tasks (.checkpointPreparation other) = none := by
    intro other
    by_contra present
    rcases writer.preparing other (Option.isSome_iff_ne_none.mpr present) with here | here <;> rw [free] at here <;> cases here
  have ok : view.InputOk pid proc
      ⟨⟨machine.sealed.generation, machine.durableBatch, ⟨machine.claim.generation, machine.checkpointAttempt⟩⟩, machine.sealed,
        machine.base, machine.durable⟩ := by
    refine ⟨rfl, writer.seat.published, writer.seat.rooted, writer.seat.folded, writer.seat.owner, writer.seat.author,
      writer.seat.newest, ahead, writer.seat.within, ?_⟩
    intro object body same there
    have less := (writer.filed object body there).2
    rw [same] at less
    exact Nat.lt_irrefl _ less
  have done := spawnPrepare_ok known base.wire _ ok
  refine ⟨⟨.prepare _, rfl, done.launched, rfl, ?_, ?_, ?_⟩, fun _ => ?_⟩
  · intro ticket _ other found
    rw [idle other] at found
    cases found
  · intros
    contradiction
  · intros
    contradiction
  refine ⟨writer.seat, writer.flight.beside known rfl done (fun _ same => by cases same), writer.barrier,
    ⟨rfl, Nat.lt_succ_self _, Nat.le_refl _⟩, ?_, ?_, ?_, writer.issued⟩
  · intro other found
    by_cases here : other = ⟨machine.sealed.generation, machine.durableBatch, ⟨machine.claim.generation, machine.checkpointAttempt⟩⟩
    · rw [here]
      exact .inl rfl
    · rw [perform_tasks _ _ _ _ _ (by simp [WriterEffect.key, here]), idle other] at found
      cases found
  · intro cut found
    exact writer.collecting cut found
  · intro object body there
    obtain ⟨claim, less⟩ := writer.filed object body ((sameWire_spawn proc _ _).silent.filed object body there)
    exact ⟨claim, Nat.lt_succ_of_lt less⟩

theorem takeCheckpoint_performs [OrdMap.Differ] (after : WriterMachine) (input : Option CheckpointInput)
    (taken : machine.takeCheckpoint = .ok (after, input)) :
    Performs view pid machine.claim.owner
      (input.toList.map fun plan => .effect (.prepareCheckpoint plan)) proc fun next => view.WriterOk pid next after := by
  unfold takeCheckpoint at taken
  split at taken
  · cases taken
    exact writer
  rename_i free
  obtain ⟨span, _, taken⟩ := bind_ok taken
  split at taken
  · cases taken
    exact writer
  · obtain ⟨unattempted, _, taken⟩ := bind_ok taken
    split at taken
    · cases taken
      exact writer
    · cases input with
      | none =>
        obtain ⟨_, _, taken⟩ := bind_ok taken
        obtain ⟨_, _, taken⟩ := bind_ok taken
        obtain ⟨_, _, taken⟩ := bind_ok taken
        cases taken
      | some plan =>
        exact planCheckpoint_performs known base machine writer (by simpa using free) after plan taken

theorem scheduleCheckpoint_performs [OrdMap.Differ] (effects : WriterMachine.Effects)
    (scheduled : machine.scheduleCheckpoint = .ok effects) :
    Performs view pid machine.claim.owner effects.2.1 proc fun next => effects.2.2 = none → view.WriterOk pid next effects.1 := by
  unfold scheduleCheckpoint at scheduled
  split at scheduled
  · obtain ⟨⟨after, input⟩, taken, done⟩ := bind_ok scheduled
    have performs := takeCheckpoint_performs known base machine writer after input taken
    cases input <;> cases done <;> exact performs.mono _ _ _ _ _ _ (fun _ kept _ => kept)
  · split at scheduled
    · obtain ⟨_, _, done⟩ := bind_ok scheduled
      cases done
      exact nofun
    · cases scheduled
      exact fun _ => writer

theorem schedule_performs [OrdMap.Differ] (now : Instant) (effects : WriterMachine.Effects)
    (scheduled : machine.schedule now = .ok effects) :
    Performs view pid machine.claim.owner effects.2.1 proc fun next => effects.2.2 = none → view.WriterOk pid next effects.1 := by
  obtain ⟨⟨flushed, outputs⟩, flush, scheduled⟩ := bind_ok scheduled
  obtain ⟨⟨after, planned, exit⟩, checkpoint, done⟩ := bind_ok scheduled
  cases done
  have claim := (scheduleFlush_unplanned machine flushed now outputs flush).claim
  have performs := scheduleFlush_performs known base machine writer now flushed outputs flush
  apply Performs.append
  refine (performs.base known _ _ _ _ base).mono _ _ _ _ _ _ ?_
  intro next kept
  rw [← claim]
  exact scheduleCheckpoint_performs known kept.1 flushed kept.2 _ checkpoint

theorem applyEvent_stage [OrdMap.Differ] (event : WriterEvent) (told : view.Told pid proc machine event)
    (effects : WriterMachine.Effects)
    (applied : machine.applyEvent event = .ok effects) : Stage view pid proc machine effects := by
  cases event with
  | started =>
    cases applied
    exact ⟨rfl, fun _ => writer, by simp⟩
  | command envelope => exact applyCommand_stage machine writer envelope told effects applied
  | flushDue =>
    obtain ⟨_, _, done⟩ := bind_ok applied
    cases done
    exact ⟨rfl, fun _ => ⟨writer.seat, writer.flight, writer.barrier, writer.marker, writer.preparing, writer.collecting, writer.filed,
      writer.issued⟩, by simp⟩
  | ingressClosed => exact closeIngress_stage machine writer effects known applied
  | walEstablished batch result => exact completeWal_stage known machine writer batch result told effects applied
  | checkpointPrepared ticket outcome => exact completePreparation_stage known base machine writer ticket outcome told effects applied
  | sealPublished ticket result => exact completePublication_stage known base machine writer ticket result told effects applied
  | collectFinished cut =>
    obtain ⟨_, active, done⟩ := bind_ok applied
    rw [require_ok_iff] at active
    cases done
    exact ⟨rfl, fun _ => collectFinished_ok machine writer cut told active, by simp⟩
  | checkpointPreparationCancelled ticket => exact cancelPreparation_stage machine writer ticket told effects applied

theorem handle_stage [OrdMap.Differ] (now : Instant) (event : WriterEvent) (told : view.Told pid proc machine event)
    (effects : WriterMachine.Effects)
    (handled : machine.handle now event = .ok effects) : Stage view pid proc machine effects := by
  obtain ⟨_, _, handled⟩ := bind_ok handled
  obtain ⟨⟨middle, outputs, exit⟩, applied, handled⟩ := bind_ok handled
  have first : Stage view pid proc machine (middle, outputs, exit) := by
    split at applied
    · have stage := applyEvent_stage known base { machine with started := true } ⟨writer.seat, writer.flight, writer.barrier,
        writer.marker, writer.preparing, writer.collecting, writer.filed, writer.issued⟩ event told _ applied
      exact ⟨stage.claim, stage.performs, stage.exit⟩
    · exact applyEvent_stage known base machine writer event told _ applied
  cases exit with
  | some exit =>
    obtain ⟨_, same, rest⟩ := bind_ok handled
    cases same
    obtain ⟨_, _, rest⟩ := bind_ok rest
    obtain ⟨_, _, done⟩ := bind_ok rest
    cases done
    exact first
  | none =>
    obtain ⟨⟨after, planned, last⟩, scheduled, rest⟩ := bind_ok handled
    obtain ⟨_, joined, rest⟩ := bind_ok rest
    cases joined
    obtain ⟨_, _, rest⟩ := bind_ok rest
    obtain ⟨_, _, done⟩ := bind_ok rest
    cases done
    have same := first.claim
    obtain ⟨⟨claim, _, _⟩, exits⟩ := schedule_plans middle now _ scheduled
    refine ⟨claim.trans same, ?_, ?_⟩
    · apply Performs.append
      refine (first.performs.base known _ _ _ _ base).mono _ _ _ _ _ _ ?_
      intro next kept
      rw [← same]
      exact schedule_performs known kept.1 middle (kept.2 rfl) now _ scheduled
    · intro exit here
      rcases exits with running | shut
      · rw [running] at here
        cases here
      · rw [shut] at here
        cases here
        trivial

end

end View

end StromDB
