import StromDB.Refinement.Writer

namespace StromDB

open Checked WriterMachine List Option PendingBarrier Catalogue

variable [Rkyv]

theorem WriterMachine.discardWalFlight_claim {machine after : WriterMachine} {batch : BatchId}
    (discarded : machine.discardWalFlight batch = .ok after) : after.claim = machine.claim := by
  obtain ⟨_, _, done⟩ := bind_ok discarded
  cases done
  rfl

theorem Reflects.refusal (forest other : Forest) (envelope : CommandEnvelope) (refusal : AdmissionRefusal) (completion : Completion)
    (held : Reflects forest envelope completion) : Reflects other envelope (completion.refusal refusal) := by
  unfold Reflects at held
  split at held <;> trivial

namespace View

def Told (view : View) (pid : Pid) (proc : Proc) (machine : WriterMachine) : WriterEvent → Prop
  | .command envelope => envelope ∈ view.commands
  | .walEstablished batch result => ∀ flight, machine.flight = some flight → flight.batch = batch → ∃ object : WalObject,
      object.batch = batch ∧ object.body.isFence = false ∧ object.owner = machine.claim.owner ∧
      Forest.applyFacts batch object.facts machine.durable = some flight.forest ∧ view.WalResult object result
  | .checkpointPrepared ticket outcome => proc.tasks (.checkpointPreparation ticket) = none ∧ view.OutcomeOk pid ticket outcome
  | .sealPublished ticket result => ∀ prepared, machine.checkpoint = some (.publishing ticket prepared) →
      (result = .ok .authored → prepared.successor ∈ view.chain ∧ view.Authored pid prepared.successor.generation) ∧
      ∀ detail, result ≠ .error (.contradiction detail)
  | .collectFinished cut => proc.tasks (.collection cut) = none
  | .checkpointPreparationCancelled ticket => proc.tasks (.checkpointPreparation ticket) = none
  | _ => True

structure Stage [OrdMap.Differ] (view : View) (pid : Pid) (proc : Proc) (machine : WriterMachine)
    (effects : WriterMachine.Effects) : Prop where
  claim : effects.1.claim = machine.claim
  performs : Performs view pid machine.claim.owner effects.2.1 proc fun next =>
    effects.2.2 = none → view.WriterOk pid next effects.1
  exit : ∀ exit, effects.2.2 = some exit → view.ExitOk exit

theorem Stage.exits [OrdMap.Differ] {view : View} {pid : Pid} {proc : Proc} (machine after : WriterMachine)
    (same : after.claim = machine.claim)
    (exit : WriterExit) (ok : view.ExitOk exit) : Stage view pid proc machine (after, [], some exit) :=
  ⟨same, nofun, fun other here => by cases here; exact ok⟩

section

variable {view : View} {pid : Pid} {proc : Proc} (machine : WriterMachine) (writer : view.WriterOk pid proc machine)

include writer

theorem WriterOk.reply (completion : Completion) (acked : view.AckOk machine.durable completion) :
    view.ReplyFact machine.claim.owner completion :=
  ⟨machine.durableBatch.get, machine.durable, writer.seat.folded, writer.seat.owner, acked⟩

theorem WriterOk.settled_consistent : (settledForest machine.durable machine.flight).Consistent := by
  have durable := writer.seat.folded.consistent
  have flight := writer.flight
  cases here : machine.flight with
  | none => exact durable
  | some active =>
    rw [here] at flight
    obtain ⟨_, _, object, _, _, _, applied, _⟩ := flight
    exact durable.applyFacts active.batch object.facts machine.durable active.forest applied

theorem WriterOk.admitted_consistent : machine.admitted.Consistent :=
  Forest.Consistent.applyFacts machine.nextBatch machine.pending.facts _ _ (writer.settled_consistent machine) writer.barrier.folds

theorem WriterOk.quiescent (landed : machine.flight = none) (facts : machine.pending.facts = []) :
    machine.admitted = machine.durable := by
  have folds := writer.barrier.folds
  rw [landed, facts] at folds
  exact (some.inj folds).symm

theorem WriterOk.no_facts (empty : machine.pending.hasFacts = false) : machine.pending.facts = [] := by
  have bytes := writer.barrier.bytes
  have zero : machine.pending.factsBytesEstimated = 0 := by
    simp only [hasFacts, decide_eq_false_iff_not] at empty
    omega
  cases held : machine.pending.facts with
  | nil => rfl
  | cons fact rest =>
    rw [held, map_cons, sum_cons] at bytes
    have positive := fact.estimatedEncodedBytes_pos
    omega

theorem WriterOk.pushFact (admitted : AdmittedCommand) (completion : Completion)
    (applied : Forest.applyFact machine.admitted machine.nextBatch admitted.fact = some admitted.forest)
    (acked : view.AckOk admitted.forest completion) :
    view.Barrier (settledForest machine.durable machine.flight) admitted.forest machine.nextBatch
      (machine.pending.pushFact admitted.fact completion) where
  bytes := by
    rw [PendingBarrier.facts_pushFact]
    simp [PendingBarrier.pushFact, writer.barrier.bytes]
  folds := by
    rw [PendingBarrier.facts_pushFact, Forest.applyFacts_append, writer.barrier.folds]
    simp [Forest.applyFacts, applied]
  acks := by
    intro other member
    rw [PendingBarrier.replies_pushFact] at member
    rcases List.mem_append.mp member with old | new
    · have more : Forest.applyFacts machine.nextBatch [admitted.fact] machine.admitted = some admitted.forest := by
        simp [Forest.applyFacts, applied]
      exact (writer.barrier.acks other old).applyFacts
        (writer.admitted_consistent machine) more
    · rw [List.mem_singleton.mp new]
      exact acked

theorem WriterOk.pushIdempotent (completion : Completion) (acked : view.AckOk machine.admitted completion) :
    view.Barrier (settledForest machine.durable machine.flight) machine.admitted machine.nextBatch
      (machine.pending.pushIdempotent completion) where
  bytes := by
    rw [facts_pushIdempotent]
    exact writer.barrier.bytes
  folds := by
    rw [facts_pushIdempotent]
    exact writer.barrier.folds
  acks := by
    intro other member
    rw [replies_pushIdempotent] at member
    rcases mem_append.mp member with old | new
    · exact writer.barrier.acks other old
    · rw [mem_singleton.mp new]
      exact acked

theorem admit_ok (envelope : CommandEnvelope) (issued : envelope ∈ view.commands) (after : WriterMachine) (answer : Option Completion)
    (admitted : machine.admitCommand envelope = .ok (after, answer)) :
    after.claim = machine.claim ∧ view.WriterOk pid proc after ∧
      ∀ completion, answer = some completion → view.ReplyFact machine.claim.owner completion := by
  obtain ⟨_, _, admitted⟩ := bind_ok admitted
  obtain ⟨decision, decided, done⟩ := bind_ok admitted
  obtain ⟨_, made, answers⟩ := decideAdmission_answers machine.admitted (writer.admitted_consistent machine) machine.nextBatch envelope
  cases made.symm.trans decided
  cases decision with
  | fact result completion =>
    obtain ⟨rfl, mutates, applied, after⟩ := answers
    have promises := reflects (Completion.mutates_succeeds _ mutates) after
    simp only [acceptFact] at done
    split at done
    · cases done
      refine ⟨rfl, ⟨writer.seat, writer.flight, writer.barrier, writer.marker, writer.preparing, writer.collecting, writer.filed,
        writer.issued⟩, ?_⟩
      intro told here
      cases here
      exact writer.reply machine _ ⟨envelope, issued, by rw [Completion.reply_refusal, answer_reply],
        promises.refusal _ _ _ _ _⟩
    · obtain ⟨_, _, done⟩ := bind_ok done
      cases done
      refine ⟨rfl, ⟨writer.seat, writer.flight, ?_, writer.marker, writer.preparing, writer.collecting, writer.filed,
        writer.issued⟩, by simp⟩
      exact writer.pushFact machine result _ applied ⟨envelope, issued, (answer_reply _ _).symm, promises⟩
  | idempotent completion =>
    obtain ⟨answer, succeeds, _, same⟩ := answers
    have acked : view.AckOk machine.admitted completion :=
      ⟨envelope, issued, by rw [answer, answer_reply], answer ▸ reflects (answer ▸ succeeds) same.symm⟩
    simp only [acceptIdempotent, pure_eq_ok] at done
    split at done
    · rename_i quiet
      cases done
      refine ⟨rfl, writer, ?_⟩
      intro told here
      cases here
      have landed : machine.flight = none := isNone_iff_eq_none.mp quiet.1
      have empty : machine.pending.facts = [] := writer.no_facts machine (by simpa using quiet.2)
      rw [writer.quiescent machine landed empty] at acked
      exact writer.reply machine _ acked
    · cases done
      exact ⟨rfl, ⟨writer.seat, writer.flight, writer.pushIdempotent machine _ acked, writer.marker, writer.preparing,
        writer.collecting, writer.filed, writer.issued⟩, by simp⟩
  | refused completion =>
    obtain ⟨rfl, refuses, _⟩ := answers
    cases done
    refine ⟨rfl, writer, ?_⟩
    intro told here
    cases here
    exact writer.reply machine _ ⟨envelope, issued, (answer_reply _ _).symm, reflects_refusal refuses _⟩

theorem applyCommand_stage [OrdMap.Differ] (envelope : CommandEnvelope) (issued : envelope ∈ view.commands)
    (effects : WriterMachine.Effects)
    (applied : machine.applyCommand envelope = .ok effects) : Stage view pid proc machine effects := by
  obtain ⟨_, _, applied⟩ := bind_ok applied
  obtain ⟨_, _, applied⟩ := bind_ok applied
  obtain ⟨⟨after, answer⟩, admitted, done⟩ := bind_ok applied
  obtain ⟨claim, kept, replies⟩ := admit_ok machine writer envelope issued after answer admitted
  cases answer with
  | none =>
    cases done
    exact ⟨claim, fun _ => kept, by simp⟩
  | some completion =>
    cases done
    refine ⟨claim, ⟨?_, fun _ _ => kept⟩, by simp⟩
    intro told member
    rw [mem_singleton.mp member]
    exact replies completion rfl

end

section

variable {view : View} {pid : Pid} {proc : Proc} (known : view.Ok) (machine : WriterMachine)
  (writer : view.WriterOk pid proc machine)

include known writer

theorem recordWalDurable_stage [OrdMap.Differ] (batch : BatchId)
    (told : view.Told pid proc machine (.walEstablished batch (.ok .durable)))
    (after : WriterMachine) (outputs : List WriterOutput) (recorded : machine.recordWalDurable batch = .ok (after, outputs)) :
    Stage view pid proc machine (after, outputs, none) := by
  obtain ⟨active, found, recorded⟩ := bind_ok recorded
  obtain ⟨present, here, found⟩ := bind_ok found
  obtain ⟨_, equal, found⟩ := bind_ok found
  cases found
  rw [expect_ok_iff] at here
  rw [require_ok_iff] at equal
  subst equal
  obtain ⟨object, sameBatch, run, owner, applied, result⟩ := told active here rfl
  have flight := writer.flight
  rw [here] at flight
  obtain ⟨number, next, entry, entryBatch, _, _, _, only, _, acks⟩ := flight
  have seen := result.durable rfl
  have inLog : object ∈ view.log := by
    rcases seen.2 with inside | stale
    · exact inside
    · rw [(known.residue.stale object stale).1] at run
      cases run
  have folded : view.FoldIs active.batch.get active.forest := by
    rw [← sameBatch] at applied number ⊢
    refine FoldIs.step object machine.durable active.forest known.log inLog ?_ applied
    rw [number, Nat.add_sub_cancel]
    exact writer.seat.folded
  have owned : view.OwnerIs active.batch.get machine.claim.generation.get := by
    rw [← sameBatch]
    exact ⟨known.log.batch_le object inLog, by rw [known.log.ownerAt_batch object inLog, owner]; rfl⟩
  have cut := writer.seat.cut
  have seat : view.Seat pid machine.claim machine.sealed machine.base active.forest active.batch :=
    { writer.seat with cut := by omega, owner := owned, folded := folded }
  have landed : view.FlightOk pid proc machine.claim active.forest active.batch machine.nextBatch none := by
    refine ⟨by omega, ?_⟩
    intro other there
    rcases only other there with below | same
    · omega
    · rw [same, entryBatch]
  have marker : view.MarkerOk pid proc machine.claim machine.checkpointAttempt active.batch machine.checkpoint := by
    have marker := writer.marker
    have later : ∀ ticket, TicketOk machine.claim machine.checkpointAttempt machine.durableBatch ticket →
        TicketOk machine.claim machine.checkpointAttempt active.batch ticket :=
      fun ticket ok => ⟨ok.1, ok.2.1, by have := ok.2.2; omega⟩
    unfold MarkerOk at marker ⊢
    split at marker
    · trivial
    · exact later _ marker
    · exact later _ marker
    · exact ⟨later _ marker.1, marker.2⟩
  have barrier : view.Barrier active.forest machine.admitted machine.nextBatch machine.pending := by
    have barrier := writer.barrier
    rwa [here] at barrier
  have replies : ∀ completion ∈ active.replies, view.ReplyFact machine.claim.owner completion :=
    fun completion member => ⟨active.batch.get, active.forest, folded, owned, acks completion member⟩
  split at recorded
  · obtain ⟨_, admitted, recorded⟩ := bind_ok recorded
    rw [require_ok_iff] at admitted
    cases recorded
    refine ⟨rfl, ⟨trivial, fun _ => ⟨replies, fun _ _ => ?_⟩⟩, by simp⟩
    exact ⟨seat, landed, admitted ▸ barrier, marker, writer.preparing, writer.collecting, writer.filed, writer.issued⟩
  · cases recorded
    refine ⟨rfl, ⟨trivial, fun _ => ⟨replies, fun _ _ => ?_⟩⟩, by simp⟩
    exact ⟨seat, landed, barrier, marker, writer.preparing, writer.collecting, writer.filed, writer.issued⟩

theorem completeWal_stage [OrdMap.Differ] (batch : BatchId) (result : Except TypedStoreError WalEstablishment)
    (told : view.Told pid proc machine (.walEstablished batch result)) (effects : WriterMachine.Effects)
    (completed : machine.completeWal batch result = .ok effects) : Stage view pid proc machine effects := by
  have exits : ∀ exit, view.ExitOk exit →
      (do let after ← machine.discardWalFlight batch; pure (after, [], some exit)) = (.ok effects : Checked WriterMachine.Effects) →
      Stage view pid proc machine effects := by
    intro exit ok done
    obtain ⟨after, discarded, done⟩ := bind_ok done
    cases done
    exact Stage.exits machine after (discardWalFlight_claim discarded) exit ok
  cases result with
  | ok outcome =>
    cases outcome with
    | durable =>
      obtain ⟨⟨after, outputs⟩, recorded, done⟩ := bind_ok completed
      cases done
      exact recordWalDurable_stage known machine writer batch told after outputs recorded
    | occupied => exact exits (.fenced batch) trivial completed
    | unresolvedAbsent => exact exits (.poisoned batch _) trivial completed
  | error error =>
    cases error with
    | retryable detail | rejected detail => exact exits (.poisoned batch detail) trivial completed
    | contradiction detail =>
      obtain ⟨after, discarded, _⟩ := bind_ok completed
      obtain ⟨active, found, _⟩ := bind_ok discarded
      obtain ⟨present, here, found⟩ := bind_ok found
      obtain ⟨_, equal, found⟩ := bind_ok found
      rw [expect_ok_iff] at here
      rw [require_ok_iff] at equal
      obtain ⟨_, _, _, _, _, legal⟩ := told present here equal.symm
      exact absurd rfl (legal.legal detail)

end

section

variable {view : View} {pid : Pid} {proc : Proc} {assignment : Assignment} {sent : Sent Task} (known : view.Ok)
  (silent : view.issue pid sent.2 = view)

include known silent

omit known in
theorem Keeps.spawned : Keeps pid view view proc (proc.spawn assignment.key sent) := by
  have held : Keeps pid view (view.issue pid sent.2) proc (proc.spawn assignment.key sent) := keeps_spawn _ sent
  rwa [silent] at held

theorem Working.spawned (done : Launched view pid proc assignment sent) (watched : assignment.watched = true) :
    view.Working pid (proc.spawn assignment.key sent) assignment := by
  intro task found
  rw [spawn_task] at found
  cases found
  have there := done.task
  rw [silent] at there
  exact there.watched (sameWire_spawn proc assignment.key sent).keeps known.chain known.chain assignment watched

theorem Working.beside (other : Assignment) (watched : other.watched = true) (apart : other.key ≠ assignment.key)
    (working : view.Working pid proc other) : view.Working pid (proc.spawn assignment.key sent) other := by
  intro task found
  rw [spawn_tasks assignment sent other.key apart] at found
  exact (working task found).watched (Keeps.spawned silent) known.chain known.chain other watched

theorem FlightOk.beside (plain : SentOk view pid proc assignment sent) (apart : ∀ batch, assignment.key ≠ .wal batch)
    (claim : AuthoredClaim) (durable : Forest) (durableBatch nextBatch : BatchId) (flight : Option InFlight)
    (ok : view.FlightOk pid proc claim durable durableBatch nextBatch flight) :
    view.FlightOk pid (proc.spawn assignment.key sent) claim durable durableBatch nextBatch flight := by
  refine ok.keeps (Keeps.spawned silent) ?_ ?_
  · intro object there
    have sent := (sameWire_spawn proc assignment.key sent).silent.wrote object there
    exact plain.wrote object (by rwa [silent])
  · exact fun object => Working.beside known silent (.wal object) rfl (fun same => apart _ same.symm)

theorem MarkerOk.beside (assignment : Assignment) (apart : ∀ ticket, assignment.key ≠ .sealPublication ticket)
    (claim : AuthoredClaim) (attempts : Nat)
    (durableBatch : BatchId) (marker : Option CheckpointMarker) (ok : view.MarkerOk pid proc claim attempts durableBatch marker) :
    view.MarkerOk pid (proc.spawn assignment.key sent) claim attempts durableBatch marker :=
  ok.keeps (Keeps.spawned silent) known.chain known.chain
    (fun ticket sealed => Working.beside known silent (.publish ticket sealed) rfl (fun same => apart _ same.symm))

omit known in
theorem Filed.beside (done : Launched view pid proc assignment sent) (unprepared : ∀ ticket, assignment ≠ .prepare ticket)
    (object : TableObjectId) (body : SstObject) (there : view.Filed pid (proc.spawn assignment.key sent) object body) :
    view.Filed pid proc object body := by
  have filed := (sameWire_spawn proc assignment.key sent).silent.filed object body there
  rcases done.filed object body (by rwa [silent]) with old | ⟨ticket, same, _⟩
  · exact old
  · exact absurd same (unprepared ticket)

end

section

variable {view : View} {pid : Pid} {proc : Proc} (known : view.Ok) (base : view.BaseOk pid proc) (machine : WriterMachine)
  (writer : view.WriterOk pid proc machine)

theorem WriterOk.prepared (writer : view.WriterOk pid proc machine) (ticket : CheckpointTicket)
    (gone : proc.tasks (.checkpointPreparation ticket) = none)
    (marker : machine.checkpoint = some (.preparing ticket) ∨ machine.checkpoint = some (.cancelling ticket))
    (other : CheckpointTicket) :
    proc.tasks (.checkpointPreparation other) = none := by
  by_contra present
  have same : other = ticket := by
    rcases writer.preparing other (isSome_iff_ne_none.mpr present) with here | here <;>
      rcases marker with there | there <;> rw [there] at here <;> cases here <;> rfl
  exact present (same ▸ gone)

include writer

theorem WriterOk.clear (idle : ∀ other, proc.tasks (.checkpointPreparation other) = none) :
    view.WriterOk pid proc { machine with checkpoint := none } :=
  ⟨writer.seat, writer.flight, writer.barrier, trivial, fun ticket found => (by rw [idle ticket] at found; cases found),
    writer.collecting, writer.filed, writer.issued⟩

theorem cancelPreparation_stage [OrdMap.Differ] (ticket : CheckpointTicket)
    (told : view.Told pid proc machine (.checkpointPreparationCancelled ticket)) (effects : WriterMachine.Effects)
    (completed : machine.cancelPreparation ticket = .ok effects) : Stage view pid proc machine effects := by
  unfold cancelPreparation at completed
  split at completed
  · rename_i active marker
    obtain ⟨_, same, done⟩ := bind_ok completed
    rw [require_ok_iff] at same
    cases done
    subst same
    exact ⟨rfl, fun _ => writer.clear machine (writer.prepared machine ticket told (.inr marker)), by simp⟩
  · cases completed

theorem collectFinished_ok (cut : BatchId) (gone : proc.tasks (.collection cut) = none) (active : some cut = machine.collector) :
    view.WriterOk pid proc { machine with collector := none } := by
  refine ⟨writer.seat, writer.flight, writer.barrier, writer.marker, writer.preparing, ?_, writer.filed, writer.issued⟩
  intro other found
  have here := (writer.collecting other found).1
  rw [← active] at here
  cases here
  rw [gone] at found
  cases found

theorem closeIngress_stage [OrdMap.Differ] (effects : WriterMachine.Effects) (known : view.Ok)
    (closed : machine.closeIngress = .ok effects) :
    Stage view pid proc machine effects := by
  obtain ⟨_, _, closed⟩ := bind_ok closed
  split at closed
  · rename_i ticket marker
    cases closed
    refine ⟨rfl, ⟨trivial, fun _ _ => ?_⟩, by simp⟩
    have kept := writer.cancel known machine (.checkpointPreparation ticket)
    refine ⟨kept.seat, kept.flight, kept.barrier, ?_, ?_, kept.collecting, kept.filed, kept.issued⟩
    · have old := writer.marker
      rwa [marker] at old
    · intro other found
      rcases kept.preparing other found with here | here <;> rw [marker] at here <;> cases here
      exact .inr rfl
  · cases closed
    exact ⟨rfl, fun _ => ⟨writer.seat, writer.flight, writer.barrier, writer.marker, writer.preparing, writer.collecting,
      writer.filed, writer.issued⟩, by simp⟩

include known base

theorem publishAuthority_performs [OrdMap.Differ] (ticket : CheckpointTicket) (prepared : PreparedCheckpoint)
    (created : List EncodedTable)
    (planned : view.Planned pid ticket created prepared) (established : ∀ table ∈ created, view.tables table.key = some table.object)
    (marker : machine.checkpoint = some (.preparing ticket)) (gone : proc.tasks (.checkpointPreparation ticket) = none) :
    Performs view pid machine.claim.owner [.effect (.publishAuthority ticket prepared.candidate)] proc fun next =>
      view.WriterOk pid next { machine with checkpoint := some (.publishing ticket prepared) } := by
  have op : view.SealOp prepared.candidate.sealed := by
    rw [planned.candidate]
    exact .inr (.inr (planned.advanceOp established))
  have plain : SentOk view pid proc (.publish ticket prepared.successor)
      (spawnEffect proc.nextRequest (.publishAuthority ticket prepared.candidate)) :=
    SentOk.plain known base.wire _ _ (.createSeal prepared.candidate.sealed) rfl op
      ⟨rfl, .inl (by rw [planned.candidate]), PendingOk.plain_now base.wire (.createSeal prepared.candidate.sealed) rfl⟩
  refine ⟨⟨.publish ticket prepared.successor, rfl, plain.launched, rfl, ?_, ?_, ?_⟩, fun _ => ?_⟩
  · nofun
  · nofun
  · intro candidate same
    cases same
    exact op
  have ticketOk : TicketOk machine.claim machine.checkpointAttempt machine.durableBatch ticket := by
    have old := writer.marker
    rwa [marker] at old
  refine ⟨writer.seat, writer.flight.beside known rfl plain nofun, writer.barrier,
    ⟨ticketOk, ⟨created, planned⟩, Working.spawned known rfl plain.launched rfl⟩, ?_, ?_, ?_, writer.issued⟩
  · intro other found
    rw [perform_tasks _ _ _ _ _ (by simp [WriterEffect.key]), writer.prepared machine ticket gone (.inl marker) other] at found
    cases found
  · intro cut found
    exact writer.collecting cut found
  · intro object body there
    exact writer.filed object body (Filed.beside rfl plain.launched nofun object body there)

theorem completePreparation_stage [OrdMap.Differ] (ticket : CheckpointTicket) (outcome : PreparationOutcome)
    (told : view.Told pid proc machine (.checkpointPrepared ticket outcome)) (effects : WriterMachine.Effects)
    (completed : machine.completePreparation ticket outcome = .ok effects) : Stage view pid proc machine effects := by
  obtain ⟨gone, result⟩ := told
  obtain ⟨marker, here, chosen⟩ := bind_ok completed
  rw [expect_ok_iff] at here
  cases marker with
  | cancelling active =>
    obtain ⟨_, same, done⟩ := bind_ok chosen
    rw [require_ok_iff] at same
    subst same
    cases done
    exact ⟨rfl, fun _ => writer.clear machine (writer.prepared machine ticket gone (.inr here)), by simp⟩
  | publishing active prepared => cases chosen
  | preparing active =>
    obtain ⟨_, same, done⟩ := bind_ok chosen
    rw [require_ok_iff] at same
    subst same
    cases outcome with
    | prepared prepared =>
      cases done
      obtain ⟨created, planned, established⟩ := result
      refine ⟨rfl, ?_, by simp⟩
      exact (publishAuthority_performs known base machine writer ticket prepared created planned established here gone).mono _ _ _ _ _ _
        (fun _ kept _ => kept)
    | abandoned =>
      cases done
      exact ⟨rfl, fun _ => writer.clear machine (writer.prepared machine ticket gone (.inl here)), by simp⟩
    | contradiction detail =>
      cases done
      refine Stage.exits machine { machine with checkpoint := none } rfl _ ?_
      have exhausted := result.1
      have within := result.2
      simp only [ExitOk]
      omega

omit base in
theorem WriterOk.install (ticket : CheckpointTicket) (prepared : PreparedCheckpoint) (created : List EncodedTable)
    (planned : view.Planned pid ticket created prepared) (below : ticket.cut.get ≤ machine.durableBatch.get)
    (published : prepared.successor ∈ view.chain) (source : machine.sealed = prepared.source) :
    view.Seat pid machine.claim prepared.successor prepared.snapshot machine.durable machine.durableBatch := by
  have next := planned.advance.generation
  have within := writer.seat.within
  have cut : prepared.successor.replay.cut = ticket.cut.get := by
    rw [planned.replay]
    rfl
  rw [source] at within
  refine ⟨writer.seat.author, published, by omega, ?_, ?_, by omega, writer.seat.owner, writer.seat.folded⟩
  · intro granted claim bound
    by_cases same : granted.generation.get = prepared.successor.generation.get
    · obtain ⟨here, origin, member, claimed⟩ := claim
      obtain ⟨number, copied⟩ := Seal.claimSuccessor_ok_iff.mp claimed
      have first := known.chain.unique origin prepared.source member planned.source (by omega)
      have second := known.chain.unique granted prepared.successor here published same
      have advances := planned.advance.cut
      rw [← first, ← second, copied] at advances
      exact absurd advances (Nat.lt_irrefl _)
    · exact writer.seat.newest granted claim (by rw [source]; omega)
  · rw [cut]
    exact planned.folded

theorem collect_performs [OrdMap.Differ] (free : machine.collector = none) (input : CollectionInput) (plan : view.CollectPlan pid input)
    (ahead : ∀ later : BatchId, input.source.replay.cut < later.get → (pid, later) ∉ view.issued)
    (bound : input.cut.get ≤ machine.sealed.replay.cut) :
    Performs view pid machine.claim.owner [.effect (.collect input)] proc fun next =>
      view.WriterOk pid next { machine with collector := some input.cut } := by
  have sends : ∃ request, (spawnCollect input proc.nextRequest).2 = request ∧ ∀ other, request = some other → Plain other = true ∧
      ∀ candidate, other ≠ .createSeal candidate := by
    unfold spawnCollect
    split <;> simp [CollectJob.read, Plain]
  obtain ⟨request, same, plain⟩ := sends
  have silent : view.issue pid (spawnCollect input proc.nextRequest).2 = view := by
    rw [same]
    cases request with
    | none => rfl
    | some other => exact issue_plain (plain other rfl).1
  have done := spawnCollect_ok known base.wire input plan ahead
  have idle : ∀ cut, proc.tasks (.collection cut) = none := by
    intro cut
    by_contra present
    have here := (writer.collecting cut (isSome_iff_ne_none.mpr present)).1
    rw [free] at here
    cases here
  refine ⟨⟨.collect input, rfl, done.launched, silent, ?_, ?_, ?_⟩, fun _ => ?_⟩
  · intros
    contradiction
  · intro other _ cut found
    rw [idle cut] at found
    cases found
  · intro candidate here
    exact absurd rfl ((plain _ (same.symm.trans here)).2 candidate)
  refine ⟨writer.seat, writer.flight.beside known silent done (fun _ same => by cases same), writer.barrier,
    MarkerOk.beside known silent (.collect input) (fun _ same => by cases same) _ _ _ _ writer.marker, ?_, ?_, ?_,
    writer.issued⟩
  · intro ticket found
    rw [perform_tasks _ _ _ _ _ (by simp [WriterEffect.key])] at found
    exact writer.preparing ticket found
  · intro cut found
    by_cases here : cut = input.cut
    · rw [here]
      exact ⟨rfl, bound⟩
    · rw [perform_tasks _ _ _ _ _ (by simp [WriterEffect.key, here]), idle cut] at found
      cases found
  · intro object body there
    exact writer.filed object body (Filed.beside silent done.launched (fun _ same => by cases same) object body there)

theorem completeAuthored_stage [OrdMap.Differ] (ticket : CheckpointTicket) (prepared : PreparedCheckpoint)
    (marker : machine.checkpoint = some (.publishing ticket prepared)) (published : prepared.successor ∈ view.chain)
    (author : view.Authored pid prepared.successor.generation) (effects : WriterMachine.Effects)
    (completed : completeAuthored { machine with checkpoint := none } prepared = .ok effects) :
    Stage view pid proc machine effects := by
  have publishing := writer.marker
  rw [marker] at publishing
  obtain ⟨⟨_, _, below⟩, ⟨created, planned⟩, _⟩ := publishing
  have idle : ∀ other, proc.tasks (.checkpointPreparation other) = none := by
    intro other
    by_contra present
    rcases writer.preparing other (isSome_iff_ne_none.mpr present) with here | here <;> rw [marker] at here <;> cases here
  have cleared := writer.clear machine idle
  obtain ⟨⟨snapshot, input⟩, authored, completed⟩ := bind_ok completed
  obtain ⟨cut, replay, authored⟩ := bind_ok authored
  rw [expect_ok_iff, planned.replay] at replay
  cases replay
  cases authored
  obtain ⟨installed, install, done⟩ := bind_ok completed
  obtain ⟨_, source, install⟩ := bind_ok install
  rw [require_ok_iff] at source
  cases install
  have seat := writer.install known machine ticket prepared created planned below published source
  have advances := planned.advance.cut
  have sealedCut : prepared.successor.replay.cut = ticket.cut.get := by
    rw [planned.replay]
    rfl
  have old : machine.sealed.replay.cut = prepared.source.replay.cut := by
    rw [show machine.sealed = prepared.source from source]
  have issued : ∀ batch : BatchId, (pid, batch) ∈ view.issued → batch.get ≤ prepared.successor.replay.cut := by
    intro batch there
    have := writer.issued batch there
    omega
  have collecting : ∀ cut : BatchId, (proc.tasks (.collection cut)).isSome → machine.collector = some cut ∧
      cut.get ≤ prepared.successor.replay.cut := by
    intro cut found
    obtain ⟨here, bound⟩ := writer.collecting cut found
    exact ⟨here, by omega⟩
  split at done
  · rename_i starts
    cases done
    refine ⟨rfl, ⟨trivial, fun _ => ?_⟩, by simp⟩
    have stands : view.WriterOk pid proc
        { machine with checkpoint := none, sealed := prepared.successor, base := prepared.snapshot } :=
      ⟨seat, cleared.flight, cleared.barrier, cleared.marker, cleared.preparing, collecting, cleared.filed, issued⟩
    refine (collect_performs known base _ stands (isNone_iff_eq_none.mp starts.2) _
      ⟨planned.source, published, planned.advance.generation, author, sealedCut, by simp only; omega⟩ ?_
      (Nat.le_of_eq sealedCut.symm)).mono
        _ _ _ _ _ _ (fun _ kept _ => kept)
    intro later above there
    have := writer.issued later there
    simp only at above
    omega
  · cases done
    exact ⟨rfl, ⟨trivial, fun _ _ => ⟨seat, cleared.flight, cleared.barrier, cleared.marker, cleared.preparing, collecting,
      cleared.filed, issued⟩⟩, by simp⟩

theorem completePublication_stage [OrdMap.Differ] (ticket : CheckpointTicket) (result : Except TypedStoreError SealPublication)
    (told : view.Told pid proc machine (.sealPublished ticket result)) (effects : WriterMachine.Effects)
    (completed : machine.completePublication ticket result = .ok effects) : Stage view pid proc machine effects := by
  obtain ⟨marker, here, chosen⟩ := bind_ok completed
  rw [expect_ok_iff] at here
  cases marker with
  | preparing active | cancelling active => cases chosen
  | publishing active prepared =>
    obtain ⟨_, same, done⟩ := bind_ok chosen
    rw [require_ok_iff] at same
    subst same
    obtain ⟨authored, legal⟩ := told prepared here
    cases result with
    | ok outcome =>
      cases outcome with
      | authored =>
        obtain ⟨published, author⟩ := authored rfl
        exact completeAuthored_stage known base machine writer ticket prepared here published author effects done
      | noAuthority | unresolved =>
        cases done
        exact Stage.exits machine { machine with checkpoint := none } rfl _ trivial
    | error error =>
      cases error with
      | retryable detail | rejected detail =>
        cases done
        exact Stage.exits machine { machine with checkpoint := none } rfl _ trivial
      | contradiction detail => exact absurd rfl (legal detail)

end

end View

end StromDB
