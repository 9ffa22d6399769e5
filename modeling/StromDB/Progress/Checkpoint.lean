import StromDB.Progress.Takeover
import StromDB.Progress.Turns

namespace StromDB

variable [Rkyv] [OrdMap.Differ]

omit [OrdMap.Differ] in
theorem ObjectStore.head_eq {store : ObjectStore} {sealed : Seal} (greatest : store.seals.greatest = some sealed.generation)
    (held : store.seals[sealed.generation]? = some sealed) : store.head = some sealed := by
  rw [ObjectStore.head, greatest]
  exact held

section

variable {sys : System} {pid : Pid} {recovery : WriterRecovery} (reached : ReachableSystem sys)
  (ready : (sys.procs pid).phase = .ready recovery) (completed : .completed pid recovery ∈ sys.history)

include reached completed

theorem recovered_valid (nextBatch : BatchId) : CheckpointInput.Valid
    ⟨(WriterMachine.launched recovery 10 1000 nextBatch).dueTicket, recovery.sealed, recovery.base, recovery.durable⟩ := by
  have ok := reached.ok sys
  have recovered : sys.view.Recovered pid recovery := ok.history _ completed
  exact {
    ticket := rfl
    legal := ok.view.chain.legal _ recovered.claimed.claim.1
    base := recovered.base.consistent
    snapshot := recovered.durable.consistent
    grows := View.FoldIs.grows (Nat.le_of_lt recovered.above) _ _ recovered.base recovered.durable
    advances := recovered.above
    owner := Nat.le_of_eq (congrArg SealGeneration.get recovered.claimed.same) }

include ready

theorem ready_unfiled (key : TableObjectId) (mine : key.fresh.attempt.ownerClaim = recovery.claim.generation) :
    sys.store.tables key = none := by
  have ok := reached.ok sys
  have recovered : sys.view.Recovered pid recovery := ok.history _ completed
  have quiet := (ok.procs pid).phase
  rw [ready] at quiet
  cases held : sys.store.tables key with
  | none => rfl
  | some body =>
    refine absurd (Or.inr ⟨ok.stored.tables key body held, ?_⟩) (quiet.1.unfiled key body)
    rw [mine]
    exact recovered.claimed.author

theorem checkpoint_prepared
    (span : recovery.sealed.replay.cut + WAL_SUFFIX_CHECKPOINT_SPAN_TRIGGER ≤ recovery.durableBatch.get)
    (unexhausted : recovery.sealed.generation.get + 1 < 2 ^ 64) : ∃ after nextBatch created prepared, Leads (· = pid) sys after ∧
      Prepared ⟨(WriterMachine.launched recovery 10 1000 nextBatch).dueTicket, recovery.sealed, recovery.base, recovery.durable⟩
        created prepared ∧
      after.store.seals = sys.store.seals ∧ after.store.wal = sys.store.wal ∧
      Spawned pid (WriterMachine.launched recovery 10 1000 nextBatch).duePlan
        (.checkpointPreparation (WriterMachine.launched recovery 10 1000 nextBatch).dueTicket)
        (fun _ => (.finished (.checkpointPrepared (WriterMachine.launched recovery 10 1000 nextBatch).dueTicket
          (.prepared prepared)), none)) after := by
  obtain ⟨launched, nextBatch, launches, same, spawned⟩ := launch_checkpoints reached ready completed span
  obtain ⟨created, prepared, made, facts⟩ := prepareCheckpoint_ok (recovered_valid reached completed nextBatch) unexhausted
  simp only [spawnPrepare, made] at spawned
  obtain ⟨filled, fills, settling, seals, wal⟩ := Preparing.tables _ _ created launched spawned facts.keys (by
    intro table member
    rw [same]
    exact ready_unfiled reached ready completed table.key (congrArg AttemptId.ownerClaim (facts.fresh table member).2))
  obtain ⟨after, settles, finished, store⟩ := Preparing.settled _ _ settling
  exact ⟨after, nextBatch, created, prepared, (launches.trans fills).trans settles, facts, by rw [store, seals, same],
    by rw [store, wal, same], finished⟩

theorem checkpoint_published (newest : sys.store.head = some recovery.sealed)
    (span : recovery.sealed.replay.cut + WAL_SUFFIX_CHECKPOINT_SPAN_TRIGGER ≤ recovery.durableBatch.get)
    (unexhausted : recovery.sealed.generation.get + 1 < 2 ^ 64) :
    ∃ after machine input created prepared, Leads (· = pid) sys after ∧ input.source = recovery.sealed ∧ input.base = recovery.base ∧
      input.snapshot = recovery.durable ∧ input.ticket.cut = recovery.durableBatch ∧ Prepared input created prepared ∧
      after.store.wal = sys.store.wal ∧ after.store.head = some prepared.successor ∧
      Spawned pid machine (.collection recovery.durableBatch)
        (spawnCollect ⟨recovery.durableBatch, recovery.sealed, prepared.successor⟩) after := by
  obtain ⟨before, nextBatch, created, prepared, prepares, facts, seals, wal, finished⟩ :=
    checkpoint_prepared reached ready completed span unexhausted
  obtain ⟨middle, joins, publishing, same⟩ := finished.joined _ (fun _ => rfl) _ [] _
    (WriterMachine.handle_prepared _ 0 rfl rfl rfl _ prepared rfl)
  have candidate : prepared.candidate.sealed = prepared.successor := facts.candidate
  have generation : prepared.successor.generation.get = recovery.sealed.generation.get + 1 := facts.generation
  obtain ⟨top, greatest, held⟩ := Option.bind_eq_some_iff.mp newest
  obtain ⟨_, number⟩ := (reached.ok sys).seal_mem sys top recovery.sealed held
  obtain ⟨executed, current⟩ := execute_createSeal middle.store prepared.successor top (by rw [same, seals, greatest])
    (by rw [← number]; omega)
  rw [← candidate] at executed
  obtain ⟨published, publishes, authored, store⟩ := publishing.round (.createSeal prepared.candidate.sealed) (fun _ => rfl)
    (fun _ => rfl) (by simp [Call.request]) (.createSeal (.ok .direct)) (by simp only [Call.request, executed, Call.resume]) _
    (fun _ _ => rfl)
  simp only [Call.request, executed] at store
  obtain ⟨after, collects, collecting, kept⟩ := authored.joined _ (fun _ => rfl) _ [_] _
    (WriterMachine.handle_authored _ 0 rfl rfl rfl _ prepared rfl rfl facts.source.symm _ facts.replay)
  rw [facts.source] at collecting
  refine ⟨after, _, _, created, prepared, ((prepares.trans joins).trans publishes).trans collects, rfl, rfl, rfl, rfl, facts, ?_, ?_,
    collecting⟩
  · rw [kept, store]
    exact (congrArg ObjectStore.wal same).trans wal
  · rw [kept, store, candidate]
    refine ObjectStore.head_eq current ?_
    simp

end

section

variable {sys : System} {pid : Pid} {machine : WriterMachine} {input : CollectionInput} {deletes : List TableObjectId}

abbrev Reading (pid : Pid) (machine : WriterMachine) (input : CollectionInput) (deletes : List TableObjectId) (batch : BatchId)
    (sys : System) : Prop :=
  Spawned pid machine (.collection input.cut) (CollectJob.read input deletes batch) sys

abbrev Swept (pid : Pid) (machine : WriterMachine) (input : CollectionInput) (deletes : List TableObjectId) (batch : BatchId)
    (sys : System) : Prop :=
  Spawned pid machine (.collection input.cut)
    (CollectJob.advance ⟨input, deletes, .reading batch, ⟨.readWal input.source.partition batch, 0⟩⟩ batch) sys

theorem spawnCollect_reads (spawned : Spawned pid machine (.collection input.cut) (spawnCollect input) sys)
    (advances : input.source.replay.cut < input.cut.get) : ∃ first : BatchId, first.get = input.source.replay.cut + 1 ∧
      Reading pid machine input (droppedBy input) first sys := by
  obtain ⟨first, found, number⟩ := collectFirst_ok advances
  have reads : spawnCollect input = CollectJob.read input (droppedBy input) first := by
    funext id
    simp only [spawnCollect, found]
  rw [reads] at spawned
  exact ⟨first, number, spawned⟩

theorem Reading.source (batch : BatchId) (reading : Reading pid machine input deletes batch sys) : input.source ∈ sys.view.chain := by
  obtain ⟨id, tasks, _⟩ := reading.waits
  obtain ⟨assignment, _, ok⟩ := ((reading.reached.ok sys).procs pid).base.tasks.assigned _ _ ((tasks _).trans (if_pos rfl))
  cases assignment with
  | collect other =>
    have source := ok.plan.source
    rw [← ok.same] at source
    exact source
  | wal object | prepare ticket | publish ticket candidate => exact ok.elim

theorem Reading.swept {batch : BatchId} (reading : Reading pid machine input deletes batch sys) : ∃ after, Leads (· = pid) sys after ∧
    Swept pid machine input deletes batch after ∧ after.store.seals = sys.store.seals ∧ after.store.tables = sys.store.tables ∧
    (∀ other, other ≠ batch → after.store.wal[other]? = sys.store.wal[other]?) ∧
    ∀ object, sys.store.wal[batch]? = some object → object.body.isFence = false → after.store.wal[batch]? = none := by
  have ok := reading.reached.ok sys
  let job : CollectJob := ⟨input, deletes, .reading batch, ⟨.readWal input.source.partition batch, 0⟩⟩
  cases held : sys.store.wal[batch]? with
  | none =>
    obtain ⟨after, leads, next, store⟩ := reading.round (.readWal input.source.partition batch) (fun _ => rfl) (fun _ => rfl)
      (by simp [Call.request])
      (.readWal (.ok none)) (by simp only [Call.request, ObjectStore.execute, Call.resume, held, decodeWalBody])
      (job.advance batch) (fun _ _ => rfl)
    have same : after.store = sys.store := store
    exact ⟨after, leads, next, by rw [same], by rw [same], fun _ _ => by rw [same], (by intros; contradiction)⟩
  | some object =>
    have decodes := ok.view.seen_decodes _ (reading.source batch) batch object (ok.seen batch object held)
    have resumed : (Call.readWal input.source.partition batch).resume
        (.answer (sys.store.execute (Call.readWal input.source.partition batch).request).2) =
          some (.done (.readWal (.ok (some object)))) := by
      simp only [Call.request, ObjectStore.execute, Call.resume, held, decodes]
    cases body : object.body with
    | fence =>
      obtain ⟨after, leads, next, store⟩ := reading.round _ (fun _ => rfl) (fun _ => rfl) (by simp [Call.request]) _ resumed
        (job.advance batch)
        (fun _ _ => by simp only [CollectJob.read, Task.resume, CollectJob.step, body]; rfl)
      have same : after.store = sys.store := store
      refine ⟨after, leads, next, by rw [same], by rw [same], fun _ _ => by rw [same], ?_⟩
      intro other here isRun
      cases here
      rw [body] at isRun
      cases isRun
    | run facts =>
      obtain ⟨middle, first, deleting, store⟩ := reading.round _ (fun _ => rfl) (fun _ => rfl) (by simp [Call.request]) _ resumed
        (fun id => (.collect ⟨input, deletes, .deletingRun batch, ⟨.deleteRun object.batch, id⟩⟩, some (.deleteWal object.batch)))
        (fun _ _ => by simp only [CollectJob.read, Task.resume, CollectJob.step, body])
      have same : middle.store = sys.store := store
      obtain ⟨after, second, next, last⟩ := deleting.round (.deleteRun object.batch) (fun _ => rfl) (fun _ => rfl)
        (by simp [Call.request])
        (.delete (.ok ())) rfl (job.advance batch) (fun _ _ => rfl)
      have erased : after.store = { sys.store with wal := sys.store.wal.erase object.batch } := by
        rw [last, same]
        rfl
      have number := (ok.stored.wal batch object held).1
      refine ⟨after, first.trans second, next, by rw [erased], by rw [erased], ?_, ?_⟩
      · intro other apart
        rw [erased, OrdMap.get_erase, if_neg (by rw [number]; exact apart.symm)]
      · intro _ _ _
        rw [erased, OrdMap.get_erase, if_pos number]

theorem Swept.reads {batch next : BatchId} (follows : next.get = batch.get + 1) (below : batch ≠ input.cut)
    (swept : Swept pid machine input deletes batch sys) : Reading pid machine input deletes next sys := by
  have advances : CollectJob.advance ⟨input, deletes, .reading batch, ⟨.readWal input.source.partition batch, 0⟩⟩ batch =
      CollectJob.read input deletes next := by
    funext id
    simp only [CollectJob.advance, if_neg below, BatchId.successor_ok_iff.mpr follows]
  rw [Swept, advances] at swept
  exact swept

theorem Reading.reaches {last : BatchId} (within : last.get ≤ input.cut.get) (n : Nat) : ∀ (sys : System) (batch : BatchId),
    last.get = batch.get + n → Reading pid machine input deletes batch sys →
    ∃ after, Leads (· = pid) sys after ∧ Reading pid machine input deletes last after ∧ after.store.seals = sys.store.seals ∧
      after.store.tables = sys.store.tables ∧
      ∀ other : BatchId, last.get ≤ other.get → after.store.wal[other]? = sys.store.wal[other]? := by
  induction n with
  | zero =>
    intro sys batch number reading
    have same : batch = last := BatchId.get_injective _ _ (by omega)
    rw [same] at reading
    exact ⟨sys, .refl, reading, rfl, rfl, fun _ _ => rfl⟩
  | succ n ih =>
    intro sys batch number reading
    obtain ⟨middle, first, swept, seals, tables, others, _⟩ := reading.swept
    have below : batch ≠ input.cut := by
      rintro rfl
      omega
    let next : BatchId := ⟨⟨batch.get + 1, Nat.succ_pos _, by have := last.bounded; omega⟩⟩
    have follows : next.get = batch.get + 1 := rfl
    obtain ⟨after, rest, arrived, sameSeals, sameTables, kept⟩ := ih middle next (by omega) (swept.reads follows below)
    refine ⟨after, first.trans rest, arrived, by rw [sameSeals, seals], by rw [sameTables, tables], ?_⟩
    intro other above
    rw [kept other above, others other (by rintro rfl; omega)]

theorem deletes_table {object : TableObjectId} {objects : List TableObjectId} : ∀ sys : System, object ∈ objects →
    Spawned pid machine (.collection input.cut) (fun id => CollectJob.deleteTables input deletes id objects) sys →
    ∃ after, Leads (· = pid) sys after ∧ after.store.tables object = none ∧ after.store.seals = sys.store.seals ∧
      after.store.wal = sys.store.wal := by
  induction objects with
  | nil =>
    nofun
  | cons first objects ih =>
    intro sys member deleting
    obtain ⟨middle, leads, next, store⟩ := deleting.round (.deleteTable first) (fun _ => rfl) (fun _ => rfl) (by simp [Call.request])
      (.delete (.ok ())) rfl (fun id => CollectJob.deleteTables input deletes id objects) (fun _ _ => rfl)
    have seals : middle.store.seals = sys.store.seals := by
      rw [store]
      rfl
    have wal : middle.store.wal = sys.store.wal := by
      rw [store]
      rfl
    rcases List.mem_cons.mp member with same | later
    · refine ⟨middle, leads, ?_, seals, wal⟩
      rw [store, same]
      simp [Call.request, ObjectStore.execute]
    · obtain ⟨after, rest, gone, sameSeals, sameWal⟩ := ih middle later next
      exact ⟨after, leads.trans rest, gone, sameSeals.trans seals, sameWal.trans wal⟩

end

end StromDB
