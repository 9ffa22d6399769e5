import StromDB.Refinement.Admission
import StromDB.Refinement.Outputs

namespace StromDB

variable [Rkyv]

def Assignment.watched : Assignment → Bool
  | .wal _ => true
  | .publish _ _ => true
  | _ => false

namespace View

structure Seat (view : View) (pid : Pid) (claim : AuthoredClaim) (sealed : Seal) (base durable : Forest) (durableBatch : BatchId) :
    Prop where
  author : view.Authored pid claim.generation
  published : sealed ∈ view.chain
  within : claim.generation.get ≤ sealed.generation.get
  newest : ∀ granted, view.Claim granted → granted.generation.get ≤ sealed.generation.get →
    granted.generation.get ≤ claim.generation.get
  rooted : view.FoldIs sealed.replay.cut base
  cut : sealed.replay.cut ≤ durableBatch.get
  owner : view.OwnerIs durableBatch.get claim.generation.get
  folded : view.FoldIs durableBatch.get durable

def Working (view : View) (pid : Pid) (proc : Proc) (assignment : Assignment) : Prop :=
  ∀ task, proc.tasks assignment.key = some task → view.TaskOk pid proc assignment task

def FlightOk (view : View) (pid : Pid) (proc : Proc) (claim : AuthoredClaim) (durable : Forest) (durableBatch nextBatch : BatchId) :
    Option InFlight → Prop
  | none => nextBatch.get = durableBatch.get + 1 ∧ ∀ object, view.Wrote pid proc object → object.batch.get ≤ durableBatch.get
  | some flight => flight.batch.get = durableBatch.get + 1 ∧ nextBatch.get = durableBatch.get + 2 ∧ ∃ object : WalObject,
      object.batch = flight.batch ∧ object.body.isFence = false ∧ object.owner = claim.owner ∧
      Forest.applyFacts flight.batch object.facts durable = some flight.forest ∧
      (∀ other, view.Wrote pid proc other → other.batch.get ≤ durableBatch.get ∨ other = object) ∧
      view.Working pid proc (.wal object) ∧ ∀ completion ∈ flight.replies, view.AckOk flight.forest completion

structure Barrier (view : View) (settled admitted : Forest) (nextBatch : BatchId) (pending : PendingBarrier) : Prop where
  bytes : pending.factsBytesEstimated = (pending.facts.map OperationFact.estimatedEncodedBytes).sum
  folds : Forest.applyFacts nextBatch pending.facts settled = some admitted
  acks : ∀ completion ∈ pending.replies, view.AckOk admitted completion

def TicketOk (claim : AuthoredClaim) (attempts : Nat) (durableBatch : BatchId) (ticket : CheckpointTicket) : Prop :=
  ticket.attempt.ownerClaim = claim.generation ∧ ticket.attempt.localCounter < attempts ∧ ticket.cut.get ≤ durableBatch.get

def MarkerOk (view : View) (pid : Pid) (proc : Proc) (claim : AuthoredClaim) (attempts : Nat) (durableBatch : BatchId) :
    Option CheckpointMarker → Prop
  | none => True
  | some (.preparing ticket) => TicketOk claim attempts durableBatch ticket
  | some (.cancelling ticket) => TicketOk claim attempts durableBatch ticket
  | some (.publishing ticket prepared) => TicketOk claim attempts durableBatch ticket ∧
      (∃ created, view.Planned pid ticket created prepared) ∧ view.Working pid proc (.publish ticket prepared.successor)

structure WriterOk (view : View) (pid : Pid) (proc : Proc) (machine : WriterMachine) : Prop where
  seat : view.Seat pid machine.claim machine.sealed machine.base machine.durable machine.durableBatch
  flight : view.FlightOk pid proc machine.claim machine.durable machine.durableBatch machine.nextBatch machine.flight
  barrier : view.Barrier (settledForest machine.durable machine.flight) machine.admitted machine.nextBatch machine.pending
  marker : view.MarkerOk pid proc machine.claim machine.checkpointAttempt machine.durableBatch machine.checkpoint
  preparing : ∀ ticket, (proc.tasks (.checkpointPreparation ticket)).isSome →
    machine.checkpoint = some (.preparing ticket) ∨ machine.checkpoint = some (.cancelling ticket)
  collecting : ∀ cut : BatchId, (proc.tasks (.collection cut)).isSome → machine.collector = some cut ∧
    cut.get ≤ machine.sealed.replay.cut
  filed : ∀ object body, view.Filed pid proc object body →
    object.fresh.attempt.ownerClaim = machine.claim.generation ∧ object.fresh.attempt.localCounter < machine.checkpointAttempt
  issued : ∀ batch : BatchId, (pid, batch) ∈ view.issued → batch.get ≤ machine.sealed.replay.cut

section

variable {pid : Pid} {before after : View} {proc next : Proc} (held : Keeps pid before after proc next) (old : before.ChainOk)
  (new : after.ChainOk)

include held old new

theorem Seat.extend (claim : AuthoredClaim) (sealed : Seal) (base durable : Forest) (durableBatch : BatchId)
    (known : before.Seat pid claim sealed base durable durableBatch) : after.Seat pid claim sealed base durable durableBatch where
  author := known.author.extend held.extended
  published := held.extended.chain.subset known.published
  within := known.within
  newest := by
    intro granted claimed below
    have within := old.generation_le sealed known.published
    exact known.newest granted (claimed.reflect held.extended old new granted (by omega)) below
  rooted := known.rooted.extend held.extended
  cut := known.cut
  owner := known.owner.extend held.extended
  folded := known.folded.extend held.extended

theorem TaskOk.watched (assignment : Assignment) (watched : assignment.watched = true) (task : Task)
    (ok : before.TaskOk pid proc assignment task) : after.TaskOk pid next assignment task :=
  ok.keeps held old new assignment (by rintro ticket rfl; cases watched) (by rintro input rfl; cases watched) task

omit old new in
theorem FlightOk.keeps (wrote : ∀ object, after.Wrote pid next object → before.Wrote pid proc object)
    (tasks : ∀ object, before.Working pid proc (.wal object) → after.Working pid next (.wal object)) (claim : AuthoredClaim)
    (durable : Forest) (durableBatch nextBatch : BatchId) (flight : Option InFlight)
    (known : before.FlightOk pid proc claim durable durableBatch nextBatch flight) :
    after.FlightOk pid next claim durable durableBatch nextBatch flight := by
  cases flight with
  | none => exact ⟨known.1, fun object there => known.2 object (wrote object there)⟩
  | some active =>
    obtain ⟨batch, number, object, same, run, owner, applied, only, working, acks⟩ := known
    exact ⟨batch, number, object, same, run, owner, applied, fun other there => only other (wrote other there), tasks object working,
      fun completion member => (acks completion member).extend held.extended⟩

theorem MarkerOk.keeps
    (tasks : ∀ ticket sealed, before.Working pid proc (.publish ticket sealed) → after.Working pid next (.publish ticket sealed))
    (claim : AuthoredClaim) (attempts : Nat) (durableBatch : BatchId) (marker : Option CheckpointMarker)
    (known : before.MarkerOk pid proc claim attempts durableBatch marker) :
    after.MarkerOk pid next claim attempts durableBatch marker := by
  unfold MarkerOk at known ⊢
  split at known
  · trivial
  · exact known
  · exact known
  · obtain ⟨ok, ⟨created, planned⟩, working⟩ := known
    exact ⟨ok, ⟨created, planned.extend held.extended old new⟩, tasks _ _ working⟩

omit old new in
theorem Barrier.extend (settled admitted : Forest) (nextBatch : BatchId) (pending : PendingBarrier)
    (known : before.Barrier settled admitted nextBatch pending) : after.Barrier settled admitted nextBatch pending :=
  ⟨known.bytes, known.folds, fun completion member => (known.acks completion member).extend held.extended⟩

theorem WriterOk.keeps (machine : WriterMachine) (wrote : ∀ object, after.Wrote pid next object → before.Wrote pid proc object)
    (filed : ∀ object body, after.Filed pid next object body → before.Filed pid proc object body ∨
      ∃ ticket, (proc.tasks (.checkpointPreparation ticket)).isSome ∧ object.fresh.attempt = ticket.attempt)
    (issued : ∀ batch, (pid, batch) ∈ after.issued → (pid, batch) ∈ before.issued ∨
      ∃ cut : BatchId, (proc.tasks (.collection cut)).isSome ∧ batch.get ≤ cut.get)
    (present : ∀ key, (next.tasks key).isSome → (proc.tasks key).isSome)
    (tasks : ∀ assignment : Assignment, assignment.watched = true → before.Working pid proc assignment →
      after.Working pid next assignment) (known : before.WriterOk pid proc machine) : after.WriterOk pid next machine where
  seat := known.seat.extend held old new
  flight := known.flight.keeps held wrote (fun object => tasks (.wal object) rfl)
  barrier := known.barrier.extend held
  marker := known.marker.keeps held old new (fun ticket sealed => tasks (.publish ticket sealed) rfl)
  preparing := fun ticket found => known.preparing ticket (present _ found)
  collecting := fun cut found => known.collecting cut (present _ found)
  filed := by
    intro object body there
    rcases filed object body there with old | ⟨ticket, found, same⟩
    · exact known.filed object body old
    · have marker := known.marker
      rw [same]
      rcases known.preparing ticket found with here | here <;> rw [here] at marker <;> exact ⟨marker.1, marker.2.1⟩
  issued := by
    intro batch there
    rcases issued batch there with old | ⟨cut, found, below⟩
    · exact known.issued batch old
    · exact Nat.le_trans below (known.collecting cut found).2

theorem WriterOk.silent (silent : Silent pid before after proc next) (same : next.tasks = proc.tasks) (machine : WriterMachine)
    (known : before.WriterOk pid proc machine) : after.WriterOk pid next machine := by
  refine known.keeps held old new machine silent.wrote (fun object body there => .inl (silent.filed object body there))
    (fun batch there => .inl (silent.issued batch there)) ?_ ?_
  · rw [same]
    exact fun _ found => found
  · intro assignment watched working task found
    rw [same] at found
    exact (working task found).watched held old new assignment watched

end

theorem keeps_spawn {view : View} {pid : Pid} {proc : Proc} (key : EffectKey) (sent : Sent Task) :
    Keeps pid view (view.issue pid sent.2) proc (proc.spawn key sent) := by
  have held : Keeps pid view (view.issue pid sent.2) proc (proc.send sent.2) := keeps_send sent.2
  have same := sameWire_spawn proc key sent
  exact ⟨held.extended, same.numbers ▸ held.numbers, same.wire ▸ held.wire, same.replies ▸ held.replies⟩

section

variable {view : View} {pid : Pid} {proc : Proc} (known : view.Ok) (machine : WriterMachine) (writer : view.WriterOk pid proc machine)

include known writer

theorem WriterOk.setTask (key : EffectKey) (task : Option Task) (present : task.isSome → (proc.tasks key).isSome)
    (ok : ∀ assignment : Assignment, assignment.key = key → ∀ now, task = some now →
      (∀ old, proc.tasks key = some old → view.TaskOk pid proc assignment old) → view.TaskOk pid proc assignment now) :
    view.WriterOk pid (proc.setTask key task) machine := by
  have same := sameWire_setTask proc key task
  have held : Keeps pid view view proc (proc.setTask key task) := same.keeps
  have silent : Silent pid view view proc (proc.setTask key task) := same.silent
  refine writer.keeps held known.chain known.chain machine silent.wrote (fun object body there => .inl (silent.filed object body there))
    (fun batch there => .inl there) ?_ ?_
  · intro other found
    by_cases here : other = key
    · subst here
      rw [Proc.setTask_self] at found
      exact present found
    · rwa [Proc.setTask_other _ _ _ _ here] at found
  intro assignment watched working now found
  refine TaskOk.watched held known.chain known.chain assignment watched now ?_
  by_cases here : assignment.key = key
  · subst here
    rw [Proc.setTask_self] at found
    exact ok assignment rfl now found working
  · rw [Proc.setTask_other _ _ _ _ here] at found
    exact working now found

theorem WriterOk.drop (key : EffectKey) : view.WriterOk pid (proc.setTask key none) machine :=
  writer.setTask known machine key none (by simp) (fun _ _ _ here => by cases here)

theorem WriterOk.cancel (key : EffectKey) : view.WriterOk pid (proc.setTask key ((proc.tasks key).map Task.cancel)) machine := by
  refine writer.setTask known machine key _ (by simp) ?_
  intro assignment _ now found working
  obtain ⟨task, held, rfl⟩ := Option.map_eq_some_iff.mp found
  exact (working task held).cancel

theorem WriterOk.resumed (tasks : view.TasksOk pid proc) (key : EffectKey) (task : Task) (found : proc.tasks key = some task)
    (sent : Sent Task) (moves : ∀ assignment : Assignment, assignment.key = key → view.TaskOk pid proc assignment task →
      SentOk view pid proc assignment sent) : (view.issue pid sent.2).WriterOk pid (proc.spawn key sent) machine := by
  obtain ⟨mine, rfl, assigned⟩ := tasks.assigned key task found
  have done := moves mine rfl assigned
  have same := sameWire_spawn proc mine.key sent
  have present : (proc.tasks mine.key).isSome := Option.isSome_of_eq_some found
  refine writer.keeps (keeps_spawn mine.key sent) known.chain done.ok.chain machine ?_ ?_ ?_ ?_ ?_
  · exact fun object there => done.wrote object (same.silent.wrote object there)
  · intro object body there
    rcases done.filed object body (same.silent.filed object body there) with old | ⟨ticket, rfl, attempt⟩
    · exact .inl old
    · exact .inr ⟨ticket, present, attempt⟩
  · intro batch there
    rcases done.issued batch there with old | ⟨input, rfl, below⟩
    · exact .inl old
    · exact .inr ⟨input.cut, present, below⟩
  · intro other there
    by_cases here : other = mine.key
    · exact here ▸ present
    · rwa [spawn_tasks mine sent other here] at there
  · intro assignment watched working now there
    by_cases here : assignment.key = mine.key
    · rw [here, spawn_task] at there
      cases there
      exact (moves assignment here (working task (here ▸ found))).task.watched same.keeps done.ok.chain done.ok.chain assignment watched
    · rw [spawn_tasks mine sent assignment.key here] at there
      exact (working now there).watched (keeps_spawn mine.key sent) known.chain done.ok.chain assignment watched

end

end View

end StromDB
