import StromDB.Progress.Takeover
import StromDB.Properties.Writer

namespace StromDB

section

variable [Rkyv] [OrdMap.Differ] (sys : System) (reached : ReachableSystem sys)

omit [OrdMap.Differ] in
theorem View.Ok.ownerAt_le {view : View} (ok : view.Ok) (n : Nat) : view.ownerAt n ≤ view.chain.length := by
  rcases Nat.eq_zero_or_pos (view.ownerAt n) with none | owned
  · omega
  · obtain ⟨object, member, _, _, _, owns⟩ := ok.log.fence_between 0 n owned
    rw [← owns]
    exact ok.log.claimed object member

omit [OrdMap.Differ] in
theorem View.created_above (newer older : List Event) (author : Pid) (sealed : Seal)
    (ok : (View.of (newer ++ .sealCreated author sealed :: older)).Ok) : (View.of older).chain.length < sealed.generation.get := by
  have grown := (View.of_extends newer (.sealCreated author sealed :: older)).chain
  obtain ⟨rest, same⟩ := grown
  have found : (View.of (newer ++ .sealCreated author sealed :: older)).chain[(View.of older).chain.length]? = some sealed := by
    rw [← same]
    simp [View.of, View.record]
  rw [ok.chain.generations _ sealed found]
  omega

include reached

theorem recovery_equation (pid : Pid) (recovery : WriterRecovery) (completed : .completed pid recovery ∈ sys.history) :
    (∃ runs, RunsThrough sys.history recovery.durableBatch.get runs ∧ foldLog runs Forest.empty = some recovery.durable) ∧
    (∀ writer owner completion, .replied writer owner completion ∈ sys.history →
      (owner < recovery.claim.owner ∨ ∃ newer author older, sys.history = newer ++ .sealCreated author recovery.sealed :: older ∧
        .replied writer owner completion ∈ older) →
      ∃ envelope, (∀ other, (other.reply = completion.reply ∧ ∃ client, .commanded client other ∈ sys.history) ↔ other = envelope) ∧
        Reflects recovery.durable envelope completion) := by
  have ok := reached.ok sys
  have recovered : sys.view.Recovered pid recovery := ok.history _ completed
  refine ⟨ok.view.fold_runs _ _ recovered.durable, ?_⟩
  intro writer owner completion replied before
  have older : owner.get < recovery.claim.owner.get := by
    rcases before with less | ⟨newer, author, older, split, early⟩
    · exact less
    · obtain ⟨moment, _, _, _, _, there, _, same, _⟩ := ReachableWhere.stored_moment sys reached newer older _ split rfl
      have known := (ReachableWhere.ok there)
      obtain ⟨n, _, _, owned, _⟩ := known.history _ (same ▸ early)
      have granted := known.view.ownerAt_le n
      have above := View.created_above newer older author recovery.sealed (split ▸ ok.view)
      have number : recovery.claim.generation.get = recovery.sealed.generation.get :=
        congrArg SealGeneration.get recovered.claimed.same
      rw [owned.2, System.view, same] at granted
      change owner.get < recovery.claim.generation.get
      omega
  obtain ⟨n, forest, folded, owned, acked⟩ := ok.history _ replied
  have held : sys.view.ownerAt recovery.durableBatch.get = recovery.claim.owner.get :=
    ok.view.log.ownerAt_batch _ recovered.fence
  have within : n ≤ recovery.durableBatch.get := by
    by_contra above
    have ordered := ok.view.log.ownerAt_mono recovery.durableBatch.get n (by omega)
    rw [held, owned.2] at ordered
    omega
  obtain ⟨envelope, member, same, reflected⟩ := acked.fold within forest _ folded recovered.durable completion
  refine ⟨envelope, ?_, reflected⟩
  intro other
  constructor
  · rintro ⟨equal, client, commanded⟩
    exact List.inj_on_of_nodup_map ok.tokens (View.mem_commands.mpr ⟨client, commanded⟩) member (equal.trans same.symm)
  · rintro rfl
    exact ⟨same, View.mem_commands.mp member⟩

theorem single_writer_exclusion (newer older : List Event) (pid : Pid) (recovery : WriterRecovery)
    (split : sys.history = newer ++ .completed pid recovery :: older) :
    ∀ writer object, .walCreated writer object ∈ newer → object.body.isFence = false → recovery.claim.owner ≤ object.owner := by
  intro writer object created isRun
  obtain ⟨recent, earlier, rfl⟩ := List.append_of_mem created
  rw [List.append_assoc, List.cons_append] at split
  obtain ⟨before, _, there, _, same, _, ⟨op, _⟩ | ⟨op, next⟩⟩ :=
    ReachableWhere.wal_moment reached recent _ writer object split
  · rw [op.fence] at isRun
    cases isRun
  · have ok := ReachableWhere.ok there
    have recovered : before.view.Recovered pid recovery := ok.history (.completed pid recovery) (by simp [same])
    have held : before.view.ownerAt recovery.durableBatch.get = recovery.claim.owner.get :=
      ok.view.log.ownerAt_batch _ recovered.fence
    have ordered := ok.view.log.ownerAt_mono recovery.durableBatch.get (object.batch.get - 1) (by
      have within := recovered.durable.1
      omega)
    rw [held, op.owner.2] at ordered
    exact ordered

theorem partition_reopens (pid : Pid) (idle : (sys.procs pid).phase = .idle) (partition : PartitionId) (sealed : Seal)
    (newest : sys.store.head = some sealed) (generations : sealed.generation.get + 1 < 2 ^ 64)
    (coordinates : max sealed.replay.cut (cutNumber sys.store.wal.greatest) + 2 < 2 ^ 64)
    (suffix : cutNumber sys.store.wal.greatest < sealed.replay.cut + WAL_SUFFIX_COORDINATES_MAX_V2) :
    ∃ started after recovery, System.step (.start pid partition) sys = some started ∧ BootsTo pid started after ∧
      (after.procs pid).phase = .ready recovery ∧
      (∀ flushIntervalMin flushBufferBytes, 1 ≤ flushBufferBytes → flushBufferBytes ≤ WAL_ENCODED_BYTES_MAX →
        ∃ machine, WriterMachine.fromRecovery recovery flushIntervalMin flushBufferBytes = .ok machine) ∧
      ∀ session, ReachableSession recovery session → ∀ first, (Log.runs session.log).head? = some first →
        (after.store.execute (.createWal first)).2 = .created := by
  obtain ⟨started, candidate, begins, _, fence, _, after, recovery, boots, _, taken, _, _⟩ :=
    starts_takeover reached idle partition sealed newest generations ⟨coordinates, suffix⟩
  have completes : Completes after recovery := ⟨taken.reached, pid, taken.completed⟩
  refine ⟨started, after, recovery, begins, boots, taken.ready, ?_, ?_⟩
  · intro flushIntervalMin flushBufferBytes positive fits
    exact fromRecovery_starts completes.starts flushIntervalMin flushBufferBytes positive fits
  · intro session runs first found
    have numbered := completes.runs_numbered after recovery session runs
    obtain ⟨rest, same⟩ := List.head?_eq_some_iff.mp found
    rw [same, List.map_cons, List.length_cons, List.range'_succ] at numbered
    have place := (List.cons.inj numbered).1
    rw [(execute_createWal after.store first ?_).1]
    rw [taken.tail, place]
    exact Nat.lt_succ_self _

end

section

variable [Rkyv] [OrdMap.Differ] {sys : System} {pid : Pid}

theorem BootsTo.settles {first second : System} (one : BootsTo pid sys first) (other : BootsTo pid sys second)
    (stops : first.bootRound pid = none) (ends : second.bootRound pid = none) : first = second := by
  have unique : Relator.RightUnique fun before next : System => before.bootRound pid = some next := by
    intro before next other here there
    exact Option.some.inj (here.symm.trans there)
  rcases Relation.ReflTransGen.total_of_right_unique unique one other with later | later
  · rcases Relation.ReflTransGen.cases_head later with same | ⟨next, moved, _⟩
    · exact same
    · rw [stops] at moved
      cases moved
  · rcases Relation.ReflTransGen.cases_head later with same | ⟨next, moved, _⟩
    · exact same.symm
    · rw [ends] at moved
      cases moved

theorem bootRound_ready {recovery : WriterRecovery} (ready : (sys.procs pid).phase = .ready recovery) :
    sys.bootRound pid = none := by
  simp only [System.bootRound, ready]

theorem BootsTo.iterate (n : Nat) : ∀ after : System,
    (fun reached : Option System => reached.bind (System.bootRound pid))^[n] (some sys) = some after → BootsTo pid sys after := by
  induction n with
  | zero =>
    rintro after ⟨⟩
    exact .refl
  | succ n ih =>
    intro after ran
    rw [Function.iterate_succ_apply'] at ran
    obtain ⟨middle, earlier, moved⟩ := Option.bind_eq_some_iff.mp ran
    exact (ih middle earlier).tail moved

end

attribute [local instance] plainRkyv OrdMap.exactDiffer

def writing : List Label := opening ++ [.launch 0 10 1000 0, .command 0 0 sampleCreate, .apply 0 8]

def acknowledging : List Label :=
  writing ++ [.respond 0 (.task (.wal ⟨.two⟩)) .answer, .join 0 1 (.wal ⟨.two⟩)] ++
    .start 1 firstPartition :: (List.range 10).flatMap fun i => [.apply 1 i, .respond 1 .boot .answer]

theorem acknowledging_runs : (Transition.run System.step acknowledging System.initial).isSome = true := by decide +kernel

-- Process 0 acknowledges a create at coordinate 2 and process 1 takes over.
def acknowledgedSystem : System := (Transition.run System.step acknowledging System.initial).get acknowledging_runs

theorem acknowledged_reached : ReachableSystem acknowledgedSystem :=
  Transition.Reachable.run acknowledging _ _ (.start _ rfl) (Option.some_get acknowledging_runs).symm

theorem acknowledged_head : acknowledgedSystem.store.head.isSome = true := by decide +kernel

theorem acknowledged_recovers : (acknowledgedSystem.history.findSome? Event.recovery).isSome = true := by decide +kernel

def acknowledgedRecovery : WriterRecovery := (acknowledgedSystem.history.findSome? Event.recovery).get acknowledged_recovers

theorem acknowledged_written : (acknowledgedSystem.store.wal[(⟨.two⟩ : BatchId)]?).isSome = true := by decide +kernel

def acknowledgedRun : WalObject := (acknowledgedSystem.store.wal[(⟨.two⟩ : BatchId)]?).get acknowledged_written

theorem recovery_equation_acknowledged :
    (∃ runs, RunsThrough acknowledgedSystem.history 3 runs ∧ acknowledgedRun ∈ runs ∧
      foldLog runs Forest.empty = some acknowledgedRecovery.durable) ∧
    .replied 0 openedRecovery.claim.owner (.create (.ok .created) 0) ∈ acknowledgedSystem.history ∧
    ∃ envelope, (∀ other, (other.reply = 0 ∧ ∃ client, .commanded client other ∈ acknowledgedSystem.history) ↔ other = envelope) ∧
      Reflects acknowledgedRecovery.durable envelope (.create (.ok .created) 0) := by
  have replied : .replied 0 openedRecovery.claim.owner (.create (.ok .created) 0) ∈ acknowledgedSystem.history := by decide +kernel
  obtain ⟨⟨runs, through, folded⟩, reflects⟩ := recovery_equation acknowledgedSystem acknowledged_reached 1 acknowledgedRecovery
    (by decide +kernel)
  have third : acknowledgedRecovery.durableBatch.get = 3 := by decide +kernel
  rw [third] at through
  exact ⟨⟨runs, through, (through.created _).mpr ⟨by decide +kernel, by decide +kernel, 0, by decide +kernel⟩, folded⟩, replied,
    reflects 0 _ _ replied (.inl (by decide +kernel))⟩

-- Process 0, unaware of the takeover, sends a RUN for coordinate 3, and the RUN
-- of process 1 lands at 4.
def overtaking : List Label :=
  acknowledging ++ [.command 0 20 thirdCreate, .apply 0 9, .launch 1 10 1000 0, .command 1 0 secondCreate, .apply 1 10]

theorem overtaking_runs : (Transition.run System.step overtaking System.initial).isSome = true := by decide +kernel

def overtakenSystem : System := (Transition.run System.step overtaking System.initial).get overtaking_runs

theorem overtaken_reached : ReachableSystem overtakenSystem :=
  Transition.Reachable.run overtaking _ _ (.start _ rfl) (Option.some_get overtaking_runs).symm

def Event.created : Event → Option WalObject
  | .walCreated _ object => some object
  | _ => none

theorem overtaken_written : (overtakenSystem.history.findSome? Event.created).isSome = true := by decide +kernel

def overtakingRun : WalObject := (overtakenSystem.history.findSome? Event.created).get overtaken_written

theorem single_writer_exclusion_overtaken : ∃ newer older,
    overtakenSystem.history = newer ++ .completed 1 acknowledgedRecovery :: older ∧
    .walCreated 0 acknowledgedRun ∈ older ∧ acknowledgedRun.owner < acknowledgedRecovery.claim.owner ∧
    .commanded 0 thirdCreate ∈ newer ∧ .walCreated 1 overtakingRun ∈ newer ∧ overtakingRun.body.isFence = false ∧
    ∀ writer object, .walCreated writer object ∈ newer → object.body.isFence = false →
      acknowledgedRecovery.claim.owner ≤ object.owner := by
  have split : overtakenSystem.history =
      overtakenSystem.history.take 3 ++ .completed 1 acknowledgedRecovery :: overtakenSystem.history.drop 4 := by decide +kernel
  exact ⟨_, _, split, by decide +kernel, by decide +kernel, by decide +kernel, by decide +kernel, by decide +kernel,
    single_writer_exclusion overtakenSystem overtaken_reached _ _ 1 acknowledgedRecovery split⟩

def restarting : Option System := System.step (.start 2 firstPartition) acknowledgedSystem

theorem restarting_isSome : restarting.isSome = true := by decide +kernel

def reopening : Option System :=
  (fun reached : Option System => reached.bind (System.bootRound 2))^[11] (some (restarting.get restarting_isSome))

theorem reopening_isSome : reopening.isSome = true := by decide +kernel

def reopenedSystem : System := reopening.get reopening_isSome

theorem reopened_recovers : (reopenedSystem.history.findSome? Event.recovery).isSome = true := by decide +kernel

def reopenedRecovery : WriterRecovery := (reopenedSystem.history.findSome? Event.recovery).get reopened_recovers

theorem reopened_ready : (reopenedSystem.procs 2).phase = .ready reopenedRecovery := by rfl

theorem reopened_starts : (WriterMachine.fromRecovery reopenedRecovery 10 1000).toOption.isSome = true := by decide +kernel

def rewriting : Option Session :=
  Transition.run Session.step [(0, .started), (0, .command secondCreate)] (Session.launch reopenedRecovery reopened_starts)

theorem rewriting_isSome : rewriting.isSome = true := by decide +kernel

def reopenedSession : Session := rewriting.get rewriting_isSome

theorem reopened_reached : ReachableSession reopenedRecovery reopenedSession :=
  Transition.Reachable.run _ _ _ (launch_reached _ _) (Option.some_get rewriting_isSome).symm

theorem reopened_writes : (Log.runs reopenedSession.log).head?.isSome = true := by decide +kernel

theorem partition_reopens_acknowledged : ∃ started, System.step (.start 2 firstPartition) acknowledgedSystem = some started ∧
    BootsTo 2 started reopenedSystem ∧ (reopenedSystem.procs 2).phase = .ready reopenedRecovery ∧
    (∃ machine, WriterMachine.fromRecovery reopenedRecovery 10 1000 = .ok machine) ∧
    ∃ first, (Log.runs reopenedSession.log).head? = some first ∧ first.batch.get = 5 ∧
      (reopenedSystem.store.execute (.createWal first)).2 = .created := by
  obtain ⟨started, after, recovery, begins, boots, ready, starts, lands⟩ := partition_reopens acknowledgedSystem acknowledged_reached 2
    rfl firstPartition _ (Option.some_get acknowledged_head).symm (by decide +kernel) (by decide +kernel) (by decide +kernel)
  have same : restarting.get restarting_isSome = started :=
    Option.some.inj ((Option.some_get restarting_isSome).trans begins)
  have reopens : BootsTo 2 started reopenedSystem := by
    rw [← same]
    exact BootsTo.iterate 11 reopenedSystem (Option.some_get reopening_isSome).symm
  have ends : after = reopenedSystem :=
    boots.settles reopens (bootRound_ready ready) (bootRound_ready reopened_ready)
  subst ends
  cases reopened_ready.symm.trans ready
  exact ⟨started, begins, reopens, ready, starts 10 1000 (by decide) (by decide), _, (Option.some_get reopened_writes).symm,
    by decide +kernel, lands reopenedSession reopened_reached _ (Option.some_get reopened_writes).symm⟩

end StromDB
