import StromDB.Properties.Store

namespace StromDB

theorem creates_above_cuts [Rkyv] [OrdMap.Differ] (sys : System)
    (reached : ReachableWhere (fun before label => fencesFirst before label = true) sys)
    (newer older : List Event) (pid : Pid) (object : WalObject) (split : sys.history = newer ++ .walCreated pid object :: older)
    (author : Pid) (sealed : Seal)
    (published : .sealCreated author sealed ∈ older) : sealed.replay.cut < object.batch.get := by
  obtain ⟨before, id, there, first, same, found, cases⟩ := ReachableWhere.wal_moment reached newer older pid object split
  have ok := ReachableWhere.ok there
  have member : sealed ∈ before.view.chain := by
    rw [System.view, same]
    exact (View.mem_chain older sealed).mp ⟨author, published⟩
  rcases cases with ⟨op, _⟩ | ⟨op, next⟩
  · obtain ⟨claim, claimed, number, above, _⟩ := op.claim
    have nonempty := List.length_pos_of_mem member
    obtain ⟨newest, inChain, last⟩ := ok.view.chain.exists_seal _ nonempty (Nat.le_refl _)
    have held : before.store.seals[object.owner.generation]? = some claim := by
      rw [← number, ok.stored.seals]
      exact ok.view.chain.get_mem claim claimed.1
    have unmoved : newest.replay.cut = claim.replay.cut := by
      simpa [fencesFirst, found, op.fence, WalBody.isFence, held, (ok.head_iff before newest).mpr ⟨inChain, last⟩] using first
    have below := ok.view.chain.cut_le sealed newest member inChain (by
      rw [last]
      exact ok.view.chain.generation_le sealed member)
    omega
  · have within := ok.view.chain.cut_within sealed member
    omega

attribute [local instance] plainRkyv OrdMap.exactDiffer

theorem creates_above_cuts_lived : ∃ sys newer older pid fence author sealed,
    ReachableWhere (fun before label => fencesFirst before label = true) sys ∧
    sys.history = newer ++ .walCreated pid fence :: older ∧ fence.body.isFence = true ∧ .sealCreated author sealed ∈ older ∧
    0 < sealed.replay.cut ∧ sealed.replay.cut < fence.batch.get := by
  obtain ⟨sys, newest, gone, _, first, lived⟩ := opened_lives
  obtain ⟨newer, older, pid, fence, author, sealed, split, isFence, published, cut⟩ := lived.fenced
  obtain ⟨_, _, within, _⟩ := lived.gone
  have positive := gone.batch.positive
  exact ⟨sys, newer, older, pid, fence, author, sealed, first, split, isFence, published, by omega,
    creates_above_cuts sys first newer older pid fence split author sealed published⟩

def pausing : List Label :=
  .start 1 firstPartition :: (List.range 5).flatMap fun i => [.apply 1 i, .respond 1 .boot .answer]

theorem pausing_runs : (Transition.run System.step pausing openedSystem).isSome = true := by decide +kernel

def pausedSystem : System := (Transition.run System.step pausing openedSystem).get pausing_runs

theorem pausing_calm : (Transition.runWhere System.step calm pausing openedSystem).isSome = true := by decide +kernel

theorem paused_leads : Leads (Among 1 1) openedSystem pausedSystem :=
  Leads.run pausing _ _ (by decide) (Transition.runWhere_eq_some _ _ pausing_calm (Option.some_get pausing_runs).symm)

theorem paused_reached : ReachableSystem pausedSystem := paused_leads.reached opened_completes.reached

theorem paused_fence : ∃ fence, (pausedSystem.procs 1).wire.lookup 5 = some (.createWal fence) ∧ fence.batch.get = 2 := by
  exact ⟨⟨firstPartition, ⟨.two⟩, ⟨⟨.three⟩⟩, .fence⟩, by decide +kernel, rfl⟩

theorem opened_ready : (openedSystem.procs 0).phase = .ready openedRecovery := by rfl

theorem paused_head : pausedSystem.store.head.isSome = true := by decide +kernel

theorem paused_run_lands : ∃ sys sealed run, Leads (Among 0 0) pausedSystem sys ∧ Standing sealed 2 sys ∧ sealed.replay.cut = 0 ∧
    sealed.generation.get = 3 ∧ run ∈ sys.view.log ∧ run.batch.get = 2 ∧ run.body.isFence = false := by
  obtain ⟨sys, run, _, leads, seals, greatest, number, isRun, member, _⟩ := run_lands paused_reached
    (by rw [paused_leads.others 0 (by decide)]; exact opened_ready) (show Event.completed 0 openedRecovery ∈ _ by decide +kernel)
    (by decide +kernel) (by decide +kernel) (by decide +kernel) samplePath (by decide +kernel) (by decide +kernel)
  have second : run.batch.get = 2 := number.trans (by decide +kernel)
  have cut : (pausedSystem.store.head.get paused_head).replay.cut = 0 := by decide +kernel
  refine ⟨sys, pausedSystem.store.head.get paused_head, run, leads.weaken _ (Among.one _ _ 0 (by decide)), ⟨?_, ?_, ?_, ?_⟩, cut,
    by decide +kernel, member, second, isRun⟩
  · exact leads.reached paused_reached
  · rw [Option.some_get, ObjectStore.head, seals]
    rfl
  · rw [greatest]
    exact second
  · omega

theorem fence_created_below_cut : ∃ sys pid object older author sealed, ReachableSystem sys ∧
    sys.history = .walCreated pid object :: older ∧ .sealCreated author sealed ∈ older ∧ object.batch.get ≤ sealed.replay.cut := by
  obtain ⟨fence, sent, place⟩ := paused_fence
  obtain ⟨written, sealed, run, writes, standing, cut, generation, member, number, isRun⟩ := paused_run_lands
  have idle : ∀ pid : Nat, 2 ≤ pid → (written.procs pid).phase = .idle := by
    intro pid above
    rw [writes.others pid (by simp only [Among]; omega), paused_leads.others pid (by simp only [Among]; omega),
      opened_leads.others pid (by simp only [Among]; omega)]
    rfl
  obtain ⟨fenced, recovery, takes, taken, stands, renewed, place', _⟩ := takeovers 509 written sealed 2 2 standing idle (by omega)
    (by omega) (by simp only [WAL_SUFFIX_COORDINATES_MAX_V2]; omega)
  have genesis : recovery.sealed.replay.cut = 0 := by rw [renewed.2]; exact cut
  have newest := renewed.1
  obtain ⟨advanced, prepared, advance⟩ := taken.advances (by simp only [WAL_SUFFIX_CHECKPOINT_SPAN_TRIGGER]; omega) (by omega)
  obtain ⟨machine, first, start, reading⟩ := advance.collects
  have ok := taken.reached.ok fenced
  have held : fenced.store.wal[run.batch]? = some run := by
    refine ok.stored.live run (takes.extends.log.subset member) ?_
    intro gone
    have below := ok.collected_le_cut fenced recovery.sealed stands.newest run.batch gone
    omega
  obtain ⟨arrived, arrives, there, _, _, kept⟩ := Reading.reaches (show run.batch.get ≤ recovery.durableBatch.get by omega)
    1 advanced first (by omega) reading
  obtain ⟨swept, sweeps, _, _, _, _, deletes⟩ := Reading.swept there
  have vacant : swept.store.wal[fence.batch]? = none := by
    rw [BatchId.get_injective fence.batch run.batch (by omega)]
    exact deletes run (by rw [kept _ (Nat.le_refl _), advance.wal]; exact held) isRun
  have deleting : Leads (· = 2 + 509) advanced swept := arrives.trans sweeps
  have collects : Leads (· = 2 + 509) fenced swept := advance.leads.trans deleting
  have waits : (swept.procs 1).wire.lookup 5 = some (.createWal fence) := by
    rw [collects.others 1 (by decide), takes.others 1 (by decide), writes.others 1 (by decide)]
    exact sent
  have absent : swept.store.wal.contains fence.batch = false := by
    rw [← Std.ExtTreeMap.isSome_getElem?_eq_contains, vacant]
    rfl
  have published : prepared.successor ∈ swept.view.chain :=
    deleting.extends.chain.subset (((advance.standing.reached.ok _).head_iff _ _).mp advance.standing.newest).1
  obtain ⟨author, created⟩ := (View.mem_chain _ _).mpr published
  have landed := System.apply_eq swept 1 5 _ waits
  refine ⟨swept.applied 1 5 (.createWal fence), 1, fence, swept.history, author, prepared.successor, ?_, ?_, created, ?_⟩
  · exact (collects.reached taken.reached).after _ _ _ landed
  · change System.effectOf swept.store 1 (.createWal fence) ++ swept.history = _
    simp [System.effectOf, absent]
  · rw [advance.replay]
    omega

end StromDB
