import StromDB.Progress.Epochs

namespace StromDB

open List

def pathSupply : List StreamPath :=
  "abcdefghijklmnopqrst".toList.filterMap fun letter => (StreamPath.fromStr letter.toString).toOption

theorem pathSupply_length : pathSupply.length = 20 := by decide +kernel

theorem pathSupply_nodup : pathSupply.Nodup := by decide +kernel

variable [Rkyv]

theorem Forest.exists_vacant (forest : Forest) (supply : List StreamPath) (distinct : supply.Nodup)
    (few : forest.pathCount < supply.length) : ∃ path ∈ supply, forest.directory[path]? = none := by
  by_contra taken
  have occupied : supply ⊆ forest.directory.keys := by
    intro path member
    rw [Std.ExtTreeMap.mem_keys, Std.ExtTreeMap.mem_iff_isSome_getElem?, Option.isSome_iff_ne_none]
    exact fun vacant => taken ⟨path, member, vacant⟩
  have bounded := (distinct.subperm occupied).length_le
  rw [Std.ExtTreeMap.length_keys] at bounded
  exact absurd few (Nat.not_lt.mpr bounded)

variable [OrdMap.Differ]

-- A partition right after a checkpoint, or opened for the first time, with room
-- for a number of further checkpoints.
structure Epoch (room first : Nat) (sealed : Seal) (forest : Forest) (tail : Nat) (sys : System) : Prop where
  standing : Standing sealed tail sys
  near : tail ≤ sealed.replay.cut + 1
  base : sys.view.FoldIs sealed.replay.cut forest
  folded : sys.view.FoldIs tail forest
  idle : ∀ pid : Nat, first ≤ pid → (sys.procs pid).phase = .idle
  paths : forest.pathCount + room ≤ pathSupply.length
  generations : sealed.generation.get + 1000 * room + 1000 < 2 ^ 64
  coordinates : tail + 1000 * room + 1000 < 2 ^ 64

omit [Rkyv] [OrdMap.Differ] in
theorem TreeAdvance.grows_or_renews {generation : SealGeneration} {source successor : TreeVersion}
    (advance : TreeAdvance generation source successor) (changed : successor.runs ≠ source.runs) :
    (∃ run, successor.runs = run :: source.runs) ∨ ∀ table ∈ successor.tables, table.object.fresh.birthGeneration = generation := by
  obtain ⟨carried, origin, same | ⟨run, same, born⟩⟩ := advance
  · rcases origin with rfl | rfl
    · exact absurd same changed
    · right
      simp [TreeVersion.tables, same]
  · rcases origin with rfl | rfl
    · exact .inl ⟨run, same⟩
    · right
      simpa [TreeVersion.tables, same] using born

structure Settled (sealed : Seal) (last : Nat) (sys : System) : Prop where
  reached : ReachableSystem sys
  newest : sys.store.head = some sealed
  cut : sealed.replay.cut ≤ last
  above : ∀ batch : BatchId, last < batch.get → sys.store.wal[batch]? = none

theorem Standing.settled (sealed : Seal) (tail : Nat) (sys : System) (standing : Standing sealed tail sys) :
    Settled sealed tail sys := by
  refine ⟨standing.reached, standing.newest, standing.cut, ?_⟩
  intro batch above
  cases held : sys.store.wal[batch]? with
  | none => rfl
  | some object =>
    have within := wal_le_greatest held
    rw [standing.listed] at within
    omega

section

variable {sealed : Seal} {last : Nat} {sys : System} (settled : Settled sealed last sys)

include settled

theorem Settled.seals (pid : Pid) (created : Seal) (member : .sealCreated pid created ∈ sys.history) :
    created.generation.get ≤ sealed.generation.get := by
  have ok := settled.reached.ok sys
  rw [((ok.head_iff sys sealed).mp settled.newest).2]
  exact ok.view.chain.generation_le created ((View.mem_chain _ _).mp ⟨pid, member⟩)

theorem Settled.coordinates (pid : Pid) (object : WalObject) (member : .walCreated pid object ∈ sys.history) :
    object.batch.get ≤ last := by
  have ok := settled.reached.ok sys
  have stored : sys.store.wal[object.batch]? = some object → object.batch.get ≤ last := by
    intro held
    by_contra beyond
    rw [settled.above object.batch (by omega)] at held
    cases held
  rcases (View.mem_created _ _).mp ⟨pid, member⟩ with inLog | stale
  · by_cases gone : object.batch ∈ sys.view.collected
    · exact Nat.le_trans (ok.collected_le_cut sys sealed settled.newest _ gone) settled.cut
    · exact stored (ok.stored.live object inLog gone)
  · exact stored (ok.stored.stale object stale)

end

structure Cycled (room first : Nat) (sealed : Seal) (tail : Nat) (sys after : System) (source successor : Seal) (forest : Forest) :
    Prop where
  leads : Leads (first ≤ ·) sys after
  epoch : Epoch room (first + 511) successor forest (tail + 512) after
  renewed : Renewed 511 sealed source
  newer : successor.generation.get = source.generation.get + 1
  advance : TreeAdvance successor.generation sealed.directory successor.directory
  changed : successor.directory.runs ≠ sealed.directory.runs
  ran : ∃ run ∈ after.view.log, run.batch.get = tail + 2 ∧ run.body.isFence = false
  collects : ∃ pid machine cut batch, Among first (first + 510) pid ∧ cut.get = tail + 512 ∧ batch.get ≤ tail + 1 ∧
    Reading pid machine ⟨cut, source, successor⟩ (droppedBy ⟨cut, source, successor⟩) batch after

section

variable {room first : Nat} {sealed : Seal} {forest : Forest} {tail : Nat} {sys : System}

theorem Epoch.lengthened (epoch : Epoch (room + 1) first sealed forest tail sys) :
    ∃ after recovery later, ∃ path : StreamPath, Leads (first ≤ ·) sys after ∧ TakenOver (first + 510) recovery after ∧
      Standing recovery.sealed (tail + 512) after ∧ Renewed 511 sealed recovery.sealed ∧ recovery.durableBatch.get = tail + 512 ∧
      after.view.FoldIs (tail + 512) later ∧ forest.directory[path]? = none ∧ later.directory[path]?.isSome = true ∧
      later.pathCount = forest.pathCount + 1 ∧
      (∃ run ∈ after.view.log, run.batch.get = tail + 2 ∧ run.body.isFence = false) ∧
      ∀ pid : Nat, first + 511 ≤ pid → (after.procs pid).phase = .idle := by
  have near := epoch.near
  have cut := epoch.standing.cut
  have generations := epoch.generations
  have coordinates := epoch.coordinates
  have paths := epoch.paths
  rw [pathSupply_length] at paths
  obtain ⟨claimed, recovery, claims, taken, stands, renewed, place, folds⟩ := epoch.standing.takeover first
    (epoch.idle first (Nat.le_refl _)) (by omega) (by omega) (by simp only [WAL_SUFFIX_COORDINATES_MAX_V2]; omega)
  have recovered : claimed.view.Recovered first recovery := (taken.reached.ok claimed).history _ taken.completed
  have same : recovery.durable = forest := by
    refine View.FoldIs.unique recovered.durable ?_
    rw [place]
    exact folds forest epoch.folded
  have sameCut : recovery.sealed.replay.cut = sealed.replay.cut := by rw [renewed.2]
  have generation := renewed.1
  have unexhausted : recovery.sealed.generation.get + (509 + 1) < 2 ^ 64 := by omega
  have suffix : tail + 2 + 509 < recovery.sealed.replay.cut + WAL_SUFFIX_COORDINATES_MAX_V2 := by
    simp only [sameCut, WAL_SUFFIX_COORDINATES_MAX_V2]
    omega
  obtain ⟨path, _, vacant⟩ := forest.exists_vacant pathSupply pathSupply_nodup (by rw [pathSupply_length]; omega)
  obtain ⟨written, run, later, writes, seals, greatest, number, isRun, member, folded, held, counted⟩ := run_lands taken.reached
    taken.ready taken.completed (by rw [stands.listed, place])
    (by rw [place, sameCut]; simp only [WAL_SUFFIX_CHECKPOINT_SPAN_TRIGGER]; omega)
    (by omega) path (by rw [same]; exact vacant) (by rw [same]; simp only [PARTITION_PATH_OCCUPANCIES_MAX_V2]; omega)
  have standing : Standing recovery.sealed (tail + 2) written := by
    refine ⟨writes.reached taken.reached, ?_, ?_, by omega⟩
    · rw [ObjectStore.head, seals]
      exact stands.newest
    · rw [greatest]
      exact number.trans (by rw [place])
  have idle : ∀ pid : Nat, first + 1 ≤ pid → (written.procs pid).phase = .idle := by
    intro pid above
    have apart : pid ≠ first := by omega
    rw [writes.others pid apart, claims.others pid apart]
    exact epoch.idle pid (by omega)
  obtain ⟨after, successor, fences, last, stood, again, at512, refolds⟩ := takeovers 509 written recovery.sealed (tail + 2) (first + 1)
    standing idle unexhausted (by omega) suffix
  have claims : Leads (first ≤ ·) sys claimed := claims.weaken _ (fun pid here => Nat.le_of_eq here.symm)
  have writes : Leads (first ≤ ·) claimed written := writes.weaken _ (fun pid here => Nat.le_of_eq here.symm)
  refine ⟨after, successor, later, path, (claims.trans writes).trans (fences.weaken _ fun pid inside => ?_), ?_, stood, ?_, at512, ?_,
    vacant, held, ?_, ⟨run, fences.extends.log.subset member, by omega, isRun⟩, ?_⟩
  · exact Nat.le_trans (Nat.le_succ first) inside.1
  · exact last
  · exact renewed.trans again
  · refine refolds later ?_
    rw [show tail + 2 = run.batch.get by rw [number, place]]
    exact folded
  · rw [counted, same]
  · intro pid above
    rw [fences.others pid (by simp only [Among]; omega)]
    exact idle pid (by omega)

theorem Epoch.cycle (epoch : Epoch (room + 1) first sealed forest tail sys) :
    ∃ after source successor later, Cycled room first sealed tail sys after source successor later := by
  obtain ⟨long, recovery, later, path, lengthens, taken, stands, renewed, place, folded, vacant, held, counted, ran, idle⟩ :=
    epoch.lengthened
  have generations := epoch.generations
  have coordinates := epoch.coordinates
  obtain ⟨run, inLog, second, isRun⟩ := ran
  have cut : recovery.sealed.replay.cut = sealed.replay.cut := by rw [renewed.2]
  have directory : recovery.sealed.directory = sealed.directory := by rw [renewed.2]
  have generation := renewed.1
  have below := epoch.standing.cut
  obtain ⟨after, prepared, advance⟩ := taken.advances (by rw [cut, place]; simp only [WAL_SUFFIX_CHECKPOINT_SPAN_TRIGGER]; omega)
    (by omega)
  obtain ⟨input, created, source, _, _, made⟩ := advance.made
  have newer : prepared.successor.generation.get = recovery.sealed.generation.get + 1 := by rw [made.generation, source]
  have leads : Leads (first ≤ ·) long after := advance.leads.weaken _ (fun pid here => by subst here; exact Nat.le_add_right _ _)
  have recovered : after.view.Recovered (first + 510) recovery :=
    ((taken.reached.ok long).history _ taken.completed).extend advance.leads.extends
  have ok := advance.standing.reached.ok after
  have replay : prepared.successor.replay.cut = tail + 512 := by rw [advance.replay, place]
  have refolded := folded.extend advance.leads.extends
  have together : Leads (first ≤ ·) sys after := lengthens.trans leads
  refine ⟨after, recovery.sealed, prepared.successor, later, together, ⟨?_, by omega, by rw [replay]; exact refolded,
    refolded, ?_, ?_, by omega, by omega⟩, renewed, newer, ?_, ?_,
    ⟨run, advance.leads.extends.log.subset inLog, second, isRun⟩, ?_⟩
  · rw [← place]
    exact advance.standing
  · intro pid above
    have apart : pid ≠ first + 510 := by omega
    rw [advance.leads.others pid apart]
    exact idle pid above
  · have paths := epoch.paths
    omega
  · rw [← directory, ← source]
    exact made.directory
  · intro same
    obtain ⟨_, folds, content⟩ := ok.view.chain.content _ ((ok.head_iff after _).mp advance.standing.newest).1
    obtain ⟨_, before, earlier⟩ := ok.view.chain.content _ recovered.claimed.claim.1
    rw [replay] at folds
    rw [cut] at before
    rw [View.FoldIs.unique folds refolded] at content
    rw [View.FoldIs.unique before (epoch.base.extend together.extends)] at earlier
    have equal := content.directory_unique earlier (by rw [made.partition, source]) (by rw [directory]; exact same)
    rw [equal, vacant] at held
    cases held
  · obtain ⟨machine, batch, number, reading⟩ := advance.collects
    exact ⟨first + 510, machine, recovery.durableBatch, batch, ⟨Nat.le_add_right _ _, Nat.le_refl _⟩, place, by omega, reading⟩

theorem Reading.drops {pid : Pid} {machine : WriterMachine} {input : CollectionInput} {batch : BatchId}
    (within : batch.get ≤ input.cut.get)
    (reading : Reading pid machine input (droppedBy input) batch sys) (object : TableObjectId) (dropped : object ∈ droppedBy input) :
    ∃ after, Leads (· = pid) sys after ∧ after.store.tables object = none ∧ after.store.seals = sys.store.seals ∧
      ∀ other : BatchId, input.cut.get < other.get → after.store.wal[other]? = sys.store.wal[other]? := by
  obtain ⟨last, arrives, there, seals, _, kept⟩ := Reading.reaches (Nat.le_refl _) (input.cut.get - batch.get) sys batch
    (by omega) reading
  obtain ⟨swept, sweeps, behind, sameSeals, _, others, _⟩ := there.swept
  have deleting : Spawned pid machine (.collection input.cut)
      (fun id => CollectJob.deleteTables input (droppedBy input) id (droppedBy input)) swept := by
    have ends : CollectJob.advance ⟨input, droppedBy input, .reading input.cut,
      ⟨.readWal input.source.partition input.cut, 0⟩⟩ input.cut =
        fun id => CollectJob.deleteTables input (droppedBy input) id (droppedBy input) := by
      funext id
      simp [CollectJob.advance]
    rw [Swept, ends] at behind
    exact behind
  obtain ⟨after, deletes, gone, stillSeals, stillWal⟩ := deletes_table swept dropped deleting
  refine ⟨after, (arrives.trans sweeps).trans deletes, gone, by rw [stillSeals, sameSeals, seals], ?_⟩
  intro other above
  rw [stillWal, others other (by rintro rfl; omega), kept other (Nat.le_of_lt above)]

theorem Settled.standing {last : Nat} (settled : Settled sealed last sys) (batch : BatchId) (number : batch.get = last)
    (held : (sys.store.wal[batch]?).isSome = true) : Standing sealed last sys := by
  obtain ⟨object, found⟩ := Option.isSome_iff_exists.mp held
  obtain ⟨top, greatest, above, _⟩ := OrdMap.greatest_of_held found
  have below : batch.get ≤ top.get := Nat.isLE_compare.mp above
  have stored := (OrdMap.greatest_eq_some greatest).1
  refine ⟨settled.reached, settled.newest, ?_, settled.cut⟩
  rw [greatest]
  change top.get = last
  by_contra beyond
  rw [settled.above top (by omega)] at stored
  cases stored

theorem Cycled.collected {after : System} {source successor : Seal} {later : Forest}
    (cycled : Cycled room first sealed tail sys after source successor later) : ∃ swept gone, Leads (first ≤ ·) after swept ∧
      Epoch room (first + 511) successor later (tail + 512) swept ∧ gone ∈ swept.view.log ∧ gone.batch.get = tail + 2 ∧
      gone.body.isFence = false ∧ gone.batch ∈ swept.view.collected := by
  obtain ⟨pid, machine, cut, batch, ⟨above, below⟩, number, near, reading⟩ := cycled.collects
  obtain ⟨gone, member, second, isRun⟩ := cycled.ran
  have epoch := cycled.epoch
  have listed := epoch.standing.listed
  have replay := epoch.standing.cut
  have close := epoch.near
  have ok := reading.reached.ok after
  obtain ⟨there, arrives, waits, seals, _, kept⟩ := Reading.reaches (show gone.batch.get ≤ cut.get by omega)
    (gone.batch.get - batch.get) after batch (by omega) reading
  obtain ⟨swept, sweeps, _, sameSeals, _, others, deletes⟩ := waits.swept
  have leads : Leads (· = pid) after swept := arrives.trans sweeps
  have same : ∀ other : BatchId, gone.batch.get < other.get → swept.store.wal[other]? = after.store.wal[other]? := by
    intro other beyond
    rw [others other (by rintro rfl; omega), kept other (Nat.le_of_lt beyond)]
  have reached := leads.reached reading.reached
  have settled : Settled successor (tail + 512) swept := by
    refine ⟨reached, ?_, replay, fun other beyond => ?_⟩
    · rw [ObjectStore.head, sameSeals, seals]
      exact epoch.standing.newest
    · rw [same other (by omega)]
      exact epoch.standing.settled.above other beyond
  have top : (after.store.wal[cut]?).isSome = true := by
    cases greatest : after.store.wal.greatest with
    | none =>
      rw [greatest] at listed
      cases listed
    | some last =>
      rw [greatest] at listed
      rw [BatchId.get_injective cut last (number.trans listed.symm)]
      exact (OrdMap.greatest_eq_some greatest).1
  refine ⟨swept, gone, leads.weaken _ (fun other here => by subst here; exact above),
    ⟨settled.standing cut number (by rw [same cut (by omega)]; exact top), close, epoch.base.extend leads.extends,
      epoch.folded.extend leads.extends, fun other beyond => ?_, epoch.paths, epoch.generations, epoch.coordinates⟩,
    leads.extends.log.subset member, second, isRun, ?_⟩
  · have apart : other ≠ pid := by omega
    rw [leads.others other apart]
    exact epoch.idle other beyond
  · by_contra present
    have stored := ok.stored.live gone member fun early => present (leads.extends.collected early)
    have live := (reached.ok swept).stored.live gone (leads.extends.log.subset member) present
    rw [deletes gone (by rw [kept _ (Nat.le_refl _)]; exact stored) isRun] at live
    cases live

theorem Cycled.drops {after : System} {source successor : Seal} {later : Forest}
    (cycled : Cycled room first sealed tail sys after source successor later)
    (renews : ∀ table ∈ successor.directory.tables, table.object.fresh.birthGeneration = successor.generation) (table : TableRef)
    (member : table ∈ sealed.directory.tables) :
    ∃ final, Leads (first ≤ ·) sys final ∧ final.store.tables table.object = none ∧ Settled successor (tail + 512) final := by
  obtain ⟨pid, machine, cut, batch, ⟨above, _⟩, number, near, reading⟩ := cycled.collects
  have within : batch.get ≤ cut.get := by omega
  have ok := reading.reached.ok after
  have stood := cycled.epoch.standing
  have inChain := ((ok.head_iff after _).mp stood.newest).1
  have legal := ok.view.chain.legal source (reading.source batch)
  have later := ok.view.chain.legal successor inChain
  have newer := cycled.newer
  have here : table ∈ source.directory.tables := by
    rw [cycled.renewed.2]
    exact member
  have unselected : table.object ∉ successor.tables.map TableRef.object := by
    intro again
    obtain ⟨other, selected, same⟩ := mem_map.mp again
    have born := legal.births table (mem_append_left _ here)
    rcases mem_append.mp selected with directory | ledger
    · have fresh := renews other directory
      rw [same] at fresh
      rw [fresh] at born
      omega
    · have wrong := later.ledgerStore other ledger
      rw [same, legal.directoryStore table here] at wrong
      cases wrong
  have dropped : table.object ∈ droppedBy ⟨cut, source, successor⟩ := by
    refine mem_filter.mpr ⟨mem_map_of_mem (mem_append_left _ here), ?_⟩
    simpa using unselected
  obtain ⟨final, deletes, gone, seals, wal⟩ := reading.drops within table.object dropped
  have deletes : Leads (first ≤ ·) after final := deletes.weaken _ (fun other same => by subst same; exact above)
  refine ⟨final, cycled.leads.trans deletes, gone, ⟨deletes.reached reading.reached, ?_, stood.cut, ?_⟩⟩
  · rw [ObjectStore.head, seals]
    exact stood.newest
  · intro other beyond
    rw [wal other (by simp only; omega)]
    exact (stood.settled).above other beyond

-- A partition that was checkpointed, collected and taken over and written since.
structure Lived (sealed : Seal) (gone run : WalObject) (sys : System) : Prop where
  newest : sys.store.head = some sealed
  filled : sealed.directory.runs ≠ []
  gone : gone ∈ sys.view.log ∧ gone.body.isFence = false ∧ gone.batch.get ≤ sealed.replay.cut ∧ gone.batch ∈ sys.view.collected
  run : run ∈ sys.view.log ∧ run.body.isFence = false ∧ sealed.replay.cut < run.batch.get
  fenced : ∃ newer older pid fence author published, sys.history = newer ++ .walCreated pid fence :: older ∧
    fence.body.isFence = true ∧ .sealCreated author published ∈ older ∧ published.replay.cut = sealed.replay.cut

theorem Epoch.lives (epoch : Epoch (room + 2) first sealed forest tail sys) (empty : sealed.directory.runs = []) :
    ∃ after newest gone run, Leads (first ≤ ·) sys after ∧ Lived newest gone run after := by
  obtain ⟨middle, source, successor, later, cycled⟩ := epoch.cycle
  obtain ⟨swept, gone, collects, again, deleted, second, isRun, collected⟩ := cycled.collected
  obtain ⟨after, recovery, _, _, lengthens, taken, stands, renewed, place, _, _, _, _, ⟨run, member, number, wrote⟩, _⟩ :=
    again.lengthened
  have lengthens : Leads (first ≤ ·) swept after := lengthens.weaken _ (fun pid above => by omega)
  have ok := taken.reached.ok after
  have recovered : after.view.Recovered _ recovery := ok.history _ taken.completed
  have cut : recovery.sealed.replay.cut = successor.replay.cut := by rw [renewed.2]
  have within := again.standing.cut
  have near := again.near
  refine ⟨after, recovery.sealed, gone, run, (cycled.leads.trans collects).trans lengthens, stands.newest, ?_,
    ⟨lengthens.extends.log.subset deleted, isRun, by omega, lengthens.extends.collected collected⟩, ⟨member, wrote, by omega⟩, ?_⟩
  · have changed := cycled.changed
    rw [renewed.2]
    rwa [empty] at changed
  · obtain ⟨events, same⟩ := lengthens.history
    obtain ⟨pid, created⟩ := (View.mem_created _ _).mpr (.inl recovered.fence)
    obtain ⟨author, published⟩ :=
      (View.mem_chain _ _).mpr (((again.standing.reached.ok swept).head_iff _ _).mp again.standing.newest).1
    let fence := fenceObject ⟨recovery.claim, recovery.sealed⟩ recovery.durableBatch
    have recent : .walCreated pid fence ∈ events := by
      rw [same] at created
      refine (mem_append.mp created).resolve_right fun early => ?_
      have below := again.standing.settled.coordinates pid _ early
      change recovery.durableBatch.get ≤ _ at below
      omega
    obtain ⟨newer, older, split⟩ := append_of_mem recent
    refine ⟨newer, older ++ swept.history, pid, fence, author, successor, ?_, rfl, mem_append_right _ published, cut.symm⟩
    rw [same, split, append_assoc, cons_append]

end

def Drops (first : Nat) (generation : SealGeneration) (object : TableObjectId) (sys : System) : Prop :=
  ∃ after newest last, Leads (first ≤ ·) sys after ∧ after.store.tables object = none ∧ Settled newest last after ∧
    generation.get < newest.generation.get ∧ newest.generation.get + 1 < 2 ^ 64 ∧ last + 1 < 2 ^ 64

theorem Epoch.grows_or_drops (room first : Nat) (sealed : Seal) (forest : Forest) (tail : Nat) (sys : System)
    (epoch : Epoch (room + 1) first sealed forest tail sys) :
    (∃ after successor later run, Leads (first ≤ ·) sys after ∧ Epoch room (first + 511) successor later (tail + 512) after ∧
      sealed.generation.get < successor.generation.get ∧ successor.directory.runs = run :: sealed.directory.runs) ∨
    ∀ table ∈ sealed.directory.tables, Drops first sealed.generation table.object sys := by
  obtain ⟨middle, source, successor, later, cycled⟩ := epoch.cycle
  have generations := cycled.epoch.generations
  have coordinates := cycled.epoch.coordinates
  have renewed := cycled.renewed.1
  have newer := cycled.newer
  rcases cycled.advance.grows_or_renews cycled.changed with ⟨run, grown⟩ | renews
  · exact .inl ⟨middle, successor, later, run, cycled.leads, cycled.epoch, by omega, grown⟩
  · right
    intro table member
    obtain ⟨after, leads, gone, settled⟩ := cycled.drops renews table member
    exact ⟨after, successor, tail + 512, leads, gone, settled, by omega, by omega, by omega⟩

theorem Epoch.drops (room : Nat) : ∀ (first : Nat) (sealed : Seal) (forest : Forest) (tail : Nat) (sys : System),
    Epoch (room + 1) first sealed forest tail sys → TREE_RUNS_MAX ≤ sealed.directory.runs.length + room →
    ∀ table ∈ sealed.directory.tables, Drops first sealed.generation table.object sys := by
  induction room with
  | zero =>
    intro first sealed forest tail sys epoch full
    rcases epoch.grows_or_drops with ⟨_, successor, _, run, _, _, _, grown⟩ | drops
    · have bounded := successor.directory.bounded
      rw [grown, length_cons] at bounded
      omega
    · exact drops
  | succ room ih =>
    intro first sealed forest tail sys epoch full
    rcases epoch.grows_or_drops with ⟨middle, successor, later, run, grows, next, newer, grown⟩ | drops
    · intro table member
      obtain ⟨after, newest, last, leads, gone, settled, above, rest⟩ := ih (first + 511) successor later (tail + 512) middle next
        (by rw [grown, length_cons]; omega) table (by
          simp only [TreeVersion.tables, grown, flatMap_cons, mem_append]
          exact .inr member)
      have leads : Leads (first ≤ ·) middle after := leads.weaken _ (fun pid here => by omega)
      exact ⟨after, newest, last, grows.trans leads, gone, settled, by omega, rest⟩
    · exact drops

omit [Rkyv] [OrdMap.Differ] in
theorem plannedSources_directory {sealed : Seal} (filled : sealed.directory.runs ≠ []) : ∃ source rest,
    plannedSources sealed = source :: rest ∧ source.table ∈ sealed.directory.tables := by
  obtain ⟨run, member⟩ := exists_mem_of_ne_nil _ filled
  obtain ⟨table, inRun⟩ := exists_mem_of_ne_nil _ run.nonempty
  obtain ⟨index, indexed⟩ := getElem?_of_mem inRun
  have some : Bootstrap.treeSources sealed.directory ≠ [] := by
    refine ne_nil_of_mem (mem_flatMap.mpr ⟨run, mem_reverse.mpr member, mem_map.mpr ⟨(table, index), ?_, rfl⟩⟩)
    rw [mem_zipIdx_iff_getElem?]
    exact indexed
  obtain ⟨source, rest, first⟩ := exists_cons_of_ne_nil some
  refine ⟨source, rest ++ Bootstrap.treeSources sealed.ledger, by rw [plannedSources, first, cons_append],
    Bootstrap.mem_treeSources ?_⟩
  rw [first]
  exact mem_cons_self

theorem Epoch.claims {room first : Nat} {sealed : Seal} {forest : Forest} {tail : Nat} {sys : System}
    (epoch : Epoch (room + 1) first sealed forest tail sys) (filled : sealed.directory.runs ≠ []) :
    ∃ after candidate load source, Leads (· = first) sys after ∧ Epoch room (first + 1) candidate forest tail after ∧
      candidate.directory = sealed.directory ∧ load.claimed = ⟨⟨candidate.generation⟩, candidate⟩ ∧
      source.table ∈ candidate.directory.tables ∧
      Booting first (.readingTable load source) (.readTable candidate.partition source.table) after := by
  have generations := epoch.generations
  have coordinates := epoch.coordinates
  obtain ⟨started, middle, candidate, encoded, begins, _, _, boots, claimed, same, store, publishing⟩ :=
    starts_claim epoch.standing.reached
    (epoch.idle first (Nat.le_refl _)) sealed.partition sealed epoch.standing.newest (by omega)
  obtain ⟨following, renewed⟩ := Seal.claimSuccessor_ok_iff.mp claimed
  have directory : candidate.directory = sealed.directory := by rw [renewed]
  have replay : candidate.replay = sealed.replay := by rw [renewed]
  obtain ⟨generation, greatest, held⟩ := Option.bind_eq_some_iff.mp epoch.standing.newest
  obtain ⟨_, number⟩ := (epoch.standing.reached.ok sys).seal_mem sys generation sealed held
  obtain ⟨source, rest, planned, member⟩ : ∃ source rest, plannedSources candidate = source :: rest ∧
      source.table ∈ candidate.directory.tables :=
    plannedSources_directory (by rw [directory]; exact filled)
  rw [planned] at publishing
  obtain ⟨after, round, reading, created, current⟩ := publishingClaim_round candidate
    (source :: rest) encoded same publishing generation
    (by rw [store]; exact greatest) (by rw [following, number]) _ _ rfl
  have leads : Leads (· = first) sys after := .head ⟨_, rfl, rfl, begins⟩
    (boots.trans (publishing.reads_lead (by simp) round))
  have newest : after.store.head = some candidate := by
    refine ObjectStore.head_eq current ?_
    rw [created, OrdMap.get_insert, if_pos rfl]
  have listed : cutNumber after.store.wal.greatest = tail := by
    rw [created, store]
    exact epoch.standing.listed
  refine ⟨after, candidate, _, source, leads, ⟨⟨reading.reached, newest, listed, by rw [replay]; exact epoch.standing.cut⟩,
    by rw [replay]; exact epoch.near, ?_, epoch.folded.extend leads.extends, ?_, ?_, by omega, by omega⟩, directory, rfl, member,
    reading⟩
  · rw [replay]
    exact epoch.base.extend leads.extends
  · intro pid above
    have apart : pid ≠ first := by omega
    rw [leads.others pid apart]
    exact epoch.idle pid (by omega)
  · have paths := epoch.paths
    omega

end StromDB
