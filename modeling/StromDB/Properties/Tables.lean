import StromDB.Properties.Hazards
import StromDB.Session.Creates

namespace StromDB

section

variable [Rkyv] [OrdMap.Differ] {traced : Traced} (ok : TracedOk traced)

include ok

theorem TracedOk.key_injective (first second : Pid × EncodedTable) (here : first ∈ traced.creates) (there : second ∈ traced.creates)
    (same : first.2.key = second.2.key) : first = second :=
  List.inj_on_of_nodup_map ok.once here there same

theorem TracedOk.own_bytes (pid : Pid) (table : EncodedTable) (sent : (pid, table) ∈ traced.creates) (body : SstObject)
    (stored : traced.sys.store.tables table.key = some body) : body = table.object := by
  have held := (ReachableSystem.ok traced.sys ok.reached).stored.tables table.key body stored
  obtain ⟨author, candidate, created, key, rfl⟩ := View.tables_created traced.sys.history table.key body held
  have same := ok.key_injective (author, candidate) (pid, table) (ok.recorded author candidate created) sent key
  cases same
  rfl

theorem TracedOk.no_foreign_bytes (pid : Pid) (key : EffectKey) (job : PrepareJob)
    (found : (traced.sys.procs pid).tasks key = some (.prepare job)) (pending : Pending) (active : pending ∈ job.active)
    (delivery : Delivery) (response : Response) (proc : Proc)
    (delivered : (traced.sys.procs pid).deliver pending delivery = some (response, proc)) (detail : String) :
    pending.call.resume response ≠ some (.done (.establishTable (.contradiction detail))) := by
  intro resumed
  have known := ReachableSystem.ok traced.sys ok.reached
  obtain ⟨_, created, jobOk⟩ := known.job traced.sys pid key job found
  obtain ⟨told, _⟩ := (jobOk.active pending active).1.deliver (known.procs pid).base.wire delivery response delivered
  obtain ⟨table, _, _, _, stepped⟩ := jobOk.resumed _ created job pending active response told.response _ resumed
  rcases stepped with ⟨_, same, _⟩ | ⟨result, same, outcome⟩
  · cases same
  · cases same
    exact outcome.legal detail rfl

theorem TracedOk.vacant (pid : Pid) (id : Nat) (table : EncodedTable)
    (sent : (id, .createTable table) ∈ (traced.sys.procs pid).wire) : traced.sys.view.tables table.key = none := by
  have op : traced.sys.view.TableOp pid table :=
    ((ReachableSystem.ok traced.sys ok.reached).procs pid).base.wire.ops id _ sent
  exact op.fresh

end

theorem table_keys_fresh [Rkyv] [OrdMap.Differ] (traced : Traced) (reached : ReachableTrace traced) :
    (traced.creates.map fun sent => sent.2.key).Nodup ∧
    (∀ pid id table, (id, .createTable table) ∈ (traced.sys.procs pid).wire → (pid, table) ∈ traced.creates) ∧
    (∀ pid table, .tableCreated pid table ∈ traced.sys.history → (pid, table) ∈ traced.creates) ∧
    (∀ pid table, (pid, table) ∈ traced.creates → ∀ body, traced.sys.store.tables table.key = some body → body = table.object) ∧
    (∀ pid key job pending delivery response proc, (traced.sys.procs pid).tasks key = some (.prepare job) → pending ∈ job.active →
      (traced.sys.procs pid).deliver pending delivery = some (response, proc) →
      ∀ detail, pending.call.resume response ≠ some (.done (.establishTable (.contradiction detail)))) ∧
    (∀ pid id table, (id, .createTable table) ∈ (traced.sys.procs pid).wire → traced.sys.store.tables table.key = none ∧
      (∀ author candidate, .tableCreated author candidate ∈ traced.sys.history → candidate.key ≠ table.key) ∧
      ∀ author, .tableDeleted author table.key ∉ traced.sys.history) ∧
    (∀ newer pid table older, traced.sys.history = newer ++ .tableCreated pid table :: older →
      (∀ author candidate, .tableCreated author candidate ∈ older → candidate.key ≠ table.key) ∧
      ∀ author, .tableDeleted author table.key ∉ older) := by
  have ok := reached.ok traced
  have known := ReachableSystem.ok traced.sys ok.reached
  refine ⟨ok.once, ok.wired, ok.recorded, ok.own_bytes, ?_, ?_, ?_⟩
  · intro pid key job pending delivery response proc found active delivered
    exact ok.no_foreign_bytes pid key job found pending active delivery response proc delivered
  · intro pid id table sent
    have vacant := ok.vacant pid id table sent
    refine ⟨?_, ?_, ?_⟩
    · cases stored : traced.sys.store.tables table.key with
      | none => rfl
      | some body =>
        rw [known.stored.tables _ body stored] at vacant
        cases vacant
    · intro author candidate created same
      have established := ReachableSystem.table_established traced.sys ok.reached author candidate created
      rw [same, vacant] at established
      cases established
    · exact fun author deleted => ReachableSystem.table_deleted traced.sys ok.reached author _ deleted vacant
  · intro newer pid table older split
    obtain ⟨before, _, owner, id, request, here, _, same, _, applied, _, one⟩ :=
      ReachableWhere.stored_moment traced.sys ok.reached newer older _ split rfl
    have fresh := ReachableWhere.table_moment ok.reached newer older pid table split
    subst same
    refine ⟨?_, fun author deleted => ReachableSystem.table_deleted before here author _ deleted fresh⟩
    intro author candidate created key
    have established := ReachableSystem.table_established before here author candidate created
    rw [key, System.view, fresh] at established
    cases established

theorem ReachableSystem.traced [Rkyv] [OrdMap.Differ] (sys : System) (reached : ReachableSystem sys) :
    ∃ creates, ReachableTrace ⟨sys, creates⟩ := by
  induction reached with
  | start sys initial =>
    cases initial
    exact ⟨[], .start _ rfl⟩
  | next before after label _ _ stepped held =>
    obtain ⟨creates, traced⟩ := held
    exact ⟨_, traced.after _ _ label (by rw [Traced.step, stepped]; rfl)⟩

attribute [local instance] plainRkyv OrdMap.exactDiffer

theorem table_keys_fresh_checkpointed : ∃ traced pid table, ReachableTrace traced ∧ (pid, table) ∈ traced.creates ∧
    (traced.creates.map fun sent => sent.2.key).Nodup := by
  obtain ⟨after, source, successor, forest, cycled⟩ := opened_epoch.cycle
  obtain ⟨creates, traced⟩ := ReachableSystem.traced after cycled.epoch.standing.reached
  have fresh := table_keys_fresh ⟨after, creates⟩ traced
  have ok := cycled.epoch.standing.reached.ok after
  have filled : successor.directory.runs ≠ [] := by
    have changed := cycled.changed
    rwa [show openedRecovery.sealed.directory.runs = [] by decide +kernel] at changed
  obtain ⟨planned, _, _, selected⟩ := plannedSources_directory filled
  obtain ⟨_, _, content⟩ := ok.view.chain.content successor ((ok.head_iff _ _).mp cycled.epoch.standing.newest).1
  obtain ⟨body, held⟩ := Option.isSome_iff_exists.mp (content.established planned.table (List.mem_append_left _ selected))
  obtain ⟨pid, table, created, _⟩ := View.tables_created after.history _ body held
  exact ⟨_, pid, table, traced, fresh.2.2.1 pid table created, fresh.1⟩

end StromDB
