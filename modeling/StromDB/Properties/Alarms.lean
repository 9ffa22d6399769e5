import StromDB.Properties.Hazards

namespace StromDB

open List StromDB.System

-- A table that a bootstrap reads is still there when the read takes effect.
def findsTable [Rkyv] (sys : System) : Label → Bool
  | .apply pid id =>
    match (sys.procs pid).phase with
    | .bootstrapping (.readingTable _ source) _ pending => pending.request ≠ id || (sys.store.tables source.table.object).isSome
    | _ => true
  | _ => true

def Proc.FindsTables [Rkyv] (proc : Proc) : Prop := ∀ load source effect pending,
  proc.phase = .bootstrapping (.readingTable load source) effect pending → proc.replies pending.request ≠ some (.gotTable none)

def Exhausted [Rkyv] (sys : System) : Prop :=
  ∃ author sealed, .sealCreated author sealed ∈ sys.history ∧ 2 ^ 64 ≤ sealed.generation.get + 1

theorem Proc.answer_replies [Rkyv] (proc : Proc) (id other : Nat) (reply : Reply) :
    (proc.answer id reply).replies other = if other = id then some reply else proc.replies other := rfl

theorem Plain.exited [Rkyv] {before after : System} (plain : Plain before after) (pid : Pid) (exit : BootstrapExit)
    (exited : .bootstrapExited pid exit ∈ after.history) : .bootstrapExited pid exit ∈ before.history := by
  obtain ⟨events, same, all⟩ := plain.history
  rw [same] at exited
  rcases mem_append.mp exited with new | old
  · cases all _ new
  · exact old

theorem driveBootstrap_exited [Rkyv] [OrdMap.Differ] {sys : System} {pid other : Pid} {state : BootstrapState}
    {event : BootstrapEvent} {exit : BootstrapExit}
    (exited : .bootstrapExited other exit ∈ (sys.driveBootstrap pid state event).history) :
    .bootstrapExited other exit ∈ sys.history ∨ ∃ next, Bootstrap.handle state event = .ok (next, .exit exit) := by
  unfold driveBootstrap at exited
  split at exited
  · exact .inl exited
  · exact .inl ((System.Moves.await sys _ _ _).plain.exited other exit exited)
  · rcases mem_append.mp exited with new | old
    · cases mem_singleton.mp new
    · exact .inl old
  · rename_i next exit handled
    rcases mem_append.mp exited with new | old
    · cases mem_singleton.mp new
      exact .inr ⟨next, handled⟩
    · exact .inl old

section

variable [Rkyv] [OrdMap.Differ] {sys after : System} (ok : SystemOk sys)

include ok

omit [OrdMap.Differ] in
theorem Proc.FindsTables.apply (pid : Pid) (id : Nat) (request : Request) (finds : (sys.procs pid).FindsTables)
    (sent : (sys.procs pid).wire.lookup id = some request) (stored : findsTable sys (.apply pid id) = true) :
    ((sys.procs pid).answer id (sys.store.execute request).2).FindsTables := by
  intro load source effect pending here
  have booting : sys.view.BootingOk pid (sys.procs pid) (.readingTable load source) effect pending := by
    have phase := (ok.procs pid).phase
    rwa [show (sys.procs pid).phase = _ from here] at phase
  by_cases same : pending.request = id
  · have asked : request = .getTable source.table.object := by
      rw [booting.waits.wire request (same ▸ mem_of_lookup sent), booting.call.2]
      rfl
    simp only [findsTable, show (sys.procs pid).phase = _ from here, same, ne_eq, not_true_eq_false, decide_false,
      Bool.false_or] at stored
    subst asked
    rw [Proc.answer_replies, if_pos same]
    intro absent
    have gone : sys.store.tables source.table.object = none := by simpa [ObjectStore.execute] using absent
    rw [gone] at stored
    cases stored
  · rw [Proc.answer_replies, if_neg same]
    exact finds load source effect pending here

omit [OrdMap.Differ] in
theorem Proc.FindsTables.awaits (pid : Pid) (next : Proc) (finds : (sys.procs pid).FindsTables)
    (awaits : Proc.Awaits (sys.procs pid) next) : next.FindsTables := by
  intro load source effect pending here
  rw [awaits.replies]
  rcases awaits.waits _ effect pending here with before | sent
  · exact finds load source effect pending before
  · rw [(ok.procs pid).base.wire.unanswered _ sent]
    exact nofun

theorem findsTables_step (label : Label) (finds : ∀ pid, (sys.procs pid).FindsTables) (stored : findsTable sys label = true)
    (stepped : System.step label sys = some after) (pid : Pid) : (after.procs pid).FindsTables := by
  by_cases own : pid = label.pid
  · subst own
    by_cases applies : ∃ pid id, label = .apply pid id
    · obtain ⟨pid, id, rfl⟩ := applies
      cases sent : (sys.procs pid).wire.lookup id with
      | none =>
        simp only [step, apply, sent] at stepped
        cases stepped
      | some request =>
        rw [apply_eq sys pid id request sent] at stepped
        cases stepped
        rw [show Label.pid (.apply pid id) = pid from rfl, applied_proc]
        exact Proc.FindsTables.apply ok pid id request (finds pid) sent stored
    · exact (finds _).awaits ok _ _ (step_awaits stepped fun pid id same => applies ⟨pid, id, same⟩)
  · rw [step_other stepped pid own]
    exact finds pid

theorem respondBoot_contradiction (pid other : Pid) (delivery : Delivery) (answered : System.BootAnswered sys pid delivery after)
    (detail : String) (exited : .bootstrapExited other (.contradiction detail) ∈ after.history) :
    .bootstrapExited other (.contradiction detail) ∈ sys.history ∨
      ∃ state effect pending response proc, (sys.procs pid).phase = .bootstrapping state effect pending ∧
        (sys.procs pid).deliver pending delivery = some (response, proc) ∧ View.Excused state response := by
  cases answered with
  | waits state effect _ _ proc call =>
    exact .inl ((System.Moves.await (sys.setProc pid proc) state effect call).plain.exited other _ exited)
  | done state effect pending response proc result event here delivered resumed completed =>
    obtain ⟨_, _, next⟩ := boot_delivered ok state effect pending here delivery response proc delivered
    rcases next _ resumed with ⟨_, same, _⟩ | ⟨_, _, same, found, told⟩ <;> cases same
    cases found.symm.trans completed
    rcases driveBootstrap_exited exited with before | ⟨next, handled⟩
    · rcases mem_append.mp before with recorded | old
      · obtain ⟨_, impossible, _⟩ := told.1 _ recorded
        cases impossible
      · exact .inl old
    · exact .inr ⟨state, effect, pending, response, proc, here, delivered, told.stepped _ handled detail rfl⟩

omit [OrdMap.Differ] in
theorem exhausted_of_chain (long : 2 ^ 64 ≤ sys.view.chain.length + 1) : Exhausted sys := by
  obtain ⟨sealed, member, number⟩ := ok.view.chain.exists_seal sys.view.chain.length (by omega) (Nat.le_refl _)
  obtain ⟨author, created⟩ := (View.mem_chain _ sealed).mpr member
  exact ⟨author, sealed, created, by omega⟩

omit [OrdMap.Differ] in
theorem excused_exhausted (finds : ∀ pid, (sys.procs pid).FindsTables) (pid : Pid) (delivery : Delivery)
    (granted : ∀ reason, delivery ≠ .refused reason) (state : BootstrapState) (effect : BootstrapEffect) (pending : Pending)
    (here : (sys.procs pid).phase = .bootstrapping state effect pending) (response : Response) (proc : Proc)
    (delivered : (sys.procs pid).deliver pending delivery = some (response, proc)) (excused : View.Excused state response) :
    Exhausted sys := by
  have booting : sys.view.BootOk pid (sys.procs pid) state := by
    have phase := (ok.procs pid).phase
    rw [here] at phase
    exact phase.booting
  rcases excused with ⟨reason, rfl⟩ | ⟨load, source, rfl, rfl⟩ | ⟨generation, rfl, last⟩
  · cases delivery with
    | answer =>
      obtain ⟨_, _, same⟩ := Option.map_eq_some_iff.mp delivered
      cases same
    | failed detail => cases delivered
    | refused detail => exact absurd rfl (granted detail)
  · cases delivery with
    | answer =>
      obtain ⟨reply, answered, same⟩ := Option.map_eq_some_iff.mp delivered
      cases same
      exact absurd answered (finds pid load source effect pending here)
    | failed detail => cases delivered
    | refused detail => exact absurd rfl (granted detail)
  · have within := booting.2
    exact exhausted_of_chain ok (by omega)

theorem contradiction_step (label : Label) (granted : label.granted = true) (finds : ∀ pid, (sys.procs pid).FindsTables)
    (stepped : System.step label sys = some after) (pid : Pid) (detail : String)
    (exited : .bootstrapExited pid (.contradiction detail) ∈ after.history) :
    .bootstrapExited pid (.contradiction detail) ∈ sys.history ∨ Exhausted sys := by
  rcases step_cases sys after label stepped with ⟨owner, id, request, _, _, effect⟩ | ⟨owner, delivery, rfl, responded⟩ | moves
  · rw [effect.history] at exited
    rcases mem_append.mp exited with new | old
    · rcases effectOf_cases sys.store owner request with none | ⟨event, one, stores⟩
      · rw [none] at new
        cases new
      · rw [one] at new
        cases mem_singleton.mp new
        cases stores
    · exact .inl old
  · rcases respondBoot_contradiction ok owner pid delivery responded detail exited with
      old | ⟨state, effect, pending, response, proc, here, delivered, excused⟩
    · exact .inl old
    · refine .inr (excused_exhausted ok finds owner delivery ?_ state effect pending here response proc delivered excused)
      rintro reason rfl
      cases granted
  · exact .inl (moves.plain.exited pid _ exited)

end

def findsGranted [Rkyv] (sys : System) (label : Label) : Bool := label.granted && findsTable sys label

structure Calm [Rkyv] (sys : System) : Prop where
  finds : ∀ pid, (sys.procs pid).FindsTables
  told : ∀ pid detail, .bootstrapExited pid (.contradiction detail) ∈ sys.history → Exhausted sys

theorem Exhausted.step [Rkyv] [OrdMap.Differ] (sys after : System) (label : Label) (stepped : System.step label sys = some after)
    (exhausted : Exhausted sys) :
    Exhausted after := by
  obtain ⟨author, sealed, created, last⟩ := exhausted
  obtain ⟨events, same⟩ := step_history stepped
  exact ⟨author, sealed, by rw [same]; exact mem_append_right _ created, last⟩

theorem ReachableWhere.calm [Rkyv] [OrdMap.Differ] {sys : System}
    (reached : ReachableWhere (fun before label => findsGranted before label = true) sys) :
    Calm sys := by
  induction reached with
  | start sys initial =>
    cases initial
    exact ⟨(fun _ _ _ _ _ here => nomatch here), (fun _ _ exited => nomatch exited)⟩
  | next before after label earlier admitted stepped calm =>
    have ok := ReachableWhere.ok earlier
    obtain ⟨granted, stored⟩ := Bool.and_eq_true_iff.mp admitted
    refine ⟨findsTables_step ok label calm.finds stored stepped, fun pid detail exited => ?_⟩
    refine Exhausted.step before after label stepped ?_
    rcases contradiction_step ok label granted calm.finds stepped pid detail exited with old | exhausted
    · exact calm.told pid detail old
    · exact exhausted

theorem no_spurious_contradiction [Rkyv] [OrdMap.Differ] (sys : System)
    (reached : ReachableWhere (fun before label => findsGranted before label = true) sys)
    (unexhausted : ∀ author sealed, .sealCreated author sealed ∈ sys.history → sealed.generation.get + 1 < 2 ^ 64) :
    (∀ pid exit, .bootstrapExited pid exit ∈ sys.history → (∃ observed, exit = .fenced observed) ∨ ∃ detail, exit = .retryable detail) ∧
    ∀ pid batch detail, .writerExited pid (.contradiction batch detail) ∉ sys.history := by
  have ok := ReachableWhere.ok reached
  have room : ¬ Exhausted sys := by
    rintro ⟨author, sealed, created, last⟩
    have below := unexhausted author sealed created
    omega
  refine ⟨fun pid exit exited => ?_, fun pid batch detail exited => ?_⟩
  · cases exit with
    | retryable detail => exact .inr ⟨detail, rfl⟩
    | fenced observed => exact .inl ⟨observed, rfl⟩
    | contradiction detail => exact absurd ((reached.calm).told pid detail exited) room
  · exact room (exhausted_of_chain ok (ok.history _ exited))

attribute [local instance] plainRkyv OrdMap.exactDiffer

def superseding : List Label :=
  opening ++ pausing ++ (.start 2 firstPartition :: (List.range 8).flatMap fun i => [.apply 2 i, .respond 2 .boot .answer]) ++
    (List.range 5).flatMap fun i => [.apply 1 (i + 5), .respond 1 .boot .answer]

theorem superseding_runs : (Transition.runWhere System.step findsGranted superseding System.initial).isSome = true := by decide +kernel

def supersededSystem : System := (Transition.runWhere System.step findsGranted superseding System.initial).get superseding_runs

theorem superseded_reached : ReachableWhere (fun before label => findsGranted before label = true) supersededSystem :=
  Transition.ReachableWhere.run findsGranted superseding _ _ (.start _ rfl) (Option.some_get superseding_runs).symm

def sealsWithin (history : List Event) : Bool := history.all fun event =>
  match event with
  | .sealCreated _ sealed => sealed.generation.get + 1 < 2 ^ 64
  | _ => true

theorem superseded_within : sealsWithin supersededSystem.history = true := by decide +kernel

theorem no_spurious_contradiction_superseded :
    (∃ observed, .bootstrapExited 1 (.fenced observed) ∈ supersededSystem.history) ∧
    (∀ pid detail, .bootstrapExited pid (.contradiction detail) ∉ supersededSystem.history) ∧
    ∀ pid batch detail, .writerExited pid (.contradiction batch detail) ∉ supersededSystem.history := by
  have calm := no_spurious_contradiction supersededSystem superseded_reached fun author sealed created => by
    have within := List.all_eq_true.mp superseded_within _ created
    exact of_decide_eq_true within
  refine ⟨⟨⟨.four⟩, by decide +kernel⟩, fun pid detail exited => ?_, calm.2⟩
  rcases calm.1 pid _ exited with ⟨_, same⟩ | ⟨_, same⟩ <;> cases same

theorem View.chain_authored (history : List Event) : (of history).authors.length = (of history).chain.length ∧
    ∀ pair ∈ (of history).chain.zip (of history).authors, Event.sealCreated pair.2 pair.1 ∈ history := by
  induction history with
  | nil => simp [of, empty]
  | cons event older ih =>
    obtain ⟨aligned, created⟩ := ih
    cases event with
    | sealCreated pid sealed =>
      refine ⟨by simp [of, record, aligned], ?_⟩
      intro pair member
      simp only [of, record] at member
      rw [zip_append aligned.symm] at member
      rcases mem_append.mp member with old | new
      · exact mem_cons_of_mem _ (created pair old)
      · rw [zip_cons_cons, zip_nil_left, mem_singleton] at new
        subst new
        exact mem_cons_self
    | walCreated pid object =>
      have same : (of (.walCreated pid object :: older)).chain = (of older).chain ∧
          (of (.walCreated pid object :: older)).authors = (of older).authors := by
        simp only [of, record]
        split <;> exact ⟨rfl, rfl⟩
      rw [same.1, same.2]
      exact ⟨aligned, fun pair member => mem_cons_of_mem _ (created pair member)⟩
    | _ => exact ⟨aligned, fun pair member => mem_cons_of_mem _ (created pair member)⟩

theorem View.Claimed.created {sys : System} (ok : SystemOk sys) (pid : Pid) (claimed : ClaimedBootstrap)
    (mine : sys.view.Claimed pid claimed) : .sealCreated pid claimed.sealed ∈ sys.history := by
  have pair : (claimed.sealed, pid) ∈ sys.view.chain.zip sys.view.authors := by
    refine mem_iff_getElem?.mpr ⟨claimed.sealed.generation.get - 1, getElem?_zip_eq_some.mpr ⟨?_, ?_⟩⟩
    · exact ok.view.chain.get_mem _ mine.claim.1
    · rw [← mine.same]
      exact mine.author
  exact (View.chain_authored sys.history).2 _ pair

theorem Booting.alarms {pid : Pid} {load : BaseLoad} {source : PlannedTable} {partition : PartitionId} {sys : System}
    (booting : Booting pid (.readingTable load source) (.readTable partition source.table) sys)
    (gone : sys.store.tables source.table.object = none) :
    ∃ after detail, sys.bootRound pid = some after ∧ .bootstrapExited pid (.contradiction detail) ∈ after.history ∧
      after.store = sys.store := by
  obtain ⟨after, round, exited, same⟩ := booting.exited (.readTable (decodeTableBody partition source.table none))
    (by simp [bootCall, Call.request, ObjectStore.execute, gone, Call.resume]) _ rfl _ _ rfl
  exact ⟨after, _, round, exited, same⟩

-- A claimant that pauses before it reads a table finds it collected under a
-- newer Seal, and takes that for a contradiction.
theorem superseded_claimant_alarms : ∃ sys pid detail author claim newer,
    ReachableWhere (fun _ label => label.granted = true) sys ∧
    (∀ author sealed, .sealCreated author sealed ∈ sys.history → sealed.generation.get + 1 < 2 ^ 64) ∧
    (∀ author object, .walCreated author object ∈ sys.history → object.batch.get + 1 < 2 ^ 64) ∧
    .sealCreated pid claim ∈ sys.history ∧ .sealCreated author newer ∈ sys.history ∧ claim.generation < newer.generation ∧
    .bootstrapExited pid (.contradiction detail) ∈ sys.history := by
  obtain ⟨grown, source, successor, forest, cycled⟩ := opened_epoch.cycle
  have filled : successor.directory.runs ≠ [] := by
    have changed := cycled.changed
    rwa [show openedRecovery.sealed.directory.runs = [] by decide +kernel] at changed
  obtain ⟨paused, claim, load, table, claims, epoch, directory, claimed, selected, booting⟩ := cycled.epoch.claims filled
  obtain ⟨swept, newest, last, drops, gone, settled, newer, unexhausted, inside⟩ := Epoch.drops 15 _ _ _ _ _ epoch
    (by
      rw [directory]
      have some := List.length_pos_of_ne_nil filled
      simp only [TREE_RUNS_MAX]
      omega) table.table selected
  have waiting : Booting (1 + 511) (.readingTable load table) (.readTable claim.partition table.table) swept := by
    refine ⟨drops.reached booting.reached, ?_⟩
    rw [drops.others (1 + 511) (by omega)]
    exact booting.waits
  obtain ⟨after, detail, round, exited, same⟩ := waiting.alarms gone
  have ends : Leads (· = 1 + 511) swept after := waiting.reads_lead (by simp) round
  have final : Settled newest last after :=
    ⟨ends.reached settled.reached, by rw [same]; exact settled.newest, settled.cut, by rw [same]; exact settled.above⟩
  have ok := final.reached.ok after
  have authored : .sealCreated (1 + 511) claim ∈ after.history := by
    obtain ⟨_, _, loads⟩ := waiting.ok
    have mine := loads.claimed.extend ends.extends
    have created := View.Claimed.created ok _ _ mine
    rwa [claimed] at created
  obtain ⟨author, created⟩ := (View.mem_chain _ _).mpr ((ok.head_iff _ _).mp final.newest).1
  refine ⟨after, 1 + 511, detail, author, claim, newest, ?_, ?_, ?_, authored, created, newer, exited⟩
  · exact ends.unrefused (drops.unrefused (claims.unrefused (cycled.leads.unrefused (opened_leads.unrefused (.start _ rfl)))))
  · intro pid sealed there
    have below := final.seals pid sealed there
    omega
  · intro pid object there
    have below := final.coordinates pid object there
    omega

end StromDB
