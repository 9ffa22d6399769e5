import StromDB.Refinement.Calls

namespace StromDB

variable [Rkyv]

def fenceObject (claimed : ClaimedBootstrap) (batch : BatchId) : WalObject :=
  ⟨claimed.sealed.partition, batch, claimed.claim.owner, .fence⟩

def startLoad (claimed : ClaimedBootstrap) : BaseLoad := ⟨claimed, [], MergedRows.empty, none, none⟩

def plannedSources (sealed : Seal) : List PlannedTable :=
  Bootstrap.treeSources sealed.directory ++ Bootstrap.treeSources sealed.ledger

namespace View

structure Claimed (view : View) (pid : Pid) (claimed : ClaimedBootstrap) : Prop where
  same : claimed.claim.generation = claimed.sealed.generation
  claim : view.Claim claimed.sealed
  author : view.Authored pid claimed.claim.generation

structure Recovered (view : View) (pid : Pid) (recovery : WriterRecovery) : Prop where
  claimed : view.Claimed pid ⟨recovery.claim, recovery.sealed⟩
  base : view.FoldIs recovery.sealed.replay.cut recovery.base
  durable : view.FoldIs recovery.durableBatch.get recovery.durable
  above : recovery.sealed.replay.cut < recovery.durableBatch.get
  next : recovery.durableBatch.get + 1 < 2 ^ 64
  fence : fenceObject ⟨recovery.claim, recovery.sealed⟩ recovery.durableBatch ∈ view.log

def Spent (view : View) (object : WalObject) : Prop :=
  object.body = .fence ∧ object.batch.get ≤ view.log.length ∧ object ∉ view.log

structure Passed (view : View) (claimed : ClaimedBootstrap) (batch : BatchId) : Prop where
  above : claimed.sealed.replay.cut < batch.get
  reached : batch.get - 1 ≤ view.log.length
  older : view.ownerAt (batch.get - 1) < claimed.claim.generation.get

structure LoadOk (view : View) (pid : Pid) (load : BaseLoad) (done : List PlannedTable) : Prop where
  claimed : view.Claimed pid load.claimed
  plan : plannedSources load.claimed.sealed = done ++ load.remaining
  merged : Bootstrap.mergeSources view.tables load.claimed.sealed.partition done (startLoad load.claimed) =
    .ok (.ok { load with remaining := [] })

structure Loaded (view : View) (pid : Pid) (loaded : LoadedBootstrap) : Prop where
  claimed : view.Claimed pid loaded.claimed
  base : view.FoldIs loaded.claimed.sealed.replay.cut loaded.base
  durable : loaded.durable = loaded.base

structure Replays (view : View) (pid : Pid) (proc : Proc) (replay : Replay) : Prop where
  fence : fenceObject replay.loaded.claimed replay.fence.batch ∈ view.log
  wrote : ∀ object, view.Wrote pid proc object → object.body = .fence ∧ object.batch.get ≤ replay.fence.batch.get
  above : replay.loaded.claimed.sealed.replay.cut < replay.next.get
  durable : view.FoldIs (replay.next.get - 1) replay.loaded.durable
  owner : view.OwnerIs (replay.next.get - 1) ((replay.owner.map OwnerToken.get).getD 0)

structure Final (view : View) (pid : Pid) (proc : Proc) (recovery : WriterRecovery) : Prop where
  recovered : view.Recovered pid recovery
  wrote : ∀ object, view.Wrote pid proc object → object.body = .fence ∧ object.batch.get ≤ recovery.durableBatch.get

def Unwritten (view : View) (pid : Pid) (proc : Proc) : Prop := ∀ object, ¬ view.Wrote pid proc object

def AllSpent (view : View) (pid : Pid) (proc : Proc) (n : Nat) : Prop :=
  ∀ object, view.Wrote pid proc object → view.Spent object ∧ object.batch.get < n

def BootOk (view : View) (pid : Pid) (proc : Proc) : BootstrapState → Prop
  | .discoveringHead _ => view.Unwritten pid proc
  | .establishingGenesis _ => view.Unwritten pid proc
  | .readingSeal generation => view.Unwritten pid proc ∧ generation.get ≤ view.chain.length
  | .publishingClaim candidate sources => view.Unwritten pid proc ∧
      (∃ source ∈ view.chain, source.claimSuccessor = .ok candidate) ∧ sources = plannedSources candidate
  | .readingTable load source => view.Unwritten pid proc ∧
      ∃ done, view.LoadOk pid { load with remaining := source :: load.remaining } done
  | .observingWalTail loaded occupied => view.AllSpent pid proc ((occupied.map fun batch => batch.get + 1).getD 0) ∧
      view.Loaded pid loaded ∧ ∀ batch, occupied = some batch → view.Passed loaded.claimed batch ∧ batch.get ≤ view.log.length
  | .readingWalTail loaded fence listedTail => view.AllSpent pid proc fence.batch.get ∧ view.Loaded pid loaded ∧
      loaded.claimed.sealed.replay.cut < listedTail.get ∧ listedTail.get ≤ view.log.length ∧
      fence.batch.get = listedTail.get + 1
  | .establishingFence loaded fence => view.Loaded pid loaded ∧ view.Passed loaded.claimed fence.batch ∧
      ∀ object, view.Wrote pid proc object → object = fenceObject loaded.claimed fence.batch ∨
        (view.Spent object ∧ object.batch.get < fence.batch.get)
  | .replaying replay => view.Claimed pid replay.loaded.claimed ∧
      view.FoldIs replay.loaded.claimed.sealed.replay.cut replay.loaded.base ∧
      replay.next.get ≤ replay.fence.batch.get ∧
      (view.Superseded replay.loaded.claimed.claim.generation ∨ view.Replays pid proc replay)
  | .refreshingAnomaly claim _ => view.Superseded claim.generation
  | .refreshingFinal recovery => view.Claimed pid ⟨recovery.claim, recovery.sealed⟩ ∧
      (view.Superseded recovery.claim.generation ∨ view.Final pid proc recovery)
  | _ => False

def BootCall (state : BootstrapState) (effect : BootstrapEffect) (call : Call) : Prop :=
  match state with
  | .discoveringHead _ => effect = .observeHead ∧ call = .newestGeneration
  | .establishingGenesis partition => ∃ encoded, effect = .establishGenesis encoded ∧
      Bootstrap.genesisSeal partition = .ok encoded.sealed ∧ SealCall encoded.sealed call
  | .readingSeal generation => effect = .readSeal generation ∧ call = .readSeal generation
  | .publishingClaim candidate _ => ∃ encoded, effect = .publishClaim encoded ∧ encoded.sealed = candidate ∧
      SealCall candidate call
  | .readingTable load source => effect = .readTable load.claimed.sealed.partition source.table ∧
      call = .readTable load.claimed.sealed.partition source.table
  | .observingWalTail _ _ => effect = .observeWalTail ∧ call = .newestSurvivingBatch
  | .readingWalTail loaded _ listedTail => effect = .readWal loaded.claimed.sealed.partition listedTail ∧
      call = .readWal loaded.claimed.sealed.partition listedTail
  | .establishingFence loaded fence => ∃ encoded, effect = .establishFence encoded ∧
      encoded.object = fenceObject loaded.claimed fence.batch ∧ WalCall encoded call
  | .replaying replay => effect = .readWal replay.loaded.claimed.sealed.partition replay.next ∧
      call = .readWal replay.loaded.claimed.sealed.partition replay.next
  | .refreshingAnomaly _ _ => effect = .observeHead ∧ call = .newestGeneration
  | .refreshingFinal _ => effect = .observeHead ∧ call = .newestGeneration
  | _ => False

def BootReply (view : View) (pid : Pid) (proc : Proc) : BootstrapState → Reply → Prop
  | .readingSeal _, .gotSeal observed => observed ≠ none
  | .observingWalTail _ (some occupied), .newestWal newest => ∃ tail, newest = some tail ∧ occupied.get ≤ tail.get
  | .replaying replay, .gotWal none => view.Superseded replay.loaded.claimed.claim.generation
  | .refreshingAnomaly claim _, .newestSeal newest => ∃ observed, newest = some observed ∧ claim.generation.get < observed.get
  | .refreshingFinal recovery, .newestSeal newest => ∃ observed, newest = some observed ∧
      recovery.claim.generation.get ≤ observed.get ∧
      (observed = recovery.claim.generation → view.Final pid proc recovery)
  | _, _ => True

section

variable {before after : View} (extended : before.Extends after)

include extended

theorem Claimed.extend (pid : Pid) (claimed : ClaimedBootstrap) (known : before.Claimed pid claimed) : after.Claimed pid claimed :=
  ⟨known.same, known.claim.extend extended, known.author.extend extended⟩

theorem Recovered.extend (pid : Pid) (recovery : WriterRecovery) (known : before.Recovered pid recovery) :
    after.Recovered pid recovery :=
  ⟨known.claimed.extend extended, known.base.extend extended, known.durable.extend extended, known.above,
    known.next, extended.log.subset known.fence⟩

theorem Passed.extend (claimed : ClaimedBootstrap) (batch : BatchId) (known : before.Passed claimed batch) :
    after.Passed claimed batch := by
  refine ⟨known.above, Nat.le_trans known.reached extended.log.length_le, ?_⟩
  rw [ownerAt, extended.take_log _ known.reached]
  exact known.older

theorem LoadOk.extend (pid : Pid) (load : BaseLoad) (done : List PlannedTable) (known : before.LoadOk pid load done) :
    after.LoadOk pid load done :=
  ⟨known.claimed.extend extended, known.plan, Bootstrap.mergeSources_extend extended.tables _ _ _ _ known.merged⟩

theorem Loaded.extend (pid : Pid) (loaded : LoadedBootstrap) (known : before.Loaded pid loaded) : after.Loaded pid loaded :=
  ⟨known.claimed.extend extended, known.base.extend extended, known.durable⟩

theorem LogOk.mem_reflect (log : after.LogOk) (object : WalObject) (member : object ∈ after.log)
    (within : object.batch.get ≤ before.log.length) : object ∈ before.log := by
  have found := log.get_mem object member
  obtain ⟨rest, same⟩ := extended.log
  have positive := object.batch.positive
  rw [← same, List.getElem?_append_left (by omega)] at found
  exact List.mem_of_getElem? found

theorem Spent.extend (log : after.LogOk) (object : WalObject) (known : before.Spent object) : after.Spent object :=
  ⟨known.1, Nat.le_trans known.2.1 extended.log.length_le, fun member => known.2.2 (log.mem_reflect extended object member known.2.1)⟩

end

section

variable {pid : Pid} {before after : View} {proc next : Proc} (extended : before.Extends after)
  (silent : Silent pid before after proc next)

include extended silent

theorem Final.keeps (recovery : WriterRecovery) (known : before.Final pid proc recovery) : after.Final pid next recovery :=
  ⟨known.recovered.extend extended, fun object there => known.wrote object (silent.wrote object there)⟩

theorem Replays.keeps (replay : Replay) (known : before.Replays pid proc replay) : after.Replays pid next replay :=
  ⟨extended.log.subset known.fence, fun object there => known.wrote object (silent.wrote object there), known.above,
    known.durable.extend extended, known.owner.extend extended⟩

theorem AllSpent.keeps (log : after.LogOk) (n : Nat) (known : before.AllSpent pid proc n) : after.AllSpent pid next n :=
  fun object there => (known object (silent.wrote object there)).imp_left fun spent => spent.extend extended log

omit extended in
theorem Unwritten.keeps (known : before.Unwritten pid proc) : after.Unwritten pid next :=
  fun object there => known object (silent.wrote object there)

theorem BootOk.keeps (log : after.LogOk) (state : BootstrapState) (known : before.BootOk pid proc state) :
    after.BootOk pid next state := by
  cases state with
  | discoveringHead partition | establishingGenesis partition => exact Unwritten.keeps silent known
  | readingSeal generation =>
    exact ⟨Unwritten.keeps silent known.1, Nat.le_trans known.2 extended.chain.length_le⟩
  | publishingClaim candidate sources =>
    obtain ⟨unwritten, ⟨source, member, claimed⟩, planned⟩ := known
    exact ⟨unwritten.keeps silent, ⟨source, extended.chain.subset member, claimed⟩, planned⟩
  | readingTable load source =>
    obtain ⟨unwritten, done, loads⟩ := known
    exact ⟨unwritten.keeps silent, done, loads.extend extended⟩
  | observingWalTail loaded occupied =>
    obtain ⟨spent, ready, passed⟩ := known
    refine ⟨spent.keeps extended silent log, ready.extend extended, ?_⟩
    intro batch same
    exact ⟨(passed batch same).1.extend extended, Nat.le_trans (passed batch same).2 extended.log.length_le⟩
  | readingWalTail loaded fence listedTail =>
    obtain ⟨spent, ready, above, within, number⟩ := known
    exact ⟨spent.keeps extended silent log, ready.extend extended, above, Nat.le_trans within extended.log.length_le, number⟩
  | establishingFence loaded fence =>
    obtain ⟨ready, passed, wrote⟩ := known
    refine ⟨ready.extend extended, passed.extend extended, ?_⟩
    intro object there
    exact (wrote object (silent.wrote object there)).imp_right (And.imp_left fun spent => spent.extend extended log)
  | replaying replay =>
    obtain ⟨claimed, base, below, progress⟩ := known
    exact ⟨claimed.extend extended, base.extend extended, below,
      progress.imp (fun past => past.extend extended) (fun replays => replays.keeps extended silent)⟩
  | refreshingAnomaly claim detail => exact Superseded.extend extended _ known
  | refreshingFinal recovery =>
    obtain ⟨claimed, progress⟩ := known
    exact ⟨claimed.extend extended, progress.imp (fun past => past.extend extended) (fun final => final.keeps extended silent)⟩
  | initial | complete => exact known

theorem BootReply.keeps (state : BootstrapState) (reply : Reply) (known : before.BootReply pid proc state reply) :
    after.BootReply pid next state reply := by
  unfold BootReply at known ⊢
  split at known
  · exact known
  · exact known
  · exact known.extend extended
  · exact known
  · obtain ⟨observed, same, ordered, final⟩ := known
    exact ⟨observed, same, ordered, fun equal => (final equal).keeps extended silent⟩
  · trivial

end

section

variable {store : ObjectStore} {view : View} (stored : Stored store view) (known : view.Ok)

include known

theorem Ok.collected_superseded (claim : Seal) (member : claim ∈ view.chain) (batch : BatchId) (gone : batch ∈ view.collected)
    (above : claim.replay.cut < batch.get) : view.Superseded claim.generation := by
  obtain ⟨_, other, issued⟩ := known.residue.collected batch gone
  obtain ⟨_, _, sealed, there, _, _, _, below⟩ := known.residue.issued other batch issued
  have bound := known.chain.generation_le sealed there
  by_contra current
  have ordered := known.chain.cut_le sealed claim there member (by unfold Superseded at current; omega)
  omega

theorem Ok.stale_superseded (claim : Seal) (member : claim ∈ view.chain) (object : WalObject) (stale : object ∈ view.stale)
    (above : claim.replay.cut < object.batch.get) : view.Superseded claim.generation :=
  known.collected_superseded claim member object.batch (known.residue.stale object stale).2.1 above

theorem Ok.fence_uncollected (object : WalObject) (member : object ∈ view.log) (fence : object.body.isFence = true) :
    object.batch ∉ view.collected := by
  intro gone
  obtain ⟨⟨entry, inside, same, run⟩, _⟩ := known.residue.collected _ gone
  rw [known.log.unique entry object inside member (congrArg BatchId.get same), fence] at run
  cases run

include stored

theorem Stored.newest_seal (nonempty : 0 < view.chain.length) :
    ∃ generation, store.seals.greatest = some generation ∧ generation.get = view.chain.length := by
  obtain ⟨head, member, number⟩ := known.chain.exists_seal view.chain.length nonempty (Nat.le_refl _)
  have held : store.seals[head.generation]? = some head := by
    rw [stored.seals]
    exact known.chain.get_mem head member
  obtain ⟨top, found, above, inside⟩ := OrdMap.greatest_of_held held
  refine ⟨top, found, ?_⟩
  have least : head.generation.get ≤ top.get := Nat.isLE_compare.mp above
  rw [stored.seals, Option.isSome_iff_ne_none, ne_eq, List.getElem?_eq_none_iff] at inside
  omega

omit known in
theorem Stored.newest_wal (object : WalObject) (member : object ∈ view.log) (present : object.batch ∉ view.collected) :
    ∃ tail, store.wal.greatest = some tail ∧ object.batch.get ≤ tail.get := by
  obtain ⟨tail, found, above, _⟩ := OrdMap.greatest_of_held (stored.live object member present)
  exact ⟨tail, found, Nat.isLE_compare.mp above⟩

theorem Stored.tail_reaches (claimed : ClaimedBootstrap) (claim : view.Claim claimed.sealed)
    (same : claimed.claim.generation = claimed.sealed.generation) (batch : BatchId) (passed : view.Passed claimed batch)
    (within : batch.get ≤ view.log.length) : ∃ tail, store.wal.greatest = some tail ∧ batch.get ≤ tail.get := by
  obtain ⟨object, member, number⟩ := known.log.exists_object batch.get batch.positive within
  by_cases gone : object.batch ∈ view.collected
  · obtain ⟨_, other, issued⟩ := known.residue.collected _ gone
    have nonempty : 0 < view.chain.length := List.length_pos_of_mem claim.1
    obtain ⟨head, there, newest⟩ := known.chain.exists_seal view.chain.length nonempty (Nat.le_refl _)
    have covered := known.chain.deleteRight_cut other object.batch (known.residue.issued other _ issued) head there newest
    have ordered := known.chain.generation_le claimed.sealed claim.1
    have above := passed.above
    have adopted := known.chain.adopted claimed.sealed head claim there (by omega) (by omega)
    have owner := (known.chain.owner head there).2
    have older := passed.older
    rw [same] at older
    obtain ⟨fence, inside, past, _, isFence, _⟩ := known.log.fence_between (batch.get - 1) head.replay.cut (by omega)
    obtain ⟨tail, found, reaches⟩ := stored.newest_wal fence inside (known.fence_uncollected fence inside isFence)
    exact ⟨tail, found, by omega⟩
  · obtain ⟨tail, found, reaches⟩ := stored.newest_wal object member gone
    exact ⟨tail, found, by omega⟩

theorem BootOk.answered (pid : Pid) (proc : Proc) (state : BootstrapState) (ok : view.BootOk pid proc state)
    (effect : BootstrapEffect) (call : Call) (waits : BootCall state effect call) :
    view.BootReply pid proc state (store.execute call.request).2 := by
  cases state with
  | readingSeal generation =>
    obtain ⟨_, rfl⟩ := waits
    have positive := generation.positive
    have within := ok.2
    simp only [Call.request, ObjectStore.execute, BootReply, stored.seals, ne_eq, List.getElem?_eq_none_iff]
    omega
  | observingWalTail loaded occupied =>
    obtain ⟨_, rfl⟩ := waits
    cases occupied with
    | none => trivial
    | some batch =>
      obtain ⟨_, ready, passed⟩ := ok
      obtain ⟨reached, within⟩ := passed batch rfl
      exact stored.tail_reaches known loaded.claimed ready.claimed.claim ready.claimed.same batch reached within
  | replaying replay =>
    obtain ⟨_, rfl⟩ := waits
    obtain ⟨claimed, _, below, progress⟩ := ok
    simp only [Call.request, ObjectStore.execute]
    cases found : store.wal[replay.next]? with
    | some object => trivial
    | none =>
      rcases progress with past | replays
      · exact past
      · have within := known.log.batch_le _ replays.fence
        have gone := vacant_collected stored known replay.next found (by simp only [fenceObject] at within; omega)
        have past := known.collected_superseded _ claimed.claim.1 _ gone replays.above
        rwa [← claimed.same] at past
  | refreshingAnomaly claim detail =>
    obtain ⟨_, rfl⟩ := waits
    obtain ⟨generation, found, number⟩ := stored.newest_seal known (Nat.lt_of_le_of_lt (Nat.zero_le _) ok)
    exact ⟨generation, found, by rw [number]; exact ok⟩
  | refreshingFinal recovery =>
    obtain ⟨_, rfl⟩ := waits
    obtain ⟨claimed, progress⟩ := ok
    have within := known.chain.authored_le pid _ claimed.author
    obtain ⟨generation, found, number⟩ := stored.newest_seal known
      (Nat.lt_of_lt_of_le recovery.claim.generation.positive within)
    refine ⟨generation, found, by rw [number]; exact within, ?_⟩
    intro same
    rcases progress with past | final
    · rw [← same, Superseded, number] at past
      exact absurd past (Nat.lt_irrefl _)
    · exact final
  | _ => trivial

end

end View

end StromDB
