import StromDB.Opening.Evidence

namespace StromDB

open Checked

variable [Rkyv]

namespace Bootstrap

theorem foldReplayFacts_total (batch : BatchId) (facts : List OperationFact) : ∀ forest : Forest, forest.Consistent →
    ∃ result, foldReplayFacts batch facts forest = .ok result := by
  induction facts with
  | nil => exact fun forest _ => ⟨_, rfl⟩
  | cons fact rest ih =>
    intro forest consistent
    obtain ⟨⟨next, outcome⟩, folded⟩ := consistent.strictFold_total forest batch fact
    simp only [foldReplayFacts, folded, ok_bind]
    cases outcome with
    | error contradiction => exact ⟨_, rfl⟩
    | ok _ =>
      refine ih next (consistent.step forest next batch fact ((Forest.applyFact_eq_some_iff _ _ _ _).mp ?_))
      rw [Forest.applyFact, folded]

theorem replayObject_total {replay : Replay} (observed : WalObject) (consistent : replay.loaded.durable.Consistent) :
    ∃ outcome, replayObject replay observed = .ok outcome := by
  unfold replayObject
  split
  · split <;> exact ⟨_, rfl⟩
  · rename_i facts _
    split
    · obtain ⟨⟨durable, failed⟩, folded⟩ := foldReplayFacts_total replay.next facts.facts replay.loaded.durable consistent
      simp only [folded, ok_bind]
      cases failed <;> exact ⟨_, rfl⟩
    · exact ⟨_, rfl⟩

theorem BaseRead.consistent (claimed : ClaimedBootstrap) (base : Forest) (trace : List Exchange)
    (read : BaseRead claimed base trace) : base.Consistent := by
  obtain ⟨_, _, _, _, _, _, _, formed⟩ := read
  exact (Forest.consistent_of_tryFrom formed).2

section

variable (replay : Replay) (trace : List Exchange) (evidence : ReplayEvidence replay trace)

include evidence

theorem ReplayEvidence.consistent : replay.loaded.durable.Consistent := by
  obtain ⟨_, objects, _, replayed, _, ⟨_, _, _, _, _, ⟨_, _, _, _, _, read, _⟩, _⟩, _⟩ := evidence
  exact foldLog_consistent read.consistent replayed.durable

theorem ReplayEvidence.fence :
    ∃ encoded : EncodedWal, encoded.object = fenceObject replay.loaded.claimed replay.fence.batch ∧
      (.establishFence encoded, .fenceEstablished .durable) ∈ trace := by
  obtain ⟨_, objects, _, _, _, ⟨encoded, _, before, object, _, _, rfl⟩, rfl⟩ := evidence
  exact ⟨encoded, object, List.mem_append_right _ List.mem_cons_self⟩

theorem handleReplayRead_total
    (observed : Option WalObject) (answers : ∀ object, observed = some object →
      object.partition = replay.loaded.claimed.sealed.partition ∧ object.batch = replay.next)
    (readsBack : ∀ object, observed = some object → replay.next = replay.fence.batch →
      object = fenceObject replay.loaded.claimed replay.fence.batch) :
      ∃ transition, handleReplayRead replay observed = .ok transition := by
  cases observed with
  | none => exact ⟨_, rfl⟩
  | some object =>
    obtain ⟨partition, batch⟩ := answers object rfl
    have mine := readsBack object rfl
    have body : replay.next = replay.fence.batch → object.body = .fence := fun last => by rw [mine last]; rfl
    have owner : replay.next = replay.fence.batch → replay.loaded.claimed.claim.owner = object.owner := fun last => by
      rw [mine last]
      rfl
    obtain ⟨outcome, kept⟩ := replayObject_total object (evidence.consistent replay trace)
    rw [handleReplayRead]
    simp only [require, batch, partition, if_true, ok_bind, if_pos body, if_pos owner, kept]
    cases outcome with
    | error detail => exact ⟨_, rfl⟩
    | ok changed =>
      obtain ⟨_, _, shape⟩ := replayObject_inv kept
      rw [shape]
      simp only
      rcases View.advanceReplay_cases ⟨⟨replay.loaded.claimed, replay.loaded.base, changed.loaded.durable⟩, replay.next,
        replay.fence, some object.owner⟩ evidence.1 with ⟨ends, same⟩ | ⟨later, _, _, same⟩
      · rw [same]
        simp only [require, owner ends, if_true, ok_bind]
        exact ⟨_, rfl⟩
      · exact ⟨_, same⟩

end

theorem handleStoreFailure_total {state : BootstrapState} {effect : BootstrapEffect} (awaits : Awaits state effect)
    (error : TypedStoreError) : ∃ transition, handleStoreFailure state error = .ok transition := by
  cases awaits <;> cases error <;> exact ⟨_, rfl⟩

theorem establishGenesis_total (partition : PartitionId) : ∃ transition, establishGenesis partition = .ok transition := by
  obtain ⟨sealed, made, _⟩ := View.genesisSeal_ok partition
  rw [establishGenesis, made, expectOk, ok_bind]
  split <;> exact ⟨_, rfl⟩

theorem handleSeal_total (source : Seal) :
    ∃ transition, handleSeal (.readingSeal source.generation) (some source) = .ok transition := by
  simp only [handleSeal, require, if_true, ok_bind]
  cases planBootstrapSources source with
  | error failure => exact ⟨_, rfl⟩
  | ok sources =>
    cases source.claimSuccessor with
    | error failure => exact ⟨_, rfl⟩
    | ok candidate =>
      simp only
      cases EncodedAuthoritySeal.tryFrom candidate <;> exact ⟨_, rfl⟩

theorem handleTable_total {load : BaseLoad} {planned : PlannedTable} {trace : List Exchange} {decoded : DecodedTable}
    (evident : Evident (.readingTable load planned) trace) (readable : Readable planned.table decoded) :
    ∃ transition, handleTable (.readingTable load planned) planned.table decoded = .ok transition := by
  obtain ⟨source, sources, reads, read⟩ := evident
  have charged := loadTables_charged reads read.readable _ _ Charged.empty read.merged
  obtain ⟨outcome, merged, _⟩ := mergeTable_readable load planned decoded readable charged
  simp only [handleTable, require, if_true, ok_bind, merged]
  cases outcome <;> exact ⟨_, rfl⟩

theorem handleWalTail_total (loaded : LoadedBootstrap) (occupied listed : Option BatchId) :
    ∃ transition, handleWalTail (.observingWalTail loaded occupied) listed = .ok transition := by
  rw [handleWalTail]
  split
  · exact ⟨_, rfl⟩
  · cases occupied with
    | none => exact ⟨_, rfl⟩
    | some batch =>
      simp only
      split <;> exact ⟨_, rfl⟩

theorem handleTailRead_total {loaded : LoadedBootstrap} (fence : TakeoverFence) (tail : BatchId) (observed : Option WalObject)
    (answers : ∀ object, observed = some object → object.partition = loaded.claimed.sealed.partition ∧ object.batch = tail) :
    ∃ transition, handleTailRead loaded fence tail observed = .ok transition := by
  cases observed with
  | none => exact ⟨_, rfl⟩
  | some object =>
    obtain ⟨partition, batch⟩ := answers object rfl
    simp only [handleTailRead, require, partition, batch, if_true, ok_bind]
    split <;> exact ⟨_, rfl⟩

theorem handleFence_total (loaded : LoadedBootstrap) (fence : TakeoverFence) (establishment : WalEstablishment) :
    ∃ transition, handleFence (.establishingFence loaded fence) establishment = .ok transition := by
  cases establishment with
  | durable =>
    rw [handleFence]
    split <;> exact ⟨_, rfl⟩
  | occupied | unresolvedAbsent => exact ⟨_, rfl⟩

theorem handle_total {state : BootstrapState} {effect : BootstrapEffect} {event : BootstrapEvent} {trace : List Exchange}
    (awaits : Awaits state effect) (answers : Answers effect event) (evident : Evident state trace)
    (readsBack : ∀ replay object, state = .replaying replay → event = .walRead (some object) →
      replay.next = replay.fence.batch → object = fenceObject replay.loaded.claimed replay.fence.batch) :
    ∃ transition, handle state event = .ok transition := by
  cases answers with
  | failed _ error => exact handleStoreFailure_total awaits error
  | head observed =>
    cases awaits with
    | head partition =>
      cases observed with
      | none => exact establishGenesis_total partition
      | some generation => exact ⟨_, rfl⟩
    | anomaly claim detail | final recovery => exact ⟨_, rfl⟩
  | genesis candidate establishment =>
    cases awaits
    cases establishment <;> exact ⟨_, rfl⟩
  | source generation observed exact =>
    cases awaits
    cases observed with
    | none => exact ⟨_, rfl⟩
    | some source =>
      obtain ⟨rfl, _⟩ := exact source rfl
      exact handleSeal_total source
  | claim candidate publication =>
    cases awaits
    cases publication <;> exact ⟨_, rfl⟩
  | table partition table decoded readable =>
    cases awaits
    exact handleTable_total evident readable
  | tail listed =>
    cases awaits
    exact handleWalTail_total _ _ listed
  | wal partition batch observed exact =>
    cases awaits with
    | probe loaded fence => exact handleTailRead_total fence batch observed exact
    | replay replay =>
      exact handleReplayRead_total replay trace evident observed exact fun object here => readsBack replay object rfl (by rw [here])
  | fence candidate establishment =>
    cases awaits
    exact handleFence_total _ _ establishment

end Bootstrap

theorem BootRun.answer_total (run : BootRun) (evident : run.Evident) (event : BootstrapEvent) (conforms : run.Conforms event) :
    ∃ next, run.answer event = some next := by
  obtain ⟨⟨effect, pending, answers⟩, readsBack⟩ := conforms
  rw [BootRun.Evident, pending] at evident
  obtain ⟨awaits, shown⟩ := evident
  obtain ⟨transition, handled⟩ := Bootstrap.handle_total awaits answers shown (by
    intro replay object same read last
    rw [same] at awaits shown
    obtain ⟨encoded, mine, established⟩ := Bootstrap.ReplayEvidence.fence replay run.trace shown
    rw [← mine]
    refine readsBack encoded object established ?_ read
    cases awaits
    rw [pending, mine, last]
    rfl)
  refine ⟨⟨transition.1, transition.2, (effect, event) :: run.trace⟩, ?_⟩
  rw [BootRun.answer, pending]
  simp only [handled]

end StromDB
