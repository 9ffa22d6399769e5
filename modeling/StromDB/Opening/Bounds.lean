import StromDB.Opening.Completion
import StromDB.Opening.Total

namespace StromDB

open List

variable [Rkyv]

variable (run : BootRun) (cut last extra : Nat) (effects : List BootstrapEffect)

namespace Bootstrap

def candidates (effects : List BootstrapEffect) : List Nat :=
  effects.filterMap fun
    | .establishFence candidate => some candidate.object.batch.get
    | _ => none

def Places : BootstrapEffect → Prop
  | .observeWalTail => True
  | .readWal _ _ => True
  | .establishFence _ => True
  | _ => False

structure Tries (cut last extra : Nat) (effects : List BootstrapEffect) : Prop where
  places : ∀ effect ∈ effects, Places effect
  grows : (candidates effects).Pairwise fun later earlier => earlier < later
  within : ∀ candidate ∈ candidates effects, cut < candidate ∧ candidate ≤ cut + 1024 ∧ candidate ≤ last
  cost : effects.length ≤ 3 * (candidates effects).length + extra

theorem Tries.nil : Tries cut last 0 [] := ⟨by simp, by simp [candidates], by simp [candidates], by simp⟩

theorem Tries.looks (tries : Tries cut last extra effects)
    (effect : BootstrapEffect) (places : Places effect) (look : candidates [effect] = []) :
    Tries cut last (extra + 1) (effect :: effects) := by
  have same : candidates (effect :: effects) = candidates effects := by
    rw [← singleton_append, candidates, filterMap_append, ← candidates, ← candidates, look, nil_append]
  refine ⟨forall_mem_cons.mpr ⟨places, tries.places⟩, same ▸ tries.grows, same ▸ tries.within, ?_⟩
  have cost := tries.cost
  rw [same, length_cons]
  omega

theorem Tries.fence (tries : Tries cut last extra effects)
    (few : extra ≤ 2) (candidate : EncodedWal) (above : cut < candidate.object.batch.get)
    (near : candidate.object.batch.get ≤ cut + 1024) (advances : last < candidate.object.batch.get) :
    Tries cut candidate.object.batch.get 0 (.establishFence candidate :: effects) := by
  have same : candidates (.establishFence candidate :: effects) = candidate.object.batch.get :: candidates effects := rfl
  refine ⟨forall_mem_cons.mpr ⟨trivial, tries.places⟩, ?_, ?_, ?_⟩
  · rw [same, pairwise_cons]
    refine ⟨fun earlier member => ?_, tries.grows⟩
    have bound := tries.within earlier member
    omega
  · refine forall_mem_cons.mpr ⟨⟨above, near, Nat.le_refl _⟩, fun earlier member => ?_⟩
    have bound := tries.within earlier member
    omega
  · have cost := tries.cost
    rw [same, length_cons, length_cons]
    omega

theorem Tries.few (tries : Tries cut last extra effects) : (candidates effects).length ≤ 1024 := by
  have distinct : (candidates effects).Nodup := tries.grows.imp fun less => Nat.ne_of_gt less
  have inside : candidates effects ⊆ range' (cut + 1) 1024 := by
    intro candidate member
    have bound := tries.within candidate member
    exact mem_range'_1.mpr ⟨by omega, by omega⟩
  have fits := (List.Nodup.subperm distinct inside).length_le
  rwa [length_range'] at fits

theorem Probe.tries {claimed : ClaimedBootstrap} {cut last : Nat} {probe : List Exchange} {effects : List BootstrapEffect}
    (probed : Probe claimed probe) (tries : Tries cut last 0 effects) :
    ∃ extra ≤ 2, Tries cut last extra (probe.map Prod.fst ++ effects) := by
  cases probed with
  | listed tail _ => exact ⟨1, by decide, tries.looks cut last 0 effects .observeWalTail trivial rfl⟩
  | read tail observed _ =>
    exact ⟨2, by decide, (tries.looks cut last 0 effects .observeWalTail trivial rfl).looks cut last 1 _ (.readWal _ tail) trivial rfl⟩

theorem Placed.tries {claimed : ClaimedBootstrap} {last : Option BatchId} {extra : Nat} {batch : BatchId} {encoded : EncodedWal}
    {effects : List BootstrapEffect} (placed : Placed claimed last batch) (same : encoded.object = fenceObject claimed batch)
    (few : extra ≤ 2) (tries : Tries claimed.sealed.replay.cut (cutNumber last) extra effects) :
    Tries claimed.sealed.replay.cut batch.get 0 (.establishFence encoded :: effects) := by
  have number : encoded.object.batch = batch := by rw [same]; rfl
  have advances : cutNumber last < batch.get := by
    cases last with
    | none => exact batch.positive
    | some occupied => exact placed.advances occupied rfl
  rw [← number] at advances ⊢
  exact tries.fence _ _ extra effects few encoded (number ▸ placed.above) (number ▸ placed.near) advances

theorem Rounds.tries {claimed : ClaimedBootstrap} {last : Option BatchId} {rounds : List Exchange}
    (tried : Rounds claimed last rounds) :
    Tries claimed.sealed.replay.cut (cutNumber last) 0 (rounds.map Prod.fst) := by
  induction tried with
  | none => exact Tries.nil _ _
  | occupied last batch encoded probe rounds _ placed probed same ih =>
    obtain ⟨extra, few, tries⟩ := probed.tries ih
    rw [map_cons, map_append]
    exact placed.tries same few tries

structure Bounded (cut : Nat) (effects tables rounds replay heads : List BootstrapEffect) : Prop where
  split : effects = tables ++ (rounds ++ (replay ++ heads))
  tableReads : tables.length ≤ 1024 ∧ ∀ effect ∈ tables, ∃ partition table, effect = .readTable partition table
  placement : rounds.length ≤ 3 * 1024 + 2 ∧ ∀ effect ∈ rounds, Places effect
  grows : (candidates rounds).Pairwise fun earlier later => earlier < later
  within : ∀ candidate ∈ candidates rounds, cut < candidate ∧ candidate ≤ cut + 1024
  replayReads : replay.length ≤ 1024 ∧ ∀ effect ∈ replay, ∃ partition batch, effect = .readWal partition batch
  headReads : heads.length ≤ 1 ∧ ∀ effect ∈ heads, effect = .observeHead

theorem Bounded.length_le (tables rounds replay heads : List BootstrapEffect)
    (bounded : Bounded cut effects tables rounds replay heads) : effects.length ≤ 5123 := by
  have first := bounded.tableReads.1
  have second := bounded.placement.1
  have third := bounded.replayReads.1
  have fourth := bounded.headReads.1
  rw [bounded.split]
  simp only [length_append]
  omega

def Issued (cut : Nat) (effects : List BootstrapEffect) : Prop :=
  ∃ tables rounds replay heads, Bounded cut effects.reverse tables rounds replay heads

theorem Tries.issued (rounds tables replay heads : List BootstrapEffect) (tries : Tries cut last extra rounds)
    (few : extra ≤ 2) (tableReads : tables.length ≤ 1024 ∧ ∀ effect ∈ tables, ∃ partition table, effect = .readTable partition table)
    (replayReads : replay.length ≤ 1024 ∧ ∀ effect ∈ replay, ∃ partition batch, effect = .readWal partition batch)
    (headReads : heads.length ≤ 1 ∧ ∀ effect ∈ heads, effect = .observeHead) :
    Issued cut (heads ++ (replay ++ (rounds ++ tables))) := by
  have reversed : candidates rounds.reverse = (candidates rounds).reverse := filterMap_reverse
  refine ⟨tables.reverse, rounds.reverse, replay.reverse, heads.reverse, ?_, ?_, ?_, ?_, ?_, ?_, ?_⟩
  · simp
  · simpa using tableReads
  · have cost := tries.cost
    have count := tries.few
    refine ⟨?_, by simpa using tries.places⟩
    rw [length_reverse]
    omega
  · rw [reversed, pairwise_reverse]
    exact tries.grows
  · intro candidate member
    rw [reversed, mem_reverse] at member
    have bound := tries.within candidate member
    exact ⟨bound.1, bound.2.1⟩
  · simpa using replayReads
  · simpa using headReads

section

variable (source : Seal) (sources : List PlannedTable) (claimed : ClaimedBootstrap) (claims : Claims source sources claimed)

include claims

omit [Rkyv] in
theorem Claims.replay : source.replay = claimed.sealed.replay := by
  rw [(Seal.claimSuccessor_ok_iff.mp claims.successor).2]

omit [Rkyv] in
theorem Claims.few : sources.length ≤ 1024 := by
  have named := (plan_tables claims.planned).length_eq
  have planned := claims.planned
  rw [planBootstrapSources] at planned
  split at planned
  · cases planned
  · rename_i within
    rw [length_map] at named
    rw [not_or, Nat.not_lt] at within
    rw [named]
    exact within.1

end

theorem TablesRead.reads (source : Seal) (sources : List PlannedTable) (reads : List (PlannedTable × DecodedTable)) (load : BaseLoad)
    (trace : List Exchange) (read : TablesRead source sources reads load trace) :
    ∃ later before, trace = later ++ before ∧ ClaimTrace source load.claimed before ∧
      (later.map Prod.fst).length + load.remaining.length ≤ 1024 ∧
      ∀ effect ∈ later.map Prod.fst, ∃ partition table, effect = BootstrapEffect.readTable partition table := by
  obtain ⟨before, claim, split⟩ := read.exchanges
  have few := read.claims.few
  rw [read.plan, length_append, length_map] at few
  refine ⟨_, before, split, claim, by simpa using few, ?_⟩
  intro effect member
  simp only [map_reverse, mem_reverse, map_map, mem_map, Function.comp_apply] at member
  obtain ⟨one, _, rfl⟩ := member
  exact ⟨_, _, rfl⟩

def AfterClaim (trace : List Exchange) (front : List BootstrapEffect) : Prop :=
  ∃ source claimed later before, trace = later ++ before ∧ ClaimTrace source claimed before ∧
    Issued source.replay.cut (front ++ later.map Prod.fst)

theorem readingTable_after {load : BaseLoad} {planned : PlannedTable} {trace : List Exchange}
    (evident : Evident (.readingTable load planned) trace) (partition : PartitionId) :
    AfterClaim trace [.readTable partition planned.table] := by
  obtain ⟨source, sources, reads, read⟩ := evident
  obtain ⟨later, before, split, claim, few, tables⟩ := read.reads
  rw [length_cons] at few
  refine ⟨source, _, later, before, split, claim, ?_⟩
  refine (Tries.nil source.replay.cut 0).issued _ 0 0 [] (.readTable partition planned.table :: later.map Prod.fst) [] [] (by decide)
    ⟨?_, ?_⟩ (by simp) (by simp)
  · rw [length_cons]
    omega
  · exact forall_mem_cons.mpr ⟨⟨_, _, rfl⟩, tables⟩

theorem BaseRead.after (claimed : ClaimedBootstrap) (base : Forest) (before exchanges : List Exchange)
    (front heads replay placement : List BootstrapEffect) (read : BaseRead claimed base before)
    (same : front ++ exchanges.map Prod.fst = heads ++ (replay ++ placement)) (last extra : Nat)
    (tries : Tries claimed.sealed.replay.cut last extra placement) (few : extra ≤ 2)
    (replayReads : replay.length ≤ 1024 ∧ ∀ effect ∈ replay, ∃ partition batch, effect = .readWal partition batch)
    (headReads : heads.length ≤ 1 ∧ ∀ effect ∈ heads, effect = .observeHead) : AfterClaim (exchanges ++ before) front := by
  obtain ⟨source, sources, reads, load, tables, rfl, empty, _⟩ := read
  obtain ⟨later, earlier, rfl, claim, count, kinds⟩ := tables.reads
  rw [empty, length_nil, Nat.add_zero] at count
  refine ⟨source, load.claimed, exchanges ++ later, earlier, (append_assoc _ _ _).symm, claim, ?_⟩
  have issued := tries.issued _ last extra _ (later.map Prod.fst) replay heads few ⟨count, kinds⟩ replayReads headReads
  rw [map_append, ← append_assoc, same, tables.claims.replay, append_assoc, append_assoc]
  exact issued

theorem observingWalTail_after {loaded : LoadedBootstrap} {occupied : Option BatchId} {trace : List Exchange}
    (evident : Evident (.observingWalTail loaded occupied) trace) : AfterClaim trace [.observeWalTail] := by
  obtain ⟨_, rounds, before, tried, read, rfl⟩ := evident
  have tries := (tried.tries).looks _ _ 0 _ .observeWalTail trivial rfl
  exact read.after _ _ before rounds [.observeWalTail] [] [] (.observeWalTail :: rounds.map Prod.fst) rfl _ 1 tries (by decide)
    (by simp) (by simp)

theorem TailEvidence.after (loaded : LoadedBootstrap) (fence : TakeoverFence) (tail : BatchId) (trace : List Exchange)
    (evidence : TailEvidence loaded fence tail trace) (partition : PartitionId) (batch : BatchId) :
    AfterClaim trace [.readWal partition batch] ∧
      ∀ event, AfterClaim ((.readWal partition batch, event) :: trace) [.observeHead] := by
  obtain ⟨_, _, last, rounds, before, tried, placed, read, rfl⟩ := evidence
  have tries := ((tried.tries).looks _ _ 0 _ .observeWalTail trivial rfl).looks _ _ 1 _ (.readWal partition batch) trivial rfl
  refine ⟨?_, fun event => ?_⟩
  · exact read.after _ _ before ((.observeWalTail, .walTailObserved (some tail)) :: rounds) [.readWal partition batch] [] []
      (.readWal partition batch :: .observeWalTail :: rounds.map Prod.fst) rfl _ 2 tries (by decide) (by simp) (by simp)
  · exact read.after _ _ before
      ((.readWal partition batch, event) :: (.observeWalTail, .walTailObserved (some tail)) :: rounds) [.observeHead] [.observeHead] []
      (.readWal partition batch :: .observeWalTail :: rounds.map Prod.fst) rfl _ 2 tries (by decide) (by simp) (by simp)

theorem establishingFence_after {loaded : LoadedBootstrap} {fence : TakeoverFence} {encoded : EncodedWal} {trace : List Exchange}
    (same : encoded.object = fenceObject loaded.claimed fence.batch) (evident : Evident (.establishingFence loaded fence) trace) :
    AfterClaim trace [.establishFence encoded] := by
  obtain ⟨_, probe, probed, last, rounds, before, tried, placed, read, rfl⟩ := evident
  obtain ⟨extra, few, probes⟩ := probed.tries (tried.tries)
  have tries := placed.tries same few probes
  rw [← append_assoc]
  exact read.after _ _ before (probe ++ rounds) [.establishFence encoded] [] []
    (.establishFence encoded :: (probe.map Prod.fst ++ rounds.map Prod.fst)) (by simp) _ 0 tries (by decide) (by simp) (by simp)

theorem Fenced.after (claimed : ClaimedBootstrap) (base : Forest) (batch : BatchId) (closing exchanges : List Exchange)
    (front heads replay : List BootstrapEffect) (fenced : Fenced claimed base batch closing)
    (same : front ++ exchanges.map Prod.fst = heads ++ replay)
    (replayReads : replay.length ≤ 1024 ∧ ∀ effect ∈ replay, ∃ partition batch, effect = .readWal partition batch)
    (headReads : heads.length ≤ 1 ∧ ∀ effect ∈ heads, effect = .observeHead) : AfterClaim (exchanges ++ closing) front := by
  obtain ⟨encoded, probe, _, object, probed, ⟨last, rounds, before, tried, placed, read, rfl⟩, rfl⟩ := fenced
  obtain ⟨extra, few, probes⟩ := probed.tries (tried.tries)
  have tries := placed.tries object few probes
  have shape : exchanges ++ (.establishFence encoded, .fenceEstablished .durable) :: (probe ++ (rounds ++ before)) =
      (exchanges ++ (.establishFence encoded, .fenceEstablished .durable) :: (probe ++ rounds)) ++ before := by simp
  rw [shape]
  refine read.after _ _ before _ front heads replay (.establishFence encoded :: (probe.map Prod.fst ++ rounds.map Prod.fst)) ?_ _ 0
    tries (by decide) replayReads headReads
  rw [map_append, ← append_assoc, same, append_assoc, map_cons, map_append]

theorem Fenced.near (claimed : ClaimedBootstrap) (base : Forest) (batch : BatchId) (closing : List Exchange)
    (fenced : Fenced claimed base batch closing) : batch.get ≤ claimed.sealed.replay.cut + 1024 := by
  obtain ⟨_, _, _, _, _, ⟨_, _, _, _, placed, _⟩, _⟩ := fenced
  exact placed.near

theorem walExchange_effects (objects : List WalObject) (effect : BootstrapEffect)
    (member : effect ∈ ((objects.map walExchange).reverse).map Prod.fst) : ∃ partition batch, effect = .readWal partition batch := by
  simp only [map_reverse, mem_reverse, map_map, mem_map, Function.comp_apply] at member
  obtain ⟨object, _, rfl⟩ := member
  exact ⟨_, _, rfl⟩

theorem ReplayEvidence.after (replay : Replay) (trace : List Exchange) (evidence : ReplayEvidence replay trace)
    (partition : PartitionId) (batch : BatchId) :
    AfterClaim trace [.readWal partition batch] ∧
      ∀ event, AfterClaim ((.readWal partition batch, event) :: trace) [.observeHead] := by
  obtain ⟨reached, objects, closing, _, next, fenced, rfl⟩ := evidence
  have near := fenced.near
  have reads : (BootstrapEffect.readWal partition batch :: ((objects.map walExchange).reverse).map Prod.fst).length ≤ 1024 ∧
      ∀ effect ∈ BootstrapEffect.readWal partition batch :: ((objects.map walExchange).reverse).map Prod.fst,
        ∃ partition batch, effect = .readWal partition batch := by
    refine ⟨?_, forall_mem_cons.mpr ⟨⟨_, _, rfl⟩, walExchange_effects objects⟩⟩
    rw [length_cons, length_map, length_reverse, length_map]
    omega
  refine ⟨?_, fun event => ?_⟩
  · exact fenced.after _ _ _ closing _ [.readWal partition batch] [] _ rfl reads (by simp)
  · exact fenced.after _ _ _ closing ((.readWal partition batch, event) :: (objects.map walExchange).reverse) [.observeHead]
      [.observeHead] _ rfl reads (by simp)

theorem FinalEvidence.after (recovery : WriterRecovery) (trace : List Exchange) (evidence : FinalEvidence recovery trace) :
    AfterClaim trace [.observeHead] := by
  obtain ⟨objects, closing, _, durable, fenced, rfl⟩ := evidence
  have near : recovery.durableBatch.get ≤ recovery.sealed.replay.cut + 1024 := fenced.near
  refine fenced.after _ _ _ closing _ [.observeHead] [.observeHead] _ rfl ⟨?_, walExchange_effects objects⟩ (by simp)
  rw [length_map, length_reverse, length_map]
  omega

def authored : Exchange → Bool
  | (.publishClaim _, .claimPublished .authored) => true
  | _ => false

theorem Discovers.unauthored {trace : List Exchange} (discovers : Discovers trace) : ∀ exchange ∈ trace, authored exchange = false := by
  rintro ⟨effect, event⟩ member
  rcases discovers _ member with rfl | ⟨candidate, rfl⟩ <;> rfl

theorem HeadFound.unauthored {generation : SealGeneration} {trace : List Exchange} (found : HeadFound generation trace) :
    ∀ exchange ∈ trace, authored exchange = false := by
  cases found with
  | listed earlier discovers | made candidate earlier _ discovers => exact forall_mem_cons.mpr ⟨rfl, discovers.unauthored⟩

theorem Evident.after (state : BootstrapState) (effect : BootstrapEffect) (trace : List Exchange) (awaits : Awaits state effect)
    (evident : Evident state trace) : (∀ exchange ∈ trace, authored exchange = false) ∨ AfterClaim trace [effect] := by
  cases awaits with
  | head partition | genesis partition candidate => exact .inl (Discovers.unauthored evident)
  | source generation => exact .inl (HeadFound.unauthored evident)
  | claim candidate sources encoded same =>
    obtain ⟨source, found, _, head, rfl⟩ := evident
    exact .inl (forall_mem_cons.mpr ⟨rfl, head.unauthored⟩)
  | table load source => exact .inr (readingTable_after evident _)
  | tail loaded occupied => exact .inr (observingWalTail_after evident)
  | probe loaded fence tail => exact .inr (TailEvidence.after loaded fence tail trace evident _ _).1
  | fence loaded fence encoded same => exact .inr (establishingFence_after same evident)
  | replay replay => exact .inr (ReplayEvidence.after replay trace evident _ _).1
  | anomaly claim detail =>
    obtain ⟨partition, batch, event, earlier, rfl, ⟨loaded, fence, tail, tried⟩ | ⟨replay, replayed⟩⟩ := evident
    · exact .inr ((tried.after loaded fence tail earlier partition batch).2 event)
    · exact .inr ((replayed.after replay earlier partition batch).2 event)
  | final recovery => exact .inr (FinalEvidence.after recovery trace evident)

theorem Issued.kinds (issued : Issued cut effects) (candidate : EncodedAuthoritySeal) : .publishClaim candidate ∉ effects := by
  obtain ⟨tables, rounds, replay, heads, bounded⟩ := issued
  intro member
  rw [← mem_reverse, bounded.split] at member
  simp only [mem_append] at member
  rcases member with here | here | here | here
  · obtain ⟨_, _, same⟩ := bounded.tableReads.2 _ here
    cases same
  · exact (bounded.placement.2 _ here).elim
  · obtain ⟨_, _, same⟩ := bounded.replayReads.2 _ here
    cases same
  · cases bounded.headReads.2 _ here

theorem Issued.length_le (issued : Issued cut effects) : effects.length ≤ 5123 := by
  obtain ⟨tables, rounds, replay, heads, bounded⟩ := issued
  have short := bounded.length_le
  rwa [length_reverse] at short

theorem authored_publishes {effect : BootstrapEffect} {event : BootstrapEvent} (claimed : authored (effect, event) = true) :
    ∃ candidate, effect = .publishClaim candidate ∧ event = .claimPublished .authored := by
  unfold authored at claimed
  split at claimed
  · rename_i same
    cases same
    exact ⟨_, rfl, rfl⟩
  · cases claimed

end Bootstrap

namespace BootRun

def pending (run : BootRun) : List BootstrapEffect :=
  match run.step with
  | .effect effect => [effect]
  | _ => []

def Authored (run : BootRun) : Prop := run.trace.any Bootstrap.authored = true

instance (run : BootRun) : Decidable run.Authored := inferInstanceAs (Decidable (_ = true))

def sinceClaim (run : BootRun) : List Exchange := run.trace.takeWhile fun exchange => !Bootstrap.authored exchange

def issued (run : BootRun) : List BootstrapEffect := (run.pending ++ run.sinceClaim.map Prod.fst).reverse

end BootRun

namespace Bootstrap

theorem AfterClaim.split (after : AfterClaim run.trace run.pending) :
    ∃ source claimed before, run.trace = run.sinceClaim ++ before ∧ ClaimTrace source claimed before ∧
      Issued source.replay.cut (run.pending ++ run.sinceClaim.map Prod.fst) := by
  obtain ⟨source, claimed, later, before, split, claim, issued⟩ := after
  have quiet : ∀ exchange ∈ later, (!authored exchange) = true := by
    rintro ⟨effect, event⟩ member
    cases published : authored (effect, event) with
    | false => rfl
    | true =>
      obtain ⟨candidate, rfl, _⟩ := authored_publishes published
      exact absurd (mem_append_right _ (mem_map_of_mem member)) (issued.kinds _ _ candidate)
  have since : run.sinceClaim = later := by
    rw [BootRun.sinceClaim, split, takeWhile_append_of_pos quiet]
    cases claim
    simp [authored]
  exact ⟨source, claimed, before, since ▸ split, claim, since ▸ issued⟩

theorem AfterClaim.answered {effect : BootstrapEffect} (event : BootstrapEvent) (trace : List Exchange)
    (after : AfterClaim trace [effect]) : AfterClaim ((effect, event) :: trace) [] := by
  obtain ⟨source, claimed, later, before, rfl, claim, issued⟩ := after
  exact ⟨source, claimed, (effect, event) :: later, before, rfl, claim, issued⟩

theorem Evident.claimed {state : BootstrapState} {effect : BootstrapEffect} {event : BootstrapEvent} {trace : List Exchange}
    (awaits : Awaits state effect) (evident : Evident state trace) (claimed : authored (effect, event) = true) :
    AfterClaim ((effect, event) :: trace) [] := by
  obtain ⟨candidate, rfl, rfl⟩ := authored_publishes claimed
  cases awaits with
  | claim sealed sources _ same =>
    obtain ⟨source, found, claims, head, rfl⟩ := evident
    exact ⟨source, ⟨⟨sealed.generation⟩, sealed⟩, [], _, rfl, .authored candidate found same head,
      (Tries.nil _ 0).issued _ 0 0 [] [] [] [] (by decide) (by simp) (by simp) (by simp)⟩

end Bootstrap

namespace BootRun

theorem Evident.after (evident : run.Evident) (authored : run.Authored) : Bootstrap.AfterClaim run.trace run.pending := by
  obtain ⟨state, step, trace⟩ := run
  obtain ⟨published, member, here⟩ := any_eq_true.mp authored
  cases step with
  | effect effect =>
    rcases Bootstrap.Evident.after state effect trace evident.1 evident.2 with unclaimed | after
    · exact absurd here (by simp [unclaimed published member])
    · exact after
  | complete recovery =>
    obtain ⟨earlier, final, rfl⟩ := evident
    exact (final.after recovery earlier).answered _ earlier
  | exit failure =>
    obtain ⟨before, effect, event, earlier, awaits, shown, rfl⟩ := evident
    rcases Bootstrap.Evident.after before effect earlier awaits shown with unclaimed | after
    · rcases mem_cons.mp member with rfl | later
      · exact Bootstrap.Evident.claimed awaits shown here
      · exact absurd here (by simp [unclaimed published later])
    · exact after.answered event earlier

def advance (respond : BootRun → BootstrapEvent) : Nat → BootRun → Option BootRun
  | 0, run => some run
  | count + 1, run =>
    match run.step with
    | .effect _ => (run.answer (respond run)).bind (advance respond count)
    | _ => some run

def Stopped (run : BootRun) : Prop := run.pending = []

instance (run : BootRun) : Decidable run.Stopped := inferInstanceAs (Decidable (_ = _))

theorem answer_trace (next : BootRun) (event : BootstrapEvent) (stepped : run.answer event = some next) :
    ∃ effect, run.step = .effect effect ∧ next.trace = (effect, event) :: run.trace := by
  unfold answer at stepped
  split at stepped
  · rename_i effect pending
    split at stepped
    · cases stepped
      exact ⟨effect, pending, rfl⟩
    · cases stepped
  · cases stepped

theorem answer_since (next : BootRun) (event : BootstrapEvent) (evident : run.Evident) (authored : run.Authored)
    (stepped : run.answer event = some next) : next.Authored ∧ next.sinceClaim.length = run.sinceClaim.length + 1 := by
  obtain ⟨effect, pending, later⟩ := answer_trace run next event stepped
  obtain ⟨_, _, _, _, _, issued⟩ := (evident.after run authored).split
  have quiet : Bootstrap.authored (effect, event) = false := by
    cases published : Bootstrap.authored (effect, event) with
    | false => rfl
    | true =>
      obtain ⟨candidate, rfl, _⟩ := Bootstrap.authored_publishes published
      have first : BootstrapEffect.publishClaim candidate ∈ run.pending := by simp [BootRun.pending, pending]
      exact absurd (mem_append_left _ first) (issued.kinds _ _ candidate)
  constructor
  · rw [Authored, later, any_cons, quiet, Bool.false_or]
    exact authored
  · rw [sinceClaim, later, takeWhile_cons_of_pos (by simp [quiet]), length_cons, sinceClaim]

theorem stopped_of_not_pending (still : ∀ effect, run.step ≠ .effect effect) : run.Stopped := by
  rw [Stopped, pending]
  cases step : run.step with
  | effect effect => exact absurd step (still effect)
  | _ => rfl

theorem advance_counts {respond : BootRun → BootstrapEvent}
    (conforms : ∀ run, ConformingRun run → ¬ run.Stopped → run.Conforms (respond run)) (count : Nat) :
    ∀ run : BootRun, ConformingRun run → run.Authored → ∃ final, run.advance respond count = some final ∧ ConformingRun final ∧
      final.Authored ∧ (final.Stopped ∨ final.sinceClaim.length = run.sinceClaim.length + count) := by
  induction count with
  | zero => exact fun run reached authored => ⟨run, rfl, reached, authored, .inr rfl⟩
  | succ count ih =>
    intro run reached authored
    rw [advance]
    split
    · rename_i effect step
      have answers := conforms run reached (by simp [Stopped, pending, step])
      have evident := (reached.answered).evident
      obtain ⟨next, stepped⟩ := run.answer_total evident (respond run) answers
      obtain ⟨claimed, grown⟩ := answer_since run next (respond run) evident authored stepped
      obtain ⟨final, ran, arrived, kept, ended⟩ := ih next (.next run next (respond run) reached answers stepped) claimed
      refine ⟨final, by rw [stepped, Option.bind_some, ran], arrived, kept, ended.imp_right fun same => ?_⟩
      omega
    · rename_i still
      exact ⟨run, rfl, reached, authored, .inl (run.stopped_of_not_pending still)⟩

end BootRun

end StromDB
