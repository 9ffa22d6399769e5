import StromDB.Engine.Checkpoint
import StromDB.Refinement.View

namespace StromDB

open List Option

variable [Rkyv]

structure Advance (source sealed : Seal) : Prop where
  partition : sealed.partition = source.partition
  generation : sealed.generation.get = source.generation.get + 1
  cut : source.replay.cut < sealed.replay.cut
  directory : TreeAdvance sealed.generation source.directory sealed.directory
  ledger : TreeAdvance sealed.generation source.ledger sealed.ledger

def Follows (source sealed : Seal) : Prop := source.claimSuccessor = .ok sealed ∨ Advance source sealed

namespace View

structure LogOk (view : View) : Prop where
  coordinates : ∀ i object, view.log[i]? = some object → object.batch.get = i + 1
  legal : EpochLog.Legal (fun object => object.owner.get) (fun object => object.body.isFence) view.log
  folds : ∃ forest, foldLog view.log Forest.empty = some forest
  claimed : ∀ object ∈ view.log, object.owner.get ≤ view.chain.length
  partition : ∀ object ∈ view.log, ∀ sealed ∈ view.chain, object.partition = sealed.partition
  bounded : ∀ object ∈ view.log, walLength object ≤ WAL_ENCODED_BYTES_MAX

-- The Seals are one legal chain, and each one materializes the log up to its
-- cut. The last field is why a claimant that was overtaken finds a FENCE: where
-- the cut passed its own, the claim is covered by the replay owner.
structure ChainOk (view : View) : Prop where
  generations : ∀ i sealed, view.chain[i]? = some sealed → sealed.generation.get = i + 1
  authors : view.authors.length = view.chain.length
  legal : ∀ sealed ∈ view.chain, sealed.Legal
  bounds : ∀ sealed ∈ view.chain, SourceBounds sealed
  partition : ∀ first ∈ view.chain, ∀ second ∈ view.chain, first.partition = second.partition
  successors : ∀ i source sealed, view.chain[i]? = some source → view.chain[i + 1]? = some sealed → Follows source sealed
  owner : ∀ sealed ∈ view.chain, view.OwnerIs sealed.replay.cut sealed.replay.ownerNumber
  content : ∀ sealed ∈ view.chain, ∃ forest, view.FoldIs sealed.replay.cut forest ∧ Content view.tables sealed forest
  adopted : ∀ claim sealed, view.Claim claim → sealed ∈ view.chain → claim.generation.get ≤ sealed.generation.get →
    claim.replay.cut < sealed.replay.cut → claim.generation.get ≤ sealed.replay.ownerNumber

-- What collection took away, and the FENCEs that landed at collected
-- coordinates.
structure ResidueOk (view : View) : Prop where
  stale : ∀ object ∈ view.stale, object.body = .fence ∧ object.batch ∈ view.collected ∧
    view.ownerAt object.batch.get < object.owner.get ∧ object.owner.get ≤ view.chain.length ∧
    (∀ sealed ∈ view.chain, object.partition = sealed.partition) ∧ walLength object ≤ WAL_ENCODED_BYTES_MAX
  collected : ∀ batch ∈ view.collected, (∃ object ∈ view.log, object.batch = batch ∧ object.body.isFence = false) ∧
    ∃ pid, (pid, batch) ∈ view.issued
  issued : ∀ pid batch, (pid, batch) ∈ view.issued → view.DeleteRight pid batch
  dropped : ∀ object ∈ view.dropped, view.Unselectable object
  owned : ∀ object body, view.tables object = some body → object.fresh.attempt.ownerClaim.get ≤ view.chain.length

structure Ok (view : View) : Prop where
  log : view.LogOk
  chain : view.ChainOk
  residue : view.ResidueOk

structure Stored (store : ObjectStore) (view : View) : Prop where
  seals : ∀ generation : SealGeneration, store.seals[generation]? = view.chain[generation.get - 1]?
  live : ∀ object ∈ view.log, object.batch ∉ view.collected → store.wal[object.batch]? = some object
  stale : ∀ object ∈ view.stale, store.wal[object.batch]? = some object
  wal : ∀ (batch : BatchId) object, store.wal[batch]? = some object → object.batch = batch ∧
    (object ∈ view.stale ∨ (object ∈ view.log ∧ batch ∉ view.collected))
  tables : ∀ object body, store.tables object = some body → view.tables object = some body
  tablesLive : ∀ object body, view.tables object = some body → object ∉ view.dropped → store.tables object = some body

section

variable {view : View}

theorem ChainOk.get_mem (ok : view.ChainOk) (sealed : Seal) (member : sealed ∈ view.chain) :
    view.chain[sealed.generation.get - 1]? = some sealed := by
  obtain ⟨i, bound, rfl⟩ := getElem_of_mem member
  have found : view.chain[i]? = some view.chain[i] := getElem?_eq_getElem bound
  rw [ok.generations i _ found, Nat.add_sub_cancel]
  exact found

theorem ChainOk.unique (ok : view.ChainOk) (first second : Seal) (here : first ∈ view.chain) (there : second ∈ view.chain)
    (same : first.generation.get = second.generation.get) : first = second := by
  have found := ok.get_mem first here
  rw [same, ok.get_mem second there] at found
  exact (some.inj found).symm

theorem ChainOk.generation_le (ok : view.ChainOk) (sealed : Seal) (member : sealed ∈ view.chain) :
    sealed.generation.get ≤ view.chain.length := by
  have bound := (List.getElem?_eq_some_iff.mp (ok.get_mem sealed member)).1
  omega

theorem ChainOk.exists_seal (ok : view.ChainOk) (n : Nat) (positive : 0 < n) (within : n ≤ view.chain.length) :
    ∃ sealed ∈ view.chain, sealed.generation.get = n := by
  have bound : n - 1 < view.chain.length := by omega
  refine ⟨view.chain[n - 1], getElem_mem bound, ?_⟩
  rw [ok.generations (n - 1) _ (getElem?_eq_getElem bound)]
  omega

omit [Rkyv] in
theorem Follows.cut_le {source sealed : Seal} (follows : Follows source sealed) : source.replay.cut ≤ sealed.replay.cut := by
  rcases follows with claimed | advance
  · apply Nat.le_of_eq
    rw [(Seal.claimSuccessor_ok_iff.mp claimed).2]
  · exact Nat.le_of_lt advance.cut

section

variable (ok : view.ChainOk)

include ok

theorem ChainOk.follows (source sealed : Seal) (here : source ∈ view.chain) (there : sealed ∈ view.chain)
    (next : sealed.generation.get = source.generation.get + 1) : Follows source sealed := by
  have positive := source.generation.positive
  refine ok.successors (source.generation.get - 1) source sealed (ok.get_mem source here) ?_
  have found := ok.get_mem sealed there
  rw [next] at found
  rwa [Nat.sub_add_cancel positive]

theorem ChainOk.cut_mono (n : Nat) : ∀ first second, first ∈ view.chain → second ∈ view.chain →
    second.generation.get = first.generation.get + n → first.replay.cut ≤ second.replay.cut := by
  induction n with
  | zero =>
    intro first second here there same
    rw [ok.unique first second here there same.symm]
  | succ n ih =>
    intro first second here there same
    have bound := ok.generation_le second there
    obtain ⟨middle, member, number⟩ := ok.exists_seal (first.generation.get + n) (by have := first.generation.positive; omega)
      (by omega)
    exact Nat.le_trans (ih first middle here member number)
      (Follows.cut_le (ok.follows middle second member there (by omega)))

theorem ChainOk.cut_le (first second : Seal) (here : first ∈ view.chain) (there : second ∈ view.chain)
    (ordered : first.generation.get ≤ second.generation.get) : first.replay.cut ≤ second.replay.cut := by
  obtain ⟨n, same⟩ := Nat.exists_eq_add_of_le ordered
  exact ok.cut_mono n first second here there same

theorem ChainOk.cut_within (sealed : Seal) (member : sealed ∈ view.chain) :
    sealed.replay.cut ≤ view.log.length := (ok.owner sealed member).1

theorem ChainOk.authored_le (pid : Pid) (generation : SealGeneration)
    (authored : view.Authored pid generation) : generation.get ≤ view.chain.length := by
  have bound := (List.getElem?_eq_some_iff.mp authored).1
  rw [ok.authors] at bound
  omega

end

theorem Authored.unique {first second : Pid} {generation : SealGeneration} (here : view.Authored first generation)
    (there : view.Authored second generation) : first = second := some.inj (here.symm.trans there)

theorem ChainOk.deleteRight_unique (ok : view.ChainOk) (first second : Pid) (batch : BatchId)
    (here : view.DeleteRight first batch) (there : view.DeleteRight second batch) : first = second := by
  obtain ⟨source, sourceIn, sealed, sealedIn, next, authored, above, below⟩ := here
  obtain ⟨source', sourceIn', sealed', sealedIn', next', authored', above', below'⟩ := there
  have same : sealed.generation = sealed'.generation := by
    apply SealGeneration.get_injective
    rcases Nat.lt_trichotomy sealed.generation.get sealed'.generation.get with less | equal | more
    · have ordered := ok.cut_le sealed source' sealedIn sourceIn' (by omega)
      omega
    · exact equal
    · have ordered := ok.cut_le sealed' source sealedIn' sourceIn (by omega)
      omega
  rw [same] at authored
  exact Authored.unique authored authored'

theorem ChainOk.deleteRight_cut (ok : view.ChainOk) (pid : Pid) (batch : BatchId) (right : view.DeleteRight pid batch)
    (head : Seal) (member : head ∈ view.chain) (newest : head.generation.get = view.chain.length) : batch.get ≤ head.replay.cut := by
  obtain ⟨_, _, sealed, there, _, _, _, below⟩ := right
  have bound := ok.generation_le sealed there
  have ordered := ok.cut_le sealed head there member (by omega)
  omega

end

section

variable {view : View}

section

variable (ok : view.LogOk)

include ok

theorem LogOk.get_mem (object : WalObject) (member : object ∈ view.log) : view.log[object.batch.get - 1]? = some object := by
  obtain ⟨i, bound, rfl⟩ := getElem_of_mem member
  have found : view.log[i]? = some view.log[i] := getElem?_eq_getElem bound
  rw [ok.coordinates i _ found, Nat.add_sub_cancel]
  exact found

theorem LogOk.unique (first second : WalObject) (here : first ∈ view.log) (there : second ∈ view.log)
    (same : first.batch.get = second.batch.get) : first = second := by
  have found := ok.get_mem first here
  rw [same, ok.get_mem second there] at found
  exact (some.inj found).symm

theorem LogOk.batch_le (object : WalObject) (member : object ∈ view.log) : object.batch.get ≤ view.log.length := by
  have bound := (List.getElem?_eq_some_iff.mp (ok.get_mem object member)).1
  omega

theorem LogOk.exists_object (n : Nat) (positive : 0 < n) (within : n ≤ view.log.length) :
    ∃ object ∈ view.log, object.batch.get = n := by
  have bound : n - 1 < view.log.length := by omega
  refine ⟨view.log[n - 1], getElem_mem bound, ?_⟩
  rw [ok.coordinates (n - 1) _ (getElem?_eq_getElem bound)]
  omega

theorem LogOk.ownerAt_batch (object : WalObject) (member : object ∈ view.log) : view.ownerAt object.batch.get = object.owner.get := by
  have owned := @EpochLog.ownerAt_take_succ _ (fun object : WalObject => object.owner.get) view.log
    (object.batch.get - 1) object (ok.get_mem object member)
  rwa [Nat.sub_add_cancel object.batch.positive] at owned

theorem LogOk.ownerAt_mono (m n : Nat) (ordered : m ≤ n) : view.ownerAt m ≤ view.ownerAt n :=
  ok.legal.ownerAt_mono view.log m n ordered

theorem LogOk.run_before (object : WalObject) (member : object ∈ view.log) (run : object.body.isFence = false) :
    object.owner.get = view.ownerAt (object.batch.get - 1) :=
  ok.legal.run_owner view.log _ object (ok.get_mem object member) run

theorem LogOk.fence_before (object : WalObject) (member : object ∈ view.log) (fence : object.body.isFence = true) :
    view.ownerAt (object.batch.get - 1) < object.owner.get :=
  ok.legal.fence_owner view.log _ object (ok.get_mem object member) fence

theorem LogOk.fence_between (m n : Nat) (raised : view.ownerAt m < view.ownerAt n) :
    ∃ object ∈ view.log, m < object.batch.get ∧ object.batch.get ≤ n ∧ object.body.isFence = true ∧
      object.owner.get = view.ownerAt n := by
  obtain ⟨i, object, above, below, found, fence, owns⟩ := ok.legal.fence_between view.log m n raised
  have number := ok.coordinates i object found
  exact ⟨object, mem_of_getElem? found, by omega, by omega, fence, owns⟩

theorem LogOk.fold_exists (n : Nat) (within : n ≤ view.log.length) : ∃ forest, view.FoldIs n forest := by
  obtain ⟨whole, folded⟩ := ok.folds
  rw [← take_append_drop n view.log, foldLog_append] at folded
  obtain ⟨forest, first, _⟩ := bind_eq_some_iff.mp folded
  exact ⟨forest, within, first⟩

end

theorem FoldIs.unique {n : Nat} {first second : Forest} (here : view.FoldIs n first) (there : view.FoldIs n second) :
    first = second := some.inj (here.2.symm.trans there.2)

theorem FoldIs.consistent (n : Nat) (forest : Forest) (folded : view.FoldIs n forest) : forest.Consistent :=
  foldLog_consistent Forest.Consistent.empty folded.2

theorem FoldIs.between {m n : Nat} (ordered : m ≤ n) (first second : Forest) (here : view.FoldIs m first)
    (there : view.FoldIs n second) : foldLog ((view.log.take n).drop m) first = some second := by
  have whole := there.2
  rw [← take_append_drop m (view.log.take n), foldLog_append, take_take, Nat.min_eq_left ordered, here.2] at whole
  exact whole

theorem FoldIs.invariant (inv : Forest → Prop)
    (kept : ∀ forest next batch fact, inv forest → Forest.Step forest batch fact next → inv next) (m n : Nat) (ordered : m ≤ n)
    (first second : Forest) (here : view.FoldIs m first) (there : view.FoldIs n second) (held : inv first) : inv second :=
  foldLog_invariant kept _ first second held (FoldIs.between ordered first second here there)

theorem FoldIs.grows {m n : Nat} (ordered : m ≤ n) (first second : Forest) (here : view.FoldIs m first)
    (there : view.FoldIs n second) : Forest.Grows first second := by
  refine FoldIs.invariant (Forest.Grows first) ?_ m n ordered first second here there (fun _ held => held)
  intro middle next batch fact grows step path occupied
  exact step.grows middle next batch fact path (grows path occupied)

section

variable (object : WalObject) (forest next : Forest) (ok : view.LogOk) (member : object ∈ view.log)
  (before : view.FoldIs (object.batch.get - 1) forest)

include ok member before

theorem FoldIs.step
    (applied : Forest.applyFacts object.batch object.facts forest = some next) : view.FoldIs object.batch.get next := by
  refine ⟨ok.batch_le object member, ?_⟩
  have found := ok.get_mem object member
  have taken := EpochLog.take_succ_of_getElem? found
  rw [Nat.sub_add_cancel object.batch.positive] at taken
  rw [taken, foldLog_append, before.2]
  simp [foldLog, applied]

theorem FoldIs.applied (after : view.FoldIs object.batch.get next) :
    Forest.applyFacts object.batch object.facts forest = some next := by
  have folded := after.2
  have taken := EpochLog.take_succ_of_getElem? (ok.get_mem object member)
  rw [Nat.sub_add_cancel object.batch.positive] at taken
  rw [taken, foldLog_append, before.2] at folded
  simp only [bind_some, foldLog] at folded
  obtain ⟨result, applied, done⟩ := bind_eq_some_iff.mp folded
  cases done
  exact applied

end

end

end View

end StromDB
