import StromDB.Refinement.Invariant

namespace StromDB

variable [Rkyv]

namespace View

structure AdvanceOp (view : View) (sealed : Seal) : Prop where
  source : ∃ source ∈ view.chain, Advance source sealed ∧ ∀ claim, view.Claim claim →
    claim.generation.get ≤ source.generation.get → claim.generation.get ≤ sealed.replay.ownerNumber
  legal : sealed.Legal
  bounds : SourceBounds sealed
  owner : view.OwnerIs sealed.replay.cut sealed.replay.ownerNumber
  content : ∃ forest, view.FoldIs sealed.replay.cut forest ∧ Content view.tables sealed forest

def SealOp (view : View) (sealed : Seal) : Prop :=
  (sealed.generation = SealGeneration.genesis ∧ sealed.Legal ∧ SourceBounds sealed) ∨
    (∃ source ∈ view.chain, source.claimSuccessor = .ok sealed) ∨ view.AdvanceOp sealed

-- A FENCE create: its coordinate follows a prefix of the log that an older
-- owner holds, above the cut of its own claim.
structure FenceOp (view : View) (pid : Pid) (object : WalObject) : Prop where
  fence : object.body = .fence
  author : view.Authored pid object.owner.generation
  claim : ∃ claim, view.Claim claim ∧ claim.generation = object.owner.generation ∧ claim.replay.cut < object.batch.get ∧
    object.partition = claim.partition
  reached : object.batch.get - 1 ≤ view.log.length
  older : view.ownerAt (object.batch.get - 1) < object.owner.get
  bounded : walLength object ≤ WAL_ENCODED_BYTES_MAX

def OwnsBelow (view : View) (pid : Pid) (n : Nat) : Prop :=
  ∀ object ∈ view.log, view.Authored pid object.owner.generation → object.batch.get ≤ n

-- A RUN create: its coordinate follows a prefix of the log that the same owner
-- holds, and its facts apply to the forest of that prefix.
structure RunOp (view : View) (pid : Pid) (object : WalObject) : Prop where
  run : object.body.isFence = false
  author : view.Authored pid object.owner.generation
  owner : view.OwnerIs (object.batch.get - 1) object.owner.get
  folds : ∃ forest next, view.FoldIs (object.batch.get - 1) forest ∧
    Forest.applyFacts object.batch object.facts forest = some next
  last : view.OwnsBelow pid (object.batch.get - 1)
  partition : ∃ sealed ∈ view.chain, object.partition = sealed.partition
  bounded : walLength object ≤ WAL_ENCODED_BYTES_MAX

structure TableOp (view : View) (pid : Pid) (candidate : EncodedTable) : Prop where
  fresh : view.tables candidate.key = none
  author : view.Authored pid candidate.key.fresh.attempt.ownerClaim

structure DeleteOp (view : View) (pid : Pid) (batch : BatchId) : Prop where
  issued : (pid, batch) ∈ view.issued
  present : batch ∉ view.collected
  run : ∃ object ∈ view.log, object.batch = batch ∧ object.body.isFence = false

def OpOk (view : View) (pid : Pid) : Request → Prop
  | .createSeal candidate => view.SealOp candidate
  | .createWal candidate => view.FenceOp pid candidate ∨ view.RunOp pid candidate
  | .createTable candidate => view.TableOp pid candidate
  | .deleteWal batch => view.DeleteOp pid batch
  | .deleteTable object => view.Unselectable object
  | _ => True

def ReplyOk (view : View) (pid : Pid) : Request → Reply → Prop
  | .createSeal candidate, .created => candidate ∈ view.chain ∧ view.Authored pid candidate.generation
  | .getSeal generation, .gotSeal (some sealed) => sealed ∈ view.chain ∧ sealed.generation = generation
  | .createWal candidate, .created => view.Seen candidate.batch candidate
  | .getWal batch, .gotWal (some object) => view.Seen batch object
  | .createTable candidate, .created => view.tables candidate.key = some candidate.object
  | .getTable object, .gotTable (some body) => view.tables object = some body
  | .listSeals, .newestSeal (some generation) => generation.get ≤ view.chain.length
  | .listWal, .newestWal (some batch) => batch.get ≤ view.log.length
  | _, _ => True

-- What may change under a process while its requests are outstanding: the view
-- grows, but by nothing that carries its claims or that it has asked for.
structure Rely (pid : Pid) (before after : View) : Prop where
  extended : before.Extends after
  entries : ∀ object ∈ after.log, after.Authored pid object.owner.generation →
    object ∈ before.log ∧ before.Authored pid object.owner.generation
  keys : ∀ object body, after.tables object = some body → after.Authored pid object.fresh.attempt.ownerClaim →
    before.tables object = some body ∧ before.Authored pid object.fresh.attempt.ownerClaim
  collected : ∀ batch ∈ after.collected, (pid, batch) ∈ before.issued → batch ∈ before.collected

theorem ReplyOk.extend {before after : View} (extended : before.Extends after) (pid : Pid) (request : Request) (reply : Reply)
    (known : before.ReplyOk pid request reply) : after.ReplyOk pid request reply := by
  unfold ReplyOk at known ⊢
  split at known
  · exact ⟨extended.chain.subset known.1, known.2.extend extended⟩
  · exact ⟨extended.chain.subset known.1, known.2⟩
  · exact known.extend extended
  · exact known.extend extended
  · exact extended.tables _ _ known
  · exact extended.tables _ _ known
  · exact Nat.le_trans known extended.chain.length_le
  · exact Nat.le_trans known extended.log.length_le
  · trivial

theorem Claim.reflect {before after : View} (extended : before.Extends after) (old : before.ChainOk) (new : after.ChainOk)
    (claim : Seal) (known : after.Claim claim) (within : claim.generation.get ≤ before.chain.length) : before.Claim claim := by
  obtain ⟨here, source, member, claimed⟩ := known
  have next := (Seal.claimSuccessor_ok_iff.mp claimed).1
  have back : ∀ sealed ∈ after.chain, sealed.generation.get ≤ before.chain.length → sealed ∈ before.chain := by
    intro sealed inside bound
    obtain ⟨same, there, number⟩ := old.exists_seal sealed.generation.get sealed.generation.positive bound
    rw [new.unique sealed same inside (extended.chain.subset there) number.symm]
    exact there
  exact ⟨back claim here within, source, back source member (by omega), claimed⟩

section

variable {pid : Pid} {before after : View} (extended : before.Extends after)

include extended

theorem AdvanceOp.extend (old : before.ChainOk) (new : after.ChainOk) (sealed : Seal) (known : before.AdvanceOp sealed) :
    after.AdvanceOp sealed := by
  obtain ⟨source, member, advance, newest⟩ := known.source
  obtain ⟨forest, folded, content⟩ := known.content
  refine ⟨⟨source, extended.chain.subset member, advance, ?_⟩, known.legal, known.bounds, known.owner.extend extended,
    ⟨forest, folded.extend extended, content.extend extended.tables⟩⟩
  intro claim claimed below
  have within := old.generation_le source member
  exact newest claim (claimed.reflect extended old new claim (by omega)) below

theorem SealOp.extend (old : before.ChainOk) (new : after.ChainOk) (sealed : Seal) (known : before.SealOp sealed) :
    after.SealOp sealed := by
  rcases known with genesis | ⟨source, member, claimed⟩ | advance
  · exact .inl genesis
  · exact .inr (.inl ⟨source, extended.chain.subset member, claimed⟩)
  · exact .inr (.inr (advance.extend extended old new sealed))

theorem FenceOp.extend (object : WalObject) (known : before.FenceOp pid object) : after.FenceOp pid object := by
  obtain ⟨claim, claimed, rest⟩ := known.claim
  refine ⟨known.fence, known.author.extend extended, ⟨claim, claimed.extend extended, rest⟩,
    Nat.le_trans known.reached extended.log.length_le, ?_, known.bounded⟩
  rw [ownerAt, extended.take_log _ known.reached]
  exact known.older

end

section

variable {pid : Pid} {before after : View} (others : Rely pid before after)

include others

theorem OwnsBelow.rely (n : Nat) (known : before.OwnsBelow pid n) : after.OwnsBelow pid n := by
  intro object member authored
  obtain ⟨here, mine⟩ := others.entries object member authored
  exact known object here mine

theorem RunOp.rely (object : WalObject) (known : before.RunOp pid object) : after.RunOp pid object := by
  have extended := others.extended
  obtain ⟨forest, next, folded, applied⟩ := known.folds
  obtain ⟨sealed, member, same⟩ := known.partition
  exact ⟨known.run, known.author.extend extended, known.owner.extend extended, ⟨forest, next, folded.extend extended, applied⟩,
    known.last.rely others, ⟨sealed, extended.chain.subset member, same⟩, known.bounded⟩

theorem TableOp.rely (candidate : EncodedTable) (known : before.TableOp pid candidate) : after.TableOp pid candidate := by
  have authored := known.author.extend others.extended
  refine ⟨?_, authored⟩
  cases found : after.tables candidate.key with
  | none => rfl
  | some body =>
    obtain ⟨there, _⟩ := others.keys _ body found authored
    rw [known.fresh] at there
    cases there

theorem DeleteOp.rely (batch : BatchId) (known : before.DeleteOp pid batch) : after.DeleteOp pid batch := by
  obtain ⟨object, member, rest⟩ := known.run
  exact ⟨others.extended.issued known.issued, fun gone => known.present (others.collected batch gone known.issued),
    ⟨object, others.extended.log.subset member, rest⟩⟩

theorem OpOk.rely (old : before.ChainOk) (new : after.ChainOk) (request : Request) (known : before.OpOk pid request) :
    after.OpOk pid request := by
  cases request with
  | createSeal candidate => exact SealOp.extend others.extended old new candidate known
  | createWal candidate =>
    rcases known with fence | run
    · exact .inl (fence.extend others.extended candidate)
    · exact .inr (run.rely others candidate)
  | createTable candidate => exact TableOp.rely others candidate known
  | deleteWal batch => exact DeleteOp.rely others batch known
  | deleteTable object => exact known.extend others.extended object
  | _ => trivial

end

def Compatible : Request → Request → Prop
  | .createWal first, .createWal second =>
    (first.body.isFence = true ∨ second.body.isFence = true) ∧
      (first.body.isFence = true → second.body.isFence = false → first.batch < second.batch) ∧
      (second.body.isFence = true → first.body.isFence = false → second.batch < first.batch)
  | .createTable first, .createTable second => first.key ≠ second.key
  | .deleteWal first, .deleteWal second => first ≠ second
  | _, _ => True

theorem Compatible.symm (first second : Request) (apart : Compatible first second) : Compatible second first := by
  cases first <;> cases second <;> simp only [Compatible] at apart ⊢
  case createWal.createWal => exact ⟨apart.1.symm, apart.2.2, apart.2.1⟩
  case createTable.createTable => exact apart.symm
  case deleteWal.deleteWal => exact apart.symm

end View

end StromDB
