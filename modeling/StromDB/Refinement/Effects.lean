import StromDB.Refinement.Execute

namespace StromDB

open List

variable [Rkyv]

namespace View

section

variable {view : View} (ok : view.Ok) (pid : Pid) (candidate : Seal) (op : view.SealOp candidate)
  (next : candidate.generation.get = view.chain.length + 1)

include ok

theorem Ok.chain_nonempty (object : WalObject) (member : object ∈ view.log) : ∃ sealed, sealed ∈ view.chain := by
  have claimed := ok.log.claimed object member
  have positive : 0 < object.owner.get := object.owner.generation.positive
  obtain ⟨sealed, there, _⟩ := ok.chain.exists_seal 1 (by omega) (by omega)
  exact ⟨sealed, there⟩

include op next

omit ok in
theorem SealOp.cases :
    (view.chain = [] ∧ candidate.generation = SealGeneration.genesis ∧ candidate.Legal ∧ SourceBounds candidate) ∨
      ∃ source ∈ view.chain, source.generation.get = view.chain.length ∧
        (source.claimSuccessor = .ok candidate ∨ (Advance source candidate ∧ view.AdvanceOp candidate)) := by
  rcases op with ⟨first, legal, bounds⟩ | ⟨source, member, claimed⟩ | advance
  · have one : SealGeneration.genesis.get = 1 := rfl
    rw [first, one] at next
    exact .inl ⟨eq_nil_of_length_eq_zero (by omega), first, legal, bounds⟩
  · have step := (Seal.claimSuccessor_ok_iff.mp claimed).1
    exact .inr ⟨source, member, by omega, .inl claimed⟩
  · obtain ⟨source, member, step, _⟩ := advance.source
    have number := step.generation
    exact .inr ⟨source, member, by omega, .inr ⟨step, advance⟩⟩

theorem SealOp.partition (sealed : Seal) (member : sealed ∈ view.chain) : candidate.partition = sealed.partition := by
  rcases SealOp.cases candidate op next with ⟨empty, _⟩ | ⟨source, here, _, claimed | ⟨advance, _⟩⟩
  · rw [empty] at member
    cases member
  · rw [(Seal.claimSuccessor_ok_iff.mp claimed).2]
    exact ok.chain.partition source here sealed member
  · rw [advance.partition]
    exact ok.chain.partition source here sealed member

theorem SealOp.legal : candidate.Legal ∧ SourceBounds candidate := by
  rcases SealOp.cases candidate op next with ⟨_, _, legal, bounds⟩ | ⟨source, here, _, claimed | ⟨_, advance⟩⟩
  · exact ⟨legal, bounds⟩
  · refine ⟨(ok.chain.legal source here).claim claimed, ?_⟩
    have bounds := ok.chain.bounds source here
    rw [(Seal.claimSuccessor_ok_iff.mp claimed).2]
    exact bounds
  · exact ⟨advance.legal, advance.bounds⟩

theorem SealOp.materializes : view.OwnerIs candidate.replay.cut candidate.replay.ownerNumber ∧
    ∃ forest, view.FoldIs candidate.replay.cut forest ∧ Content view.tables candidate forest := by
  rcases SealOp.cases candidate op next with ⟨_, first, legal, _⟩ | ⟨source, here, _, claimed | ⟨_, advance⟩⟩
  · obtain ⟨replay, directory, ledger⟩ := legal.genesis first
    rw [replay]
    exact ⟨⟨Nat.zero_le _, rfl⟩, Forest.empty, ⟨Nat.zero_le _, rfl⟩, Content.genesis _ _ directory ledger⟩
  · obtain ⟨forest, folded, content⟩ := ok.chain.content source here
    have owned := ok.chain.owner source here
    have moved := content.claim claimed
    have same : candidate.replay = source.replay := by rw [(Seal.claimSuccessor_ok_iff.mp claimed).2]
    rw [same]
    exact ⟨owned, forest, folded, moved⟩
  · exact ⟨advance.owner, advance.content⟩

theorem ok_sealed_successors (i : Nat) (source sealed : Seal) (here : (view.chain ++ [candidate])[i]? = some source)
    (there : (view.chain ++ [candidate])[i + 1]? = some sealed) : Follows source sealed := by
  rcases Nat.lt_or_ge (i + 1) view.chain.length with inside | outside
  · rw [getElem?_append_left (by omega)] at here
    rw [getElem?_append_left inside] at there
    exact ok.chain.successors i source sealed here there
  have bound := (List.getElem?_eq_some_iff.mp there).1
  rw [length_append, length_singleton] at bound
  have last : i + 1 = view.chain.length := by omega
  rw [last, getElem?_concat_length] at there
  cases there
  rw [getElem?_append_left (by omega)] at here
  have number := ok.chain.generations i source here
  rcases SealOp.cases candidate op next with ⟨empty, _⟩ | ⟨origin, member, newest, rest⟩
  · rw [empty] at last
    cases last
  · have same : source = origin := ok.chain.unique source origin (mem_of_getElem? here) member (by omega)
    rw [same]
    exact rest.imp_right And.left

theorem ok_sealed_adopted (claim sealed : Seal) (claimed : (view.record (.sealCreated pid candidate)).Claim claim)
    (there : sealed ∈ view.chain ++ [candidate]) (ordered : claim.generation.get ≤ sealed.generation.get)
    (passed : claim.replay.cut < sealed.replay.cut) : claim.generation.get ≤ sealed.replay.ownerNumber := by
  obtain ⟨here, origin, member, copied⟩ := claimed
  have step := (Seal.claimSuccessor_ok_iff.mp copied).1
  simp only [record, mem_append, mem_singleton] at here member there
  have old : claim ∈ view.chain := by
    rcases here with old | rfl
    · exact old
    · rcases there with there | rfl
      · have bound := ok.chain.generation_le sealed there
        omega
      · omega
  have bound := ok.chain.generation_le claim old
  have originOld : origin ∈ view.chain := by
    rcases member with old | rfl
    · exact old
    · omega
  have known : view.Claim claim := ⟨old, origin, originOld, copied⟩
  rcases there with there | rfl
  · exact ok.chain.adopted claim sealed known there ordered passed
  rcases SealOp.cases sealed op next with ⟨empty, _⟩ | ⟨source, sourceIn, newest, claimed | ⟨step, advance⟩⟩
  · rw [empty] at old
    cases old
  · have same : sealed.replay = source.replay := by rw [(Seal.claimSuccessor_ok_iff.mp claimed).2]
    rw [same] at passed ⊢
    exact ok.chain.adopted claim source known sourceIn (by omega) passed
  · obtain ⟨source', sourceIn', step', newestClaim⟩ := advance.source
    have number := step'.generation
    exact newestClaim claim known (by omega)

theorem ok_sealed : (view.record (.sealCreated pid candidate)).Ok := by
  have extended := record_extends view (.sealCreated pid candidate)
  obtain ⟨legal, bounds⟩ := SealOp.legal ok candidate op next
  obtain ⟨owned, forest, folded, content⟩ := SealOp.materializes ok candidate op next
  have samePartition := SealOp.partition ok candidate op next
  have logPartition : ∀ object ∈ view.log, object.partition = candidate.partition := by
    intro object member
    obtain ⟨sealed, there⟩ := ok.chain_nonempty object member
    rw [ok.log.partition object member sealed there, samePartition sealed there]
  have inChain : ∀ sealed, sealed ∈ (view.record (.sealCreated pid candidate)).chain → sealed ∈ view.chain ∨ sealed = candidate := by
    simp [record]
  refine ⟨?_, ?_, ?_⟩
  · refine ⟨ok.log.coordinates, ok.log.legal, ok.log.folds, ?_, ?_, ok.log.bounded⟩
    · intro object member
      exact Nat.le_trans (ok.log.claimed object member) extended.chain.length_le
    · intro object member sealed there
      rcases inChain sealed there with old | rfl
      · exact ok.log.partition object member sealed old
      · exact logPartition object member
  · refine ⟨?_, ?_, ?_, ?_, ?_, ok_sealed_successors ok candidate op next, ?_, ?_, ok_sealed_adopted ok pid candidate op next⟩
    · intro i sealed found
      simp only [record] at found
      rcases Nat.lt_or_ge i view.chain.length with inside | outside
      · rw [getElem?_append_left inside] at found
        exact ok.chain.generations i sealed found
      · have bound := (List.getElem?_eq_some_iff.mp found).1
        rw [length_append, length_singleton] at bound
        have last : i = view.chain.length := by omega
        rw [last, getElem?_concat_length] at found
        cases found
        omega
    · simp [record, ok.chain.authors]
    · intro sealed member
      rcases inChain sealed member with old | rfl
      · exact ok.chain.legal sealed old
      · exact legal
    · intro sealed member
      rcases inChain sealed member with old | rfl
      · exact ok.chain.bounds sealed old
      · exact bounds
    · intro first here second there
      rcases inChain first here with old | rfl <;> rcases inChain second there with old' | rfl
      · exact ok.chain.partition first old second old'
      · exact (samePartition first old).symm
      · exact samePartition second old'
      · rfl
    · intro sealed member
      rcases inChain sealed member with old | rfl
      · exact (ok.chain.owner sealed old).extend extended
      · exact owned.extend extended
    · intro sealed member
      rcases inChain sealed member with old | rfl
      · obtain ⟨forest, folded, content⟩ := ok.chain.content sealed old
        exact ⟨forest, folded.extend extended, content⟩
      · exact ⟨forest, folded.extend extended, content⟩
  refine ⟨?_, ok.residue.collected, ?_, ?_, ?_⟩
  · intro object member
    obtain ⟨fence, gone, older, claimed, partition, bounded⟩ := ok.residue.stale object member
    refine ⟨fence, gone, older, Nat.le_trans claimed extended.chain.length_le, ?_, bounded⟩
    intro sealed there
    rcases inChain sealed there with old | rfl
    · exact partition sealed old
    · obtain ⟨⟨entry, inLog, _⟩, _⟩ := ok.residue.collected _ gone
      obtain ⟨other, there⟩ := ok.chain_nonempty entry inLog
      rw [partition other there, samePartition other there]
  · intro other batch issued
    exact (ok.residue.issued other batch issued).extend extended
  · intro object member
    exact (ok.residue.dropped object member).extend extended
  · intro object body found
    exact Nat.le_trans (ok.residue.owned object body found) extended.chain.length_le

end

section

variable {view : View} (ok : view.Ok) (pid : Pid) (candidate : WalObject) (next : candidate.batch.get = view.log.length + 1)

theorem record_append (next : candidate.batch.get = view.log.length + 1) :
    view.record (.walCreated pid candidate) = { view with log := view.log ++ [candidate] } := by
  simp [record, next]

theorem record_wal_tables : (view.record (.walCreated pid candidate)).tables = view.tables := by
  simp only [record]
  split <;> rfl

theorem record_wal_commands : (view.record (.walCreated pid candidate)).commands = view.commands := by
  simp only [record]
  split <;> rfl

theorem record_wal_residue : (view.record (.walCreated pid candidate)).collected = view.collected ∧
    (view.record (.walCreated pid candidate)).issued = view.issued := by
  simp only [record]
  split <;> exact ⟨rfl, rfl⟩

theorem record_stale (other : candidate.batch.get ≠ view.log.length + 1) :
    view.record (.walCreated pid candidate) = { view with stale := candidate :: view.stale } := by
  simp [record, other]

include ok next

theorem ok_append
    (admitted : EpochLog.Admits (fun object : WalObject => object.owner.get) (fun object => object.body.isFence)
      (view.ownerAt view.log.length) candidate) (folds : ∃ forest result, view.FoldIs view.log.length forest ∧
      Forest.applyFacts candidate.batch candidate.facts forest = some result)
    (claimed : candidate.owner.get ≤ view.chain.length) (partition : ∀ sealed ∈ view.chain, candidate.partition = sealed.partition)
    (bounded : walLength candidate ≤ WAL_ENCODED_BYTES_MAX) : (view.record (.walCreated pid candidate)).Ok := by
  have extended := record_extends view (.walCreated pid candidate)
  rw [record_append pid candidate next] at extended ⊢
  have inLog : ∀ object, object ∈ view.log ++ [candidate] → object ∈ view.log ∨ object = candidate := by
    simp
  refine ⟨?_, ?_, ?_⟩
  · refine ⟨?_, ?_, ?_, ?_, ?_, ?_⟩
    · intro i object found
      rcases Nat.lt_or_ge i view.log.length with inside | outside
      · rw [getElem?_append_left inside] at found
        exact ok.log.coordinates i object found
      · have bound := (List.getElem?_eq_some_iff.mp found).1
        rw [length_append, length_singleton] at bound
        have last : i = view.log.length := by omega
        rw [last, getElem?_concat_length] at found
        cases found
        omega
    · refine ok.log.legal.append ?_
      rwa [ownerAt, take_length] at admitted
    · obtain ⟨forest, result, folded, applied⟩ := folds
      have whole := folded.2
      rw [take_length] at whole
      rw [foldLog_append, whole]
      simp [foldLog, applied]
    · intro object member
      rcases inLog object member with old | rfl
      · exact ok.log.claimed object old
      · exact claimed
    · intro object member
      rcases inLog object member with old | rfl
      · exact ok.log.partition object old
      · exact partition
    · intro object member
      rcases inLog object member with old | rfl
      · exact ok.log.bounded object old
      · exact bounded
  · exact { ok.chain with
      owner := fun sealed member => (ok.chain.owner sealed member).extend extended
      content := fun sealed member => by
        obtain ⟨forest, folded, content⟩ := ok.chain.content sealed member
        exact ⟨forest, folded.extend extended, content⟩ }
  refine { ok.residue with stale := ?_, collected := ?_ }
  · intro object member
    obtain ⟨fence, gone, older, rest⟩ := ok.residue.stale object member
    refine ⟨fence, gone, ?_, rest⟩
    rw [ownerAt, extended.take_log _ (ok.log.collected_le ok.residue _ gone)]
    exact older
  · intro batch gone
    obtain ⟨⟨object, member, rest⟩, issued⟩ := ok.residue.collected batch gone
    exact ⟨⟨object, mem_append_left _ member, rest⟩, issued⟩

theorem ok_fence (op : view.FenceOp pid candidate) : (view.record (.walCreated pid candidate)).Ok := by
  obtain ⟨claim, claimed, _, _, partition⟩ := op.claim
  have older := op.older
  rw [next, Nat.add_sub_cancel] at older
  refine ok_append ok pid candidate next ?_ ?_ (ok.chain.authored_le pid _ op.author) ?_ op.bounded
  · simpa [EpochLog.Admits, op.fence, WalBody.isFence] using older
  · obtain ⟨forest, folded⟩ := ok.log.fold_exists view.log.length (Nat.le_refl _)
    refine ⟨forest, forest, folded, ?_⟩
    simp [WalObject.facts, op.fence, Forest.applyFacts]
  · intro sealed member
    rw [partition]
    exact ok.chain.partition claim claimed.1 sealed member

theorem ok_run (op : view.RunOp pid candidate) : (view.record (.walCreated pid candidate)).Ok := by
  obtain ⟨forest, result, folded, applied⟩ := op.folds
  obtain ⟨granted, there, partition⟩ := op.partition
  have owner := op.owner.2
  rw [next, Nat.add_sub_cancel] at folded owner
  refine ok_append ok pid candidate next ?_ ⟨forest, result, folded, applied⟩ (ok.chain.authored_le pid _ op.author) ?_ op.bounded
  · simp [EpochLog.Admits, op.run, owner]
  · intro sealed member
    rw [partition]
    exact ok.chain.partition granted there sealed member

end

section

variable {view : View} (ok : view.Ok) (pid : Pid)

include ok

theorem ok_stale (candidate : WalObject) (op : view.FenceOp pid candidate) (gone : candidate.batch ∈ view.collected) :
    (view.record (.walCreated pid candidate)).Ok := by
  have within := ok.log.collected_le ok.residue _ gone
  rw [record_stale pid candidate (by omega)]
  refine ⟨{ ok.log with }, { ok.chain with }, { ok.residue with stale := ?_ }⟩
  intro object member
  rcases mem_cons.mp member with rfl | old
  · obtain ⟨⟨entry, inLog, same, run⟩, _⟩ := ok.residue.collected _ gone
    obtain ⟨claim, claimed, _, _, partition⟩ := op.claim
    refine ⟨op.fence, gone, ?_, ok.chain.authored_le pid _ op.author, ?_, op.bounded⟩
    · have owns := ok.log.ownerAt_batch entry inLog
      rw [ok.log.run_before entry inLog run, same] at owns
      change view.ownerAt object.batch.get < object.owner.get
      rw [owns]
      exact op.older
    · intro sealed there
      rw [partition]
      exact ok.chain.partition claim claimed.1 sealed there
  · exact ok.residue.stale object old

theorem ok_table (candidate : EncodedTable) (op : view.TableOp pid candidate) : (view.record (.tableCreated pid candidate)).Ok := by
  have extended := record_extends view (.tableCreated pid candidate)
  refine ⟨{ ok.log with }, { ok.chain with content := ?_ }, { ok.residue with owned := ?_ }⟩
  · intro sealed member
    obtain ⟨forest, folded, content⟩ := ok.chain.content sealed member
    exact ⟨forest, folded, content.extend extended.tables⟩
  intro object body found
  cases old : view.tables object with
  | some body => exact ok.residue.owned object body old
  | none =>
    simp only [record, old] at found
    split at found
    · rename_i same
      rw [same]
      exact ok.chain.authored_le pid _ op.author
    · cases found

theorem ok_collect (object : WalObject) (op : view.DeleteOp pid object.batch) : (view.record (.walDeleted pid object)).Ok := by
  refine ⟨{ ok.log with }, { ok.chain with }, { ok.residue with stale := ?_, collected := ?_ }⟩
  · intro fence member
    obtain ⟨body, gone, rest⟩ := ok.residue.stale fence member
    exact ⟨body, mem_cons_of_mem _ gone, rest⟩
  · intro batch member
    rcases mem_cons.mp member with rfl | old
    · exact ⟨op.run, pid, op.issued⟩
    · exact ok.residue.collected batch old

theorem ok_drop (object : TableObjectId) (op : view.Unselectable object) : (view.record (.tableDeleted pid object)).Ok := by
  refine ⟨{ ok.log with }, { ok.chain with }, { ok.residue with dropped := ?_ }⟩
  intro dropped member
  rcases mem_cons.mp member with rfl | old
  · exact op
  · exact ok.residue.dropped dropped old

end

section

variable {view : View} (known : view.Ok) (pid : Pid) (request : Request) (after : View) (effect : Effect view pid request after)

include effect

theorem Effect.extends : view.Extends after := by
  cases effect with
  | quiet => exact Extends.refl view
  | _ => exact record_extends view _

theorem Effect.issued : after.issued = view.issued := by
  cases effect with
  | fence candidate op next | run candidate op next | stale candidate op gone => exact (record_wal_residue pid candidate).2
  | _ => rfl

theorem Effect.commands : after.commands = view.commands := by
  cases effect with
  | fence candidate op next | run candidate op next | stale candidate op gone => exact record_wal_commands pid candidate
  | _ => rfl

theorem Effect.collected (batch : BatchId) (gone : batch ∈ after.collected) :
    batch ∈ view.collected ∨ (request = .deleteWal batch ∧ (pid, batch) ∈ view.issued) := by
  cases effect with
  | fence candidate op next | run candidate op next
  | stale candidate op missing => exact .inl ((record_wal_residue pid candidate).1 ▸ gone)
  | collect object op member =>
    rcases mem_cons.mp gone with rfl | old
    · exact .inr ⟨rfl, op.issued⟩
    · exact .inl old
  | _ => exact .inl gone

include known

theorem Effect.ok : after.Ok := by
  cases effect with
  | quiet => exact known
  | sealed candidate op next => exact ok_sealed known pid candidate op next
  | fence candidate op next => exact ok_fence known pid candidate next op
  | run candidate op next => exact ok_run known pid candidate next op
  | stale candidate op gone => exact ok_stale known pid candidate op gone
  | table candidate op => exact ok_table known pid candidate op
  | collect object op member => exact ok_collect known pid object op
  | drop object op => exact ok_drop known pid object op

theorem Effect.authored_log (other : Pid) (object : WalObject) (member : object ∈ view.log)
    (authored : after.Authored other object.owner.generation) : view.Authored other object.owner.generation :=
  authored.reflect (effect.extends pid request after) other _ (by
    rw [known.chain.authors]
    exact known.log.claimed object member)

theorem Effect.authored_table (other : Pid) (object : TableObjectId) (body : SstObject) (found : view.tables object = some body)
    (authored : after.Authored other object.fresh.attempt.ownerClaim) : view.Authored other object.fresh.attempt.ownerClaim :=
  authored.reflect (effect.extends pid request after) other _ (by
    rw [known.chain.authors]
    exact known.residue.owned object body found)

theorem Effect.entries (other : Pid) (object : WalObject) (member : object ∈ after.log)
    (authored : after.Authored other object.owner.generation) :
    (object ∈ view.log ∧ view.Authored other object.owner.generation) ∨
      (other = pid ∧ request = .createWal object ∧ object.batch.get = view.log.length + 1) := by
  have old := effect.authored_log known pid request after other object
  have fresh : ∀ candidate : WalObject, view.Authored pid candidate.owner.generation →
      candidate.batch.get = view.log.length + 1 → object ∈ (view.record (.walCreated pid candidate)).log →
      (view.record (.walCreated pid candidate)).Authored other object.owner.generation →
      object ∈ view.log ∨ (other = pid ∧ object = candidate) := by
    intro candidate mine next member authored
    rw [record_append pid candidate next] at member authored
    rcases mem_append.mp member with old | new
    · exact .inl old
    · have same := mem_singleton.mp new
      rw [same] at authored
      exact .inr ⟨Authored.unique authored mine, same⟩
  cases effect with
  | fence candidate op next | run candidate op next =>
    rcases fresh candidate op.author next member authored with here | ⟨mine, same⟩
    · exact .inl ⟨here, old here authored⟩
    · exact .inr ⟨mine, by rw [same], by rw [same, next]⟩
  | stale candidate op gone =>
    have within := known.log.collected_le known.residue _ gone
    have here : object ∈ view.log := by
      rw [record_stale pid candidate (by omega)] at member
      exact member
    exact .inl ⟨here, old here authored⟩
  | _ => exact .inl ⟨member, old member authored⟩

theorem Effect.keys (other : Pid) (object : TableObjectId) (body : SstObject) (found : after.tables object = some body)
    (authored : after.Authored other object.fresh.attempt.ownerClaim) :
    (view.tables object = some body ∧ view.Authored other object.fresh.attempt.ownerClaim) ∨
      (other = pid ∧ ∃ candidate, request = .createTable candidate ∧ candidate.key = object ∧ candidate.object = body) := by
  cases old : view.tables object with
  | some earlier =>
    have same := found.symm.trans ((effect.extends pid request after).tables object earlier old)
    exact .inl ⟨same.symm, effect.authored_table known pid request after other object earlier old authored⟩
  | none =>
    cases effect with
    | table candidate op =>
      simp only [record, old] at found
      split at found
      · rename_i same
        rw [same] at authored
        exact .inr ⟨Authored.unique authored op.author, candidate, rfl, same.symm, Option.some.inj found⟩
      · cases found
    | quiet | sealed candidate op next | collect object op member
    | drop object op => exact absurd (old.symm.trans found) (by simp)
    | _ =>
      rw [record_wal_tables, old] at found
      cases found

theorem Effect.rely (other : Pid) (apart : other ≠ pid) : Rely other view after where
  extended := effect.extends pid request after
  entries := by
    intro object member authored
    rcases effect.entries known pid request after other object member authored with old | ⟨mine, _⟩
    · exact old
    · exact absurd mine apart
  keys := by
    intro object body found authored
    rcases effect.keys known pid request after other object body found authored with old | ⟨mine, _⟩
    · exact old
    · exact absurd mine apart
  collected := by
    intro batch gone issued
    rcases effect.collected pid request after batch gone with old | ⟨_, mine⟩
    · exact old
    · exact absurd (known.chain.deleteRight_unique other pid batch (known.residue.issued other batch issued)
        (known.residue.issued pid batch mine)) apart

theorem Effect.own (other : Request) (op : view.OpOk pid other) (apart : Compatible request other) : after.OpOk pid other := by
  have extended := effect.extends pid request after
  have new := (effect.ok known pid request after).chain
  cases other with
  | createSeal candidate => exact SealOp.extend extended known.chain new candidate op
  | deleteTable object => exact op.extend extended object
  | createWal candidate =>
    rcases op with fence | run
    · exact .inl (fence.extend extended candidate)
    refine .inr ?_
    obtain ⟨forest, result, folded, applied⟩ := run.folds
    obtain ⟨sealed, member, same⟩ := run.partition
    refine ⟨run.run, run.author.extend extended, run.owner.extend extended, ⟨forest, result, folded.extend extended, applied⟩,
      ?_, ⟨sealed, extended.chain.subset member, same⟩, run.bounded⟩
    intro object here authored
    rcases effect.entries known pid request after pid object here authored with ⟨old, mine⟩ | ⟨_, rfl, next⟩
    · exact run.last object old mine
    · obtain ⟨either, first, _⟩ := apart
      rcases either with fence | fence
      · have less : object.batch.get < candidate.batch.get := first fence run.run
        omega
      · rw [run.run] at fence
        cases fence
  | createTable candidate =>
    refine ⟨?_, op.author.extend extended⟩
    cases found : after.tables candidate.key with
    | none => rfl
    | some body =>
      rcases effect.keys known pid request after pid _ body found (op.author.extend extended) with
        ⟨there, _⟩ | ⟨_, other, rfl, same, _⟩
      · rw [op.fresh] at there
        cases there
      · exact absurd same apart
  | deleteWal batch =>
    obtain ⟨object, member, rest⟩ := op.run
    refine ⟨extended.issued op.issued, ?_, ⟨object, extended.log.subset member, rest⟩⟩
    intro gone
    rcases effect.collected pid request after batch gone with old | ⟨rfl, _⟩
    · exact op.present old
    · exact apart rfl
  | _ => trivial

end

end View

end StromDB
