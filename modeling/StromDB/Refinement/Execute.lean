import StromDB.Refinement.Requests

namespace StromDB

open ObjectStore StromDB.System List OrdMap

variable [Rkyv]

namespace View

inductive Effect (view : View) (pid : Pid) : Request → View → Prop where
  | quiet (request : Request) : Effect view pid request view
  | sealed (candidate : Seal) (op : view.SealOp candidate) (next : candidate.generation.get = view.chain.length + 1) :
      Effect view pid (.createSeal candidate) (view.record (.sealCreated pid candidate))
  | fence (candidate : WalObject) (op : view.FenceOp pid candidate) (next : candidate.batch.get = view.log.length + 1) :
      Effect view pid (.createWal candidate) (view.record (.walCreated pid candidate))
  | run (candidate : WalObject) (op : view.RunOp pid candidate) (next : candidate.batch.get = view.log.length + 1) :
      Effect view pid (.createWal candidate) (view.record (.walCreated pid candidate))
  | stale (candidate : WalObject) (op : view.FenceOp pid candidate) (gone : candidate.batch ∈ view.collected) :
      Effect view pid (.createWal candidate) (view.record (.walCreated pid candidate))
  | table (candidate : EncodedTable) (op : view.TableOp pid candidate) :
      Effect view pid (.createTable candidate) (view.record (.tableCreated pid candidate))
  | collect (object : WalObject) (op : view.DeleteOp pid object.batch) (member : object ∈ view.log) :
      Effect view pid (.deleteWal object.batch) (view.record (.walDeleted pid object))
  | drop (object : TableObjectId) (op : view.Unselectable object) :
      Effect view pid (.deleteTable object) (view.record (.tableDeleted pid object))

structure Executed (store : ObjectStore) (view : View) (pid : Pid) (request : Request) (after : View) : Prop where
  effect : Effect view pid request after
  events : ∀ history, view = of history → of (effectOf store pid request ++ history) = after
  stored : Stored (store.execute request).1 after
  reply : after.ReplyOk pid request (store.execute request).2

theorem LogOk.collected_le {view : View} (log : view.LogOk) (residue : view.ResidueOk) (batch : BatchId)
    (gone : batch ∈ view.collected) : batch.get ≤ view.log.length := by
  obtain ⟨⟨object, member, rfl, _⟩, _⟩ := residue.collected batch gone
  exact log.batch_le object member

theorem vacant_of_not_contains {store : ObjectStore} (batch : BatchId) (free : store.wal.contains batch = false) :
    store.wal[batch]? = none := by
  rw [← Option.not_isSome_iff_eq_none, Std.ExtTreeMap.isSome_getElem?_iff_mem, ← Std.ExtTreeMap.contains_iff_mem, free]
  simp

section

variable {store : ObjectStore} {view : View} (pid : Pid) (stored : Stored store view) (ok : view.Ok)

include stored

theorem executed_quiet (request : Request) (same : (store.execute request).1 = store)
    (silent : effectOf store pid request = []) (reply : view.ReplyOk pid request (store.execute request).2) :
    Executed store view pid request view where
  effect := .quiet request
  events := by
    intro history here
    rw [silent, here]
    rfl
  stored := by
    rw [same]
    exact stored
  reply := reply

theorem stored_stale (candidate : WalObject) (vacant : store.wal[candidate.batch]? = none) (gone : candidate.batch ∈ view.collected) :
    Stored { store with wal := store.wal.insert candidate.batch candidate } { view with stale := candidate :: view.stale } := by
  refine { stored with live := ?_, stale := ?_, wal := ?_ }
  · intro object member kept
    rw [get_insert, if_neg]
    · exact stored.live object member kept
    · intro same
      exact kept (same ▸ gone)
  · intro object member
    rw [get_insert]
    split
    · rename_i same
      rcases mem_cons.mp member with new | old
      · rw [new]
      · have held := stored.stale object old
        rw [← same, vacant] at held
        cases held
    · rename_i other
      rcases mem_cons.mp member with new | old
      · rw [new] at other
        exact absurd rfl other
      · exact stored.stale object old
  intro batch object found
  rw [get_insert] at found
  split at found
  · rename_i same
    cases found
    exact ⟨same, .inl mem_cons_self⟩
  · obtain ⟨same, source⟩ := stored.wal batch object found
    exact ⟨same, source.imp_left (mem_cons_of_mem _)⟩

include ok

theorem executed_createSeal (candidate : Seal) (op : view.SealOp candidate) :
    ∃ after, Executed store view pid (.createSeal candidate) after := by
  cases taken : store.seals.contains candidate.generation with
  | true =>
    refine ⟨view, executed_quiet pid stored _ ?_ ?_ ?_⟩ <;> simp [execute, effectOf, taken, ReplyOk]
  | false =>
    have absent : view.chain[candidate.generation.get - 1]? = none := by
      rw [← stored.seals, ← Option.not_isSome_iff_eq_none, Std.ExtTreeMap.isSome_getElem?_iff_mem,
        ← Std.ExtTreeMap.contains_iff_mem, taken]
      simp
    have above := getElem?_eq_none_iff.mp absent
    have next : candidate.generation.get = view.chain.length + 1 := by
      rcases op with ⟨first, _⟩ | ⟨source, member, claimed⟩ | advance
      · have one : SealGeneration.genesis.get = 1 := rfl
        rw [first, one] at above ⊢
        omega
      · have bound := ok.chain.generation_le source member
        have step := (Seal.claimSuccessor_ok_iff.mp claimed).1
        omega
      · obtain ⟨source, member, step, _⟩ := advance.source
        have bound := ok.chain.generation_le source member
        have number := step.generation
        omega
    refine ⟨_, .sealed candidate op next, ?_, ?_, ?_⟩
    · rintro history rfl
      simp [effectOf, taken, of]
    · simp only [execute, taken, Bool.false_eq_true, if_false]
      refine { stored with seals := ?_ }
      intro generation
      rw [get_insert]
      simp only [record]
      have least := generation.positive
      split
      · rename_i same
        rw [← same, next, Nat.add_sub_cancel, getElem?_concat_length]
      rename_i other
      have apart : generation.get ≠ candidate.generation.get := fun same => other (SealGeneration.get_injective _ _ same.symm)
      rw [stored.seals]
      rcases Nat.lt_or_ge (generation.get - 1) view.chain.length with inside | outside
      · rw [getElem?_append_left inside]
      · rw [getElem?_eq_none_iff.mpr outside, getElem?_eq_none_iff.mpr]
        simp only [length_append, length_cons, length_nil]
        omega
    · simp only [execute, taken, Bool.false_eq_true, if_false, ReplyOk, record]
      refine ⟨by simp, ?_⟩
      rw [Authored, next, Nat.add_sub_cancel, ← ok.chain.authors, getElem?_concat_length]

theorem vacant_collected (batch : BatchId) (vacant : store.wal[batch]? = none) (within : batch.get ≤ view.log.length) :
    batch ∈ view.collected := by
  obtain ⟨object, member, number⟩ := ok.log.exists_object batch.get batch.positive within
  have same : object.batch = batch := BatchId.get_injective _ _ number
  by_contra present
  have held := stored.live object member (same ▸ present)
  rw [same, vacant] at held
  cases held

theorem stored_append (candidate : WalObject) (next : candidate.batch.get = view.log.length + 1) :
    Stored { store with wal := store.wal.insert candidate.batch candidate } { view with log := view.log ++ [candidate] } := by
  have uncollected : candidate.batch ∉ view.collected := by
    intro gone
    have bound := ok.log.collected_le ok.residue candidate.batch gone
    omega
  refine { stored with live := ?_, stale := ?_, wal := ?_ }
  · intro object member kept
    rw [get_insert]
    split
    · rename_i same
      rcases mem_append.mp member with old | new
      · have bound := ok.log.batch_le object old
        have number : candidate.batch.get = object.batch.get := congrArg BatchId.get same
        omega
      · rw [mem_singleton.mp new]
    · rename_i other
      rcases mem_append.mp member with old | new
      · exact stored.live object old kept
      · rw [mem_singleton.mp new] at other
        exact absurd rfl other
  · intro object member
    rw [get_insert, if_neg]
    · exact stored.stale object member
    · intro same
      exact uncollected (same ▸ (ok.residue.stale object member).2.1)
  intro batch object found
  rw [get_insert] at found
  split at found
  · rename_i same
    cases found
    exact ⟨same, .inr ⟨by simp, same ▸ uncollected⟩⟩
  · obtain ⟨same, source⟩ := stored.wal batch object found
    exact ⟨same, source.imp_right fun h => ⟨mem_append_left _ h.1, h.2⟩⟩

theorem FenceOp.lands (candidate : WalObject) (op : view.FenceOp pid candidate) (vacant : store.wal[candidate.batch]? = none) :
    candidate.batch.get = view.log.length + 1 ∨ candidate.batch ∈ view.collected := by
  have reached := op.reached
  by_cases next : candidate.batch.get = view.log.length + 1
  · exact .inl next
  · exact .inr (vacant_collected stored ok candidate.batch vacant (by omega))

theorem RunOp.lands (candidate : WalObject) (op : view.RunOp pid candidate) (vacant : store.wal[candidate.batch]? = none) :
    candidate.batch.get = view.log.length + 1 := by
  have positive := candidate.batch.positive
  have reached := op.owner.1
  by_contra other
  have gone := vacant_collected stored ok candidate.batch vacant (by omega)
  obtain ⟨⟨object, member, same, isRun⟩, _⟩ := ok.residue.collected _ gone
  have owner : object.owner.get = candidate.owner.get := by
    rw [ok.log.run_before object member isRun, same]
    exact op.owner.2
  have author := op.author
  rw [← show object.owner.generation = candidate.owner.generation from SealGeneration.get_injective _ _ owner] at author
  have below := op.last object member author
  rw [same] at below
  omega

theorem executed_createWal (candidate : WalObject) (op : view.FenceOp pid candidate ∨ view.RunOp pid candidate) :
    ∃ after, Executed store view pid (.createWal candidate) after := by
  cases taken : store.wal.contains candidate.batch with
  | true =>
    refine ⟨view, executed_quiet pid stored _ ?_ ?_ ?_⟩ <;> simp [execute, effectOf, taken, ReplyOk]
  | false =>
    have vacant := vacant_of_not_contains candidate.batch taken
    have events : ∀ history, view = of history →
        of (effectOf store pid (.createWal candidate) ++ history) = view.record (.walCreated pid candidate) := by
      rintro history rfl
      simp [effectOf, taken, of]
    have executed : (store.execute (.createWal candidate)) =
        ({ store with wal := store.wal.insert candidate.batch candidate }, .created) := by
      simp [execute, taken]
    have appended : candidate.batch.get = view.log.length + 1 →
        Stored (store.execute (.createWal candidate)).1 (view.record (.walCreated pid candidate)) ∧
          (view.record (.walCreated pid candidate)).ReplyOk pid (.createWal candidate)
            (store.execute (.createWal candidate)).2 := by
      intro next
      rw [executed]
      simp only [record, if_pos next]
      exact ⟨stored_append stored ok candidate next, rfl, .inl (by simp)⟩
    rcases op with fence | run
    · rcases fence.lands pid stored ok candidate vacant with next | gone
      · obtain ⟨kept, reply⟩ := appended next
        exact ⟨_, .fence candidate fence next, events, kept, reply⟩
      have within := ok.log.collected_le ok.residue _ gone
      have passed : ¬ candidate.batch.get = view.log.length + 1 := by omega
      refine ⟨_, .stale candidate fence gone, events, ?_, ?_⟩
      · rw [executed]
        simp only [record, if_neg passed]
        exact stored_stale stored candidate vacant gone
      · rw [executed]
        simp only [record, if_neg passed]
        exact ⟨rfl, .inr mem_cons_self⟩
    · have next := run.lands pid stored ok candidate vacant
      obtain ⟨kept, reply⟩ := appended next
      exact ⟨_, .run candidate run next, events, kept, reply⟩

theorem executed_createTable (candidate : EncodedTable) (op : view.TableOp pid candidate) :
    ∃ after, Executed store view pid (.createTable candidate) after := by
  cases taken : (store.tables candidate.key).isSome with
  | true =>
    refine ⟨view, executed_quiet pid stored _ ?_ ?_ ?_⟩ <;> simp [execute, effectOf, taken, ReplyOk]
  | false =>
    refine ⟨_, .table candidate op, ?_, ?_, ?_⟩
    · rintro history rfl
      simp [effectOf, taken, of]
    · simp only [execute, taken, Bool.false_eq_true, if_false]
      refine { stored with tables := ?_, tablesLive := ?_ }
      · intro object body found
        simp only [record] at found ⊢
        split at found
        · rename_i same
          rw [same, op.fresh]
          simpa using found
        · rw [stored.tables object body found]
      intro object body found kept
      simp only [record] at found ⊢
      split at found
      · rename_i old there
        cases found
        have held := stored.tablesLive object body there kept
        split
        · rename_i same
          rw [same, op.fresh] at there
          cases there
        · exact held
      · split at found
        · rename_i same
          rw [if_pos same]
          exact found
        · cases found
    · simp [execute, taken, ReplyOk, record, op.fresh]

theorem executed_deleteWal (batch : BatchId) (op : view.DeleteOp pid batch) :
    ∃ after, Executed store view pid (.deleteWal batch) after := by
  obtain ⟨object, member, rfl, isRun⟩ := op.run
  have held := stored.live object member op.present
  refine ⟨_, .collect object op member, ?_, ?_, ?_⟩
  · rintro history rfl
    simp [effectOf, held, of]
  · simp only [execute]
    refine { stored with live := ?_, stale := ?_, wal := ?_ }
    · intro other there kept
      simp only [record, mem_cons, not_or] at kept
      rw [get_erase, if_neg (Ne.symm kept.1)]
      exact stored.live other there kept.2
    · intro other there
      rw [get_erase, if_neg]
      · exact stored.stale other there
      · intro same
        exact op.present (same ▸ (ok.residue.stale other there).2.1)
    intro batch other found
    rw [get_erase] at found
    split at found
    · cases found
    · rename_i apart
      obtain ⟨same, source⟩ := stored.wal batch other found
      refine ⟨same, source.imp_right fun h => ⟨h.1, ?_⟩⟩
      simp only [record, mem_cons, not_or]
      exact ⟨Ne.symm apart, h.2⟩
  · simp [ReplyOk]

theorem executed_deleteTable (object : TableObjectId) (op : view.Unselectable object) :
    ∃ after, Executed store view pid (.deleteTable object) after := by
  have erased : ∀ other body, (if other = object then none else store.tables other) = some body →
      store.tables other = some body := by
    intro other body found
    split at found
    · cases found
    · exact found
  cases present : (store.tables object).isSome with
  | true =>
    refine ⟨_, .drop object op, ?_, ?_, ?_⟩
    · rintro history rfl
      simp [effectOf, present, of]
    · simp only [execute]
      refine { stored with tables := ?_, tablesLive := ?_ }
      · intro other body found
        exact stored.tables other body (erased other body found)
      · intro other body found kept
        simp only [record, mem_cons, not_or] at found kept ⊢
        rw [if_neg kept.1]
        exact stored.tablesLive other body found kept.2
    · simp [ReplyOk]
  | false =>
    have absent : store.tables object = none := by simpa using present
    refine ⟨view, .quiet _, ?_, ?_, ?_⟩
    · rintro history rfl
      simp [effectOf, present]
    · simp only [execute]
      refine { stored with tables := ?_, tablesLive := ?_ }
      · intro other body found
        exact stored.tables other body (erased other body found)
      · intro other body found kept
        have held := stored.tablesLive other body found kept
        have apart : other ≠ object := by
          rintro rfl
          rw [absent] at held
          cases held
        simpa only [if_neg apart] using held
    · simp [ReplyOk]

theorem Stored.wal_le (batch : BatchId) (object : WalObject) (found : store.wal[batch]? = some object) :
    batch.get ≤ view.log.length := by
  obtain ⟨rfl, source⟩ := stored.wal batch object found
  rcases source with old | ⟨member, _⟩
  · exact ok.log.collected_le ok.residue _ (ok.residue.stale object old).2.1
  · exact ok.log.batch_le object member

theorem executed_read (request : Request) (reads : request.mutates = false) : ∃ after, Executed store view pid request after := by
  refine ⟨view, executed_quiet pid stored request ?_ ?_ ?_⟩
  · cases request <;> first | rfl | cases reads
  · cases request <;> first | rfl | cases reads
  cases request with
  | getSeal generation =>
    simp only [execute, stored.seals]
    cases found : view.chain[generation.get - 1]? with
    | none => trivial
    | some sealed =>
      refine ⟨mem_of_getElem? found, SealGeneration.get_injective _ _ ?_⟩
      rw [ok.chain.generations _ _ found, Nat.sub_add_cancel generation.positive]
  | getWal batch =>
    simp only [execute]
    cases found : store.wal[batch]? with
    | none => trivial
    | some object =>
      obtain ⟨same, source⟩ := stored.wal batch object found
      exact ⟨same, source.symm.imp_left And.left⟩
  | getTable object =>
    simp only [execute]
    cases found : store.tables object with
    | none => trivial
    | some body => exact stored.tables object body found
  | listSeals =>
    simp only [execute]
    cases found : store.seals.greatest with
    | none => trivial
    | some generation =>
      have held := (greatest_eq_some found).1
      rw [stored.seals, Option.isSome_iff_ne_none, ne_eq, getElem?_eq_none_iff] at held
      simp only [ReplyOk]
      omega
  | listWal =>
    simp only [execute]
    cases found : store.wal.greatest with
    | none => trivial
    | some batch =>
      obtain ⟨object, held⟩ := Option.isSome_iff_exists.mp (greatest_eq_some found).1
      exact stored.wal_le ok batch object held
  | _ => cases reads

theorem executed (request : Request) (op : view.OpOk pid request) : ∃ after, Executed store view pid request after := by
  cases request with
  | createSeal candidate => exact executed_createSeal pid stored ok candidate op
  | createWal candidate => exact executed_createWal pid stored ok candidate op
  | createTable candidate => exact executed_createTable pid stored ok candidate op
  | deleteWal batch => exact executed_deleteWal pid stored ok batch op
  | deleteTable object => exact executed_deleteTable pid stored ok object op
  | _ => exact executed_read pid stored ok _ rfl

end

end View

end StromDB
