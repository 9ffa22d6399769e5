import StromDB.Properties.Loading

namespace StromDB

open Forest

theorem strict_fold_safe [Jiff] (forest : Forest) (consistent : forest.Consistent) :
    (∀ batch fact, ∃ next outcome, forest.strictFold batch fact = .ok (next, outcome) ∧
      (∀ done, outcome = .ok done → next.Consistent) ∧ ∀ contradiction, outcome = .error contradiction → next = forest) ∧
    ∀ reached, Folded forest reached → ∀ facts, ∃ next outcome, foldSequence facts reached = .ok (next, outcome) ∧
      next.Consistent := by
  constructor
  · intro batch fact
    obtain ⟨next, outcome, folded, kept, unchanged⟩ := consistent.strictFold_spec batch fact
    exact ⟨next, outcome, folded, fun _ _ => kept, unchanged⟩
  · intro reached folded facts
    exact Consistent.foldSequence_total facts reached (folded.consistent forest reached consistent)

attribute [local instance] plainRkyv OrdMap.exactDiffer

def deletedStream : Forest :=
  ⟨(∅ : OrdMap StreamPath DirectoryEntry).insert samplePath (.tombstone firstUid), ∅⟩

theorem deletedStream_folded : Folded oneStream deletedStream :=
  .fold oneStream deletedStream firstBatch (.streamDeleted samplePath firstUid) .applied .refl (by decide +kernel)

theorem strict_fold_safe_one : oneStream.Consistent ∧
    (oneStream.strictFold firstBatch (.streamDeleted samplePath firstUid) = .ok (deletedStream, .ok .applied) ∧
      deletedStream.Consistent) ∧
    (∃ contradiction, oneStream.strictFold firstBatch (.streamClosed samplePath ⟨.two⟩) = .ok (oneStream, .error contradiction)) ∧
    ∃ next outcome, foldSequence [(firstBatch, firstFact)] deletedStream = .ok (next, outcome) ∧ next.Consistent := by
  have consistent := oneStream_folded.consistent Forest.empty oneStream Consistent.empty
  obtain ⟨folds, sequences⟩ := strict_fold_safe oneStream consistent
  have deletes : oneStream.strictFold firstBatch (.streamDeleted samplePath firstUid) = .ok (deletedStream, .ok .applied) := by
    decide +kernel
  obtain ⟨_, _, deleted, kept, _⟩ := folds firstBatch (.streamDeleted samplePath firstUid)
  cases deleted
  obtain ⟨next, outcome, closed, _, unchanged⟩ := folds firstBatch (.streamClosed samplePath ⟨.two⟩)
  have rejects : ((oneStream.strictFold firstBatch (.streamClosed samplePath ⟨.two⟩)).toOption.map
      fun result => result.2.toOption.isSome) = some false := by decide +kernel
  refine ⟨consistent, ⟨deletes, kept .applied rfl⟩, ?_, sequences deletedStream deletedStream_folded _⟩
  rw [closed] at rejects ⊢
  cases outcome with
  | ok done => cases rejects
  | error contradiction =>
    rw [unchanged contradiction rfl]
    exact ⟨contradiction, rfl⟩

theorem stream_history_monotone [Jiff] (base early late : Forest) (consistent : base.Consistent) (before : Folded base early)
    (after : Folded early late) :
    (∀ (path : StreamPath) (entry : DirectoryEntry), early.directory[path]? = some entry →
      ∃ later, late.directory[path]? = some later ∧ later.uid = entry.uid) ∧
    (∀ (path other : StreamPath) (entry later : DirectoryEntry), early.directory[path]? = some entry →
      late.directory[other]? = some later → entry.uid = later.uid → path = other) ∧
    (∀ (path : StreamPath) (uid : StreamUid), early.directory[path]? = some (.tombstone uid) →
      late.directory[path]? = some (.tombstone uid) ∧ late.ledger[uid]? = none) ∧
    ∀ (path : StreamPath) (uid : StreamUid), early.directory[path]? = some (.live uid) → late.directory[path]? = some (.live uid) →
      ∃ old new, early.ledger[uid]? = some old ∧ late.ledger[uid]? = some new ∧ new.contentType = old.contentType ∧
        new.expiry = old.expiry ∧ new.createdAt = old.createdAt ∧ (old.lifecycle = .closed → new.lifecycle = .closed) := by
  have here := before.consistent base early consistent
  have there := after.consistent early late here
  have precedes := after.precedes here
  refine ⟨precedes.kept, ?_, ?_, ?_⟩
  · intro path other entry later found ends same
    obtain ⟨kept, held, equal⟩ := precedes.kept path entry found
    exact there.unique path other kept later held ends (equal.trans same)
  · intro path uid buried
    have stays := precedes.buried path uid buried
    exact ⟨stays, there.tombstone_bare path uid stays⟩
  · intro path uid live ends
    obtain ⟨old, held⟩ := here.recorded path uid live
    obtain ⟨new, found, continues⟩ := precedes.records path uid old live held ends
    exact ⟨old, new, held, found, continues.contentType, continues.expiry, continues.createdAt, continues.closed⟩

theorem stream_history_monotone_deleted : deletedStream.directory[samplePath]? = some (.tombstone firstUid) ∧
    ∃ later, deletedStream.directory[samplePath]? = some later ∧ later.uid = firstUid :=
  ⟨by decide +kernel, (stream_history_monotone Forest.empty oneStream deletedStream Consistent.empty oneStream_folded
    deletedStream_folded).1 samplePath (.live firstUid) (by decide +kernel)⟩

section

variable [Rkyv] [OrdMap.Differ] (base snapshot : Forest) (consistent : base.Consistent) (folded : Folded base snapshot)

include consistent folded

theorem delta_since_exact : ∃ delta, snapshot.deltaSince base = .ok delta ∧
    Forest.mk (OrdMap.patch (directoryCells delta.directory) base.directory) (OrdMap.patch (ledgerCells delta.ledger) base.ledger) =
      snapshot ∧
    (∀ path : StreamPath, path ∈ delta.directory.map Prod.fst ↔ base.directory[path]? ≠ snapshot.directory[path]?) ∧
    (∀ uid : StreamUid, uid ∈ delta.ledger.map Prod.fst ↔ base.ledger[uid]? ≠ snapshot.ledger[uid]?) ∧
    (delta.directory.map Prod.fst).Pairwise (fun a b => compare a b = .lt) ∧
    (delta.ledger.map Prod.fst).Pairwise (fun a b => compare a b = .lt) ∧
    (∀ uid : StreamUid, (uid, .delete) ∈ delta.ledger → base.ledger[uid]?.isSome) ∧
    ∀ (path : StreamPath) (uid : StreamUid), base.directory[path]? = none → snapshot.directory[path]? = some (.tombstone uid) →
      (path, .tombstone uid) ∈ delta.directory ∧ uid ∉ delta.ledger.map Prod.fst := by
  have after := folded.consistent base snapshot consistent
  obtain ⟨delta, done, directory, ledger⟩ := deltaSince_diff (folded.grows)
  obtain ⟨_, again, cells⟩ := deltaSince_ok consistent after (folded.grows)
  rw [done] at again
  cases again
  have paths : delta.directory.map Prod.fst = (OrdMap.diff base.directory snapshot.directory).map OrdMap.DiffItem.key := by
    rw [← keys_directoryCells, directory, List.map_map]
    rfl
  have uids : delta.ledger.map Prod.fst = (OrdMap.diff base.ledger snapshot.ledger).map OrdMap.DiffItem.key := by
    rw [← keys_ledgerCells, ledger, ledgerCells_delta, List.map_map]
    rfl
  refine ⟨delta, done, by rw [cells.directory, cells.ledger], ?_, ?_, ?_, ?_, ?_, ?_⟩
  · intro path
    rw [paths, OrdMap.mem_diff_keys]
  · intro uid
    rw [uids, OrdMap.mem_diff_keys]
  · exact strictlyOrdered_iff.mp cells.directoryOrdered
  · exact strictlyOrdered_iff.mp cells.ledgerOrdered
  · intro uid member
    rw [ledger] at member
    obtain ⟨item, here, same⟩ := List.mem_map.mp member
    cases item with
    | remove key record =>
      cases same
      rw [OrdMap.diffAt_remove _ _ _ _ _ ((OrdMap.mem_diff _ _ _).mp here)]
      rfl
    | _ => cases same
  · intro path uid vacant buried
    constructor
    · have differs : base.directory[path]? ≠ snapshot.directory[path]? := by
        rw [vacant, buried]
        exact nofun
      obtain ⟨item, here, rfl⟩ := List.mem_map.mp ((OrdMap.mem_diff_keys _ _ path).mpr differs)
      obtain ⟨_, cell, _⟩ := OrdMap.diffAt_eq_some _ _ _ _ ((OrdMap.mem_diff _ _ item).mp here)
      have row : (item.key, some (.tombstone uid)) ∈ directoryCells delta.directory := by
        rw [directory, ← buried, ← cell]
        exact List.mem_map_of_mem (f := fun item => (item.key, item.cell)) here
      obtain ⟨⟨_, _⟩, member, same⟩ := List.mem_map.mp row
      cases same
      exact member
    · rw [uids, OrdMap.mem_diff_keys, after.tombstone_bare path uid buried]
      have bare : base.ledger[uid]? = none :=
        folded.born_bare consistent path (.tombstone uid) vacant buried
      exact fun differs => differs bare

end

theorem delta_since_exact_deleted : ∃ delta, deletedStream.deltaSince Forest.empty = .ok delta ∧
    (samplePath, .tombstone firstUid) ∈ delta.directory ∧ firstUid ∉ delta.ledger.map Prod.fst := by
  obtain ⟨delta, done, _, _, _, _, _, _, born⟩ := delta_since_exact Forest.empty deletedStream Consistent.empty
    (oneStream_folded.trans deletedStream_folded)
  exact ⟨delta, done, born samplePath firstUid (by decide +kernel) (by decide +kernel)⟩

end StromDB
