import StromDB.Protocol.Forest

namespace StromDB

open Checked OrdMap

variable [Jiff]

variable (forest next : Forest) (batch : BatchId)

namespace Forest

inductive Step (forest : Forest) (batch : BatchId) : OperationFact → Forest → Prop where
  | created (path : StreamPath) (uid : StreamUid) (contentType : StreamContentType) (expiry : ExpiryPolicy)
      (lifecycle : StreamLifecycle) (vacant : forest.directory[path]? = none)
      (capacity : forest.pathCount < PARTITION_PATH_OCCUPANCIES_MAX_V2) (dense : uid.get = forest.pathCount + 1)
      (fresh : forest.ledger[uid]? = none) :
      Step forest batch (.streamCreated path uid contentType expiry lifecycle)
        ⟨forest.directory.insert path (.live uid), forest.ledger.insert uid ⟨contentType, expiry, lifecycle, batch⟩⟩
  | closed (path : StreamPath) (uid : StreamUid) (record : StreamRecord)
      (live : forest.directory[path]? = some (.live uid)) (held : forest.ledger[uid]? = some record)
      (opened : record.lifecycle = .opened) :
      Step forest batch (.streamClosed path uid)
        ⟨forest.directory, forest.ledger.insert uid { record with lifecycle := .closed }⟩
  | deleted (path : StreamPath) (uid : StreamUid) (record : StreamRecord)
      (live : forest.directory[path]? = some (.live uid)) (held : forest.ledger[uid]? = some record) :
      Step forest batch (.streamDeleted path uid)
        ⟨forest.directory.insert path (.tombstone uid), forest.ledger.erase uid⟩

-- Uids number the paths densely from one, and the Ledger holds a record exactly
-- for the live uids.
structure Consistent (forest : Forest) : Prop where
  bounded : forest.pathCount ≤ PARTITION_PATH_OCCUPANCIES_MAX_V2
  range : ∀ (path : StreamPath) (entry : DirectoryEntry), forest.directory[path]? = some entry → entry.uid.get ≤ forest.pathCount
  unique : ∀ (path other : StreamPath) (entry entry' : DirectoryEntry), forest.directory[path]? = some entry →
    forest.directory[other]? = some entry' → entry.uid = entry'.uid → path = other
  dense : ∀ n, 0 < n → n ≤ forest.pathCount → ∃ (path : StreamPath) (entry : DirectoryEntry),
    forest.directory[path]? = some entry ∧ entry.uid.get = n
  recorded : ∀ (path : StreamPath) (uid : StreamUid), forest.directory[path]? = some (.live uid) →
    ∃ record, forest.ledger[uid]? = some record
  live : ∀ (uid : StreamUid) (record : StreamRecord), forest.ledger[uid]? = some record →
    ∃ path : StreamPath, forest.directory[path]? = some (.live uid)

omit [Jiff] in
theorem requireLiveUid_ok_iff {entry : Option DirectoryEntry} {uid liveUid : StreamUid} :
    requireLiveUid entry uid = .ok liveUid ↔ liveUid = uid ∧ entry = some (.live uid) := by
  unfold requireLiveUid
  split
  · split
    · simp_all [eq_comm]
    · simp_all
  · simp
  · simp

omit [Jiff] in
theorem successorUidAfter_ok {count : Nat} (below : count < PARTITION_PATH_OCCUPANCIES_MAX_V2) :
    ∃ uid : StreamUid, uid.get = count + 1 ∧ successorUidAfter count = .ok (.ok uid) := by
  have limit : PARTITION_PATH_OCCUPANCIES_MAX_V2 < 2 ^ 64 := by decide
  let raw : NonZeroU64 := ⟨count + 1, by omega, by omega⟩
  refine ⟨⟨raw⟩, rfl, ?_⟩
  have built : NonZeroU64.new (count + 1) = some raw := (NonZeroU64.new_eq_some_iff _ _).mpr rfl
  rw [successorUidAfter, if_neg (by omega), built]
  rfl

omit [Jiff] in
theorem successorUidAfter_full {count : Nat} (full : PARTITION_PATH_OCCUPANCIES_MAX_V2 ≤ count) :
    successorUidAfter count = .ok (.error .pathCapacityExhausted) := by
  rw [successorUidAfter, if_pos full]
  rfl

section

variable (path : StreamPath) (uid : StreamUid)

theorem foldCreated_applied_iff
    (contentType : StreamContentType) (expiry : ExpiryPolicy) (lifecycle : StreamLifecycle) (outcome : Applied) :
    forest.foldCreated batch path uid contentType expiry lifecycle = .ok (next, .ok outcome) ↔
      forest.directory[path]? = none ∧ forest.pathCount < PARTITION_PATH_OCCUPANCIES_MAX_V2 ∧
        uid.get = forest.pathCount + 1 ∧ forest.ledger[uid]? = none ∧
        next = ⟨forest.directory.insert path (.live uid),
          forest.ledger.insert uid ⟨contentType, expiry, lifecycle, batch⟩⟩ := by
  unfold foldCreated
  by_cases occupied : forest.directory[path]?.isSome
  · rw [if_pos occupied]
    simp [Option.isSome_iff_ne_none.mp occupied]
  have vacant : forest.directory[path]? = none := by simpa using occupied
  rw [if_neg occupied, successorUid]
  by_cases capacity : forest.pathCount < PARTITION_PATH_OCCUPANCIES_MAX_V2
  · obtain ⟨expected, numbered, found⟩ := successorUidAfter_ok capacity
    rw [found]
    simp only [ok_bind, vacant, capacity, true_and]
    by_cases same : uid = expected
    · subst same
      by_cases fresh : forest.ledger[uid]? = none
      · simp [require, fresh, numbered, eq_comm]
      · simp [require, fresh]
    · rw [if_pos same]
      have differs : uid.get ≠ forest.pathCount + 1 := by
        intro equal
        exact same (StreamUid.get_injective _ _ (by omega))
      simp [differs]
  · rw [successorUidAfter_full (Nat.le_of_not_lt capacity)]
    simp [capacity]

theorem foldClosed_applied_iff (outcome : Applied) :
    forest.foldClosed path uid = .ok (next, .ok outcome) ↔
      forest.directory[path]? = some (.live uid) ∧ ∃ record, forest.ledger[uid]? = some record ∧
        record.lifecycle = .opened ∧
        next = ⟨forest.directory, forest.ledger.insert uid { record with lifecycle := .closed }⟩ := by
  unfold foldClosed
  split
  case h_1 contradiction refused =>
    have notLive : forest.directory[path]? ≠ some (.live uid) := by
      intro live
      have accepted := requireLiveUid_ok_iff.mpr ⟨rfl, live⟩
      rw [accepted] at refused
      cases refused
    simp [notLive]
  case h_2 liveUid accepted =>
    obtain ⟨rfl, live⟩ := requireLiveUid_ok_iff.mp accepted
    cases held : forest.ledger[liveUid]? with
    | none => simp [expect, live]
    | some record =>
      cases opened : record.lifecycle with
      | opened =>
        simp only [expect, ok_bind, opened, StreamLifecycle.isClosed, Bool.false_eq_true, if_false,
          pure_eq_ok, Except.ok.injEq, Prod.mk.injEq, and_true, live, Option.some.injEq, true_and]
        constructor
        · intro same
          exact ⟨record, rfl, opened, same.symm⟩
        · rintro ⟨_, rfl, _, rfl⟩
          rfl
      | closed => simp [expect, live, opened, StreamLifecycle.isClosed]

theorem foldDeleted_applied_iff (outcome : Applied) :
    forest.foldDeleted path uid = .ok (next, .ok outcome) ↔
      forest.directory[path]? = some (.live uid) ∧ (∃ record, forest.ledger[uid]? = some record) ∧
        next = ⟨forest.directory.insert path (.tombstone uid), forest.ledger.erase uid⟩ := by
  unfold foldDeleted
  split
  case h_1 contradiction refused =>
    have notLive : forest.directory[path]? ≠ some (.live uid) := by
      intro live
      have accepted := requireLiveUid_ok_iff.mpr ⟨rfl, live⟩
      rw [accepted] at refused
      cases refused
    simp [notLive]
  case h_2 liveUid accepted =>
    obtain ⟨rfl, live⟩ := requireLiveUid_ok_iff.mp accepted
    cases held : forest.ledger[liveUid]? with
    | none => simp [require]
    | some record => simp [require, expect, live, eq_comm]

end

theorem applyFact_eq_some_iff (fact : OperationFact) : forest.applyFact batch fact = some next ↔ Step forest batch fact next := by
  have folded : forest.applyFact batch fact = some next ↔
      ∃ outcome, forest.strictFold batch fact = .ok (next, .ok outcome) := by
    unfold applyFact
    split
    case h_1 outcome found =>
      rw [found]
      constructor
      · intro same
        cases same
        exact ⟨outcome, rfl⟩
      · rintro ⟨_, same⟩
        cases same
        rfl
    case h_2 other =>
      simp only [reduceCtorEq, false_iff, not_exists]
      intro outcome same
      exact other next outcome same
  rw [folded]
  cases fact with
  | streamCreated path uid contentType expiry lifecycle =>
    simp only [strictFold, foldCreated_applied_iff]
    constructor
    · rintro ⟨_, vacant, capacity, dense, fresh, rfl⟩
      exact .created path uid contentType expiry lifecycle vacant capacity dense fresh
    · rintro ⟨⟩
      exact ⟨.applied, by assumption, by assumption, by assumption, by assumption, rfl⟩
  | streamClosed path uid =>
    simp only [strictFold, foldClosed_applied_iff]
    constructor
    · rintro ⟨_, live, record, held, opened, rfl⟩
      exact .closed path uid record live held opened
    · rintro ⟨⟩
      exact ⟨.applied, by assumption, _, by assumption, by assumption, rfl⟩
  | streamDeleted path uid =>
    simp only [strictFold, foldDeleted_applied_iff]
    constructor
    · rintro ⟨_, live, ⟨record, held⟩, rfl⟩
      exact .deleted path uid record live held
    · rintro ⟨⟩
      exact ⟨.applied, by assumption, ⟨_, by assumption⟩, rfl⟩

theorem Consistent.empty : Forest.empty.Consistent where
  bounded := by simp [pathCount, Forest.empty]
  range := by simp [Forest.empty]
  unique := by simp [Forest.empty]
  dense := by
    intro n positive within
    simp only [pathCount, Forest.empty, Std.ExtTreeMap.size_empty] at within
    omega
  recorded := by simp [Forest.empty]
  live := by simp [Forest.empty]

theorem Consistent.fresh (consistent : forest.Consistent) (uid : StreamUid)
    (dense : uid.get = forest.pathCount + 1) : forest.ledger[uid]? = none := by
  cases held : forest.ledger[uid]? with
  | none => rfl
  | some record =>
    obtain ⟨path, found⟩ := consistent.live uid record held
    have within : uid.get ≤ forest.pathCount := consistent.range path (.live uid) found
    omega

theorem Consistent.strictFold_total (consistent : forest.Consistent) (batch : BatchId) (fact : OperationFact) :
    ∃ result, forest.strictFold batch fact = .ok result := by
  cases fact with
  | streamCreated path uid contentType expiry lifecycle =>
    rw [strictFold, foldCreated]
    by_cases occupied : forest.directory[path]?.isSome
    · exact ⟨_, if_pos occupied⟩
    rw [if_neg occupied, successorUid]
    by_cases capacity : forest.pathCount < PARTITION_PATH_OCCUPANCIES_MAX_V2
    · obtain ⟨expected, numbered, found⟩ := successorUidAfter_ok capacity
      rw [found]
      simp only [ok_bind]
      by_cases same : uid = expected
      · have vacant : forest.directory[path]? = none := by simpa using occupied
        have fresh := consistent.fresh forest uid (same ▸ numbered)
        rw [if_neg (by simp [same])]
        simp [require, vacant, fresh]
      · exact ⟨_, if_pos same⟩
    · rw [successorUidAfter_full (Nat.le_of_not_lt capacity)]
      exact ⟨_, rfl⟩
  | streamClosed path uid =>
    rw [strictFold, foldClosed]
    cases found : requireLiveUid forest.directory[path]? uid with
    | error contradiction => exact ⟨_, rfl⟩
    | ok liveUid =>
      obtain ⟨rfl, live⟩ := requireLiveUid_ok_iff.mp found
      obtain ⟨record, held⟩ := consistent.recorded path liveUid live
      simp only [held, expect, ok_bind]
      split <;> exact ⟨_, rfl⟩
  | streamDeleted path uid =>
    rw [strictFold, foldDeleted]
    cases found : requireLiveUid forest.directory[path]? uid with
    | error contradiction => exact ⟨_, rfl⟩
    | ok liveUid =>
      obtain ⟨rfl, live⟩ := requireLiveUid_ok_iff.mp found
      obtain ⟨record, held⟩ := consistent.recorded path liveUid live
      simp [held, live, expect, require]

section

variable (consistent : forest.Consistent) (path : StreamPath) (uid : StreamUid)

include consistent

theorem Consistent.created
    (record : StreamRecord) (vacant : forest.directory[path]? = none)
    (capacity : forest.pathCount < PARTITION_PATH_OCCUPANCIES_MAX_V2) (dense : uid.get = forest.pathCount + 1) :
    Consistent ⟨forest.directory.insert path (.live uid), forest.ledger.insert uid record⟩ := by
  have count : pathCount ⟨forest.directory.insert path (.live uid), forest.ledger.insert uid record⟩ = forest.pathCount + 1 :=
    size_insert_vacant _ vacant
  refine ⟨?_, ?_, ?_, ?_, ?_, ?_⟩ <;> simp only [count, get_insert]
  · omega
  · intro query entry found
    split at found
    · cases found
      simp only [DirectoryEntry.uid_live]
      omega
    · have before := consistent.range query entry found
      omega
  · intro query other entry entry' found found' same
    split at found <;> split at found'
    · simp_all
    · have before := consistent.range other entry' found'
      cases found
      simp only [DirectoryEntry.uid_live] at same
      rw [← same] at before
      omega
    · have before := consistent.range query entry found
      cases found'
      simp only [DirectoryEntry.uid_live] at same
      rw [same] at before
      omega
    · exact consistent.unique query other entry entry' found found' same
  · intro n positive within
    by_cases last : n = forest.pathCount + 1
    · exact ⟨path, .live uid, by simp, by simp [dense, last]⟩
    · obtain ⟨query, entry, found, numbered⟩ := consistent.dense n positive (by omega)
      refine ⟨query, entry, ?_, numbered⟩
      rw [if_neg (by rintro rfl; simp [vacant] at found)]
      exact found
  · intro query other found
    split at found
    · cases found
      exact ⟨record, by simp⟩
    · obtain ⟨held, read⟩ := consistent.recorded query other found
      by_cases same : uid = other
      · exact ⟨record, by simp [same]⟩
      · exact ⟨held, by simp [same, read]⟩
  intro other held found
  split at found
  · rename_i same
    exact ⟨path, by simp [same]⟩
  · obtain ⟨query, read⟩ := consistent.live other held found
    refine ⟨query, ?_⟩
    rw [if_neg (by rintro rfl; simp [vacant] at read)]
    exact read

theorem Consistent.closed
    (record : StreamRecord) (live : forest.directory[path]? = some (.live uid)) :
    Consistent ⟨forest.directory, forest.ledger.insert uid record⟩ := by
  refine ⟨consistent.bounded, consistent.range, consistent.unique, consistent.dense, ?_, ?_⟩ <;>
    simp only [get_insert]
  · intro query other found
    obtain ⟨held, read⟩ := consistent.recorded query other found
    by_cases same : uid = other
    · exact ⟨record, by simp [same]⟩
    · exact ⟨held, by simp [same, read]⟩
  · intro other held found
    split at found
    · rename_i same
      exact ⟨path, same ▸ live⟩
    · exact consistent.live other held found

theorem Consistent.deleted
    (live : forest.directory[path]? = some (.live uid)) :
    Consistent ⟨forest.directory.insert path (.tombstone uid), forest.ledger.erase uid⟩ := by
  have count : pathCount ⟨forest.directory.insert path (.tombstone uid), forest.ledger.erase uid⟩ = forest.pathCount :=
    size_insert_present _ _ live
  have kept : ∀ (query : StreamPath) (entry : DirectoryEntry),
      (if path = query then some (.tombstone uid) else forest.directory[query]?) = some entry →
      ∃ before, forest.directory[query]? = some before ∧ before.uid = entry.uid := by
    intro query entry found
    split at found
    · rename_i same
      cases found
      exact ⟨.live uid, same ▸ live, rfl⟩
    · exact ⟨entry, found, rfl⟩
  refine ⟨?_, ?_, ?_, ?_, ?_, ?_⟩ <;> simp only [count, get_insert, get_erase]
  · exact consistent.bounded
  · intro query entry found
    obtain ⟨before, read, same⟩ := kept query entry found
    exact same ▸ consistent.range query before read
  · intro query other entry entry' found found' same
    obtain ⟨before, read, uidSame⟩ := kept query entry found
    obtain ⟨before', read', uidSame'⟩ := kept other entry' found'
    exact consistent.unique query other before before' read read' (by rw [uidSame, uidSame', same])
  · intro n positive within
    obtain ⟨query, entry, found, numbered⟩ := consistent.dense n positive within
    by_cases same : path = query
    · subst same
      rw [live] at found
      cases found
      exact ⟨path, .tombstone uid, by simp, numbered⟩
    · exact ⟨query, entry, by simp [same, found], numbered⟩
  · intro query other found
    split at found
    · cases found
    rename_i differs
    obtain ⟨held, read⟩ := consistent.recorded query other found
    have distinct : uid ≠ other := by
      rintro rfl
      exact differs (consistent.unique path query _ _ live found rfl)
    exact ⟨held, by simp [distinct, read]⟩
  intro other held found
  split at found
  · cases found
  rename_i differs
  obtain ⟨query, read⟩ := consistent.live other held found
  refine ⟨query, ?_⟩
  rw [if_neg]
  · exact read
  · rintro rfl
    rw [live] at read
    cases read
    exact differs rfl

end

theorem Consistent.step (fact : OperationFact) (consistent : forest.Consistent)
    (stepped : Step forest batch fact next) : next.Consistent := by
  cases stepped with
  | created path uid contentType expiry lifecycle vacant capacity dense fresh =>
    exact consistent.created forest path uid _ vacant capacity dense
  | closed path uid record live held opened => exact consistent.closed forest path uid _ live
  | deleted path uid record live held => exact consistent.deleted forest path uid live

theorem Consistent.applyFacts (facts : List OperationFact) : ∀ forest next : Forest,
    forest.Consistent → Forest.applyFacts batch facts forest = some next → next.Consistent := by
  induction facts with
  | nil =>
    intro forest next consistent applied
    cases applied
    exact consistent
  | cons fact rest ih =>
    intro forest next consistent applied
    obtain ⟨middle, first, applied⟩ := Option.bind_eq_some_iff.mp applied
    have stepped := (applyFact_eq_some_iff _ _ _ _).mp first
    exact ih middle next (consistent.step forest middle batch fact stepped) applied

def Grows (base forest : Forest) : Prop := ∀ path : StreamPath, base.directory[path]?.isSome → forest.directory[path]?.isSome

theorem Step.grows (fact : OperationFact) (step : Step forest batch fact next) : Grows forest next := by
  intro path occupied
  cases step with
  | created other uid contentType expiry lifecycle vacant capacity dense fresh | deleted other uid record live held =>
    rw [get_insert]
    split
    · rfl
    · exact occupied
  | closed other uid record live held opened => exact occupied

theorem applyFacts_append (first second : List OperationFact) (forest : Forest) :
    applyFacts batch (first ++ second) forest = (applyFacts batch first forest).bind (applyFacts batch second) := by
  induction first generalizing forest with
  | nil => rfl
  | cons fact rest ih =>
    simp only [List.cons_append, applyFacts]
    cases forest.applyFact batch fact with
    | none => rfl
    | some next => exact ih next

theorem applyFacts_invariant (inv : Forest → Prop) (batch : BatchId)
    (kept : ∀ forest next fact, inv forest → Step forest batch fact next → inv next) (facts : List OperationFact) :
    ∀ forest next : Forest, inv forest → applyFacts batch facts forest = some next → inv next := by
  induction facts with
  | nil =>
    intro forest next held done
    cases done
    exact held
  | cons fact rest ih =>
    intro forest next held done
    obtain ⟨middle, first, later⟩ := Option.bind_eq_some_iff.mp done
    exact ih middle next (kept forest middle fact held ((applyFact_eq_some_iff forest middle batch fact).mp first)) later

inductive Folded (base : Forest) : Forest → Prop where
  | refl : Folded base base
  | fold (forest next : Forest) (batch : BatchId) (fact : OperationFact) (outcome : Applied) (folded : Folded base forest)
      (applied : forest.strictFold batch fact = .ok (next, .ok outcome)) : Folded base next

theorem Folded.invariant (inv : Forest → Prop)
    (kept : ∀ forest next batch fact, inv forest → Step forest batch fact next → inv next) (base forest : Forest) (held : inv base)
    (folded : Folded base forest) : inv forest := by
  induction folded with
  | refl => exact held
  | fold forest next batch fact outcome _ applied ih =>
    refine kept forest next batch fact ih ((applyFact_eq_some_iff _ _ _ _).mp ?_)
    rw [applyFact, applied]

theorem Folded.consistent (base forest : Forest) (folded : Folded base forest) (consistent : base.Consistent) : forest.Consistent :=
  folded.invariant Consistent (fun forest next batch fact held step => held.step forest next batch fact step) base forest consistent

theorem Folded.grows {base forest : Forest} (folded : Folded base forest) : Grows base forest := by
  refine folded.invariant (Grows base) ?_ base forest (fun _ held => held)
  intro middle later batch fact grows step path occupied
  exact step.grows middle later batch fact path (grows path occupied)

end Forest

end StromDB
