import StromDB.Protocol.ForestFold

namespace StromDB

open Checked

variable [Jiff]

structure StreamRecord.Continues (old new : StreamRecord) : Prop where
  contentType : new.contentType = old.contentType
  expiry : new.expiry = old.expiry
  createdAt : new.createdAt = old.createdAt
  closed : old.lifecycle = .closed → new.lifecycle = .closed

theorem StreamRecord.Continues.refl (record : StreamRecord) : record.Continues record := ⟨rfl, rfl, rfl, id⟩

theorem StreamRecord.Continues.trans {first second third : StreamRecord} (before : first.Continues second)
    (after : second.Continues third) : first.Continues third :=
  ⟨after.contentType.trans before.contentType, after.expiry.trans before.expiry, after.createdAt.trans before.createdAt,
    fun closed => after.closed (before.closed closed)⟩

namespace Forest

theorem strictFold_rejected {forest next : Forest} {batch : BatchId} {fact : OperationFact} {contradiction : FoldContradiction}
    (folded : forest.strictFold batch fact = .ok (next, .error contradiction)) : next = forest := by
  cases fact with
  | streamCreated path uid contentType expiry lifecycle =>
    simp only [strictFold, foldCreated] at folded
    split at folded
    · cases folded
      rfl
    obtain ⟨successor, _, folded⟩ := bind_ok folded
    cases successor with
    | error _ =>
      cases folded
      rfl
    | ok expectedUid =>
      simp only at folded
      split at folded
      · cases folded
        rfl
      obtain ⟨_, _, folded⟩ := bind_ok folded
      obtain ⟨_, _, folded⟩ := bind_ok folded
      cases folded
  | streamClosed path uid =>
    simp only [strictFold, foldClosed] at folded
    split at folded
    · cases folded
      rfl
    obtain ⟨record, _, folded⟩ := bind_ok folded
    split at folded
    · cases folded
      rfl
    · cases folded
  | streamDeleted path uid =>
    simp only [strictFold, foldDeleted] at folded
    split at folded
    · cases folded
      rfl
    obtain ⟨_, _, folded⟩ := bind_ok folded
    obtain ⟨_, _, folded⟩ := bind_ok folded
    obtain ⟨_, _, folded⟩ := bind_ok folded
    cases folded

theorem Consistent.strictFold_spec {forest : Forest} (consistent : forest.Consistent) (batch : BatchId) (fact : OperationFact) :
    ∃ next outcome, forest.strictFold batch fact = .ok (next, outcome) ∧ next.Consistent ∧
      ∀ contradiction, outcome = .error contradiction → next = forest := by
  obtain ⟨⟨next, outcome⟩, folded⟩ := consistent.strictFold_total forest batch fact
  cases outcome with
  | error contradiction =>
    have same := strictFold_rejected folded
    exact ⟨next, _, folded, same ▸ consistent, fun _ _ => same⟩
  | ok _ =>
    have step : Step forest batch fact next := by
      rw [← applyFact_eq_some_iff, applyFact, folded]
    exact ⟨next, _, folded, consistent.step forest next batch fact step, (by intros; contradiction)⟩

def foldSequence : List (BatchId × OperationFact) → Forest → Checked (Forest × Except FoldContradiction Unit)
  | [], forest => pure (forest, .ok ())
  | (batch, fact) :: rest, forest => do
    match ← forest.strictFold batch fact with
    | (next, .ok _) => foldSequence rest next
    | (next, .error contradiction) => pure (next, .error contradiction)

theorem Consistent.foldSequence_total (facts : List (BatchId × OperationFact)) : ∀ forest : Forest, forest.Consistent →
    ∃ next outcome, foldSequence facts forest = .ok (next, outcome) ∧ next.Consistent := by
  induction facts with
  | nil => exact fun forest consistent => ⟨forest, .ok (), rfl, consistent⟩
  | cons entry rest ih =>
    intro forest consistent
    obtain ⟨batch, fact⟩ := entry
    obtain ⟨next, outcome, folded, kept, _⟩ := consistent.strictFold_spec batch fact
    simp only [foldSequence, folded, ok_bind]
    cases outcome with
    | error contradiction => exact ⟨next, .error contradiction, rfl, kept⟩
    | ok _ => exact ih next kept

structure Precedes (early late : Forest) : Prop where
  kept : ∀ (path : StreamPath) (entry : DirectoryEntry), early.directory[path]? = some entry →
    ∃ later, late.directory[path]? = some later ∧ later.uid = entry.uid
  buried : ∀ (path : StreamPath) (uid : StreamUid), early.directory[path]? = some (.tombstone uid) →
    late.directory[path]? = some (.tombstone uid)
  records : ∀ (path : StreamPath) (uid : StreamUid) (old : StreamRecord), early.directory[path]? = some (.live uid) →
    early.ledger[uid]? = some old → late.directory[path]? = some (.live uid) →
    ∃ new, late.ledger[uid]? = some new ∧ old.Continues new

theorem Precedes.refl (forest : Forest) : Precedes forest forest where
  kept := fun _ entry found => ⟨entry, found, rfl⟩
  buried := fun _ _ found => found
  records := fun _ _ old _ held _ => ⟨old, held, .refl old⟩

theorem Precedes.trans {first second third : Forest} (before : Precedes first second)
    (after : Precedes second third) : Precedes first third where
  kept := by
    intro path entry found
    obtain ⟨middle, here, same⟩ := before.kept path entry found
    obtain ⟨later, there, equal⟩ := after.kept path middle here
    exact ⟨later, there, equal.trans same⟩
  buried := fun path uid found => after.buried path uid (before.buried path uid found)
  records := by
    intro path uid old live held ends
    obtain ⟨middle, here, same⟩ := before.kept path _ live
    cases middle with
    | tombstone other =>
      rw [after.buried path other here] at ends
      cases ends
    | live other =>
      subst same
      obtain ⟨between, there, continues⟩ := before.records path other old live held here
      obtain ⟨new, found, later⟩ := after.records path other between here there ends
      exact ⟨new, found, continues.trans later⟩

theorem Step.precedes {forest next : Forest} {batch : BatchId} {fact : OperationFact} (consistent : forest.Consistent)
    (step : Step forest batch fact next) : Precedes forest next := by
  cases step with
  | created path uid contentType expiry lifecycle vacant capacity dense fresh =>
    have older : ∀ (query : StreamPath) (entry : DirectoryEntry), forest.directory[query]? = some entry → path ≠ query := by
      rintro query entry found rfl
      rw [vacant] at found
      cases found
    refine ⟨?_, ?_, ?_⟩ <;> simp only [OrdMap.get_insert]
    · intro query entry found
      exact ⟨entry, by rw [if_neg (older query entry found), found], rfl⟩
    · intro query other found
      rw [if_neg (older query _ found), found]
    · intro query other old live held _
      have apart : uid ≠ other := by
        rintro rfl
        rw [fresh] at held
        cases held
      exact ⟨old, by rw [if_neg apart, held], .refl old⟩
  | closed path uid record live held opened =>
    refine ⟨fun _ entry found => ⟨entry, found, rfl⟩, fun _ _ found => found, ?_⟩
    simp only [OrdMap.get_insert]
    intro query other old _ there _
    by_cases same : uid = other
    · subst same
      rw [held] at there
      cases there
      exact ⟨_, if_pos rfl, rfl, rfl, rfl, fun _ => rfl⟩
    · exact ⟨old, by rw [if_neg same, there], .refl old⟩
  | deleted path uid record live held =>
    refine ⟨?_, ?_, ?_⟩ <;> simp only [OrdMap.get_insert, OrdMap.get_erase]
    · intro query entry found
      by_cases same : path = query
      · subst same
        rw [live] at found
        cases found
        exact ⟨_, if_pos rfl, rfl⟩
      · exact ⟨entry, by rw [if_neg same, found], rfl⟩
    · intro query other found
      have apart : path ≠ query := by
        rintro rfl
        rw [live] at found
        cases found
      rw [if_neg apart, found]
    · intro query other old here there ends
      have apart : uid ≠ other := by
        rintro rfl
        rw [consistent.unique query path _ _ here live rfl, if_pos rfl] at ends
        cases ends
      exact ⟨old, by rw [if_neg apart, there], .refl old⟩

theorem Folded.trans {first second third : Forest} (before : Folded first second) (after : Folded second third) :
    Folded first third := by
  induction after with
  | refl => exact before
  | fold forest next batch fact outcome _ applied ih => exact .fold forest next batch fact outcome ih applied

theorem Folded.precedes {base forest : Forest} (consistent : base.Consistent) (folded : Folded base forest) : Precedes base forest := by
  induction folded with
  | refl => exact .refl base
  | fold forest next batch fact outcome earlier applied ih =>
    have step : Step forest batch fact next := by
      rw [← applyFact_eq_some_iff, applyFact, applied]
    exact ih.trans (step.precedes (earlier.consistent base forest consistent))

theorem applyFacts_precedes {forest next : Forest} {batch : BatchId} {facts : List OperationFact} (consistent : forest.Consistent)
    (applied : applyFacts batch facts forest = some next) : Precedes forest next :=
  (applyFacts_invariant (fun later => later.Consistent ∧ Precedes forest later) batch
    (fun before after fact known step => ⟨known.1.step before after batch fact step, known.2.trans (step.precedes known.1)⟩)
    facts forest next ⟨consistent, .refl forest⟩ applied).2

theorem Consistent.tombstone_bare {forest : Forest} (consistent : forest.Consistent) (path : StreamPath) (uid : StreamUid)
    (buried : forest.directory[path]? = some (.tombstone uid)) : forest.ledger[uid]? = none := by
  cases held : forest.ledger[uid]? with
  | none => rfl
  | some record =>
    obtain ⟨other, live⟩ := consistent.live uid record held
    rw [consistent.unique other path _ _ live buried rfl, buried] at live
    cases live

theorem Folded.born_bare {base forest : Forest} (consistent : base.Consistent) (folded : Folded base forest) (path : StreamPath)
    (entry : DirectoryEntry) (vacant : base.directory[path]? = none) (found : forest.directory[path]? = some entry) :
    base.ledger[entry.uid]? = none := by
  cases held : base.ledger[entry.uid]? with
  | none => rfl
  | some record =>
    obtain ⟨other, live⟩ := consistent.live entry.uid record held
    obtain ⟨later, there, same⟩ := (folded.precedes consistent).kept other _ live
    have equal := (folded.consistent base forest consistent).unique other path later entry there found same
    rw [equal, vacant] at live
    cases live

end Forest

end StromDB
