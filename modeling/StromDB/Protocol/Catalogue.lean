import StromDB.Protocol.ForestFold
import StromDB.Protocol.WriterMachine

namespace StromDB

open Checked Forest OrdMap

variable [Rkyv]

inductive Holding where
  | live (contentType : StreamContentType) (expiry : ExpiryPolicy) (lifecycle : StreamLifecycle)
  | deleted
deriving DecidableEq

-- The sequential catalogue: what each path holds and how many paths were taken.
structure Catalogue where
  holding : StreamPath → Option Holding
  paths : Nat

namespace Catalogue

def put (catalogue : Catalogue) (path : StreamPath) (holding : Holding) : StreamPath → Option Holding :=
  fun other => if other = path then some holding else catalogue.holding other

def answer (catalogue : Catalogue) : CommandEnvelope → Completion
  | .create command reply =>
    match catalogue.holding command.path with
    | none =>
      if catalogue.paths < PARTITION_PATH_OCCUPANCIES_MAX_V2 then .create (.ok .created) reply
      else .create (.error .pathCapacityExhausted) reply
    | some (.live contentType expiry lifecycle) =>
      if contentType = command.contentType ∧ expiry = command.expiry ∧ lifecycle = command.lifecycle then
        .create (.ok .alreadyExists) reply
      else .create (.error .pathOccupied) reply
    | some .deleted => .create (.error .pathOccupied) reply
  | .close path reply =>
    match catalogue.holding path with
    | some (.live _ _ .opened) => .close (.ok .closed) reply
    | some (.live _ _ .closed) => .close (.ok .alreadyClosed) reply
    | _ => .close (.error .pathNotLive) reply
  | .delete path reply =>
    match catalogue.holding path with
    | some (.live _ _ _) => .delete (.ok ()) reply
    | _ => .delete (.error .pathNotLive) reply

-- The catalogue after the command: only a first create, the close of an open
-- stream and the delete of a live one change it.
def next (catalogue : Catalogue) : CommandEnvelope → Catalogue
  | .create command _ =>
    match catalogue.holding command.path with
    | none =>
      if catalogue.paths < PARTITION_PATH_OCCUPANCIES_MAX_V2 then
        ⟨catalogue.put command.path (.live command.contentType command.expiry command.lifecycle), catalogue.paths + 1⟩
      else catalogue
    | some _ => catalogue
  | .close path _ =>
    match catalogue.holding path with
    | some (.live contentType expiry .opened) => ⟨catalogue.put path (.live contentType expiry .closed), catalogue.paths⟩
    | _ => catalogue
  | .delete path _ =>
    match catalogue.holding path with
    | some (.live _ _ _) => ⟨catalogue.put path .deleted, catalogue.paths⟩
    | _ => catalogue

end Catalogue

def Completion.mutates : Completion → Bool
  | .create (.ok .created) _ => true
  | .close (.ok .closed) _ => true
  | .delete (.ok _) _ => true
  | _ => false

def Completion.succeeds : Completion → Bool
  | .create (.ok _) _ => true
  | .close (.ok _) _ => true
  | .delete (.ok _) _ => true
  | _ => false

namespace Forest

def holding (forest : Forest) (path : StreamPath) : Option Holding :=
  match forest.resolve path with
  | none => none
  | some (.tombstone _) => some .deleted
  | some (.live uid) => (forest.record uid).map fun record => .live record.contentType record.expiry record.lifecycle

def catalogue (forest : Forest) : Catalogue := ⟨forest.holding, forest.pathCount⟩

section

variable (forest : Forest) (path : StreamPath)

theorem holding_vacant (vacant : forest.resolve path = none) : forest.holding path = none := by
  simp only [holding, vacant]

theorem holding_deleted (uid : StreamUid) (gone : forest.resolve path = some (.tombstone uid)) :
    forest.holding path = some .deleted := by
  simp only [holding, gone]

theorem holding_live (uid : StreamUid) (record : StreamRecord) (live : forest.resolve path = some (.live uid))
    (found : forest.record uid = some record) :
    forest.holding path = some (.live record.contentType record.expiry record.lifecycle) := by
  simp [holding, live, found]

theorem holding_congr (other : Forest) (row : other.resolve path = forest.resolve path)
    (record : ∀ uid, forest.resolve path = some (.live uid) → other.record uid = forest.record uid) :
    other.holding path = forest.holding path := by
  unfold holding
  rw [row]
  split
  · rfl
  · rfl
  · rename_i uid live
    rw [record uid live]

end

section

variable (forest following : Forest) (batch : BatchId) (fact : OperationFact) (consistent : forest.Consistent)
  (step : Step forest batch fact following)

include consistent step

theorem Step.holding_other (path : StreamPath) (apart : path ≠ fact.path) : following.holding path = forest.holding path := by
  cases step with
  | created taken uid contentType expiry lifecycle vacant capacity dense fresh =>
    change path ≠ taken at apart
    apply holding_congr
    · simp only [resolve]
      rw [get_insert, if_neg (Ne.symm apart)]
    · intro other live
      simp only [record]
      rw [get_insert, if_neg]
      rintro rfl
      have bound := consistent.range path _ live
      rw [DirectoryEntry.uid_live, dense] at bound
      omega
  | closed taken uid old here held opened =>
    apply holding_congr
    · rfl
    · intro other live
      simp only [record]
      rw [get_insert, if_neg]
      rintro rfl
      exact apart (consistent.unique path taken _ _ live here rfl)
  | deleted taken uid old here held =>
    change path ≠ taken at apart
    apply holding_congr
    · simp only [resolve]
      rw [get_insert, if_neg (Ne.symm apart)]
    · intro other live
      simp only [record]
      rw [get_erase, if_neg]
      rintro rfl
      exact apart (consistent.unique path taken _ _ live here rfl)

theorem Step.catalogue_eq (holding : Holding) (holds : following.holding fact.path = some holding) :
    following.catalogue = ⟨forest.catalogue.put fact.path holding, following.pathCount⟩ := by
  simp only [catalogue, Catalogue.mk.injEq, and_true]
  funext path
  by_cases same : path = fact.path
  · rw [Catalogue.put, if_pos same, same, holds]
  · rw [Catalogue.put, if_neg same]
    exact step.holding_other forest following batch fact consistent path same

end

theorem applyFacts_holding_other {batch : BatchId} {facts : List OperationFact} {path : StreamPath} : ∀ forest following : Forest,
    forest.Consistent → (∀ fact ∈ facts, path ≠ fact.path) → applyFacts batch facts forest = some following →
    following.holding path = forest.holding path := by
  induction facts with
  | nil =>
    intro forest following _ _ done
    cases done
    rfl
  | cons fact rest ih =>
    intro forest following consistent apart done
    obtain ⟨middle, first, later⟩ := Option.bind_eq_some_iff.mp done
    have step := (applyFact_eq_some_iff _ _ _ _).mp first
    rw [ih middle following (consistent.step forest middle batch fact step)
      (fun other member => apart other (List.mem_cons_of_mem _ member)) later]
    exact step.holding_other forest middle batch fact consistent path (apart fact List.mem_cons_self)

end Forest

def Answers (forest : Forest) (batch : BatchId) (envelope : CommandEnvelope) : Admission → Prop
  | .fact admitted completion =>
    completion = forest.catalogue.answer envelope ∧ completion.mutates = true ∧
      Forest.applyFact forest batch admitted.fact = some admitted.forest ∧
      admitted.forest.catalogue = forest.catalogue.next envelope
  | .idempotent completion =>
    completion = forest.catalogue.answer envelope ∧ completion.succeeds = true ∧ completion.mutates = false ∧
      forest.catalogue.next envelope = forest.catalogue
  | .refused completion =>
    completion = forest.catalogue.answer envelope ∧ completion.succeeds = false ∧
      forest.catalogue.next envelope = forest.catalogue

section

variable (forest : Forest) (consistent : forest.Consistent) (batch : BatchId)

theorem applyFact_of_step (fact : OperationFact) (following : Forest) (step : Forest.Step forest batch fact following) :
    applyFact forest batch fact = .ok (.ok ⟨following, fact⟩) := by
  have applied := (Forest.applyFact_eq_some_iff _ _ _ _).mpr step
  unfold Forest.applyFact at applied
  split at applied
  · rename_i outcome folded
    cases applied
    simp only [applyFact, folded, ok_bind]
    rfl
  · cases applied

theorem not_live_answers (path : StreamPath) (missing : ∀ uid, forest.resolve path ≠ some (.live uid)) :
    resolveLiveUid forest path = .error .pathNotLive ∧ (forest.holding path = none ∨ forest.holding path = some .deleted) := by
  cases entry : forest.resolve path with
  | none => exact ⟨by simp only [resolveLiveUid, entry], .inl (forest.holding_vacant path entry)⟩
  | some entered =>
    cases entered with
    | tombstone uid => exact ⟨by simp only [resolveLiveUid, entry], .inr (forest.holding_deleted path uid entry)⟩
    | live uid => exact absurd entry (missing uid)

include consistent

theorem admitCreate_answers (command : CreateStream) (reply : ReplySender) :
    ∃ admission, admitCreate forest command batch reply = .ok admission ∧ Answers forest batch (.create command reply) admission := by
  cases entry : forest.resolve command.path with
  | none =>
    have vacant := forest.holding_vacant command.path entry
    by_cases room : forest.pathCount < PARTITION_PATH_OCCUPANCIES_MAX_V2
    · obtain ⟨uid, dense, allocated⟩ := Forest.successorUidAfter_ok room
      have unused : forest.ledger[uid]? = none := by
        cases found : forest.ledger[uid]? with
        | none => rfl
        | some record =>
          obtain ⟨path, live⟩ := consistent.live uid record found
          have bound := consistent.range path _ live
          rw [DirectoryEntry.uid_live, dense] at bound
          omega
      have step : Forest.Step forest batch _ _ :=
        .created command.path uid command.contentType command.expiry command.lifecycle entry room dense unused
      refine ⟨.fact ⟨_, _⟩ (.create (.ok .created) reply), ?_, ?_, rfl, (Forest.applyFact_eq_some_iff _ _ _ _).mpr step, ?_⟩
      · simp only [admitCreate, entry, Forest.successorUid, allocated, ok_bind,
          applyFact_of_step forest batch _ _ step]
        rfl
      · simp [Catalogue.answer, Forest.catalogue, vacant, room]
      · rw [step.catalogue_eq forest _ batch _ consistent (.live command.contentType command.expiry command.lifecycle) ?_]
        · simp only [Catalogue.next, Forest.catalogue, vacant, room, if_true, Catalogue.mk.injEq]
          exact ⟨rfl, OrdMap.size_insert_vacant _ entry⟩
        · apply Forest.holding_live _ _ uid ⟨command.contentType, command.expiry, command.lifecycle, batch⟩
          · simp [Forest.resolve, OperationFact.path]
          · simp [Forest.record]
    · refine ⟨.refused (.create (.error .pathCapacityExhausted) reply), ?_, ?_, rfl, ?_⟩
      · simp only [admitCreate, entry, Forest.successorUid,
          Forest.successorUidAfter_full (Nat.le_of_not_lt room), ok_bind]
        rfl
      · simp [Catalogue.answer, Forest.catalogue, vacant, room]
      · simp [Catalogue.next, Forest.catalogue, vacant, room]
  | some entered =>
    cases entered with
    | tombstone uid =>
      have gone := forest.holding_deleted command.path uid entry
      refine ⟨.refused (.create (.error .pathOccupied) reply), ?_, ?_, rfl, ?_⟩
      · simp only [admitCreate, entry]
        rfl
      · simp only [Catalogue.answer, Forest.catalogue, gone]
      · simp only [Catalogue.next, Forest.catalogue, gone]
    | live uid =>
      obtain ⟨record, found⟩ := consistent.recorded command.path uid entry
      have here := forest.holding_live command.path uid record entry found
      by_cases same : record.contentType = command.contentType ∧ record.expiry = command.expiry ∧
          record.lifecycle = command.lifecycle
      · refine ⟨.idempotent (.create (.ok .alreadyExists) reply), ?_, ?_, rfl, rfl, ?_⟩
        · simp only [admitCreate, entry, Forest.record, found, expect, ok_bind, if_pos same]
          rfl
        · simp only [Catalogue.answer, Forest.catalogue, here, if_pos same]
        · simp only [Catalogue.next, Forest.catalogue, here]
      · refine ⟨.refused (.create (.error .pathOccupied) reply), ?_, ?_, rfl, ?_⟩
        · simp only [admitCreate, entry, Forest.record, found, expect, ok_bind, if_neg same]
          rfl
        · simp only [Catalogue.answer, Forest.catalogue, here, if_neg same]
        · simp only [Catalogue.next, Forest.catalogue, here]

theorem admitClose_answers (path : StreamPath) (reply : ReplySender) :
    ∃ admission, admitClose forest path batch reply = .ok admission ∧ Answers forest batch (.close path reply) admission := by
  by_cases lives : ∃ uid, forest.resolve path = some (.live uid)
  · obtain ⟨uid, entry⟩ := lives
    obtain ⟨record, found⟩ := consistent.recorded path uid entry
    have here := forest.holding_live path uid record entry found
    have resolved : resolveLiveUid forest path = .ok uid := by simp only [resolveLiveUid, entry]
    cases lifecycle : record.lifecycle with
    | closed =>
      rw [lifecycle] at here
      refine ⟨.idempotent (.close (.ok .alreadyClosed) reply), ?_, ?_, rfl, rfl, ?_⟩
      · simp only [admitClose, resolved, Forest.record, found, expect, ok_bind, lifecycle,
          StreamLifecycle.isClosed, if_true]
        rfl
      · simp only [Catalogue.answer, Forest.catalogue, here]
      · simp only [Catalogue.next, Forest.catalogue, here]
    | opened =>
      rw [lifecycle] at here
      have step : Forest.Step forest batch _ _ := .closed path uid record entry found lifecycle
      refine ⟨.fact ⟨_, _⟩ (.close (.ok .closed) reply), ?_, ?_, rfl, (Forest.applyFact_eq_some_iff _ _ _ _).mpr step, ?_⟩
      · simp only [admitClose, resolved, Forest.record, found, expect, ok_bind, lifecycle,
          StreamLifecycle.isClosed, applyFact_of_step forest batch _ _ step]
        rfl
      · simp only [Catalogue.answer, Forest.catalogue, here]
      · rw [step.catalogue_eq forest _ batch _ consistent (.live record.contentType record.expiry .closed) ?_]
        · simp only [Catalogue.next, Forest.catalogue, here]
          rfl
        · apply Forest.holding_live _ _ uid { record with lifecycle := .closed }
          · exact entry
          · simp [Forest.record]
  · obtain ⟨missing, holding⟩ := not_live_answers forest path (not_exists.mp lives)
    refine ⟨.refused (.close (.error .pathNotLive) reply), ?_, ?_, rfl, ?_⟩
    · simp only [admitClose, missing]
      rfl
    · rcases holding with here | here <;> simp only [Catalogue.answer, Forest.catalogue, here]
    · rcases holding with here | here <;> simp only [Catalogue.next, Forest.catalogue, here]

theorem admitDelete_answers (path : StreamPath) (reply : ReplySender) :
    ∃ admission, admitDelete forest path batch reply = .ok admission ∧ Answers forest batch (.delete path reply) admission := by
  by_cases lives : ∃ uid, forest.resolve path = some (.live uid)
  · obtain ⟨uid, entry⟩ := lives
    obtain ⟨record, found⟩ := consistent.recorded path uid entry
    have here := forest.holding_live path uid record entry found
    have resolved : resolveLiveUid forest path = .ok uid := by simp only [resolveLiveUid, entry]
    have step : Forest.Step forest batch _ _ := .deleted path uid record entry found
    refine ⟨.fact ⟨_, _⟩ (.delete (.ok ()) reply), ?_, ?_, rfl, (applyFact_eq_some_iff _ _ _ _).mpr step, ?_⟩
    · simp only [admitDelete, resolved, applyFact_of_step forest batch _ _ step, ok_bind]
      rfl
    · simp only [Catalogue.answer, catalogue, here]
    · rw [step.catalogue_eq forest _ batch _ consistent .deleted ?_]
      · simp only [Catalogue.next, catalogue, here, Catalogue.mk.injEq]
        exact ⟨rfl, size_insert_present _ _ entry⟩
      · apply holding_deleted _ _ uid
        simp [resolve, OperationFact.path]
  · obtain ⟨missing, holding⟩ := not_live_answers forest path (not_exists.mp lives)
    refine ⟨.refused (.delete (.error .pathNotLive) reply), ?_, ?_, rfl, ?_⟩
    · simp only [admitDelete, missing]
      rfl
    · rcases holding with here | here <;> simp only [Catalogue.answer, catalogue, here]
    · rcases holding with here | here <;> simp only [Catalogue.next, catalogue, here]

theorem decideAdmission_answers (envelope : CommandEnvelope) :
    ∃ admission, decideAdmission forest batch envelope = .ok admission ∧ Answers forest batch envelope admission := by
  cases envelope with
  | create command reply => exact admitCreate_answers forest consistent batch command reply
  | close path reply => exact admitClose_answers forest consistent batch path reply
  | delete path reply => exact admitDelete_answers forest consistent batch path reply

end

end StromDB
