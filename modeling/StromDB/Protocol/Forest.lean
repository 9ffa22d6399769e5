import StromDB.Domain.Wal
import StromDB.Lib.Checked

namespace StromDB

open Checked

variable [Jiff]

-- Resident Directory and Ledger. The maps are compared by their rows; whether
-- two forests share their tree roots is tracked by the writer.
structure Forest where
  directory : OrdMap StreamPath DirectoryEntry
  ledger : OrdMap StreamUid StreamRecord
deriving DecidableEq

structure ForestDelta where
  directory : List (StreamPath × DirectoryEntry)
  ledger : List (StreamUid × LedgerCell)
deriving DecidableEq

inductive Applied where
  | applied
deriving DecidableEq, Repr

inductive FoldContradiction where
  | pathOccupied
  | pathCapacityExhausted
  | uidNotDenseSuccessor
  | pathNotLive
  | pathUidMismatch
  | streamAlreadyClosed
deriving DecidableEq, Repr

def FoldContradiction.toText : FoldContradiction → String
  | .pathOccupied => "path is already occupied"
  | .pathCapacityExhausted => "partition path capacity is exhausted"
  | .uidNotDenseSuccessor => "stream uid is not the dense successor"
  | .pathNotLive => "path is not live"
  | .pathUidMismatch => "path uid does not match"
  | .streamAlreadyClosed => "stream is already closed"

inductive ForestContradiction where
  | uidGap
  | countMismatch
  | liveWithoutRecord
  | recordWithoutLive
  | tombstoneWithRecord
deriving DecidableEq, Repr

def ForestContradiction.toText : ForestContradiction → String
  | .uidGap => "Directory stream uids are not dense and unique"
  | .countMismatch => "Directory row count differs from the maximum allocated stream uid"
  | .liveWithoutRecord => "a Live Directory row has no Ledger record"
  | .recordWithoutLive => "a Ledger record has no Live Directory row"
  | .tombstoneWithRecord => "a Tombstone Directory row still has a Ledger record"

inductive UidState where
  | liveMissingRecord
  | liveWithRecord
  | tombstone
deriving DecidableEq, Repr

def DirectoryEntry.uid : DirectoryEntry → StreamUid
  | .live uid => uid
  | .tombstone uid => uid

omit [Jiff] in
@[simp] theorem DirectoryEntry.uid_live (uid : StreamUid) : (DirectoryEntry.live uid).uid = uid := rfl

omit [Jiff] in
@[simp] theorem DirectoryEntry.uid_tombstone (uid : StreamUid) : (DirectoryEntry.tombstone uid).uid = uid := rfl

def requireLiveUid (entry : Option DirectoryEntry) (uid : StreamUid) : Except FoldContradiction StreamUid :=
  match entry with
  | some (.live liveUid) => if liveUid = uid then .ok liveUid else .error .pathUidMismatch
  | some (.tombstone _) => .error .pathNotLive
  | none => .error .pathNotLive

namespace Forest

def empty : Forest := ⟨∅, ∅⟩

def resolve (forest : Forest) (path : StreamPath) : Option DirectoryEntry := forest.directory[path]?

def record (forest : Forest) (uid : StreamUid) : Option StreamRecord := forest.ledger[uid]?

def pathCount (forest : Forest) : Nat := forest.directory.size

def successorUidAfter (pathCount : Nat) : Checked (Except FoldContradiction StreamUid) :=
  if pathCount ≥ PARTITION_PATH_OCCUPANCIES_MAX_V2 then pure (.error .pathCapacityExhausted)
  else do
    let successor ← expect "path_count below the V2 occupancy bound has a nonzero successor"
      (NonZeroU64.new (pathCount + 1))
    pure (.ok ⟨successor⟩)

def successorUid (forest : Forest) : Checked (Except FoldContradiction StreamUid) :=
  successorUidAfter forest.pathCount

def foldCreated (forest : Forest) (batch : BatchId) (path : StreamPath) (uid : StreamUid) (contentType : StreamContentType)
    (expiry : ExpiryPolicy) (lifecycle : StreamLifecycle) : Checked (Forest × Except FoldContradiction Applied) :=
  if forest.directory[path]?.isSome then pure (forest, .error .pathOccupied)
  else do
    match ← forest.successorUid with
    | .error contradiction => pure (forest, .error contradiction)
    | .ok expectedUid =>
      if uid ≠ expectedUid then pure (forest, .error .uidNotDenseSuccessor)
      else
        require (forest.directory[path]? = none) "create folds only into an absent directory path"
        require (forest.ledger[uid]? = none) "create folds a fresh ledger uid"
        pure (⟨forest.directory.insert path (.live uid),
          forest.ledger.insert uid ⟨contentType, expiry, lifecycle, batch⟩⟩, .ok .applied)

def foldClosed (forest : Forest) (path : StreamPath) (uid : StreamUid) :
    Checked (Forest × Except FoldContradiction Applied) :=
  match requireLiveUid forest.directory[path]? uid with
  | .error contradiction => pure (forest, .error contradiction)
  | .ok liveUid => do
    let record ← expect "a Live directory row has exactly one Ledger record" forest.ledger[liveUid]?
    if record.lifecycle.isClosed then pure (forest, .error .streamAlreadyClosed)
    else
      pure (⟨forest.directory, forest.ledger.insert liveUid { record with lifecycle := .closed }⟩, .ok .applied)

def foldDeleted (forest : Forest) (path : StreamPath) (uid : StreamUid) :
    Checked (Forest × Except FoldContradiction Applied) :=
  match requireLiveUid forest.directory[path]? uid with
  | .error contradiction => pure (forest, .error contradiction)
  | .ok liveUid => do
    require (forest.ledger[liveUid]?.isSome) "a Live directory row has exactly one Ledger record"
    let entry ← expect "delete folds a Live directory row" forest.directory[path]?
    require (entry = .live liveUid) "delete folds the Live uid named by the fact"
    pure (⟨forest.directory.insert path (.tombstone liveUid), forest.ledger.erase liveUid⟩, .ok .applied)

-- The forest after the call is returned with the outcome: a rejected fact is
-- returned together with the forest it left behind.
def strictFold (forest : Forest) (batch : BatchId) : OperationFact → Checked (Forest × Except FoldContradiction Applied)
  | .streamCreated path uid contentType expiry lifecycle =>
    forest.foldCreated batch path uid contentType expiry lifecycle
  | .streamClosed path uid => forest.foldClosed path uid
  | .streamDeleted path uid => forest.foldDeleted path uid

def deltaDirectory (forest : Forest) : List (OrdMap.DiffItem StreamPath DirectoryEntry) →
    Checked (List (StreamPath × DirectoryEntry))
  | [] => pure []
  | .add key entry :: rest => do
    let rows ← forest.deltaDirectory rest
    pure ((key, entry) :: rows)
  | .update key _ entry :: rest => do
    let rows ← forest.deltaDirectory rest
    pure ((key, entry) :: rows)
  | .remove key _ :: rest => do
    require (forest.directory.contains key) "Directory path occupancy is permanent"
    forest.deltaDirectory rest

def deltaLedger : OrdMap.DiffItem StreamUid StreamRecord → StreamUid × LedgerCell
  | .add uid record => (uid, .value record)
  | .update uid _ record => (uid, .value record)
  | .remove uid _ => (uid, .delete)

def deltaSince [OrdMap.Differ] (forest base : Forest) : Checked ForestDelta := do
  let directory ← forest.deltaDirectory (OrdMap.diff base.directory forest.directory)
  pure ⟨directory, (OrdMap.diff base.ledger forest.ledger).map deltaLedger⟩

def checkpointCells (forest : Forest) : ForestDelta :=
  ⟨forest.directory.toList, forest.ledger.toList.map fun (uid, record) => (uid, .value record)⟩

def entryState : DirectoryEntry → UidState
  | .live _ => .liveMissingRecord
  | .tombstone _ => .tombstone

def markEntries : List DirectoryEntry → List (Option UidState) → Except ForestContradiction (List (Option UidState))
  | [], states => .ok states
  | entry :: rest, states =>
    match states[entry.uid.get - 1]? with
    | none => .error .countMismatch
    | some (some _) => .error .uidGap
    | some none => markEntries rest (states.set (entry.uid.get - 1) (some (entryState entry)))

def markRecords : List StreamUid → List (Option UidState) → Except ForestContradiction (List (Option UidState))
  | [], states => .ok states
  | uid :: rest, states =>
    match states[uid.get - 1]? with
    | none => .error .recordWithoutLive
    | some none => .error .recordWithoutLive
    | some (some .liveMissingRecord) => markRecords rest (states.set (uid.get - 1) (some .liveWithRecord))
    | some (some .tombstone) => .error .tombstoneWithRecord
    | some (some .liveWithRecord) => .error .recordWithoutLive

def entries (directory : OrdMap StreamPath DirectoryEntry) : List DirectoryEntry := directory.toList.map Prod.snd

def tryFrom (directory : OrdMap StreamPath DirectoryEntry) (ledger : OrdMap StreamUid StreamRecord) :
    Except ForestContradiction Forest :=
  if directory.size > PARTITION_PATH_OCCUPANCIES_MAX_V2 then .error .countMismatch
  else do
    let marked ← markEntries (entries directory) (List.replicate directory.size none)
    if marked.any Option.isNone then .error .uidGap
    else
      let settled ← markRecords ledger.keys marked
      if settled.contains (some .liveMissingRecord) then .error .liveWithoutRecord
      else .ok ⟨directory, ledger⟩

def applyFact (forest : Forest) (batch : BatchId) (fact : OperationFact) : Option Forest :=
  match forest.strictFold batch fact with
  | .ok (next, .ok _) => some next
  | _ => none

def applyFacts (batch : BatchId) : List OperationFact → Forest → Option Forest
  | [], forest => some forest
  | fact :: rest, forest => (forest.applyFact batch fact).bind (applyFacts batch rest)

end Forest

end StromDB
