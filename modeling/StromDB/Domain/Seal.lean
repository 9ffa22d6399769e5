import StromDB.Domain.Wal
import StromDB.Lib.Checked

namespace StromDB

inductive StoreKind where
  | directory
  | ledger
  | tally
  | annals
deriving DecidableEq, Repr

structure AttemptId where
  ownerClaim : SealGeneration
  localCounter : Nat
deriving DecidableEq, Repr

inductive TableIdentityError where
  | tableIdentityError
deriving DecidableEq, Repr

structure FreshIdentity where
  birthGeneration : SealGeneration
  attempt : AttemptId
  ordinal : Nat
  predates : attempt.ownerClaim < birthGeneration
deriving DecidableEq, Repr

def FreshIdentity.new (birthGeneration : SealGeneration) (attempt : AttemptId) (ordinal : Nat) :
    Except TableIdentityError FreshIdentity :=
  if predates : attempt.ownerClaim < birthGeneration then .ok ⟨birthGeneration, attempt, ordinal, predates⟩
  else .error .tableIdentityError

structure TableObjectId where
  fresh : FreshIdentity
  store : StoreKind
deriving DecidableEq, Repr

inductive SealError where
  | generationExhausted
  | nonCanonicalGenesis
  | replayOwnerNotBeforeSeal
  | runsOverMax
  | emptyRun
  | tablesOverMax
  | objectBytesOverMax
  | storeMismatch
  | futureTable
  | duplicateTableObject
deriving DecidableEq, Repr

def SealError.toText : SealError → String
  | .generationExhausted => "Seal generation is exhausted"
  | .nonCanonicalGenesis => "generation-one Seal is not the canonical empty genesis"
  | .replayOwnerNotBeforeSeal => "Seal replay owner is not older than its generation"
  | .runsOverMax => "tree has more than 16 runs"
  | .emptyRun => "sorted run is empty"
  | .tablesOverMax => "sorted run has more than 4096 tables"
  | .objectBytesOverMax => "table object exceeds 134217728 bytes"
  | .storeMismatch => "table store differs from its owning tree"
  | .futureTable => "table birth generation is newer than its enclosing Seal"
  | .duplicateTableObject => "table object identity occurs more than once in the Seal"

structure TableRef where
  object : TableObjectId
  objectBytes : NonZeroU64
  bounded : objectBytes.get ≤ SST_OBJECT_BYTES_MAX
deriving DecidableEq, Repr

def TableRef.new (object : TableObjectId) (objectBytes : NonZeroU64) : Except SealError TableRef :=
  if bounded : objectBytes.get ≤ SST_OBJECT_BYTES_MAX then .ok ⟨object, objectBytes, bounded⟩
  else .error .objectBytesOverMax

structure SortedRun where
  tables : List TableRef
  nonempty : tables ≠ []
  bounded : tables.length ≤ RUN_TABLES_MAX
deriving DecidableEq, Repr

def SortedRun.tryFrom (tables : List TableRef) : Except SealError SortedRun :=
  if empty : tables = [] then .error .emptyRun
  else if exceeds : tables.length > RUN_TABLES_MAX then .error .tablesOverMax
  else .ok ⟨tables, empty, Nat.le_of_not_gt exceeds⟩

structure TreeVersion where
  runs : List SortedRun
  bounded : runs.length ≤ TREE_RUNS_MAX
deriving DecidableEq, Repr

namespace TreeVersion

def empty : TreeVersion := ⟨[], by decide⟩

def isEmpty (tree : TreeVersion) : Bool := tree.runs.isEmpty

def tables (tree : TreeVersion) : List TableRef := tree.runs.flatMap SortedRun.tables

def tryFrom (runs : List SortedRun) : Except SealError TreeVersion :=
  if exceeds : runs.length > TREE_RUNS_MAX then .error .runsOverMax
  else .ok ⟨runs, Nat.le_of_not_gt exceeds⟩

end TreeVersion

inductive WalReplayPoint where
  | genesis
  | through (batch : BatchId) (owner : OwnerToken)
deriving DecidableEq, Repr

namespace WalReplayPoint

def batch : WalReplayPoint → Option BatchId
  | .genesis => none
  | .through batch _ => some batch

def owner : WalReplayPoint → Option OwnerToken
  | .genesis => none
  | .through _ owner => some owner

def cut : WalReplayPoint → Nat
  | .genesis => 0
  | .through batch _ => batch.get

def ownerNumber : WalReplayPoint → Nat
  | .genesis => 0
  | .through _ owner => owner.get

end WalReplayPoint

-- claim_successor builds a Seal without the checks of Seal::new, so the record
-- carries none of them; see Seal.Legal.
structure Seal where
  partition : PartitionId
  generation : SealGeneration
  replay : WalReplayPoint
  directory : TreeVersion
  ledger : TreeVersion
deriving DecidableEq, Repr

namespace Seal

def tables (sealed : Seal) : List TableRef := sealed.directory.tables ++ sealed.ledger.tables

def validateTables (store : StoreKind) (generation : SealGeneration) : List TableRef → Except SealError Unit
  | [] => .ok ()
  | table :: rest =>
    if table.object.store ≠ store then .error .storeMismatch
    else if generation < table.object.fresh.birthGeneration then .error .futureTable
    else validateTables store generation rest

def validateTree (tree : TreeVersion) (store : StoreKind) (generation : SealGeneration) : Except SealError Unit :=
  validateTables store generation tree.tables

def validateReplay (generation : SealGeneration) : WalReplayPoint → Except SealError Unit
  | .genesis => .ok ()
  | .through _ owner => if generation ≤ owner.generation then .error .replayOwnerNotBeforeSeal else .ok ()

def validateIdentities (tables : List TableRef) : Except SealError Unit :=
  if (tables.map TableRef.object).Nodup then .ok () else .error .duplicateTableObject

def new (partition : PartitionId) (generation : SealGeneration) (replay : WalReplayPoint)
    (directory ledger : TreeVersion) : Except SealError Seal := do
  if generation = SealGeneration.genesis ∧ (replay ≠ .genesis ∨ !directory.isEmpty ∨ !ledger.isEmpty) then
    .error .nonCanonicalGenesis
  else
    validateReplay generation replay
    validateTree directory .directory generation
    validateTree ledger .ledger generation
    validateIdentities (directory.tables ++ ledger.tables)
    .ok { partition, generation, replay, directory, ledger }

def claimSuccessor (sealed : Seal) : Except SealError Seal :=
  match sealed.generation.successor with
  | .ok generation => .ok { sealed with generation }
  | .error _ => .error .generationExhausted

structure Legal (sealed : Seal) : Prop where
  genesis : sealed.generation = SealGeneration.genesis →
    sealed.replay = .genesis ∧ sealed.directory.runs = [] ∧ sealed.ledger.runs = []
  replayOwner : sealed.replay.ownerNumber < sealed.generation.get
  directoryStore : ∀ table ∈ sealed.directory.tables, table.object.store = .directory
  ledgerStore : ∀ table ∈ sealed.ledger.tables, table.object.store = .ledger
  births : ∀ table ∈ sealed.tables, table.object.fresh.birthGeneration.get ≤ sealed.generation.get
  distinct : (sealed.tables.map TableRef.object).Nodup

theorem validateTables_ok_iff (store : StoreKind) (generation : SealGeneration) (tables : List TableRef) (u : Unit) :
    validateTables store generation tables = .ok u ↔
      ∀ table ∈ tables, table.object.store = store ∧ table.object.fresh.birthGeneration.get ≤ generation.get := by
  induction tables with
  | nil => simp [validateTables]
  | cons table rest ih =>
    unfold validateTables
    split
    case isTrue other => simp [other]
    case isFalse same =>
      split
      case isTrue future =>
        simp only [SealGeneration.lt_iff] at future
        simp only [reduceCtorEq, false_iff, List.mem_cons, forall_eq_or_imp, not_and]
        omega
      case isFalse born =>
        simp only [SealGeneration.lt_iff, Nat.not_lt] at born
        simp only [not_not] at same
        rw [ih]
        simp [same, born]

theorem validateReplay_ok_iff (generation : SealGeneration) (replay : WalReplayPoint) (u : Unit) :
    validateReplay generation replay = .ok u ↔ replay.ownerNumber < generation.get := by
  cases replay with
  | genesis => simpa [validateReplay, WalReplayPoint.ownerNumber] using generation.positive
  | through batch owner =>
    simp only [validateReplay, WalReplayPoint.ownerNumber, OwnerToken.get, SealGeneration.le_iff]
    split <;> simp <;> omega

theorem validateIdentities_ok_iff (tables : List TableRef) (u : Unit) :
    validateIdentities tables = .ok u ↔ (tables.map TableRef.object).Nodup := by
  unfold validateIdentities
  split <;> simp_all

theorem new_ok_iff (partition : PartitionId) (generation : SealGeneration) (replay : WalReplayPoint)
    (directory ledger : TreeVersion) (result : Seal) :
    new partition generation replay directory ledger = .ok result ↔
      result = ⟨partition, generation, replay, directory, ledger⟩ ∧ result.Legal := by
  unfold new
  split
  case isTrue bad =>
    obtain ⟨first, nonempty⟩ := bad
    simp only [reduceCtorEq, false_iff, not_and]
    rintro rfl legal
    obtain ⟨noReplay, noDirectory, noLedger⟩ := legal.genesis first
    simp only at noReplay noDirectory noLedger
    simp [noReplay, TreeVersion.isEmpty, noDirectory, noLedger] at nonempty
  case isFalse canonical =>
    simp only [Checked.bind_ok_iff, validateReplay_ok_iff, validateTree, validateTables_ok_iff, validateIdentities_ok_iff,
      Except.ok.injEq]
    constructor
    · rintro ⟨_, replayOwner, _, directories, _, ledgers, _, distinct, rfl⟩
      refine ⟨rfl, ?_, replayOwner, fun t m => (directories t m).1, fun t m => (ledgers t m).1, ?_, distinct⟩
      · intro first
        simp only [not_and, not_or, not_not] at canonical
        obtain ⟨noReplay, noDirectory, noLedger⟩ := canonical first
        simp only [TreeVersion.isEmpty, Bool.not_eq_true', Bool.not_eq_false, List.isEmpty_iff] at noDirectory noLedger
        exact ⟨noReplay, noDirectory, noLedger⟩
      · intro table selected
        rcases List.mem_append.mp selected with here | here
        · exact (directories table here).2
        · exact (ledgers table here).2
    · rintro ⟨rfl, legal⟩
      refine ⟨(), legal.replayOwner, (), ?_, (), ?_, (), legal.distinct, rfl⟩
      · intro table selected
        exact ⟨legal.directoryStore table selected, legal.births table (List.mem_append_left _ selected)⟩
      · intro table selected
        exact ⟨legal.ledgerStore table selected, legal.births table (List.mem_append_right _ selected)⟩

theorem claimSuccessor_ok_iff {sealed next : Seal} :
    sealed.claimSuccessor = .ok next ↔
      next.generation.get = sealed.generation.get + 1 ∧ next = { sealed with generation := next.generation } := by
  unfold claimSuccessor
  split
  case h_1 generation found =>
    have advanced := SealGeneration.successor_ok_iff.mp found
    constructor
    · intro same
      cases same
      exact ⟨advanced, rfl⟩
    · rintro ⟨here, same⟩
      rw [same]
      exact congrArg Except.ok (by rw [SealGeneration.get_injective generation next.generation (by omega)])
  case h_2 exhausted found =>
    have last := (SealGeneration.successor_error_iff _ _).mp found
    simp only [reduceCtorEq, false_iff, not_and]
    intro here
    have bound := next.generation.raw.bounded
    simp only [SealGeneration.get] at here last
    omega

theorem Legal.claim {sealed next : Seal} (legal : sealed.Legal) (claimed : sealed.claimSuccessor = .ok next) : next.Legal := by
  obtain ⟨advanced, same⟩ := claimSuccessor_ok_iff.mp claimed
  have positive := sealed.generation.positive
  rw [same]
  refine ⟨?_, ?_, legal.directoryStore, legal.ledgerStore, ?_, legal.distinct⟩
  · intro first
    rw [first] at advanced
    have one : SealGeneration.genesis.get = 1 := rfl
    omega
  · have before := legal.replayOwner
    simp only
    omega
  · intro table selected
    have born := legal.births table selected
    simp only
    omega

end Seal

def zeroPadded (width value : Nat) : String :=
  let digits := toString value
  String.ofList (List.replicate (width - digits.length) '0') ++ digits

def reverseOrdinal (ordinal : Nat) : String := zeroPadded 20 (2 ^ 64 - 1 - ordinal)

def sealKey (generation : SealGeneration) : String := "seal/v1/" ++ reverseOrdinal generation.get

def walKey (batch : BatchId) : String := "wal/v1/" ++ reverseOrdinal batch.get

def storeName : StoreKind → String
  | .directory => "directory"
  | .ledger => "ledger"
  | .tally => "tally"
  | .annals => "annals"

def tableKey (object : TableObjectId) : String :=
  "table/v1/" ++ storeName object.store ++ "/" ++ zeroPadded 20 object.fresh.birthGeneration.get ++ "/" ++
    zeroPadded 20 object.fresh.attempt.ownerClaim.get ++ "-" ++ zeroPadded 20 object.fresh.attempt.localCounter ++ "/" ++
    zeroPadded 10 object.fresh.ordinal

def hexDigit (nibble : Nat) : Char := Nat.digitChar nibble

def PartitionId.display (partition : PartitionId) : String :=
  String.ofList (partition.octets.zipIdx.flatMap fun (octet, index) =>
    (if index = 4 ∨ index = 6 ∨ index = 8 ∨ index = 10 then ['-'] else []) ++
      [hexDigit (octet.toNat / 16), hexDigit (octet.toNat % 16)])

end StromDB
