import StromDB.Engine.Store
import StromDB.Lib.Patch
import StromDB.Protocol.ForestLoad

namespace StromDB

open List

variable [Rkyv]

-- The table bodies that were ever established, whether or not they still exist.
abbrev Tables := TableObjectId → Option SstObject

def LedgerCell.toOption : LedgerCell → Option StreamRecord
  | .value record => some record
  | .delete => none

def directoryCells (rows : List (StreamPath × DirectoryEntry)) : List (StreamPath × Option DirectoryEntry) :=
  rows.map fun row => (row.1, some row.2)

def ledgerCells (rows : List (StreamUid × LedgerCell)) : List (StreamUid × Option StreamRecord) :=
  rows.map fun row => (row.1, row.2.toOption)

omit [Rkyv] in
theorem directoryCells_append (first second : List (StreamPath × DirectoryEntry)) :
    directoryCells (first ++ second) = directoryCells first ++ directoryCells second := map_append

theorem ledgerCells_append (first second : List (StreamUid × LedgerCell)) :
    ledgerCells (first ++ second) = ledgerCells first ++ ledgerCells second := map_append

section

variable {K V : Type} [Ord K]

def TableHolds (tables : Tables) (partition : PartitionId) (wrap : List (K × V) → DecodedTable) (table : TableRef)
    (rows : List (K × V)) : Prop :=
  (tables table.object).isSome ∧ decodeTableBody partition table (tables table.object) = .ok (wrap rows)

structure RunHolds (tables : Tables) (partition : PartitionId) (wrap : List (K × V) → DecodedTable) (run : SortedRun)
    (parts : List (List (K × V))) : Prop where
  held : List.Forall₂ (TableHolds tables partition wrap) run.tables parts
  nonempty : ∀ part ∈ parts, part ≠ []
  ordered : strictlyOrdered parts.flatten = true

def TreeHolds (tables : Tables) (partition : PartitionId) (wrap : List (K × V) → DecodedTable) (tree : TreeVersion)
    (runs : List (List (List (K × V)))) : Prop :=
  List.Forall₂ (RunHolds tables partition wrap) tree.runs runs

def treeRows (runs : List (List (List (K × V)))) : List (K × V) := (runs.reverse.map List.flatten).flatten

omit [Rkyv] [Ord K] in
theorem treeRows_cons (run : List (List (K × V))) (older : List (List (List (K × V)))) :
    treeRows (run :: older) = treeRows older ++ run.flatten := by
  simp [treeRows]

omit [Ord K] in
theorem TableHolds.extend {before after : Tables} {partition : PartitionId} {wrap : List (K × V) → DecodedTable}
    {table : TableRef} {rows : List (K × V)} (held : TableHolds before partition wrap table rows)
    (kept : ∀ body, before table.object = some body → after table.object = some body) : TableHolds after partition wrap table rows := by
  obtain ⟨present, decoded⟩ := held
  obtain ⟨body, found⟩ := Option.isSome_iff_exists.mp present
  rw [TableHolds, kept _ found]
  rw [found] at decoded
  exact ⟨rfl, decoded⟩

omit [Rkyv] in
theorem forall₂_left {α β : Type} {R : α → β → Prop} {first : List α} {second : List β} (related : List.Forall₂ R first second)
    (a : α) (member : a ∈ first) : ∃ b, R a b := by
  induction related with
  | nil => cases member
  | cons here _ ih =>
    rcases mem_cons.mp member with rfl | later
    · exact ⟨_, here⟩
    · exact ih later

omit [Rkyv] in
theorem forall₂_imp_mem {α β : Type} {R S : α → β → Prop} {first : List α} {second : List β}
    (related : List.Forall₂ R first second) (implied : ∀ a ∈ first, ∀ b, R a b → S a b) : List.Forall₂ S first second := by
  induction related with
  | nil => exact .nil
  | cons here _ ih =>
    exact .cons (implied _ mem_cons_self _ here) (ih fun a member => implied a (mem_cons_of_mem _ member))

theorem TreeHolds.extend {before after : Tables} {partition : PartitionId} {wrap : List (K × V) → DecodedTable}
    {tree : TreeVersion} {runs : List (List (List (K × V)))} (held : TreeHolds before partition wrap tree runs)
    (kept : ∀ table ∈ tree.tables, ∀ body, before table.object = some body → after table.object = some body) :
    TreeHolds after partition wrap tree runs := by
  refine forall₂_imp_mem held fun run inTree parts here => ⟨?_, here.nonempty, here.ordered⟩
  refine forall₂_imp_mem here.held fun table inRun rows there => ?_
  exact there.extend (kept table (mem_flatMap.mpr ⟨run, inTree, inRun⟩))

section

variable {tables : Tables} {partition : PartitionId} {wrap : List (K × V) → DecodedTable}

theorem TreeHolds.established
    {tree : TreeVersion} {runs : List (List (List (K × V)))} (held : TreeHolds tables partition wrap tree runs) (table : TableRef)
    (member : table ∈ tree.tables) : (tables table.object).isSome := by
  obtain ⟨run, inTree, inRun⟩ := mem_flatMap.mp member
  obtain ⟨parts, here⟩ := forall₂_left held run inTree
  obtain ⟨rows, there⟩ := forall₂_left here.held table inRun
  exact there.1

theorem TreeHolds.unique
    (injective : Function.Injective wrap) (tree other : TreeVersion) (runs more : List (List (List (K × V))))
    (same : tree.runs = other.runs) (here : TreeHolds tables partition wrap tree runs)
    (there : TreeHolds tables partition wrap other more) : runs = more := by
  have rows : Relator.RightUnique (TableHolds tables partition wrap) := by
    intro table first second one two
    exact injective (Except.ok.inj (one.2.symm.trans two.2))
  have parts : Relator.RightUnique (RunHolds tables partition wrap) :=
    fun _ _ _ one two => rows.forall₂ one.held two.held
  rw [TreeHolds, same] at here
  exact parts.forall₂ here there

end

end

omit [Rkyv] in
theorem strictlyOrdered_iff {K V : Type} [Ord K] [Std.TransOrd K] {rows : List (K × V)} :
    strictlyOrdered rows = true ↔ (rows.map Prod.fst).Pairwise fun a b => compare a b = .lt := by
  induction rows with
  | nil => simp [strictlyOrdered]
  | cons row rest ih =>
    cases rest with
    | nil => simp [strictlyOrdered]
    | cons next rest =>
      rw [strictlyOrdered, Bool.and_eq_true, decide_eq_true_eq, ih]
      simp only [map_cons, pairwise_cons, mem_cons, forall_eq_or_imp]
      constructor
      · rintro ⟨less, above, tail⟩
        exact ⟨⟨less, fun key member => Std.TransCmp.lt_trans less (above key member)⟩, above, tail⟩
      · rintro ⟨⟨less, _⟩, above, tail⟩
        exact ⟨less, above, tail⟩

structure Content (tables : Tables) (sealed : Seal) (forest : Forest) : Prop where
  rows : ∃ directoryRuns ledgerRuns,
    TreeHolds tables sealed.partition DecodedTable.directory sealed.directory directoryRuns ∧
    TreeHolds tables sealed.partition DecodedTable.ledger sealed.ledger ledgerRuns ∧
    OrdMap.patch (directoryCells (treeRows directoryRuns)) ∅ = forest.directory ∧
    OrdMap.patch (ledgerCells (treeRows ledgerRuns)) ∅ = forest.ledger ∧
    ∀ row ∈ treeRows ledgerRuns, row.1.get ≤ forest.pathCount

theorem Content.directory_unique {tables : Tables} {first second : Seal} {forest other : Forest} (here : Content tables first forest)
    (there : Content tables second other) (partition : first.partition = second.partition)
    (runs : first.directory.runs = second.directory.runs) : forest.directory = other.directory := by
  obtain ⟨firstRuns, _, firstHeld, _, firstRows, _⟩ := here.rows
  obtain ⟨secondRuns, _, secondHeld, _, secondRows, _⟩ := there.rows
  rw [partition] at firstHeld
  have same := TreeHolds.unique (fun _ _ => DecodedTable.directory.inj) _ _ _ _ runs firstHeld secondHeld
  rw [← firstRows, ← secondRows, same]

section

variable {before after : Tables} {sealed : Seal} {forest : Forest} (content : Content before sealed forest)

include content

theorem Content.transfer
    (kept : ∀ table ∈ sealed.tables, ∀ body, before table.object = some body → after table.object = some body) :
    Content after sealed forest := by
  obtain ⟨directoryRuns, ledgerRuns, directories, ledgers, rest⟩ := content.rows
  refine ⟨⟨directoryRuns, ledgerRuns, ?_, ?_, rest⟩⟩
  · exact directories.extend fun table member => kept table (mem_append_left _ member)
  · exact ledgers.extend fun table member => kept table (mem_append_right _ member)

theorem Content.extend
    (kept : ∀ object body, before object = some body → after object = some body) : Content after sealed forest :=
  content.transfer fun table _ => kept table.object

end

theorem Content.established {tables : Tables} {sealed : Seal} {forest : Forest} (content : Content tables sealed forest)
    (table : TableRef) (member : table ∈ sealed.tables) : (tables table.object).isSome := by
  obtain ⟨directoryRuns, ledgerRuns, directories, ledgers, _⟩ := content.rows
  rcases mem_append.mp member with here | here
  · exact directories.established table here
  · exact ledgers.established table here

theorem Content.claim {tables : Tables} {sealed next : Seal} {forest : Forest} (content : Content tables sealed forest)
    (claimed : sealed.claimSuccessor = .ok next) : Content tables next forest := by
  rw [(Seal.claimSuccessor_ok_iff.mp claimed).2]
  exact ⟨content.rows⟩

theorem Content.genesis (tables : Tables) (sealed : Seal) (noDirectory : sealed.directory.runs = [])
    (noLedger : sealed.ledger.runs = []) : Content tables sealed Forest.empty :=
  ⟨⟨[], [], by simp [TreeHolds, noDirectory], by simp [TreeHolds, noLedger], rfl, rfl, by simp [treeRows]⟩⟩

end StromDB
