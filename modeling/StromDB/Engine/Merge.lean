import StromDB.Engine.Materialize
import StromDB.Lib.Budget

namespace StromDB

open Checked List Option Forest OrdMap

variable [Rkyv]

def MergedRows.maps (merged : MergedRows) : Forest := ⟨merged.directory, merged.ledger⟩

@[simp] theorem MergedRows.maps_directory (merged : MergedRows) : merged.maps.directory = merged.directory := rfl

@[simp] theorem MergedRows.maps_ledger (merged : MergedRows) : merged.maps.ledger = merged.ledger := rfl

namespace Forest

def residency (maps : Forest) : Nat :=
  maps.directory.size * DIRECTORY_ROW_LOGICAL_BYTES_MAX + maps.ledger.size * LEDGER_VALUE_ROW_LOGICAL_BYTES_MAX

def writeDirectory (maps : Forest) (row : StreamPath × DirectoryEntry) : Forest := ⟨maps.directory.insert row.1 row.2, maps.ledger⟩

def writeLedger (maps : Forest) (row : StreamUid × LedgerCell) : Forest :=
  ⟨maps.directory, OrdMap.write maps.ledger (row.1, row.2.toOption)⟩

abbrev Resident {R : Type} (write : Forest → R → Forest) (rows : List R) (maps : Forest) : Prop :=
  Budget.Within residency PARTITION_RESIDENT_LOGICAL_BYTES_MAX_V2 write rows maps

end Forest

namespace Bootstrap

def Accounted (merged : MergedRows) : Prop :=
  merged.residentBytes =
    merged.directory.size * DIRECTORY_ROW_LOGICAL_BYTES_MAX + merged.ledger.size * LEDGER_VALUE_ROW_LOGICAL_BYTES_MAX

structure Charged (merged : MergedRows) : Prop where
  accounted : Accounted merged
  resident : merged.maps.residency ≤ PARTITION_RESIDENT_LOGICAL_BYTES_MAX_V2

omit [Rkyv] in
theorem addResidentBytes_ok {current additional : Nat} (fits : current + additional ≤ PARTITION_RESIDENT_LOGICAL_BYTES_MAX_V2) :
    addResidentBytes current additional = .ok (current + additional) := by
  rw [addResidentBytes, if_neg (Nat.not_lt.mpr fits)]

omit [Rkyv] in
theorem addResidentBytes_error {current additional : Nat} (exceeds : PARTITION_RESIDENT_LOGICAL_BYTES_MAX_V2 < current + additional) :
    addResidentBytes current additional = .error residentBound := by
  rw [addResidentBytes, if_pos exceeds]

theorem residency_writeDirectory (maps : Forest) (key : StreamPath) (entry : DirectoryEntry) :
    (maps.writeDirectory (key, entry)).residency =
      if maps.directory.contains key then maps.residency else maps.residency + DIRECTORY_ROW_LOGICAL_BYTES_MAX := by
  simp only [residency, writeDirectory, Std.ExtTreeMap.size_insert, Std.ExtTreeMap.contains_iff_mem]
  split
  · rfl
  · rw [Nat.add_mul, Nat.one_mul, Nat.add_right_comm]

theorem residency_writeValue (maps : Forest) (uid : StreamUid) (record : StreamRecord) :
    (maps.writeLedger (uid, .value record)).residency =
      if maps.ledger.contains uid then maps.residency else maps.residency + LEDGER_VALUE_ROW_LOGICAL_BYTES_MAX := by
  simp only [residency, writeLedger, LedgerCell.toOption, write, Std.ExtTreeMap.size_insert, Std.ExtTreeMap.contains_iff_mem]
  split
  · rfl
  · rw [Nat.add_mul, Nat.one_mul, Nat.add_assoc]

theorem residency_writeDelete (maps : Forest) (uid : StreamUid) :
    maps.residency = (maps.writeLedger (uid, .delete)).residency +
      if maps.ledger.contains uid then LEDGER_VALUE_ROW_LOGICAL_BYTES_MAX else 0 := by
  simp only [residency, writeLedger, LedgerCell.toOption, write, Std.ExtTreeMap.size_erase,
    Std.ExtTreeMap.contains_iff_mem]
  split
  case isTrue present =>
    have positive : 0 < maps.ledger.size := by
      refine Nat.pos_of_ne_zero fun vacant => ?_
      rw [Std.ExtTreeMap.eq_empty_iff_size_eq_zero.mpr vacant] at present
      simp at present
    have split : maps.ledger.size * LEDGER_VALUE_ROW_LOGICAL_BYTES_MAX =
        (maps.ledger.size - 1) * LEDGER_VALUE_ROW_LOGICAL_BYTES_MAX + LEDGER_VALUE_ROW_LOGICAL_BYTES_MAX := by
      rw [← Nat.succ_mul, Nat.succ_eq_add_one, Nat.sub_one_add_one (Nat.ne_of_gt positive)]
    omega
  case isFalse => exact (Nat.add_zero _).symm

theorem mergeDirectoryRows_spec (rows : List (StreamPath × DirectoryEntry)) : ∀ merged : MergedRows, Charged merged →
    (Forest.Resident Forest.writeDirectory rows merged.maps ∧ ∃ next, mergeDirectoryRows rows merged = .ok next ∧
      Accounted next ∧ next.maps = rows.foldl Forest.writeDirectory merged.maps) ∨
    (¬ Forest.Resident Forest.writeDirectory rows merged.maps ∧ mergeDirectoryRows rows merged = .error residentBound) := by
  induction rows with
  | nil =>
    rintro merged ⟨accounted, fits⟩
    rw [Forest.Resident, Budget.within_nil]
    exact .inl ⟨fits, merged, rfl, accounted, rfl⟩
  | cons row rest ih =>
    obtain ⟨key, entry⟩ := row
    rintro merged ⟨accounted, fits⟩
    have charge := residency_writeDirectory merged.maps key entry
    rw [MergedRows.maps_directory] at charge
    rw [Forest.Resident, Budget.within_cons, mergeDirectoryRows, foldl_cons]
    simp only [fits, true_and]
    by_cases present : merged.directory.contains key = true
    · rw [if_pos present] at charge ⊢
      exact ih { merged with directory := merged.directory.insert key entry }
        ⟨accounted.trans charge.symm, Nat.le_trans (Nat.le_of_eq charge) fits⟩
    rw [if_neg present] at charge ⊢
    have same : merged.residentBytes + DIRECTORY_ROW_LOGICAL_BYTES_MAX =
        (merged.maps.writeDirectory (key, entry)).residency := by
      rw [charge]
      exact congrArg (· + DIRECTORY_ROW_LOGICAL_BYTES_MAX) accounted
    by_cases room : (merged.maps.writeDirectory (key, entry)).residency ≤ PARTITION_RESIDENT_LOGICAL_BYTES_MAX_V2
    · rw [addResidentBytes_ok (same ▸ room)]
      exact ih { merged with directory := merged.directory.insert key entry, residentBytes := _ } ⟨same, room⟩
    · rw [addResidentBytes_error (by omega)]
      exact .inr ⟨fun within => room (within [] nil_prefix), rfl⟩

theorem mergeLedgerRows_spec (rows : List (StreamUid × LedgerCell)) : ∀ merged : MergedRows, Charged merged →
    (Forest.Resident Forest.writeLedger rows merged.maps ∧ ∃ next, mergeLedgerRows rows merged = .ok (.ok next) ∧
      Accounted next ∧ next.maps = rows.foldl Forest.writeLedger merged.maps) ∨
    (¬ Forest.Resident Forest.writeLedger rows merged.maps ∧ mergeLedgerRows rows merged = .ok (.error residentBound)) := by
  induction rows with
  | nil =>
    rintro merged ⟨accounted, fits⟩
    rw [Forest.Resident, Budget.within_nil]
    exact .inl ⟨fits, merged, rfl, accounted, rfl⟩
  | cons row rest ih =>
    obtain ⟨uid, cell⟩ := row
    rintro merged ⟨accounted, fits⟩
    rw [Forest.Resident, Budget.within_cons, foldl_cons]
    simp only [fits, true_and]
    cases cell with
    | value record =>
      have charge := residency_writeValue merged.maps uid record
      rw [MergedRows.maps_ledger] at charge
      rw [mergeLedgerRows]
      by_cases present : merged.ledger.contains uid = true
      · rw [if_pos present] at charge ⊢
        exact ih { merged with ledger := merged.ledger.insert uid record }
          ⟨accounted.trans charge.symm, Nat.le_trans (Nat.le_of_eq charge) fits⟩
      rw [if_neg present] at charge ⊢
      have same : merged.residentBytes + LEDGER_VALUE_ROW_LOGICAL_BYTES_MAX =
          (merged.maps.writeLedger (uid, .value record)).residency := by
        rw [charge]
        exact congrArg (· + LEDGER_VALUE_ROW_LOGICAL_BYTES_MAX) accounted
      by_cases room : (merged.maps.writeLedger (uid, .value record)).residency ≤ PARTITION_RESIDENT_LOGICAL_BYTES_MAX_V2
      · rw [addResidentBytes_ok (same ▸ room)]
        exact ih { merged with ledger := merged.ledger.insert uid record, residentBytes := _ } ⟨same, room⟩
      · rw [addResidentBytes_error (by omega)]
        exact .inr ⟨fun within => room (within [] nil_prefix), rfl⟩
    | delete =>
      have refund := residency_writeDelete merged.maps uid
      have bytes : merged.residentBytes = merged.maps.residency := accounted
      rw [MergedRows.maps_ledger] at refund
      rw [mergeLedgerRows]
      by_cases present : merged.ledger.contains uid = true
      · rw [if_pos present] at refund ⊢
        have charged : LEDGER_VALUE_ROW_LOGICAL_BYTES_MAX ≤ merged.residentBytes := by omega
        simp only [require, charged, if_true, ok_bind]
        have room : (merged.maps.writeLedger (uid, .delete)).residency ≤ PARTITION_RESIDENT_LOGICAL_BYTES_MAX_V2 := by omega
        refine ih { merged with
          ledger := merged.ledger.erase uid
          residentBytes := merged.residentBytes - LEDGER_VALUE_ROW_LOGICAL_BYTES_MAX } ⟨?_, room⟩
        change merged.residentBytes - LEDGER_VALUE_ROW_LOGICAL_BYTES_MAX = (merged.maps.writeLedger (uid, .delete)).residency
        omega
      · have same : merged.maps.writeLedger (uid, .delete) = merged.maps := by
          have absent : merged.ledger[uid]? = none := by
            exact Std.ExtTreeMap.getElem?_eq_none present
          simp [writeLedger, LedgerCell.toOption, write, MergedRows.maps, erase_absent absent]
        rw [if_neg present, same]
        exact ih merged ⟨accounted, fits⟩

def loadTables : List (PlannedTable × DecodedTable) → BaseLoad → Checked (Except BootstrapExit BaseLoad)
  | [], load => pure (.ok load)
  | (source, decoded) :: rest, load => do
    match ← mergeTable load source decoded with
    | .error exit => pure (.error exit)
    | .ok load => loadTables rest load

structure Loaded (load next : BaseLoad) (maps : Forest) : Prop where
  accounted : Accounted next.merged
  maps : next.merged.maps = maps
  claimed : next.claimed = load.claimed
  remaining : next.remaining = load.remaining

-- How reading some tables ends: fits is when they are all merged, and maps is
-- what they leave.
def Settles (fits : Prop) (load : BaseLoad) (maps : Forest) (sources : List (PlannedTable × DecodedTable)) : Prop :=
  (fits ∧ ∃ next, loadTables sources load = .ok (.ok next) ∧ Loaded load next maps) ∨
    (¬ fits ∧ ∃ exit, loadTables sources load = .ok (.error exit))

theorem Loaded.charged {load next : BaseLoad} {maps : Forest} (loaded : Loaded load next maps)
    (resident : maps.residency ≤ PARTITION_RESIDENT_LOGICAL_BYTES_MAX_V2) : Charged next.merged :=
  ⟨loaded.accounted, loaded.maps ▸ resident⟩

theorem loadTables_append (first second : List (PlannedTable × DecodedTable)) : ∀ load,
    loadTables (first ++ second) load = (loadTables first load).bind fun
      | .error exit => .ok (.error exit)
      | .ok middle => loadTables second middle := by
  induction first with
  | nil =>
    intro load
    rfl
  | cons read rest ih =>
    intro load
    obtain ⟨source, decoded⟩ := read
    simp only [cons_append, loadTables]
    cases mergeTable load source decoded with
    | error message => rfl
    | ok outcome =>
      cases outcome with
      | error exit => rfl
      | ok next => exact ih next

theorem Settles.append (fits later : Prop) (load : BaseLoad) (maps last : Forest) (first second : List (PlannedTable × DecodedTable))
    (settled : Settles fits load maps first) (continued : ∀ next, fits → Loaded load next maps → Settles later next last second) :
    Settles (fits ∧ later) load last (first ++ second) := by
  rcases settled with ⟨fit, middle, done, loaded⟩ | ⟨unfit, exit, done⟩
  · rcases continued middle fit loaded with ⟨also, next, rest, there⟩ | ⟨unfit, exit, rest⟩
    · refine .inl ⟨⟨fit, also⟩, next, ?_, there.accounted, there.maps, there.claimed.trans loaded.claimed,
        there.remaining.trans loaded.remaining⟩
      rw [loadTables_append, done]
      exact rest
    · refine .inr ⟨fun both => unfit both.2, exit, ?_⟩
      rw [loadTables_append, done]
      exact rest
  · refine .inr ⟨fun both => unfit both.1, exit, ?_⟩
    rw [loadTables_append, done]
    rfl

theorem Settles.congr (fits other : Prop) (same : fits ↔ other) (load : BaseLoad) (maps : Forest)
    (sources : List (PlannedTable × DecodedTable)) (settled : Settles fits load maps sources) : Settles other load maps sources := by
  rwa [Settles, ← same]

section

variable {K V : Type} [Ord K]

def Chained (rows : TableRef → List (K × V)) : Option K → List TableRef → Prop
  | _, [] => True
  | previous, table :: rest =>
    (∀ key first, previous = some key → (rows table).head? = some first → compare key first.1 = .lt) ∧
      Chained rows ((rows table).getLast?.map Prod.fst) rest

omit [Rkyv] in
theorem overlaps_eq_false_iff (previous : Option K) (first : K × V) :
    overlaps previous first = false ↔ ∀ key, previous = some key → compare key first.1 = .lt := by
  cases previous <;> simp [overlaps]

structure Merging (wrap : List (K × V) → DecodedTable) (store : StoreKind) (previous : BaseLoad → Option K)
    (write : Forest → K × V → Forest) : Prop where
  step : ∀ load source rows first, Charged load.merged → source.table.object.store = store →
    rows.head? = some first →
    (overlaps (if source.startsRun then none else previous load) first = false ∧ Forest.Resident write rows load.merged.maps ∧
      ∃ next, mergeTable load source (wrap rows) = .ok (.ok next) ∧ Loaded load next (rows.foldl write load.merged.maps) ∧
        previous next = rows.getLast?.map Prod.fst) ∨
    (¬ (overlaps (if source.startsRun then none else previous load) first = false ∧
        Forest.Resident write rows load.merged.maps) ∧
      ∃ exit, mergeTable load source (wrap rows) = .ok (.error exit))

variable {wrap : List (K × V) → DecodedTable} {store : StoreKind} {previous : BaseLoad → Option K}
  {write : Forest → K × V → Forest}

def planTables (refs : List TableRef) (index : Nat) : List PlannedTable :=
  (refs.zipIdx index).map fun (table, index) => ⟨table, index = 0⟩

def readAs (wrap : List (K × V) → DecodedTable) (rows : TableRef → List (K × V)) (source : PlannedTable) :
    PlannedTable × DecodedTable := (source, wrap (rows source.table))

theorem Merging.tables (merging : Merging wrap store previous write) (rows : TableRef → List (K × V)) (refs : List TableRef) :
    ∀ index load, (∀ table ∈ refs, table.object.store = store) → (∀ table ∈ refs, rows table ≠ []) → Charged load.merged →
      Settles (Chained rows (if index = 0 then none else previous load) refs ∧
          Forest.Resident write (refs.flatMap rows) load.merged.maps)
        load ((refs.flatMap rows).foldl write load.merged.maps) ((planTables refs index).map (readAs wrap rows)) := by
  induction refs with
  | nil =>
    intro index load _ _ charged
    refine .inl ⟨⟨trivial, ?_⟩, load, rfl, charged.accounted, rfl, rfl, rfl⟩
    rw [flatMap_nil, Forest.Resident, Budget.within_nil]
    exact charged.resident
  | cons table rest ih =>
    intro index load stores nonempty charged
    obtain ⟨first, tail, shape⟩ := exists_cons_of_ne_nil (nonempty table mem_cons_self)
    have head : (rows table).head? = some first := by rw [shape]; rfl
    have one := merging.step load ⟨table, index = 0⟩ (rows table) first charged (stores table mem_cons_self) head
    simp only [decide_eq_true_eq] at one
    have here : (∀ key first, (if index = 0 then none else previous load) = some key → (rows table).head? = some first →
        compare key first.1 = .lt) ↔ overlaps (if index = 0 then none else previous load) first = false := by
      simp only [head, some.injEq, overlaps_eq_false_iff]
      exact ⟨fun below key same => below key first same rfl, fun below key _ same equal => equal ▸ below key same⟩
    simp only [Chained, here, planTables, zipIdx_cons, map_cons, flatMap_cons, foldl_append,
      Forest.Resident, Budget.within_append]
    rcases one with ⟨apart, resident, middle, merged, loaded, last⟩ | ⟨unfit, exit, merged⟩
    · have later := ih (index + 1) middle (fun other member => stores other (mem_cons_of_mem _ member))
        (fun other member => nonempty other (mem_cons_of_mem _ member)) (loaded.charged resident.last)
      rw [if_neg (Nat.succ_ne_zero index), last, loaded.maps] at later
      rcases later with ⟨⟨chained, within⟩, next, done, there⟩ | ⟨unfit, exit, done⟩
      · refine .inl ⟨⟨⟨apart, chained⟩, resident, within⟩, next, ?_, there.accounted, there.maps,
          there.claimed.trans loaded.claimed, there.remaining.trans loaded.remaining⟩
        simp only [readAs, loadTables, merged, ok_bind]
        exact done
      · refine .inr ⟨fun both => unfit ⟨both.1.2, both.2.2⟩, exit, ?_⟩
        simp only [readAs, loadTables, merged, ok_bind]
        exact done
    · refine .inr ⟨fun both => unfit ⟨both.1.1, both.2.1⟩, exit, ?_⟩
      simp only [readAs, loadTables, merged, ok_bind]
      rfl

def runRows (rows : TableRef → List (K × V)) (run : SortedRun) : List (K × V) := run.tables.flatMap rows

theorem Merging.runs (merging : Merging wrap store previous write) (rows : TableRef → List (K × V)) (runs : List SortedRun) :
    ∀ load, (∀ run ∈ runs, ∀ table ∈ run.tables, table.object.store = store) →
      (∀ run ∈ runs, ∀ table ∈ run.tables, rows table ≠ []) → Charged load.merged →
      Settles ((∀ run ∈ runs, Chained rows none run.tables) ∧
          Forest.Resident write (runs.flatMap (runRows rows)) load.merged.maps)
        load ((runs.flatMap (runRows rows)).foldl write load.merged.maps)
        ((runs.flatMap fun run => planTables run.tables 0).map (readAs wrap rows)) := by
  induction runs with
  | nil =>
    intro load _ _ charged
    refine .inl ⟨⟨by simp, ?_⟩, load, rfl, charged.accounted, rfl, rfl, rfl⟩
    rw [flatMap_nil, Forest.Resident, Budget.within_nil]
    exact charged.resident
  | cons run rest ih =>
    intro load stores nonempty charged
    have first := merging.tables rows run.tables 0 load (stores run mem_cons_self) (nonempty run mem_cons_self) charged
    have both := first.append _ ((∀ other ∈ rest, Chained rows none other.tables) ∧
        Forest.Resident write (rest.flatMap (runRows rows)) ((runRows rows run).foldl write load.merged.maps)) _ _
      ((rest.flatMap (runRows rows)).foldl write ((runRows rows run).foldl write load.merged.maps)) _
      ((rest.flatMap fun run => planTables run.tables 0).map (readAs wrap rows)) (by
        intro middle fit loaded
        have later := ih middle (fun other member => stores other (mem_cons_of_mem _ member))
          (fun other member => nonempty other (mem_cons_of_mem _ member)) (loaded.charged fit.2.last)
        rw [loaded.maps] at later
        exact later)
    rw [flatMap_cons, flatMap_cons, map_append, foldl_append]
    refine both.congr _ _ ?_ _ _ _
    simp only [mem_cons, forall_eq_or_imp, Forest.Resident, Budget.within_append]
    exact and_and_and_comm

end

section

variable {K V : Type} [Ord K]

def Joined (rows : TableRef → List (K × V)) (left right : TableRef) : Prop :=
  ∀ last first, (rows left).getLast? = some last → (rows right).head? = some first → compare last.1 first.1 = .lt

omit [Rkyv] in
theorem chained_iff {rows : TableRef → List (K × V)} {tables : List TableRef} : ∀ previous : Option K,
    Chained rows previous tables ↔
      (∀ key table first, previous = some key → tables.head? = some table → (rows table).head? = some first →
        compare key first.1 = .lt) ∧ tables.IsChain (Joined rows) := by
  induction tables with
  | nil => simp [Chained]
  | cons table rest ih =>
    intro previous
    rw [Chained, ih, isChain_cons]
    simp only [head?_cons, some.injEq, map_eq_some_iff, mem_def, Joined]
    constructor
    · rintro ⟨above, joined, chain⟩
      refine ⟨?_, ?_, chain⟩
      · rintro key _ first same rfl head
        exact above key first same head
      · intro next here last first final head
        exact joined last.1 next first ⟨last, final, rfl⟩ here head
    · rintro ⟨above, joined, chain⟩
      refine ⟨fun key first same head => above key table first same rfl head, ?_, chain⟩
      rintro _ next first ⟨last, final, rfl⟩ here head
      exact joined next here last first final head

section

variable {rows : List (K × V)} (ordered : (rows.map Prod.fst).Pairwise fun a b => compare a b = .lt)

include ordered

omit [Rkyv] in
theorem head_below (first : K × V)
    (head : rows.head? = some first) : ∀ row ∈ rows, row = first ∨ compare first.1 row.1 = .lt := by
  cases rows with
  | nil => cases head
  | cons front rest =>
    cases head
    intro row member
    rcases mem_cons.mp member with rfl | later
    · exact .inl rfl
    · exact .inr (rel_of_pairwise_cons ordered (mem_map_of_mem later))

omit [Rkyv] in
theorem last_above (last : K × V)
    (final : rows.getLast? = some last) : ∀ row ∈ rows, row = last ∨ compare row.1 last.1 = .lt := by
  obtain ⟨front, rfl⟩ := getLast?_eq_some_iff.mp final
  rw [map_append, pairwise_append] at ordered
  intro row member
  rcases mem_append.mp member with earlier | here
  · exact .inr (ordered.2.2 _ (mem_map_of_mem earlier) _ (mem_map_of_mem mem_cons_self))
  · exact .inl (mem_singleton.mp here)

end

omit [Rkyv] in
theorem Chained.ordered [Std.TransOrd K] (rows : TableRef → List (K × V)) (tables : List TableRef) : ∀ previous : Option K,
    Chained rows previous tables → (∀ table ∈ tables, rows table ≠ []) →
    (∀ table ∈ tables, strictlyOrdered (rows table) = true) →
    ((tables.flatMap rows).map Prod.fst).Pairwise (fun a b => compare a b = .lt) ∧
      ∀ key, previous = some key → ∀ row ∈ tables.flatMap rows, compare key row.1 = .lt := by
  induction tables with
  | nil =>
    simp
  | cons table rest ih =>
    rintro previous ⟨above, chained⟩ nonempty sorted
    have here := strictlyOrdered_iff.mp (sorted table mem_cons_self)
    obtain ⟨first, head⟩ := isSome_iff_exists.mp (isSome_head?.mpr (nonempty table mem_cons_self))
    obtain ⟨last, final⟩ := ne_none_iff_exists'.mp (mt getLast?_eq_none_iff.mp (nonempty table mem_cons_self))
    obtain ⟨later, higher⟩ := ih _ chained (fun other member => nonempty other (mem_cons_of_mem _ member))
      (fun other member => sorted other (mem_cons_of_mem _ member))
    have beyond : ∀ row ∈ rows table, ∀ next ∈ rest.flatMap rows, compare row.1 next.1 = .lt := by
      intro row member next there
      have upper := higher last.1 (by rw [final]; rfl) next there
      rcases last_above here last final row member with rfl | less
      · exact upper
      · exact Std.TransCmp.lt_trans less upper
    have started : ∀ key, previous = some key → ∀ row ∈ rows table, compare key row.1 = .lt := by
      intro key same row member
      have under := above key first same head
      rcases head_below here first head row member with rfl | less
      · exact under
      · exact Std.TransCmp.lt_trans under less
    rw [flatMap_cons, map_append, pairwise_append]
    refine ⟨⟨here, later, ?_⟩, ?_⟩
    · intro a left b right
      obtain ⟨row, member, rfl⟩ := mem_map.mp left
      obtain ⟨next, there, rfl⟩ := mem_map.mp right
      exact beyond row member next there
    · intro key same row member
      rcases mem_append.mp member with mine | others
      · exact started key same row mine
      · exact Std.TransCmp.lt_trans (started key same last (mem_of_getLast? final))
          (beyond last (mem_of_getLast? final) row others)

end

theorem directory_merging : Merging DecodedTable.directory .directory BaseLoad.previousDirectory Forest.writeDirectory where
  step := by
    intro load source rows first charged sameStore head
    cases apart : overlaps (if source.startsRun then none else load.previousDirectory) first with
    | true =>
      simp [mergeTable, require, sameStore, mergeDirectoryTable, head, expect, apart]
    | false =>
      rcases mergeDirectoryRows_spec rows load.merged charged with ⟨resident, merged, done, accounted, maps⟩ | ⟨exceeds, done⟩
      · refine .inl ⟨rfl, resident, { load with merged, previousDirectory := rows.getLast?.map Prod.fst }, ?_,
          ⟨accounted, maps, rfl, rfl⟩, rfl⟩
        simp [mergeTable, require, sameStore, mergeDirectoryTable, head, expect, apart, done]
      · refine .inr ⟨fun both => exceeds both.2, residentBound, ?_⟩
        simp [mergeTable, require, sameStore, mergeDirectoryTable, head, expect, apart, done]

theorem ledger_merging : Merging DecodedTable.ledger .ledger BaseLoad.previousLedger Forest.writeLedger where
  step := by
    intro load source rows first charged sameStore head
    cases apart : overlaps (if source.startsRun then none else load.previousLedger) first with
    | true =>
      simp [mergeTable, require, sameStore, mergeLedgerTable, head, expect, apart]
    | false =>
      rcases mergeLedgerRows_spec rows load.merged charged with ⟨resident, merged, done, accounted, maps⟩ | ⟨exceeds, done⟩
      · refine .inl ⟨rfl, resident, { load with merged, previousLedger := rows.getLast?.map Prod.fst }, ?_,
          ⟨accounted, maps, rfl, rfl⟩, rfl⟩
        simp [mergeTable, require, sameStore, mergeLedgerTable, head, expect, apart, done]
      · refine .inr ⟨fun both => exceeds both.2, residentBound, ?_⟩
        simp [mergeTable, require, sameStore, mergeLedgerTable, head, expect, apart, done]

section

variable {K V W : Type} [DecidableEq K]

def newestRow (rows : TableRef → List (K × V)) (tree : TreeVersion) (key : K) : Option V :=
  tree.runs.findSome? fun run => (runRows rows run).lookup key

def planRows (rows : TableRef → List (K × V)) (tree : TreeVersion) : List (K × V) := tree.runs.reverse.flatMap (runRows rows)

omit [Rkyv] in
theorem lookup_cells (cell : V → W) (rows : List (K × V)) (key : K) :
    (rows.map fun row => (row.1, cell row.2)).lookup key = (rows.lookup key).map cell := by
  induction rows with
  | nil => rfl
  | cons row rest ih =>
    obtain ⟨other, value⟩ := row
    simp only [map_cons, lookup_cons, ih]
    split <;> rfl

variable [Ord K] [Std.TransOrd K] [Std.LawfulEqOrd K]

omit [Rkyv] in
theorem get_plan (cell : V → Option W) (rows : TableRef → List (K × V)) (tree : TreeVersion)
    (ordered : ∀ run ∈ tree.runs, ((runRows rows run).map Prod.fst).Pairwise fun a b => compare a b = .lt) (key : K) :
    (OrdMap.patch ((planRows rows tree).map fun row => (row.1, cell row.2)) ∅)[key]? = (newestRow rows tree key).bind cell := by
  have cells : (planRows rows tree).map (fun row => (row.1, cell row.2)) =
      (tree.runs.map fun run => (runRows rows run).map fun row => (row.1, cell row.2)).reverse.flatten := by
    rw [planRows, map_flatMap, flatMap_def, map_reverse]
  have distinct : ∀ run ∈ tree.runs.map (fun run => (runRows rows run).map fun row => (row.1, cell row.2)),
      (run.map Prod.fst).Nodup := by
    intro cellsOf member
    obtain ⟨run, here, rfl⟩ := mem_map.mp member
    have strict := nodup_of_ordered (ordered run here)
    simpa [List.map_map, Function.comp_def] using strict
  rw [cells, get_patch_runs distinct, newest, newestRow, findSome?_map]
  simp only [Function.comp_def, lookup_cells]
  induction tree.runs with
  | nil => rfl
  | cons run older ih =>
    simp only [findSome?_cons]
    cases (runRows rows run).lookup key with
    | none => exact ih
    | some value => rfl

end

theorem foldl_writeDirectory (rows : List (StreamPath × DirectoryEntry)) : ∀ maps : Forest,
    rows.foldl Forest.writeDirectory maps = ⟨OrdMap.patch (directoryCells rows) maps.directory, maps.ledger⟩ := by
  induction rows with
  | nil => exact fun _ => rfl
  | cons row rest ih =>
    intro maps
    rw [foldl_cons, ih]
    rfl

theorem foldl_writeLedger (rows : List (StreamUid × LedgerCell)) : ∀ maps : Forest,
    rows.foldl Forest.writeLedger maps = ⟨maps.directory, OrdMap.patch (ledgerCells rows) maps.ledger⟩ := by
  induction rows with
  | nil => exact fun _ => rfl
  | cons row rest ih =>
    intro maps
    rw [foldl_cons, ih]
    rfl

structure TableRows where
  directory : TableRef → List (StreamPath × DirectoryEntry)
  ledger : TableRef → List (StreamUid × LedgerCell)

namespace TableRows

def decoded (rows : TableRows) (table : TableRef) : DecodedTable :=
  if table.object.store = .ledger then .ledger (rows.ledger table) else .directory (rows.directory table)

structure Proper (rows : TableRows) (sealed : Seal) : Prop where
  directoryNonempty : ∀ table ∈ sealed.directory.tables, rows.directory table ≠ []
  directoryOrdered : ∀ table ∈ sealed.directory.tables, strictlyOrdered (rows.directory table) = true
  ledgerNonempty : ∀ table ∈ sealed.ledger.tables, rows.ledger table ≠ []
  ledgerOrdered : ∀ table ∈ sealed.ledger.tables, strictlyOrdered (rows.ledger table) = true

def directoryMaps (rows : TableRows) (sealed : Seal) : Forest :=
  ⟨OrdMap.patch (directoryCells (planRows rows.directory sealed.directory)) ∅, ∅⟩

def maps (rows : TableRows) (sealed : Seal) : Forest :=
  ⟨OrdMap.patch (directoryCells (planRows rows.directory sealed.directory)) ∅,
    OrdMap.patch (ledgerCells (planRows rows.ledger sealed.ledger)) ∅⟩

def Overlapping (rows : TableRows) (sealed : Seal) : Prop :=
  (∃ run ∈ sealed.directory.runs, ¬ run.tables.IsChain (Joined rows.directory)) ∨
    ∃ run ∈ sealed.ledger.runs, ¬ run.tables.IsChain (Joined rows.ledger)

-- Some prefix of the rows is charged more than 16 GiB: 525 bytes for a path and
-- 1035 for a record.
def Exceeding (rows : TableRows) (sealed : Seal) : Prop :=
  (∃ first, first <+: planRows rows.directory sealed.directory ∧
    16 * 2 ^ 30 < 525 * (OrdMap.patch (directoryCells first) ∅).size) ∨
  ∃ first, first <+: planRows rows.ledger sealed.ledger ∧
    16 * 2 ^ 30 < 525 * (OrdMap.patch (directoryCells (planRows rows.directory sealed.directory)) ∅).size +
      1035 * (OrdMap.patch (ledgerCells first) ∅).size

structure Fits (rows : TableRows) (sealed : Seal) : Prop where
  directoryChained : ∀ run ∈ sealed.directory.runs, run.tables.IsChain (Joined rows.directory)
  ledgerChained : ∀ run ∈ sealed.ledger.runs, run.tables.IsChain (Joined rows.ledger)
  directoryResident : Forest.Resident Forest.writeDirectory (planRows rows.directory sealed.directory) Forest.empty
  ledgerResident : Forest.Resident Forest.writeLedger (planRows rows.ledger sealed.ledger) (rows.directoryMaps sealed)

end TableRows

theorem TableRows.decoded_directory (rows : TableRows) (sealed : Seal) (legal : sealed.Legal) (table : TableRef)
    (member : table ∈ sealed.directory.tables) : rows.decoded table = .directory (rows.directory table) := by
  rw [TableRows.decoded, legal.directoryStore table member, if_neg (by decide)]

theorem TableRows.decoded_ledger (rows : TableRows) (sealed : Seal) (legal : sealed.Legal) (table : TableRef)
    (member : table ∈ sealed.ledger.tables) : rows.decoded table = .ledger (rows.ledger table) := by
  rw [TableRows.decoded, legal.ledgerStore table member, if_pos rfl]

omit [Rkyv] in
theorem mem_treeSources {tree : TreeVersion} {source : PlannedTable} (member : source ∈ treeSources tree) :
    source.table ∈ tree.tables := by
  obtain ⟨run, inTree, inRun⟩ := mem_flatMap.mp member
  obtain ⟨⟨table, index⟩, here, rfl⟩ := mem_map.mp inRun
  refine mem_flatMap.mpr ⟨run, mem_reverse.mp inTree, ?_⟩
  exact fst_mem_of_mem_zipIdx here

omit [Rkyv] in
theorem planBootstrapSources_sources {sealed : Seal} {sources : List PlannedTable}
    (planned : planBootstrapSources sealed = .ok sources) : sources = treeSources sealed.directory ++ treeSources sealed.ledger := by
  rw [planBootstrapSources] at planned
  split at planned
  · cases planned
  · exact (Except.ok.inj planned).symm

theorem residency_empty : Forest.empty.residency = 0 := by
  simp [residency, empty]

theorem accounted_empty : Accounted MergedRows.empty := by
  simp [Accounted, MergedRows.empty]

theorem Charged.empty : Charged MergedRows.empty := by
  refine ⟨accounted_empty, ?_⟩
  change Forest.empty.residency ≤ _
  rw [residency_empty]
  exact Nat.zero_le _

theorem Merging.tree {K V : Type} [Ord K] {wrap : List (K × V) → DecodedTable} {store : StoreKind} {previous : BaseLoad → Option K}
    {write : Forest → K × V → Forest} (merging : Merging wrap store previous write) (rows : TableRef → List (K × V))
    (tree : TreeVersion) (load : BaseLoad) (stores : ∀ table ∈ tree.tables, table.object.store = store)
    (nonempty : ∀ table ∈ tree.tables, rows table ≠ []) (charged : Charged load.merged) :
    Settles ((∀ run ∈ tree.runs, run.tables.IsChain (Joined rows)) ∧ Forest.Resident write (planRows rows tree) load.merged.maps)
      load ((planRows rows tree).foldl write load.merged.maps) ((treeSources tree).map (readAs wrap rows)) := by
  have settled := merging.runs rows tree.runs.reverse load
    (fun run member table here => stores table (mem_flatMap.mpr ⟨run, mem_reverse.mp member, here⟩))
    (fun run member table here => nonempty table (mem_flatMap.mpr ⟨run, mem_reverse.mp member, here⟩)) charged
  refine settled.congr _ _ ?_ _ _ _
  simp [chained_iff, reduceCtorEq, planRows]

theorem plan_settles {rows : TableRows} {sealed : Seal} (legal : sealed.Legal) (proper : rows.Proper sealed) (load : BaseLoad)
    (start : load.merged = MergedRows.empty) :
    Settles (rows.Fits sealed) load (rows.maps sealed)
      ((treeSources sealed.directory ++ treeSources sealed.ledger).map fun source => (source, rows.decoded source.table)) := by
  have directories : (treeSources sealed.directory).map (fun source => (source, rows.decoded source.table)) =
      (treeSources sealed.directory).map (readAs DecodedTable.directory rows.directory) := by
    refine map_congr_left fun source member => ?_
    rw [rows.decoded_directory sealed legal _ (mem_treeSources member), readAs]
  have ledgers : (treeSources sealed.ledger).map (fun source => (source, rows.decoded source.table)) =
      (treeSources sealed.ledger).map (readAs DecodedTable.ledger rows.ledger) := by
    refine map_congr_left fun source member => ?_
    rw [rows.decoded_ledger sealed legal _ (mem_treeSources member), readAs]
  have empty : load.merged.maps = empty := by rw [start]; rfl
  have first := directory_merging.tree rows.directory sealed.directory load legal.directoryStore proper.directoryNonempty
    (by rw [start]; exact .empty)
  rw [empty, foldl_writeDirectory] at first
  have both := first.append _ ((∀ run ∈ sealed.ledger.runs, run.tables.IsChain (Joined rows.ledger)) ∧
      Forest.Resident writeLedger (planRows rows.ledger sealed.ledger) (rows.directoryMaps sealed)) _ _ (rows.maps sealed) _
    ((treeSources sealed.ledger).map (readAs DecodedTable.ledger rows.ledger)) (by
      intro middle fit loaded
      have within := fit.2.last
      rw [foldl_writeDirectory] at within
      have second := ledger_merging.tree rows.ledger sealed.ledger middle legal.ledgerStore proper.ledgerNonempty
        (loaded.charged within)
      rw [loaded.maps, foldl_writeLedger] at second
      exact second)
  rw [map_append, directories, ledgers]
  refine both.congr _ _ ⟨?_, ?_⟩ _ _ _
  · rintro ⟨⟨directoryChained, directoryResident⟩, ledgerChained, ledgerResident⟩
    exact ⟨directoryChained, ledgerChained, directoryResident, ledgerResident⟩
  · intro fit
    exact ⟨⟨fit.directoryChained, fit.directoryResident⟩, fit.ledgerChained, fit.ledgerResident⟩

theorem accounted_iff (merged : MergedRows) :
    Accounted merged ↔ merged.residentBytes = 525 * merged.directory.size + 1035 * merged.ledger.size := by
  rw [Nat.mul_comm 525, Nat.mul_comm 1035]
  rfl

theorem within_iff (maps : Forest) : maps.residency ≤ PARTITION_RESIDENT_LOGICAL_BYTES_MAX_V2 ↔
    ¬ 16 * 2 ^ 30 < 525 * maps.directory.size + 1035 * maps.ledger.size := by
  rw [Nat.mul_comm 525, Nat.mul_comm 1035, Nat.not_lt]
  rfl

theorem TableRows.not_overlapping_iff (rows : TableRows) (sealed : Seal) :
    ¬ rows.Overlapping sealed ↔ (∀ run ∈ sealed.directory.runs, run.tables.IsChain (Joined rows.directory)) ∧
      ∀ run ∈ sealed.ledger.runs, run.tables.IsChain (Joined rows.ledger) := by
  simp [Overlapping]

theorem TableRows.fits_iff (rows : TableRows) (sealed : Seal) :
    rows.Fits sealed ↔ ¬ (rows.Overlapping sealed ∨ rows.Exceeding sealed) := by
  have resident : ¬ rows.Exceeding sealed ↔
      Forest.Resident writeDirectory (planRows rows.directory sealed.directory) empty ∧
      Forest.Resident writeLedger (planRows rows.ledger sealed.ledger) (rows.directoryMaps sealed) := by
    simp only [Exceeding, not_or, not_exists, not_and, Forest.Resident, Budget.Within, foldl_writeDirectory, foldl_writeLedger,
      within_iff]
    simp [empty, directoryMaps]
  rw [not_or, rows.not_overlapping_iff sealed, resident]
  constructor
  · intro fits
    exact ⟨⟨fits.directoryChained, fits.ledgerChained⟩, fits.directoryResident, fits.ledgerResident⟩
  · rintro ⟨⟨directoryChained, ledgerChained⟩, directoryResident, ledgerResident⟩
    exact ⟨directoryChained, ledgerChained, directoryResident, ledgerResident⟩

omit [Rkyv] in
theorem chains_ordered {K V : Type} [Ord K] [Std.TransOrd K] {rows : TableRef → List (K × V)} {tree : TreeVersion}
    (nonempty : ∀ table ∈ tree.tables, rows table ≠ []) (sorted : ∀ table ∈ tree.tables, strictlyOrdered (rows table) = true)
    (chained : ∀ run ∈ tree.runs, run.tables.IsChain (Joined rows)) :
    ∀ run ∈ tree.runs, ((runRows rows run).map Prod.fst).Pairwise fun a b => compare a b = .lt := by
  intro run member
  have chain : Chained rows none run.tables := (chained_iff none).mpr ⟨by simp, chained run member⟩
  exact (chain.ordered rows run.tables none (fun table here => nonempty table (mem_flatMap.mpr ⟨run, member, here⟩))
    (fun table here => sorted table (mem_flatMap.mpr ⟨run, member, here⟩))).1

theorem TableRows.get_maps (rows : TableRows) (sealed : Seal) (proper : rows.Proper sealed)
    (directoryChained : ∀ run ∈ sealed.directory.runs, run.tables.IsChain (Joined rows.directory))
    (ledgerChained : ∀ run ∈ sealed.ledger.runs, run.tables.IsChain (Joined rows.ledger)) :
    (∀ path : StreamPath, (rows.maps sealed).directory[path]? = newestRow rows.directory sealed.directory path) ∧
      ∀ uid : StreamUid, (rows.maps sealed).ledger[uid]? =
        (newestRow rows.ledger sealed.ledger uid).bind LedgerCell.toOption := by
  constructor
  · intro path
    have found := get_plan some rows.directory sealed.directory
      (chains_ordered proper.directoryNonempty proper.directoryOrdered directoryChained) path
    rw [bind_fun_some] at found
    exact found
  · intro uid
    exact get_plan LedgerCell.toOption rows.ledger sealed.ledger
      (chains_ordered proper.ledgerNonempty proper.ledgerOrdered ledgerChained) uid

def Readable (table : TableRef) : DecodedTable → Prop
  | .directory rows => table.object.store = .directory ∧ rows ≠ [] ∧ strictlyOrdered rows = true
  | .ledger rows => table.object.store = .ledger ∧ rows ≠ [] ∧ strictlyOrdered rows = true

theorem TableRows.readable (rows : TableRows) (sealed : Seal) (legal : sealed.Legal) (proper : rows.Proper sealed)
    (source : PlannedTable) (member : source ∈ treeSources sealed.directory ++ treeSources sealed.ledger) :
    Readable source.table (rows.decoded source.table) := by
  rcases mem_append.mp member with here | here
  · have selected := mem_treeSources here
    rw [rows.decoded_directory sealed legal _ selected]
    exact ⟨legal.directoryStore _ selected, proper.directoryNonempty _ selected, proper.directoryOrdered _ selected⟩
  · have selected := mem_treeSources here
    rw [rows.decoded_ledger sealed legal _ selected]
    exact ⟨legal.ledgerStore _ selected, proper.ledgerNonempty _ selected, proper.ledgerOrdered _ selected⟩

theorem Merging.charged {K V : Type} [Ord K] {wrap : List (K × V) → DecodedTable} {store : StoreKind}
    {previous : BaseLoad → Option K} {write : Forest → K × V → Forest} (merging : Merging wrap store previous write)
    (load : BaseLoad) (source : PlannedTable) (rows : List (K × V)) (sameStore : source.table.object.store = store)
    (nonempty : rows ≠ []) (charged : Charged load.merged) :
    ∃ outcome, mergeTable load source (wrap rows) = .ok outcome ∧ ∀ next, outcome = .ok next →
      Charged next.merged ∧ next.claimed = load.claimed ∧ next.remaining = load.remaining := by
  obtain ⟨first, tail, rfl⟩ := exists_cons_of_ne_nil nonempty
  rcases merging.step load source (first :: tail) first charged sameStore rfl with
    ⟨_, resident, next, merged, loaded, _⟩ | ⟨_, exit, merged⟩
  · refine ⟨_, merged, ?_⟩
    rintro _ ⟨⟩
    exact ⟨loaded.charged resident.last, loaded.claimed, loaded.remaining⟩
  · refine ⟨_, merged, ?_⟩
    rintro _ ⟨⟩

theorem mergeTable_readable (load : BaseLoad) (source : PlannedTable) (decoded : DecodedTable)
    (readable : Readable source.table decoded) (charged : Charged load.merged) :
    ∃ outcome, mergeTable load source decoded = .ok outcome ∧ ∀ next, outcome = .ok next →
      Charged next.merged ∧ next.claimed = load.claimed ∧ next.remaining = load.remaining := by
  cases decoded with
  | directory rows => exact directory_merging.charged load source rows readable.1 readable.2.1 charged
  | ledger rows => exact ledger_merging.charged load source rows readable.1 readable.2.1 charged

theorem loadTables_charged (reads : List (PlannedTable × DecodedTable)) (readable : ∀ read ∈ reads, Readable read.1.table read.2) :
    ∀ load next, Charged load.merged → loadTables reads load = .ok (.ok next) → Charged next.merged := by
  induction reads with
  | nil =>
    rintro load _ charged ⟨⟩
    exact charged
  | cons read rest ih =>
    obtain ⟨source, decoded⟩ := read
    intro load next charged done
    obtain ⟨outcome, merged, kept⟩ := mergeTable_readable load source decoded (readable _ mem_cons_self) charged
    rw [loadTables, merged, ok_bind] at done
    cases outcome with
    | error exit => cases done
    | ok middle =>
      exact ih (fun other member => readable other (mem_cons_of_mem _ member)) middle next (kept middle rfl).1 done

theorem mergeTable_planned (load : BaseLoad) (claimed : ClaimedBootstrap) (remaining : List PlannedTable) (source : PlannedTable)
    (decoded : DecodedTable) : mergeTable { load with claimed, remaining } source decoded =
      (mergeTable load source decoded).map (Except.map fun next => { next with claimed, remaining }) := by
  cases decoded with
  | directory rows =>
    simp only [mergeTable]
    cases require (source.table.object.store = .directory) "a typed Directory completion matches its requested table store" with
    | error message => rfl
    | ok _ =>
      cases mergeDirectoryTable load.merged (if source.startsRun then none else load.previousDirectory) rows with
      | error message => rfl
      | ok outcome => cases outcome <;> rfl
  | ledger rows =>
    simp only [mergeTable]
    cases require (source.table.object.store = .ledger) "a typed Ledger completion matches its requested table store" with
    | error message => rfl
    | ok _ =>
      cases mergeLedgerTable load.merged (if source.startsRun then none else load.previousLedger) rows with
      | error message => rfl
      | ok outcome => cases outcome <;> rfl

theorem mergeTable_kept {load : BaseLoad} {source : PlannedTable} {decoded : DecodedTable} {next : BaseLoad}
    (merged : mergeTable load source decoded = .ok (.ok next)) : next.claimed = load.claimed ∧ next.remaining = load.remaining := by
  have same := mergeTable_planned load load.claimed load.remaining source decoded
  rw [merged] at same
  have kept := Except.ok.inj (Except.ok.inj same)
  rw [kept]
  exact ⟨rfl, rfl⟩

def handleAll : List BootstrapEvent → Transition → Checked Transition
  | [], last => pure last
  | event :: rest, last => do handleAll rest (← handle last.1 event)

def tableReads (reads : List (PlannedTable × DecodedTable)) : List BootstrapEvent :=
  reads.map fun read => .tableRead read.1.table read.2

theorem loadTables_handled {reads : List (PlannedTable × DecodedTable)} : ∀ load outcome, loadTables reads load = .ok outcome →
    match outcome with
    | .ok final => handleAll (tableReads reads) (readNextTable { load with remaining := reads.map Prod.fst }) =
        .ok (readNextTable { final with remaining := [] })
    | .error failure => ∃ first, first <+: tableReads reads ∧
        handleAll first (readNextTable { load with remaining := reads.map Prod.fst }) = .ok (exit failure) := by
  induction reads with
  | nil =>
    rintro load _ ⟨⟩
    rfl
  | cons read rest ih =>
    obtain ⟨source, decoded⟩ := read
    intro load outcome done
    have handled : handle (readNextTable { load with remaining := source :: rest.map Prod.fst }).1
        (.tableRead source.table decoded) = (mergeTable load source decoded).bind fun
          | .ok next => .ok (readNextTable { next with remaining := rest.map Prod.fst })
          | .error failure => .ok (exit failure) := by
      change (do
        require (source.table = source.table) "a table read completion retains its exact issued identity"
        match ← mergeTable { load with remaining := rest.map Prod.fst } source decoded with
        | .ok load => pure (readNextTable load)
        | .error error => pure (exit error)) = _
      rw [mergeTable_planned load load.claimed, require, if_pos rfl]
      cases merged : mergeTable load source decoded with
      | error message => rfl
      | ok outcome =>
        cases outcome with
        | error failure => rfl
        | ok next =>
          rw [← (mergeTable_kept merged).1]
          rfl
    obtain ⟨one, merged, done⟩ := bind_ok done
    rw [merged] at handled
    cases one with
    | error failure =>
      cases done
      refine ⟨[.tableRead source.table decoded], ⟨tableReads rest, rfl⟩, ?_⟩
      rw [map_cons, handleAll, handled]
      rfl
    | ok next =>
      have later := ih next outcome done
      cases outcome with
      | ok final =>
        simp only [tableReads, map_cons, handleAll, handled] at later ⊢
        exact later
      | error failure =>
        obtain ⟨first, initial, ended⟩ := later
        refine ⟨.tableRead source.table decoded :: first, cons_prefix_cons.mpr ⟨rfl, initial⟩, ?_⟩
        simp only [map_cons, handleAll, handled]
        exact ended

end Bootstrap

end StromDB
