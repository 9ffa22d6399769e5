import StromDB.Lib.OrdMap

-- Rows of cells applied to an ordered map: a cell with a value writes it and an
-- empty cell removes the key.
namespace OrdMap

variable {K V : Type} [Ord K] [Std.TransOrd K]

def write (map : OrdMap K V) (row : K × Option V) : OrdMap K V :=
  match row.2 with
  | some value => map.insert row.1 value
  | none => map.erase row.1

def patch (rows : List (K × Option V)) (map : OrdMap K V) : OrdMap K V := rows.foldl write map

@[simp] theorem patch_nil (map : OrdMap K V) : patch [] map = map := rfl

@[simp] theorem patch_cons (row : K × Option V) (rows : List (K × Option V)) (map : OrdMap K V) :
    patch (row :: rows) map = patch rows (write map row) := rfl

theorem patch_append (first second : List (K × Option V)) (map : OrdMap K V) :
    patch (first ++ second) map = patch second (patch first map) := List.foldl_append

theorem toList_keys_ordered (map : OrdMap K V) : (map.toList.map Prod.fst).Pairwise fun a b => compare a b = .lt := by
  have ordered := Std.ExtTreeMap.ordered_keys_toList (t := map)
  exact List.pairwise_map.mpr ordered

section

variable [DecidableEq V] (base next : OrdMap K V)

theorem diffAt_eq_some (key : K) (item : DiffItem K V) (found : diffAt base next key = some item) :
    item.key = key ∧ item.cell = next[key]? ∧ base[key]? ≠ next[key]? := by
  unfold diffAt at found
  split at found
  case h_1 => cases found
  case h_2 value before after =>
    cases found
    exact ⟨rfl, after.symm, by simp [before, after]⟩
  case h_3 value before after =>
    cases found
    exact ⟨rfl, after.symm, by simp [before, after]⟩
  case h_4 old new before after =>
    split at found
    case isTrue => cases found
    case isFalse different =>
      cases found
      exact ⟨rfl, after.symm, by simpa [before, after] using different⟩

theorem diffAt_remove (query key : K) (value : V)
    (found : diffAt base next query = some (.remove key value)) : base[key]? = some value := by
  unfold diffAt at found
  split at found
  case h_3 old before after =>
    cases found
    exact before
  case h_4 old new before after =>
    split at found
    all_goals cases found
  all_goals cases found

theorem diffAt_eq_none (key : K) : diffAt base next key = none ↔ base[key]? = next[key]? := by
  unfold diffAt
  split
  case h_1 before after => simp [before, after]
  case h_2 before after => simp [before, after]
  case h_3 before after => simp [before, after]
  case h_4 before after => split <;> simp_all

end

variable [Std.LawfulEqOrd K]

theorem mem_union_keys (base next : OrdMap K V) (key : K) : key ∈ (base ∪ next).keys ↔ base[key]?.isSome ∨ next[key]?.isSome := by
  rw [Std.ExtTreeMap.mem_keys, Std.ExtTreeMap.mem_union_iff, ← Std.ExtTreeMap.isSome_getElem?_iff_mem,
    ← Std.ExtTreeMap.isSome_getElem?_iff_mem]

theorem get_write [DecidableEq K] (map : OrdMap K V) (row : K × Option V) (query : K) :
    (write map row)[query]? = if row.1 = query then row.2 else map[query]? := by
  obtain ⟨key, cell⟩ := row
  cases cell with
  | none => exact get_erase map key query
  | some value => exact get_insert map key query value

theorem get_patch_absent {rows : List (K × Option V)} {query : K} (absent : ∀ row ∈ rows, row.1 ≠ query) :
    ∀ map : OrdMap K V, (patch rows map)[query]? = map[query]? := by
  classical
  induction rows with
  | nil => intro map; rfl
  | cons row rest ih =>
    intro map
    rw [patch_cons, ih (fun other member => absent other (List.mem_cons_of_mem _ member)), get_write,
      if_neg (absent row List.mem_cons_self)]

theorem get_patch_last (first rest : List (K × Option V)) (query : K) (cell : Option V) (map : OrdMap K V)
    (absent : ∀ row ∈ rest, row.1 ≠ query) : (patch (first ++ (query, cell) :: rest) map)[query]? = cell := by
  classical
  rw [patch_append, patch_cons, get_patch_absent absent, get_write, if_pos rfl]

theorem get_patch_mem {rows : List (K × Option V)} (distinct : (rows.map Prod.fst).Nodup) (row : K × Option V)
    (member : row ∈ rows) (map : OrdMap K V) : (patch rows map)[row.1]? = row.2 := by
  obtain ⟨first, rest, rfl⟩ := List.append_of_mem member
  apply get_patch_last
  intro other later same
  simp only [List.map_append, List.map_cons, List.nodup_append, List.nodup_cons, List.mem_map] at distinct
  exact distinct.2.1.1 ⟨other, later, same⟩

theorem patch_ext (rows : List (K × Option V)) (distinct : (rows.map Prod.fst).Nodup) (base next : OrdMap K V)
    (written : ∀ row ∈ rows, next[row.1]? = row.2)
    (kept : ∀ key, (∀ row ∈ rows, row.1 ≠ key) → base[key]? = next[key]?) : patch rows base = next := by
  apply Std.ExtTreeMap.ext_getElem?
  intro key
  by_cases found : ∃ row ∈ rows, row.1 = key
  · obtain ⟨row, member, rfl⟩ := found
    rw [get_patch_mem distinct row member, written row member]
  · have absent : ∀ row ∈ rows, row.1 ≠ key := fun row member same => found ⟨row, member, same⟩
    rw [get_patch_absent absent, kept key absent]

theorem nodup_keys (map : OrdMap K V) : map.keys.Nodup := by
  refine (Std.ExtTreeMap.distinct_keys (t := map)).imp ?_
  rintro a b different rfl
  simp at different

theorem mem_keys_iff {map : OrdMap K V} {key : K} : key ∈ map.keys ↔ map[key]?.isSome := by
  rw [Std.ExtTreeMap.mem_keys, Std.ExtTreeMap.isSome_getElem?_iff_mem]

theorem size_le_of_keys {small large : OrdMap K V} (kept : ∀ key : K, small[key]?.isSome → large[key]?.isSome) :
    small.size ≤ large.size := by
  rw [← Std.ExtTreeMap.length_keys, ← Std.ExtTreeMap.length_keys]
  refine (List.Nodup.subperm (nodup_keys small) ?_).length_le
  intro key member
  exact mem_keys_iff.mpr (kept key (mem_keys_iff.mp member))

theorem size_le_of_numbered {map : OrdMap K V} {number : K → Nat} (injective : ∀ a b, number a = number b → a = b) (n : Nat)
    (positive : ∀ key, 0 < number key) (bounded : ∀ key : K, map[key]?.isSome → number key ≤ n) : map.size ≤ n := by
  rw [← Std.ExtTreeMap.length_keys, ← List.length_map (f := number)]
  have distinct : (map.keys.map number).Nodup := List.Nodup.map (fun a b same => injective a b same) (nodup_keys map)
  have inside : map.keys.map number ⊆ List.range' 1 n := by
    intro value member
    obtain ⟨key, here, rfl⟩ := List.mem_map.mp member
    have bound := bounded key (mem_keys_iff.mp here)
    have least := positive key
    exact List.mem_range'_1.mpr ⟨least, by omega⟩
  have fits := (List.Nodup.subperm distinct inside).length_le
  rwa [List.length_range'] at fits

theorem isSome_patch_values {rows : List (K × Option V)} (values : ∀ row ∈ rows, row.2.isSome) (key : K) :
    ∀ map : OrdMap K V, map[key]?.isSome → (patch rows map)[key]?.isSome := by
  classical
  induction rows with
  | nil => exact fun _ here => here
  | cons row rest ih =>
    intro map here
    refine ih (fun other member => values other (List.mem_cons_of_mem _ member)) _ ?_
    rw [get_write]
    split
    · exact values row List.mem_cons_self
    · exact here

section

variable [DecidableEq V]

theorem mem_diff_keys [Differ] (base next : OrdMap K V) (key : K) :
    key ∈ (diff base next).map DiffItem.key ↔ base[key]? ≠ next[key]? := by
  constructor
  · intro member
    obtain ⟨item, here, rfl⟩ := List.mem_map.mp member
    exact (diffAt_eq_some base next _ item ((mem_diff base next item).mp here)).2.2
  · intro differs
    cases found : diffAt base next key with
    | none => exact absurd ((diffAt_eq_none base next key).mp found) differs
    | some item =>
      obtain ⟨rfl, _⟩ := diffAt_eq_some base next key item found
      exact List.mem_map_of_mem ((mem_diff base next item).mpr found)

omit [Std.TransOrd K] [DecidableEq V] in
theorem nodup_of_ordered {keys : List K} (ordered : keys.Pairwise fun a b => compare a b = .lt) : keys.Nodup := by
  refine ordered.imp ?_
  rintro a b less rfl
  simp at less

theorem patch_diff [Differ] (base next : OrdMap K V) : patch ((diff base next).map fun item => (item.key, item.cell)) base = next := by
  apply patch_ext
  · have distinct := nodup_of_ordered (diff_keys_ordered base next)
    simpa [List.map_map, Function.comp_def] using distinct
  · intro row member
    obtain ⟨item, here, rfl⟩ := List.mem_map.mp member
    exact (diffAt_eq_some base next _ item ((mem_diff base next item).mp here)).2.1.symm
  · intro key absent
    by_contra differs
    obtain ⟨item, member, same⟩ := List.mem_map.mp ((mem_diff_keys base next key).mpr differs)
    exact absent _ (List.mem_map_of_mem (f := fun item => (item.key, item.cell)) member) same

-- The difference read off both maps: the law can be met.
def changes (base next : OrdMap K V) : List (DiffItem K V) := (base ∪ next).keys.filterMap (diffAt base next)

theorem mem_changes (base next : OrdMap K V) (item : DiffItem K V) :
    item ∈ changes base next ↔ diffAt base next item.key = some item := by
  constructor
  · intro member
    obtain ⟨key, _, found⟩ := List.mem_filterMap.mp member
    rw [(diffAt_eq_some base next key item found).1]
    exact found
  intro found
  refine List.mem_filterMap.mpr ⟨item.key, ?_, found⟩
  rw [mem_union_keys]
  have differs := (diffAt_eq_some base next _ item found).2.2
  cases before : base[item.key]? with
  | some _ => exact .inl rfl
  | none =>
    cases after : next[item.key]? with
    | some _ => exact .inr rfl
    | none => exact absurd (before.trans after.symm) differs

omit [Std.LawfulEqOrd K] in
theorem changes_keys_ordered (base next : OrdMap K V) :
    ((changes base next).map DiffItem.key).Pairwise fun a b => compare a b = .lt := by
  have sublist : ((changes base next).map DiffItem.key).Sublist (base ∪ next).keys := by
    rw [changes, List.map_filterMap]
    generalize (base ∪ next).keys = keys
    induction keys with
    | nil => exact .slnil
    | cons key rest ih =>
      cases found : diffAt base next key with
      | none => simpa [List.filterMap_cons, found] using ih.cons key
      | some item =>
        have same := (diffAt_eq_some base next key item found).1
        simpa [List.filterMap_cons, found, same] using ih.cons_cons key
  exact (Std.ExtTreeMap.ordered_keys (t := base ∪ next)).sublist sublist

abbrev exactDiffer : Differ where
  diff := changes
  mem_diff := mem_changes
  diff_keys_ordered := changes_keys_ordered

end

theorem patch_toList (map : OrdMap K V) : patch (map.toList.map fun row => (row.1, some row.2)) ∅ = map := by
  apply patch_ext
  · have distinct := nodup_of_ordered (toList_keys_ordered map)
    simpa [List.map_map, Function.comp_def] using distinct
  · intro row member
    obtain ⟨⟨key, value⟩, here, rfl⟩ := List.mem_map.mp member
    exact Std.ExtTreeMap.mem_toList_iff_getElem?_eq_some.mp here
  · intro key absent
    cases found : map[key]? with
    | none => simp
    | some value =>
      have here : (key, value) ∈ map.toList := Std.ExtTreeMap.mem_toList_iff_getElem?_eq_some.mpr found
      exact absurd rfl (absent _ (List.mem_map_of_mem (f := fun row : K × V => (row.1, some row.2)) here))

def newest [DecidableEq K] (runs : List (List (K × Option V))) (key : K) : Option (Option V) :=
  runs.findSome? fun rows => rows.lookup key

theorem get_patch_lookup [DecidableEq K] {rows : List (K × Option V)} (distinct : (rows.map Prod.fst).Nodup) (key : K)
    (map : OrdMap K V) : (patch rows map)[key]? = (rows.lookup key).getD map[key]? := by
  cases found : rows.lookup key with
  | none =>
    have absent : ∀ row ∈ rows, row.1 ≠ key := by
      intro row member same
      have missing := List.lookup_eq_none_iff.mp found row member
      simp [same] at missing
    exact get_patch_absent absent map
  | some cell =>
    obtain ⟨first, rest, rfl, _⟩ := List.lookup_eq_some_iff.mp found
    exact get_patch_mem distinct (key, cell) (by simp) map

theorem get_patch_runs [DecidableEq K] {runs : List (List (K × Option V))} (distinct : ∀ rows ∈ runs, (rows.map Prod.fst).Nodup)
    (key : K) :
    (patch runs.reverse.flatten ∅)[key]? = (newest runs key).join := by
  induction runs with
  | nil => simp [newest]
  | cons rows older ih =>
    rw [List.reverse_cons, List.flatten_append, patch_append, List.flatten_singleton,
      get_patch_lookup (distinct rows List.mem_cons_self), newest, List.findSome?_cons]
    cases found : rows.lookup key with
    | some cell => rfl
    | none => exact ih (fun other member => distinct other (List.mem_cons_of_mem _ member))

end OrdMap
