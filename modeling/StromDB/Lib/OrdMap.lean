import Mathlib

-- A persistent ordered map. Two maps are equal exactly when they hold the same
-- rows, whatever order the rows were inserted in.
abbrev OrdMap (K V : Type) [Ord K] := Std.ExtTreeMap K V compare

namespace OrdMap

variable {K V W : Type} [Ord K] [Std.TransOrd K]

theorem size_insert_vacant {map : OrdMap K V} {key : K} (value : V) (vacant : map[key]? = none) :
    (map.insert key value).size = map.size + 1 := by
  rw [Std.ExtTreeMap.size_insert, if_neg (by simp [← Std.ExtTreeMap.isSome_getElem?_iff_mem, vacant])]

theorem size_insert_present {map : OrdMap K V} {key : K} (old value : V) (present : map[key]? = some old) :
    (map.insert key value).size = map.size := by
  rw [Std.ExtTreeMap.size_insert, if_pos (by simp [← Std.ExtTreeMap.isSome_getElem?_iff_mem, present])]

def greatest (map : OrdMap K V) : Option K := map.keys.getLast?

theorem greatest_eq_some [Std.LawfulEqOrd K] {map : OrdMap K V} {top : K} (found : map.greatest = some top) :
    map[top]?.isSome ∧ ∀ key, map[key]?.isSome → (compare key top).isLE := by
  obtain ⟨below, split⟩ := List.getLast?_eq_some_iff.mp found
  have ordered : map.keys.Pairwise fun a b => compare a b = .lt := Std.ExtTreeMap.ordered_keys
  rw [split, List.pairwise_append] at ordered
  refine ⟨?_, ?_⟩
  · rw [Std.ExtTreeMap.isSome_getElem?_iff_mem, ← Std.ExtTreeMap.mem_keys, split]
    exact List.mem_append_right _ List.mem_cons_self
  · intro key held
    rw [Std.ExtTreeMap.isSome_getElem?_iff_mem, ← Std.ExtTreeMap.mem_keys, split] at held
    rcases List.mem_append.mp held with earlier | last
    · rw [ordered.2.2 key earlier top List.mem_cons_self]
      rfl
    · rw [List.mem_singleton.mp last, Std.ReflOrd.compare_self]
      rfl

theorem greatest_of_held [Std.LawfulEqOrd K] {map : OrdMap K V} {key : K} {value : V} (held : map[key]? = some value) :
    ∃ top, map.greatest = some top ∧ (compare key top).isLE ∧ map[top]?.isSome := by
  have present : map[key]?.isSome := Option.isSome_of_eq_some held
  cases found : map.greatest with
  | none =>
    rw [Std.ExtTreeMap.isSome_getElem?_iff_mem, ← Std.ExtTreeMap.mem_keys, List.getLast?_eq_none_iff.mp found] at present
    cases present
  | some top =>
    obtain ⟨inside, above⟩ := greatest_eq_some found
    exact ⟨top, rfl, above key present, inside⟩

variable [Std.LawfulEqOrd K]

section

variable {map : OrdMap K V} {found : K → Option W} (held : ∀ key, (found key).isSome ↔ map[key]?.isSome)

include held

theorem greatest_held {top : K} (here : (found top).isSome) (most : ∀ key, (found key).isSome → (compare key top).isLE) :
    map.greatest = some top := by
  obtain ⟨value, there⟩ := Option.isSome_iff_exists.mp ((held top).mp here)
  obtain ⟨other, greatest, above, inside⟩ := greatest_of_held there
  have below := most other ((held other).mpr inside)
  have same : compare top other = .eq := by
    rw [Std.OrientedOrd.eq_swap (a := other)] at below
    cases order : compare top other <;> simp_all
  rw [greatest, Std.LawfulEqOrd.eq_of_compare same]

theorem greatest_unheld (bare : ∀ key, found key = none) : map.greatest = none := by
  cases last : map.greatest with
  | none => rfl
  | some top =>
    have inside := (held top).mpr (greatest_eq_some last).1
    rw [bare top] at inside
    cases inside

end

theorem get_insert [DecidableEq K] (map : OrdMap K V) (key query : K) (value : V) :
    (map.insert key value)[query]? = if key = query then some value else map[query]? := by
  rw [Std.ExtTreeMap.getElem?_insert]
  simp

theorem get_erase [DecidableEq K] (map : OrdMap K V) (key query : K) :
    (map.erase key)[query]? = if key = query then none else map[query]? := by
  rw [Std.ExtTreeMap.getElem?_erase]
  simp

theorem erase_absent {map : OrdMap K V} {key : K} (absent : map[key]? = none) : map.erase key = map := by
  classical
  apply Std.ExtTreeMap.ext_getElem?
  intro query
  rw [get_erase]
  split
  · rename_i same
    rw [← same, absent]
  · rfl

theorem greatest_insert [DecidableEq K] {map : OrdMap K V} {key : K} (value : V)
    (above : ∀ top, map.greatest = some top → compare top key = .lt) :
    map[key]? = none ∧ OrdMap.greatest (map.insert key value) = some key := by
  have free : ∀ query, (compare key query).isLE → map[query]? = none := by
    intro query least
    cases held : map[query]? with
    | none => rfl
    | some other =>
      obtain ⟨top, found, below, _⟩ := greatest_of_held held
      have less : compare key key = .lt :=
        Std.TransCmp.lt_of_isLE_of_lt (Std.TransOrd.isLE_trans least below) (above top found)
      rw [Std.ReflOrd.compare_self] at less
      cases less
  have inserted : (map.insert key value)[key]? = some value := by rw [get_insert, if_pos rfl]
  obtain ⟨top, found, least, inside⟩ := greatest_of_held inserted
  refine ⟨free key (by rw [Std.ReflOrd.compare_self]; rfl), ?_⟩
  by_cases same : key = top
  · rw [found, same]
  · rw [get_insert, if_neg same, free top least] at inside
    cases inside

inductive DiffItem (K V : Type) where
  | add (key : K) (value : V)
  | update (key : K) (old new : V)
  | remove (key : K) (value : V)
deriving DecidableEq, Repr

def DiffItem.key {K V : Type} : DiffItem K V → K
  | .add key _ => key
  | .update key _ _ => key
  | .remove key _ => key

def DiffItem.cell {K V : Type} : DiffItem K V → Option V
  | .add _ value => some value
  | .update _ _ new => some new
  | .remove _ _ => none

def diffAt [DecidableEq V] (base next : OrdMap K V) (key : K) : Option (DiffItem K V) :=
  match base[key]?, next[key]? with
  | none, none => none
  | none, some value => some (.add key value)
  | some value, none => some (.remove key value)
  | some old, some new => if old = new then none else some (.update key old new)

-- A library's difference of two maps. The law: it reports exactly the keys that
-- were added, updated or removed, in ascending order.
class Differ where
  diff {K V : Type} [Ord K] [Std.TransOrd K] [DecidableEq V] (base next : OrdMap K V) : List (DiffItem K V)
  mem_diff {K V : Type} [Ord K] [Std.TransOrd K] [Std.LawfulEqOrd K] [DecidableEq V] (base next : OrdMap K V) (item : DiffItem K V) :
    item ∈ diff base next ↔ diffAt base next item.key = some item
  diff_keys_ordered {K V : Type} [Ord K] [Std.TransOrd K] [Std.LawfulEqOrd K] [DecidableEq V] (base next : OrdMap K V) :
    ((diff base next).map DiffItem.key).Pairwise fun a b => compare a b = .lt

export Differ (diff mem_diff diff_keys_ordered)

end OrdMap

-- Keys that are ordered through an injective projection to a key type that is
-- ordered already.
namespace OrdKey

variable {K L : Type} [Ord L]

theorem trans_on [Std.TransOrd L] (project : K → L) : Std.TransCmp (compareOn project) := inferInstance

theorem lawful_on [Std.LawfulEqOrd L] {project : K → L} (injective : ∀ a b, project a = project b → a = b) :
    Std.LawfulEqCmp (compareOn project) where
  compare_self := by
    exact Std.ReflCmp.compare_self
  eq_of_compare := by
    intro a b equal
    exact injective a b (Std.LawfulEqCmp.eq_of_compare equal)

end OrdKey
