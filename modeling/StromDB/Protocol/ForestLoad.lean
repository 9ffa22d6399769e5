import StromDB.Protocol.ForestFold

namespace StromDB

open Checked List

namespace Forest

theorem slot_injective {a b : StreamUid} (same : a.get - 1 = b.get - 1) : a = b := by
  have first := a.positive
  have second := b.positive
  exact StreamUid.get_injective a b (by omega)

structure Marks {Item State Error : Type} (slot : Item → Nat) (before : State) (after : Item → State)
    (mark : List Item → List State → Except Error (List State)) : Prop where
  done : ∀ states, mark [] states = .ok states
  step : ∀ item rest states, states[slot item]? = some before →
    mark (item :: rest) states = mark rest (states.set (slot item) (after item))
  needs : ∀ item rest states marked, mark (item :: rest) states = .ok marked → states[slot item]? = some before
  changes : ∀ item, after item ≠ before

section

variable {Item State Error : Type} {slot : Item → Nat} {before : State} {after : Item → State}
  {mark : List Item → List State → Except Error (List State)} (marks : Marks slot before after mark)

include marks

theorem Marks.fits (items : List Item) : ∀ states marked : List State, mark items states = .ok marked →
    items.Pairwise (fun a b => slot a ≠ slot b) ∧ ∀ item ∈ items, states[slot item]? = some before := by
  induction items with
  | nil => exact fun _ _ _ => ⟨.nil, by simp⟩
  | cons item rest ih =>
    intro states marked run
    have free := marks.needs item rest states marked run
    rw [marks.step item rest states free] at run
    obtain ⟨distinct, still⟩ := ih _ marked run
    have apart : ∀ other ∈ rest, slot item ≠ slot other := by
      intro other member same
      have taken := still other member
      rw [← same, getElem?_set_self (List.getElem?_eq_some_iff.mp free).1] at taken
      exact marks.changes item (Option.some.inj taken)
    refine ⟨.cons apart distinct, ?_⟩
    intro other member
    rcases mem_cons.mp member with rfl | member
    · exact free
    · have here := still other member
      rwa [getElem?_set_ne (apart other member)] at here

theorem Marks.ok (items : List Item) : ∀ states : List State, items.Pairwise (fun a b => slot a ≠ slot b) →
    (∀ item ∈ items, states[slot item]? = some before) →
    ∃ marked, mark items states = .ok marked ∧ marked.length = states.length ∧
    (∀ item ∈ items, marked[slot item]? = some (after item)) ∧
      ∀ place, (∀ item ∈ items, slot item ≠ place) → marked[place]? = states[place]? := by
  induction items with
  | nil => exact fun states _ _ => ⟨states, marks.done states, rfl, by simp, by simp⟩
  | cons item rest ih =>
    intro states distinct free
    obtain ⟨apart, distinct⟩ := pairwise_cons.mp distinct
    have here := free item mem_cons_self
    obtain ⟨marked, run, length, filled, others⟩ := ih (states.set (slot item) (after item)) distinct (by
      intro other member
      rw [getElem?_set_ne (apart other member)]
      exact free other (mem_cons_of_mem _ member))
    refine ⟨marked, (marks.step item rest states here).trans run, by rw [length, length_set], ?_, ?_⟩
    · intro other member
      rcases mem_cons.mp member with rfl | member
      · rw [others _ fun other member => (apart other member).symm, getElem?_set_self (List.getElem?_eq_some_iff.mp here).1]
      · exact filled other member
    · intro place avoid
      rw [others place fun other member => avoid other (mem_cons_of_mem _ member), getElem?_set_ne (avoid item mem_cons_self)]

end

theorem markEntries_marks :
    Marks (fun entry : DirectoryEntry => entry.uid.get - 1) none (fun entry => some (entryState entry)) markEntries where
  done := fun _ => rfl
  step := by
    intro entry rest states free
    rw [markEntries, free]
  needs := by
    intro entry rest states marked done
    rw [markEntries] at done
    split at done <;> first | assumption | cases done
  changes := by simp

theorem markRecords_marks :
    Marks (fun uid : StreamUid => uid.get - 1) (some .liveMissingRecord) (fun _ => some .liveWithRecord) markRecords where
  done := fun _ => rfl
  step := by
    intro uid rest states missing
    rw [markRecords, missing]
  needs := by
    intro uid rest states settled done
    rw [markRecords] at done
    split at done <;> first | assumption | cases done
  changes := by simp

variable [Jiff]

theorem mem_entries (forest : Forest) (entry : DirectoryEntry) :
    entry ∈ entries forest.directory ↔ ∃ path : StreamPath, forest.directory[path]? = some entry := by
  constructor
  · intro member
    obtain ⟨⟨path, held⟩, row, same⟩ := mem_map.mp member
    cases same
    exact ⟨path, Std.ExtTreeMap.mem_toList_iff_getElem?_eq_some.mp row⟩
  · rintro ⟨path, found⟩
    exact mem_map.mpr ⟨(path, entry), Std.ExtTreeMap.mem_toList_iff_getElem?_eq_some.mpr found, rfl⟩

theorem mem_ledger_keys (forest : Forest) (uid : StreamUid) :
    uid ∈ forest.ledger.keys ↔ ∃ record, forest.ledger[uid]? = some record := by
  rw [Std.ExtTreeMap.mem_keys, ← Std.ExtTreeMap.isSome_getElem?_iff_mem, Option.isSome_iff_exists]

theorem Consistent.uids_distinct (forest : Forest) (consistent : forest.Consistent) :
    (entries forest.directory).Pairwise fun a b => a.uid.get - 1 ≠ b.uid.get - 1 := by
  rw [entries, pairwise_map]
  refine List.Pairwise.imp_of_mem ?_ (Std.ExtTreeMap.distinct_keys_toList (t := forest.directory))
  intro row other member member' distinct same
  have found := Std.ExtTreeMap.mem_toList_iff_getElem?_eq_some.mp member
  have found' := Std.ExtTreeMap.mem_toList_iff_getElem?_eq_some.mp member'
  rw [consistent.unique row.1 other.1 row.2 other.2 found found' (slot_injective same)] at distinct
  exact distinct Std.ReflCmp.compare_self

theorem tryFrom_consistent {forest : Forest} (consistent : forest.Consistent) :
    tryFrom forest.directory forest.ledger = .ok forest := by
  have free : ∀ entry ∈ entries forest.directory,
      (replicate forest.directory.size (none : Option UidState))[entry.uid.get - 1]? = some none := by
    intro entry member
    obtain ⟨path, found⟩ := (mem_entries forest entry).mp member
    have within : entry.uid.get ≤ forest.directory.size := consistent.range path entry found
    have positive := entry.uid.positive
    rw [getElem?_replicate, if_pos (by omega)]
  obtain ⟨marked, markedDone, markedLength, filled, _⟩ := markEntries_marks.ok _ _ consistent.uids_distinct free
  have full : marked.any Option.isNone = false := by
    rw [any_eq_false]
    intro state member
    obtain ⟨slot, inside, same⟩ := mem_iff_getElem.mp member
    have within : slot < forest.directory.size := by simpa [markedLength] using inside
    obtain ⟨path, entry, found, numbered⟩ := consistent.dense (slot + 1) (by omega) within
    have here := filled entry ((mem_entries forest entry).mpr ⟨path, found⟩)
    rw [numbered, Nat.add_sub_cancel, getElem?_eq_getElem inside, same] at here
    simp [Option.some.inj here]
  have missing : ∀ uid ∈ forest.ledger.keys, marked[uid.get - 1]? = some (some .liveMissingRecord) := by
    intro uid member
    obtain ⟨record, held⟩ := (mem_ledger_keys forest uid).mp member
    obtain ⟨path, found⟩ := consistent.live uid record held
    exact filled (.live uid) ((mem_entries forest _).mpr ⟨path, found⟩)
  have distinct : forest.ledger.keys.Pairwise fun a b => a.get - 1 ≠ b.get - 1 := by
    refine List.Pairwise.imp ?_ (Std.ExtTreeMap.distinct_keys (t := forest.ledger))
    intro uid other differs same
    rw [slot_injective same] at differs
    exact differs Std.ReflCmp.compare_self
  obtain ⟨settled, settledDone, _, paired, others⟩ := markRecords_marks.ok _ _ distinct missing
  have none : settled.contains (some .liveMissingRecord) = false := by
    rw [Bool.eq_false_iff]
    intro contained
    obtain ⟨slot, inside, same⟩ := mem_iff_getElem.mp (contains_iff_mem.mp contained)
    have left : settled[slot]? = some (some .liveMissingRecord) := by
      rw [getElem?_eq_getElem inside, same]
    by_cases touched : ∃ uid ∈ forest.ledger.keys, uid.get - 1 = slot
    · obtain ⟨uid, member, rfl⟩ := touched
      rw [paired uid member] at left
      cases left
    have kept := others slot fun uid member same => touched ⟨uid, member, same⟩
    rw [left] at kept
    have bounded : slot < marked.length := (List.getElem?_eq_some_iff.mp kept.symm).1
    rw [markedLength, length_replicate] at bounded
    obtain ⟨path, entry, found, numbered⟩ := consistent.dense (slot + 1) (by omega) bounded
    have here := filled entry ((mem_entries forest entry).mpr ⟨path, found⟩)
    rw [numbered, Nat.add_sub_cancel, ← kept] at here
    cases entry with
    | tombstone uid => simp [entryState] at here
    | live uid =>
      obtain ⟨record, held⟩ := consistent.recorded path uid found
      refine touched ⟨uid, (mem_ledger_keys forest uid).mpr ⟨record, held⟩, ?_⟩
      simp only [DirectoryEntry.uid_live] at numbered
      omega
  have bounded : ¬ forest.directory.size > PARTITION_PATH_OCCUPANCIES_MAX_V2 := Nat.not_lt.mpr consistent.bounded
  rw [tryFrom, if_neg bounded, markedDone]
  simp only [ok_bind, full, Bool.false_eq_true, if_false, settledDone, none]

theorem consistent_of_tryFrom {directory : OrdMap StreamPath DirectoryEntry} {ledger : OrdMap StreamUid StreamRecord} {forest : Forest}
    (loaded : tryFrom directory ledger = .ok forest) : forest = ⟨directory, ledger⟩ ∧ forest.Consistent := by
  unfold tryFrom at loaded
  split at loaded
  · cases loaded
  rename_i bounded
  obtain ⟨marked, markedDone, loaded⟩ := bind_ok loaded
  split at loaded
  · cases loaded
  rename_i full
  obtain ⟨settled, settledDone, loaded⟩ := bind_ok loaded
  split at loaded
  · cases loaded
  rename_i settledAll
  cases loaded
  refine ⟨rfl, ?_⟩
  obtain ⟨distinct, free⟩ := markEntries_marks.fits _ _ _ markedDone
  obtain ⟨_, sameMarked, length, filled, untouched⟩ := markEntries_marks.ok _ _ distinct free
  rw [markedDone] at sameMarked
  cases sameMarked
  obtain ⟨keysDistinct, missing⟩ := markRecords_marks.fits _ _ _ settledDone
  obtain ⟨_, sameSettled, _, _, kept⟩ := markRecords_marks.ok _ _ keysDistinct missing
  rw [settledDone] at sameSettled
  cases sameSettled
  have rows : ∀ (path : StreamPath) (entry : DirectoryEntry), directory[path]? = some entry → entry ∈ entries directory :=
    fun path entry found => (mem_entries ⟨directory, ledger⟩ entry).mpr ⟨path, found⟩
  have inside : ∀ entry ∈ entries directory, entry.uid.get - 1 < directory.size := by
    intro entry member
    have within := (List.getElem?_eq_some_iff.mp (free entry member)).1
    rwa [List.length_replicate] at within
  have covered : ∀ slot, slot < directory.size → ∃ entry ∈ entries directory, entry.uid.get - 1 = slot ∧
      marked[slot]? = some (some (entryState entry)) := by
    intro slot within
    by_contra unclaimed
    have empty : marked[slot]? = some none := by
      rw [untouched slot fun entry member same => unclaimed ⟨entry, member, same, same ▸ filled entry member⟩,
        List.getElem?_replicate, if_pos within]
    exact full (List.any_eq_true.mpr ⟨_, List.mem_of_getElem? empty, rfl⟩)
  exact {
    bounded := Nat.le_of_not_lt bounded
    range := by
      intro path entry found
      have within := inside entry (rows path entry found)
      simp only [pathCount]
      omega
    unique := by
      intro path other entry entry' found found' same
      have slots := pairwise_map.mpr distinct
      rw [entries, List.map_map] at slots
      have row := List.inj_on_of_nodup_map slots (Std.ExtTreeMap.mem_toList_iff_getElem?_eq_some.mpr found)
        (Std.ExtTreeMap.mem_toList_iff_getElem?_eq_some.mpr found') (by simp [same])
      exact congrArg Prod.fst row
    dense := by
      intro n positive within
      obtain ⟨entry, member, here, _⟩ := covered (n - 1) (by simp only [pathCount] at within; omega)
      obtain ⟨path, found⟩ := (mem_entries ⟨directory, ledger⟩ entry).mp member
      have number := entry.uid.positive
      exact ⟨path, entry, found, by omega⟩
    recorded := by
      intro path uid found
      have here := filled _ (rows path _ found)
      refine (mem_ledger_keys ⟨directory, ledger⟩ uid).mp ?_
      by_contra absent
      have left := kept (uid.get - 1) fun other member same => absent (slot_injective same ▸ member)
      rw [DirectoryEntry.uid_live] at here
      rw [here] at left
      exact settledAll (List.contains_iff_mem.mpr (List.mem_of_getElem? left))
    live := by
      intro uid record held
      have here := missing uid ((mem_ledger_keys ⟨directory, ledger⟩ uid).mpr ⟨record, held⟩)
      have within := (List.getElem?_eq_some_iff.mp here).1
      rw [length, List.length_replicate] at within
      obtain ⟨entry, member, same, state⟩ := covered _ within
      obtain ⟨path, found⟩ := (mem_entries ⟨directory, ledger⟩ entry).mp member
      rw [here] at state
      cases entry with
      | tombstone other => cases state
      | live other => exact ⟨path, slot_injective same ▸ found⟩ }

theorem consistent_iff (directory : OrdMap StreamPath DirectoryEntry) (ledger : OrdMap StreamUid StreamRecord) :
    Consistent ⟨directory, ledger⟩ ↔ directory.size ≤ PARTITION_PATH_OCCUPANCIES_MAX_V2 ∧
      ((entries directory).map fun entry => entry.uid.get).Perm (List.range' 1 directory.size) ∧
      ∀ uid : StreamUid, uid ∈ ledger.keys ↔ .live uid ∈ entries directory := by
  have entry_iff := mem_entries ⟨directory, ledger⟩
  have key_iff := mem_ledger_keys ⟨directory, ledger⟩
  constructor
  · intro consistent
    have distinct : ((entries directory).map fun entry => entry.uid.get).Nodup :=
      pairwise_map.mpr (consistent.uids_distinct.imp fun apart same => apart (congrArg (· - 1) same))
    refine ⟨consistent.bounded, (perm_ext_iff_of_nodup distinct nodup_range').mpr ?_, ?_⟩
    · intro n
      simp only [mem_map, mem_range'_1]
      constructor
      · rintro ⟨entry, member, rfl⟩
        obtain ⟨path, found⟩ := (entry_iff entry).mp member
        have within : entry.uid.get ≤ directory.size := consistent.range path entry found
        have positive := entry.uid.positive
        omega
      · rintro ⟨positive, within⟩
        obtain ⟨path, entry, found, number⟩ := consistent.dense n positive (by simp only [pathCount]; omega)
        exact ⟨entry, (entry_iff entry).mpr ⟨path, found⟩, number⟩
    · intro uid
      rw [key_iff, entry_iff]
      constructor
      · rintro ⟨record, held⟩
        exact consistent.live uid record held
      · rintro ⟨path, found⟩
        exact consistent.recorded path uid found
  rintro ⟨bounded, numbers, keys⟩
  have mem_iff : ∀ n, (∃ entry ∈ entries directory, entry.uid.get = n) ↔ 1 ≤ n ∧ n < 1 + directory.size := by
    intro n
    rw [← mem_range'_1, ← numbers.mem_iff, mem_map]
  have distinct := numbers.nodup_iff.mpr nodup_range'
  rw [entries, map_map] at distinct
  exact {
    bounded
    range := by
      intro path entry found
      have within := (mem_iff entry.uid.get).mp ⟨entry, (entry_iff entry).mpr ⟨path, found⟩, rfl⟩
      simp only [pathCount]
      omega
    unique := by
      intro path other entry entry' found found' same
      have row := inj_on_of_nodup_map distinct (Std.ExtTreeMap.mem_toList_iff_getElem?_eq_some.mpr found)
        (Std.ExtTreeMap.mem_toList_iff_getElem?_eq_some.mpr found') (congrArg StreamUid.get same)
      exact congrArg Prod.fst row
    dense := by
      intro n positive within
      obtain ⟨entry, member, number⟩ := (mem_iff n).mpr ⟨positive, by simp only [pathCount] at within; omega⟩
      obtain ⟨path, found⟩ := (entry_iff entry).mp member
      exact ⟨path, entry, found, number⟩
    recorded := fun path uid found => (key_iff uid).mp ((keys uid).mpr ((entry_iff _).mpr ⟨path, found⟩))
    live := fun uid record held => (entry_iff _).mp ((keys uid).mp ((key_iff uid).mpr ⟨record, held⟩)) }

end Forest

end StromDB
