import StromDB.Engine.Listing

namespace StromDB

open List

-- The answer of a backend that holds the given keys: what lies under the prefix
-- and behind the offset, in ascending order.
structure Examined (held : Finset ObjectKey) (request : ListPageRequest) (entries : List (Except BackendError String))
    (listed : List ObjectKey) : Prop where
  entries : entries = listed.map fun key => .ok key.text
  ascending : listed.Pairwise fun a b => a.text < b.text
  members : ∀ key, key ∈ listed ↔ key ∈ held ∧ underNamespace request.root.text key.text = true ∧
    ∀ start, request.startExclusive = some start → start.text < key.text

def ListsHeld (held : Finset ObjectKey) (backend : ListPageRequest → List (Except BackendError String)) : Prop :=
  ∀ request, ∃ listed, Examined held request (backend request) listed

inductive Pages (backend : ListPageRequest → List (Except BackendError String)) (root : ObjectKey) (keysMax : KeysBound) :
    Option ObjectKey → List ListPage → Prop where
  | last (start : Option ObjectKey) (page : ListPage) (read : listPage backend ⟨root, start, keysMax⟩ = .ok page)
      (ends : page.continuation = none) : Pages backend root keysMax start [page]
  | more (start : Option ObjectKey) (page : ListPage) (next : ObjectKey) (pages : List ListPage)
      (read : listPage backend ⟨root, start, keysMax⟩ = .ok page) (continues : page.continuation = some next)
      (rest : Pages backend root keysMax (some next) pages) : Pages backend root keysMax start (page :: pages)

section

variable {backend : ListPageRequest → List (Except BackendError String)} {root : ObjectKey} {keysMax : KeysBound}

theorem Pages.unique (start : Option ObjectKey) (first second : List ListPage) (here : Pages backend root keysMax start first)
    (there : Pages backend root keysMax start second) : first = second := by
  induction here generalizing second with
  | last start page read ends =>
    cases there with
    | last _ other again _ =>
      rw [read] at again
      cases again
      rfl
    | more _ other next _ again continues _ =>
      rw [read] at again
      cases again
      rw [ends] at continues
      cases continues
  | more start page next pages read continues _ ih =>
    cases there with
    | last _ other again ends =>
      rw [read] at again
      cases again
      rw [ends] at continues
      cases continues
    | more _ other _ _ again continues' rest =>
      rw [read] at again
      cases again
      rw [continues] at continues'
      cases continues'
      rw [ih _ rest]

theorem Pages.nonempty (start : Option ObjectKey) (pages : List ListPage) (chain : Pages backend root keysMax start pages) :
    pages ≠ [] := by
  cases chain <;> simp

variable {held : Finset ObjectKey}

theorem Examined.continued (start : Option ObjectKey) (before behind listed : List ObjectKey) (next : ObjectKey)
    (entries others : List (Except BackendError String))
    (here : Examined held ⟨root, start, keysMax⟩ entries (before ++ next :: behind))
    (there : Examined held ⟨root, some next, keysMax⟩ others listed) : listed = behind := by
  have ascending := pairwise_append.mp here.ascending
  have above := pairwise_cons.mp ascending.2.1
  have last := (here.members next).mp (mem_append_right _ mem_cons_self)
  refine there.ascending.eq_of_mem_iff above.2 fun key => ?_
  rw [there.members]
  constructor
  · rintro ⟨inside, under, later⟩
    have beyond := later next rfl
    have listed := (here.members key).mpr ⟨inside, under, fun first same => String.lt_trans (last.2.2 first same) beyond⟩
    rcases mem_append.mp listed with earlier | same | later
    · have less := ascending.2.2 key earlier next mem_cons_self
      exact absurd (String.lt_trans less beyond) (String.lt_irrefl _)
    · exact absurd beyond (String.lt_irrefl _)
    · assumption
  · intro member
    have known := (here.members key).mp (mem_append_right _ (mem_cons_of_mem _ member))
    refine ⟨known.1, known.2.1, ?_⟩
    intro first same
    cases same
    exact above.1 key member

theorem ListsHeld.pages (lists : ListsHeld held backend) (n : Nat) : ∀ (start : Option ObjectKey) (listed : List ObjectKey),
    listed.length < n → Examined held ⟨root, start, keysMax⟩ (backend ⟨root, start, keysMax⟩) listed →
    ∃ pages, Pages backend root keysMax start pages ∧ pages.flatMap ListPage.keys = listed ∧
      ∀ page ∈ pages.dropLast, page.keys.length = keysMax.get := by
  have positive := keysMax.positive
  induction n with
  | zero =>
    intro start listed few
    exact absurd few (Nat.not_lt_zero _)
  | succ n ih =>
    intro start listed few answer
    have read := listPage_ascending answer.entries answer.ascending
      fun first same key member => ((answer.members key).mp member).2.2 first same
    by_cases more : keysMax.get < listed.length
    · simp only [if_pos more] at read
      have filled : (listed.take keysMax.get).length = keysMax.get := by
        rw [length_take, Nat.min_eq_left (Nat.le_of_lt more)]
      have nonempty : listed.take keysMax.get ≠ [] := ne_nil_of_length_pos (by omega)
      have last := getLast?_eq_some_getLast nonempty
      generalize (listed.take keysMax.get).getLast nonempty = next at last
      obtain ⟨before, split⟩ := getLast?_eq_some_iff.mp last
      obtain ⟨others, following⟩ := lists ⟨root, some next, keysMax⟩
      have same := Examined.continued start before (listed.drop keysMax.get) others next _ _ (by
        rw [append_cons, ← split, take_append_drop]
        exact answer) following
      subst same
      obtain ⟨pages, chain, joined, full⟩ := ih (some next) _ (by rw [length_drop]; omega) following
      refine ⟨_ :: pages, .more start _ next pages read last chain, ?_, ?_⟩
      · rw [flatMap_cons, joined, take_append_drop]
      · intro page member
        rw [dropLast_cons_of_ne_nil chain.nonempty] at member
        rcases mem_cons.mp member with rfl | later
        · exact filled
        · exact full page later
    · simp only [if_neg more] at read
      refine ⟨[_], .last start _ read rfl, ?_, ?_⟩
      · simp only [flatMap_cons, flatMap_nil, append_nil]
        exact take_of_length_le (Nat.le_of_not_lt more)
      · simp

end

theorem RawStore.lists_held (raw : RawStore) (held : Finset ObjectKey)
    (same : ∀ text, raw[text]?.isSome = true ↔ ∃ key ∈ held, key.text = text) : ListsHeld held raw.list := by
  intro request
  have listed := raw.mem_listed request
  obtain ⟨keys, spelled⟩ := ObjectKey.exists_texts fun text here => by
    obtain ⟨key, _, spelled⟩ := (same text).mp ((listed text).mp here).1
    exact ⟨key, spelled⟩
  refine ⟨keys, ?_, ?_, ?_⟩
  · rw [RawStore.list, ← spelled, map_map]
    rfl
  · have ascending := raw.listed_ascending request
    rwa [← spelled, pairwise_map] at ascending
  intro key
  have here : key ∈ keys ↔ key.text ∈ raw.listed request := by
    rw [← spelled]
    exact (mem_map_of_injective ObjectKey.text_injective).symm
  have mine : (∃ other ∈ held, other.text = key.text) ↔ key ∈ held := by
    constructor
    · rintro ⟨other, member, spelling⟩
      rwa [← ObjectKey.text_injective _ _ spelling]
    · exact fun member => ⟨key, member, rfl⟩
  rw [here, listed, same, mine]

theorem paged_listing_complete (held : Finset ObjectKey) (backend : ListPageRequest → List (Except BackendError String))
    (lists : ListsHeld held backend) (root : ObjectKey) (keysMax : KeysBound) :
    (∃ pages, Pages backend root keysMax none pages ∧ (∀ others, Pages backend root keysMax none others → others = pages) ∧
      (pages.flatMap ListPage.keys).Pairwise (fun a b => a.text < b.text) ∧ (pages.flatMap ListPage.keys).Nodup ∧
      (∀ key, key ∈ pages.flatMap ListPage.keys ↔ key ∈ held ∧ underNamespace root.text key.text = true) ∧
      ∀ page ∈ pages.dropLast, page.keys.length = keysMax.get) ∧
    ∀ (answers : ListPageRequest → List (Except BackendError String)) (request : ListPageRequest) (page : ListPage),
      listPage answers request = .ok page →
      ∃ examined : List ObjectKey, (answers request).take examined.length = examined.map (fun key => .ok key.text) ∧
        examined.Pairwise (fun a b => a.text < b.text) ∧
        (∀ start, request.startExclusive = some start → ∀ key ∈ examined, start.text < key.text) ∧
        page.keys = examined.take request.keysMax.get ∧
        ((page.continuation = none ∧ examined.length = (answers request).length ∧ examined.length ≤ request.keysMax.get) ∨
          page.continuation = page.keys.getLast? ∧ page.continuation.isSome = true ∧
            examined.length = request.keysMax.get + 1) := by
  constructor
  · obtain ⟨listed, answer⟩ := lists ⟨root, none, keysMax⟩
    obtain ⟨pages, chain, joined, full⟩ := lists.pages _ none listed (Nat.lt_succ_self _) answer
    refine ⟨pages, chain, fun others there => Pages.unique none others pages there chain, ?_, ?_, ?_, full⟩
    · rw [joined]
      exact answer.ascending
    · rw [joined]
      refine answer.ascending.imp ?_
      rintro a b less rfl
      exact String.lt_irrefl _ less
    · intro key
      rw [joined, answer.members]
      simp
  · intro answers request page read
    obtain ⟨⟨kept, truncated⟩, ended, same⟩ := Checked.bind_ok read
    obtain ⟨examined, entries, ascending, taken, size⟩ := listLoop_ok [] kept truncated (Nat.zero_le _)
      (by cases request.startExclusive <;> simp) ended
    obtain ⟨_, sorted, above⟩ := List.pairwise_append.mp ascending
    cases same
    refine ⟨examined, entries, sorted, ?_, taken, ?_⟩
    · intro start offset key member
      exact above start (by rw [offset]; exact List.mem_cons_self) key member
    · cases truncated with
      | false =>
        exact .inl ⟨rfl, size.2, size.1⟩
      | true =>
        refine .inr ⟨rfl, ?_, size⟩
        have positive := request.keysMax.positive
        have filled : kept.length = request.keysMax.get := by
          rw [taken, List.length_take, size]
          omega
        have nonempty : kept ≠ [] := List.ne_nil_of_length_pos (by omega)
        rw [if_pos rfl, List.getLast?_eq_some_getLast nonempty]
        rfl

def firstListed : ObjectKey := ⟨"wal/v1/a", by decide⟩

def secondListed : ObjectKey := ⟨"wal/v1/b", by decide⟩

def twoListed : RawStore := ((∅ : RawStore).insert firstListed.text []).insert secondListed.text []

theorem paged_listing_complete_two : ∃ pages, Pages twoListed.list walNamespace newestKeysBound none pages ∧
    (∀ key, key ∈ pages.flatMap ListPage.keys ↔ key = firstListed ∨ key = secondListed) ∧
    ∀ page ∈ pages.dropLast, page.keys.length = 1 := by
  have lists : ListsHeld {firstListed, secondListed} twoListed.list := by
    refine twoListed.lists_held _ fun text => ?_
    rw [twoListed, OrdMap.get_insert, OrdMap.get_insert]
    split
    · simp [*]
    · split
      · simp [*]
      · simp [*]
  obtain ⟨⟨pages, chain, _, _, _, members, full⟩, _⟩ :=
    paged_listing_complete {firstListed, secondListed} twoListed.list lists walNamespace newestKeysBound
  refine ⟨pages, chain, fun key => ?_, full⟩
  have first : underNamespace walNamespace.text firstListed.text = true := by decide
  have second : underNamespace walNamespace.text secondListed.text = true := by decide
  rw [members, Finset.mem_insert, Finset.mem_singleton, and_iff_left_iff_imp]
  rintro (rfl | rfl)
  · exact first
  · exact second

end StromDB
