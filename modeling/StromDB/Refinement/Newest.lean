import StromDB.Refinement.History

namespace StromDB

open List

def ObjectStore.head [Rkyv] (store : ObjectStore) : Option Seal := store.seals.greatest.bind fun generation => store.seals[generation]?

structure RunsThrough [Rkyv] (history : List Event) (n : Nat) (runs : List WalObject) : Prop where
  ordered : runs.Pairwise fun first second => first.batch.get < second.batch.get
  created : ∀ object, object ∈ runs ↔
    object.body.isFence = false ∧ object.batch.get ≤ n ∧ ∃ pid, .walCreated pid object ∈ history

-- The Directory and Ledger that bootstrap reads and merges from the tables of a
-- Seal.
def Bootstrap.valueOf [Rkyv] (tables : Tables) (sealed : Seal) : Checked (Except BootstrapExit Forest) := do
  match ← mergeSources tables sealed.partition (plannedSources sealed) (startLoad ⟨⟨sealed.generation⟩, sealed⟩) with
  | .error exit => pure (.error exit)
  | .ok load =>
    match Forest.tryFrom load.merged.directory load.merged.ledger with
    | .error error => pure (.error (mapForestError error))
    | .ok forest => pure (.ok forest)

theorem Content.valueOf [Rkyv] {tables : Tables} {sealed : Seal} {forest : Forest} (content : Content tables sealed forest)
    (legal : sealed.Legal) (consistent : forest.Consistent) : Bootstrap.valueOf tables sealed = .ok (.ok forest) := by
  obtain ⟨final, merged, directory, ledger, _, _⟩ := Bootstrap.content_loads tables sealed forest content legal consistent.bounded
    (startLoad ⟨⟨sealed.generation⟩, sealed⟩) rfl
  rw [Bootstrap.valueOf, plannedSources, merged]
  simp only [Checked.ok_bind, directory, ledger, Forest.tryFrom_consistent consistent]
  rfl

theorem foldLog_runs [Rkyv] (log : List WalObject) : ∀ forest : Forest,
    foldLog (log.filter fun object => !object.body.isFence) forest = foldLog log forest := by
  induction log with
  | nil => exact fun forest => rfl
  | cons object rest ih =>
    intro forest
    cases body : object.body with
    | run facts =>
      rw [filter_cons_of_pos (by simp [body, WalBody.isFence])]
      rw [foldLog, foldLog, funext ih]
    | fence =>
      rw [filter_cons_of_neg (by simp [body, WalBody.isFence]), ih]
      simp [foldLog, WalObject.facts, body, Forest.applyFacts]

namespace View

section

variable [Rkyv] {view : View}

theorem LogOk.mem_take (ok : view.LogOk) (object : WalObject) (n : Nat) :
    object ∈ view.log.take n ↔ object ∈ view.log ∧ object.batch.get ≤ n := by
  constructor
  · intro member
    obtain ⟨i, bound, rfl⟩ := getElem_of_mem member
    rw [length_take] at bound
    rw [getElem_take]
    have number := ok.coordinates i _ (getElem?_eq_getElem (by omega))
    exact ⟨getElem_mem _, by omega⟩
  · rintro ⟨member, within⟩
    have positive := object.batch.positive
    have found := ok.get_mem object member
    rw [← getElem?_take_of_lt (show object.batch.get - 1 < n by omega)] at found
    exact mem_of_getElem? found

theorem LogOk.ordered (ok : view.LogOk) : view.log.Pairwise fun first second => first.batch.get < second.batch.get := by
  rw [pairwise_iff_getElem]
  intro i j here there less
  rw [ok.coordinates i _ (getElem?_eq_getElem here), ok.coordinates j _ (getElem?_eq_getElem there)]
  omega

end

theorem Ok.runs_through [Rkyv] {history : List Event} (ok : (of history).Ok) (n : Nat) :
    RunsThrough history n (((of history).log.take n).filter fun object => !object.body.isFence) where
  ordered := (ok.log.ordered.sublist (take_sublist _ _)).filter _
  created := by
    intro object
    rw [mem_filter, ok.log.mem_take, mem_created]
    constructor
    · rintro ⟨⟨member, within⟩, run⟩
      exact ⟨by simpa using run, within, .inl member⟩
    · rintro ⟨run, within, member | stale⟩
      · exact ⟨⟨member, within⟩, by simpa using run⟩
      · rw [(ok.residue.stale object stale).1] at run
        cases run

theorem Ok.fold_runs [Rkyv] {history : List Event} (ok : (of history).Ok) (n : Nat) (forest : Forest)
    (folded : (of history).FoldIs n forest) :
    ∃ runs, RunsThrough history n runs ∧ foldLog runs Forest.empty = some forest :=
  ⟨_, ok.runs_through n, (foldLog_runs _ _).trans folded.2⟩

theorem ChainOk.unselected [Rkyv] {view : View} (ok : view.ChainOk) (object : TableObjectId) (sealed : Seal)
    (member : sealed ∈ view.chain)
    (born : object.fresh.birthGeneration.get ≤ sealed.generation.get) (absent : object ∉ sealed.tables.map TableRef.object) (n : Nat) :
    ∀ later ∈ view.chain, later.generation.get = sealed.generation.get + n → object ∉ later.tables.map TableRef.object := by
  induction n with
  | zero =>
    intro later there same
    rwa [ok.unique later sealed there member same]
  | succ n ih =>
    intro later there same
    have bound := ok.generation_le later there
    obtain ⟨source, here, number⟩ := ok.exists_seal (sealed.generation.get + n) (by have := sealed.generation.positive; omega)
      (by omega)
    have before := ih source here number
    have fresh : ∀ source successor : TreeVersion, TreeAdvance later.generation source successor →
        ∀ table ∈ successor.tables, table.object = object → table ∈ source.tables := by
      rintro source successor ⟨carried, origin, shape⟩ table selected named
      have kept : ∀ run ∈ carried, table ∈ run.tables → table ∈ source.tables := by
        intro run inside chosen
        rcases origin with rfl | rfl
        · exact mem_flatMap.mpr ⟨run, inside, chosen⟩
        · cases inside
      obtain ⟨run, inside, chosen⟩ := mem_flatMap.mp selected
      rcases shape with same | ⟨first, same, births⟩
      · rw [same] at inside
        exact kept run inside chosen
      · rw [same] at inside
        rcases mem_cons.mp inside with rfl | old
        · have birth := births table chosen
          rw [named] at birth
          rw [birth] at born
          omega
        · exact kept run old chosen
    intro selected
    obtain ⟨table, inLater, named⟩ := mem_map.mp selected
    apply before
    rcases ok.follows source later here there (by omega) with claimed | advance
    · rw [(Seal.claimSuccessor_ok_iff.mp claimed).2] at inLater
      exact mem_map.mpr ⟨table, inLater, named⟩
    · refine mem_map.mpr ⟨table, ?_, named⟩
      rcases mem_append.mp inLater with directory | ledger
      · exact mem_append_left _ (fresh _ _ advance.directory table directory named)
      · exact mem_append_right _ (fresh _ _ advance.ledger table ledger named)

end View

section

variable [Rkyv] (sys : System)

theorem SystemOk.head_iff (ok : SystemOk sys) (sealed : Seal) :
    sys.store.head = some sealed ↔ sealed ∈ sys.view.chain ∧ sealed.generation.get = sys.view.chain.length := by
  rw [ObjectStore.head, Option.bind_eq_some_iff]
  constructor
  · rintro ⟨generation, newest, held⟩
    rw [ok.stored.seals] at held
    have nonempty := (List.getElem?_eq_some_iff.mp held).1
    obtain ⟨top, found, number⟩ := ok.stored.newest_seal ok.view (by omega)
    rw [newest] at found
    cases found
    refine ⟨mem_of_getElem? held, ?_⟩
    rw [ok.view.chain.generations _ _ held]
    omega
  · rintro ⟨member, last⟩
    obtain ⟨top, found, number⟩ := ok.stored.newest_seal ok.view (length_pos_of_mem member)
    refine ⟨top, found, ?_⟩
    rw [ok.stored.seals, number, ← last]
    exact ok.view.chain.get_mem sealed member

theorem SystemOk.seal_mem (ok : SystemOk sys) (generation : SealGeneration) (sealed : Seal)
    (held : sys.store.seals[generation]? = some sealed) : sealed ∈ sys.view.chain ∧ sealed.generation = generation := by
  rw [ok.stored.seals] at held
  refine ⟨mem_of_getElem? held, SealGeneration.get_injective _ _ ?_⟩
  rw [ok.view.chain.generations _ _ held, Nat.sub_add_cancel generation.positive]

theorem SystemOk.collected_le_cut (ok : SystemOk sys) (sealed : Seal) (newest : sys.store.head = some sealed) (batch : BatchId)
    (gone : batch ∈ sys.view.collected) : batch.get ≤ sealed.replay.cut := by
  obtain ⟨member, last⟩ := (ok.head_iff sys sealed).mp newest
  obtain ⟨_, pid, issued⟩ := ok.view.residue.collected batch gone
  exact ok.view.chain.deleteRight_cut pid batch (ok.view.residue.issued pid batch issued) sealed member last

theorem SystemOk.selected_stored (ok : SystemOk sys) (sealed : Seal) (newest : sys.store.head = some sealed) (table : TableRef)
    (selected : table ∈ sealed.tables) (body : SstObject) (established : sys.view.tables table.object = some body) :
    sys.store.tables table.object = some body := by
  obtain ⟨member, last⟩ := (ok.head_iff sys sealed).mp newest
  refine ok.stored.tablesLive table.object body established ?_
  intro dropped
  obtain ⟨source, here, born, absent⟩ := ok.view.residue.dropped _ dropped
  have bound := ok.view.chain.generation_le source here
  obtain ⟨n, number⟩ := Nat.exists_eq_add_of_le (show source.generation.get ≤ sealed.generation.get by omega)
  exact ok.view.chain.unselected table.object source here born absent n sealed member number
    (mem_map.mpr ⟨table, selected, rfl⟩)

end

end StromDB
