import StromDB.Engine.Collect
import StromDB.Properties.Formats
import StromDB.Properties.Keys

namespace StromDB

open Archive Checked Client Durable

structure CollectionInput.Authored [Rkyv] (input : CollectionInput) : Prop where
  minted : ∃ ticket source successor snapshot candidate prepared installed,
    PreparedCheckpoint.new ticket source successor snapshot candidate = .ok prepared ∧
      CollectionInput.fromAuthored prepared = .ok (installed, input)
  ranged : ∀ table ∈ input.source.tables, table.object.InRange

section

variable [Rkyv] {input : CollectionInput}

theorem CollectionInput.Authored.advances (authored : input.Authored) : input.source.replay.cut < input.cut.get := by
  obtain ⟨ticket, source, successor, snapshot, candidate, prepared, installed, built, minted⟩ := authored.minted
  simp only [PreparedCheckpoint.new, bind_ok_iff, pure_eq_ok, Except.ok.injEq, require_ok_iff] at built
  obtain ⟨_, _, _, _, _, _, _, replay, _, behind, _, _, rfl⟩ := built
  simp only [CollectionInput.fromAuthored, bind_ok_iff, expect_ok_iff, pure_eq_ok, Except.ok.injEq,
    Prod.mk.injEq] at minted
  obtain ⟨cut, found, _, rfl⟩ := minted
  rw [← replay] at found
  cases found
  cases before : source.replay with
  | genesis =>
    exact ticket.cut.raw.positive
  | through previous owner =>
    simp only [before, WalReplayPoint.batch, Option.all_some, decide_eq_true_eq] at behind
    exact behind

theorem CollectionInput.Authored.dropped (authored : input.Authored) : ∀ object ∈ droppedBy input, object.InRange := by
  intro object member
  obtain ⟨table, selected, rfl⟩ := List.mem_map.mp (List.mem_filter.mp member).1
  exact authored.ranged table selected

end

section

variable [Rkyv] (archiver : Archiver ArchivedWalObject) (input : CollectionInput) (base : StoreSlots)

inductive Passed : StoreSlots → List StoreRequest → Prop where
  | untouched : Passed base []
  | pass (slots : StoreSlots) (flight : List StoreRequest) (passed : Passed slots flight)
      (program : StoreProgram Unit) (world : StoreWorld)
      (reached : Reaches (ownedBackend True) (collect archiver input, World.start slots flight) (program, world)) :
      Passed world.slots world.flight

variable {archiver input base}

section

variable (authored : input.Authored) (slots : StoreSlots) (flight : List StoreRequest)
  (passed : Passed archiver input base slots flight)

include authored passed

theorem Passed.sweeping : CollectSweeping archiver input base (fun _ => False) (World.start slots flight) := by
  induction passed with
  | untouched => exact World.Sweeping.start (fun _ => .inl rfl) (fun _ _ => List.not_mem_nil) nofun
  | pass slots flight _ program world reached ih =>
    have meets := Program.Meets.reaches (collect_spec authored.dropped authored.advances _ ih) reached
    have here := Program.Meets.guarded meets
    exact World.Sweeping.start here.slots here.creates here.deletes

theorem Passed.meets (faulty : Prop) :
    (collect archiver input).Meets (ownedBackend faulty) (CollectSweeping archiver input base fun _ => False)
      (fun outcome world => outcome = .ok () ∧
        CollectSweeping archiver input base (fun key => ¬ faulty ∧ Sweeps archiver input base key) world) (World.start slots flight) :=
  collect_spec authored.dropped authored.advances _ (passed.sweeping authored)

theorem Passed.ends (last : StoreWorld)
    (reached : Reaches (ownedBackend False) (collect archiver input, World.start slots flight) (.done (), last)) (key : ObjectKey) :
    (Sweeps archiver input base key → last.slots key = none) ∧ (¬ Sweeps archiver input base key → last.slots key = base key) := by
  obtain ⟨_, swept⟩ := Program.Meets.outcome (passed.meets authored slots flight False) reached
  refine ⟨fun sweeps => swept.gone key ⟨id, sweeps⟩, fun spared => ?_⟩
  rcases swept.slots key with same | ⟨_, sweeps⟩
  · exact same
  · exact absurd sweeps spared

end

omit [Rkyv] in
theorem ownedBackend_answers (faulty : Prop) (slots : StoreSlots) (request : StoreRequest) :
    ∃ reply : Except BackendError (request.Answer GetResult), request.Admits (ownedBackend faulty) slots reply := by
  cases request with
  | create key body =>
    by_cases vacant : slots key = none
    · exact ⟨.ok (), vacant⟩
    · exact ⟨.error ⟨.alreadyExists, ""⟩, .inl rfl, vacant⟩
  | delete key => exact ⟨.ok (), trivial⟩
  | read key =>
    cases here : slots key with
    | none => exact ⟨.error ⟨.notFound, ""⟩, rfl, here⟩
    | some occupant =>
      have gathered : (⟨occupant.body.length, some "etag", [.ok occupant.body]⟩ : GetResult).bytes = .ok occupant.body := by
        simp [GetResult.bytes, Except.map, pure, Except.pure, bind, Except.bind]
      refine ⟨.ok ⟨occupant.body.length, some "etag", [.ok occupant.body]⟩, occupant, here, ⟨rfl, ?_⟩,
        fun _ => ⟨gathered, _, rfl, by decide⟩⟩
      intro collected same
      rw [gathered] at same
      cases same
      rfl

end

section

variable [Rkyv] (archiver : Archiver ArchivedWalObject) (input : CollectionInput) (base : StoreSlots)

theorem collection_resumable (authored : input.Authored) (slots : StoreSlots) (flight : List StoreRequest)
    (passed : Passed archiver input base slots flight) :
    (∀ program world, Reaches (ownedBackend True) (collect archiver input, World.start slots flight) (program, world) →
      world.creates = 0 ∧
      (∀ before event after key, world.trace = before ++ event :: after → event.request = .delete key →
        PermitsDelete archiver input before key) ∧
      (∀ key, world.slots key = base key ∨
        world.slots key = none ∧ ((∃ batch, DeadRun archiver input base key batch) ∨ DeadTable input key)) ∧
      world.trace.length ≤ 2 * (input.cut.get - input.source.replay.cut) + (droppedBy input).length ∧
      ∀ message, program ≠ .halt message) ∧
    (∃ world, Reaches (ownedBackend False) (collect archiver input, World.start slots flight) (.done (), world)) ∧
    ∀ first last, Reaches (ownedBackend False) (collect archiver input, World.start base []) (.done (), first) →
      Reaches (ownedBackend False) (collect archiver input, World.start slots flight) (.done (), last) → last.slots = first.slots := by
  refine ⟨?_, ?_, ?_⟩
  · intro program world reached
    have meets := Program.Meets.reaches (passed.meets authored slots flight True) reached
    have swept := Program.Meets.guarded meets
    obtain ⟨rest, _, total⟩ := Program.Within.requests reached _ (collect_within archiver input authored.advances)
    refine ⟨swept.unsent, swept.permitted, ?_, ?_, ?_⟩
    · intro key
      refine (swept.slots key).imp id fun lost => ⟨lost.1, ?_⟩
      exact lost.2.imp (fun ⟨batch, dead, _⟩ => ⟨batch, dead⟩) fun dead => dead.1
    · simp only [World.start, List.length_nil] at total
      omega
    · rintro message rfl
      obtain ⟨stopped, _⟩ := Program.Meets.stopped (passed.meets authored slots flight True) reached
      cases stopped
  · obtain ⟨⟨program, world⟩, reached, ended⟩ := Program.ends (ownedBackend_answers False) (collect archiver input)
      (World.start slots flight)
    cases program with
    | done value => exact ⟨world, reached⟩
    | halt message =>
      obtain ⟨stopped, _⟩ := Program.Meets.stopped (passed.meets authored slots flight False) reached
      cases stopped
    | send request next => cases ended
  · intro first last whole rest
    funext key
    obtain ⟨gone, kept⟩ := Passed.untouched.ends authored base [] first whole key
    obtain ⟨alsoGone, alsoKept⟩ := passed.ends authored slots flight last rest key
    by_cases sweeps : Sweeps archiver input base key
    · rw [gone sweeps, alsoGone sweeps]
    · rw [kept sweeps, alsoKept sweeps]

end

theorem collect_reads [Rkyv] (archiver : Archiver ArchivedWalObject) (input : CollectionInput) (first : BatchId)
    (starts : collectFirst input = .ok first) (key : ObjectKey) (spelled : ObjectKey.tryFrom (walKey first) = .ok key) :
    ∃ next, collect archiver input = .send (.read key) next ∧ ∀ detail, next (.error ⟨.other, detail⟩) = .done () := by
  have made : objectKey (walKey first) = .ok key := by
    rw [objectKey, spelled]
    rfl
  have opens : collect archiver input = (do
      let continues ← collectRuns archiver input.source.partition input.cut first
      if continues then deleteTables (droppedBy input) else pure ()) := by
    rw [collect, starts]
    rfl
  rw [opens, collectRuns, collectCoordinate, WalStore.readWal, made]
  exact ⟨_, rfl, fun _ => rfl⟩

attribute [local instance] plainRkyv

-- A full base replaces the four tables of the source, with a RUN at 2 below it.
def rebased : CollectionInput :=
  ⟨⟨.two⟩, layeredSeal, ⟨firstPartition, ⟨.four⟩, .through ⟨.two⟩ ⟨⟨.three⟩⟩, TreeVersion.empty, TreeVersion.empty⟩⟩

def laterRun : WalObject := { createdRun with batch := ⟨.two⟩ }

theorem rebased_authored : rebased.Authored where
  minted := ⟨⟨⟨.three⟩, ⟨.two⟩, ⟨⟨.three⟩, 0⟩⟩, rebased.source, rebased.successor, Forest.empty,
    ⟨rebased.successor, by decide, by decide⟩, _, _, rfl, rfl⟩
  ranged := by
    intro table member
    have bounded : ∀ table ∈ rebased.source.tables,
        table.object.fresh.attempt.localCounter < 2 ^ 64 ∧ table.object.fresh.ordinal < 2 ^ 32 := by decide +kernel
    exact ⟨(bounded table member).1, (bounded table member).2⟩

-- The first pass gives up when its first read fails; the second deletes the RUN
-- and a table and keeps the Seal.
theorem collection_resumable_rebased : ∃ (archiver : Archiver ArchivedWalObject) (base : StoreSlots) (run table genesis : ObjectKey)
    (failed world : StoreWorld), run.text = walKey ⟨.two⟩ ∧ table.text = tableKey (layeredTable .directory 0).object ∧
      genesis.text = sealKey SealGeneration.genesis ∧
      Reaches (ownedBackend True) (collect archiver rebased, World.start base []) (.done (), failed) ∧ failed.trace.length = 1 ∧
      (failed.slots run).isSome ∧ (failed.slots table).isSome ∧
      Reaches (ownedBackend False) (collect archiver rebased, World.start failed.slots failed.flight) (.done (), world) ∧
      world.slots run = none ∧ world.slots table = none ∧ (world.slots genesis).isSome := by
  obtain ⟨archiver, sized⟩ := Archiver.exists_sized laterRun.archived 1
  obtain ⟨run, spelled, ran⟩ := wal_legal ⟨.two⟩
  obtain ⟨table, _, named⟩ := table_objectKey _ (rebased_authored.ranged (layeredTable .directory 0) (by decide +kernel))
  obtain ⟨genesis, _, first⟩ := seal_legal SealGeneration.genesis
  let base : StoreSlots := fun _ => some ⟨archiver.output laterRun.archived, false⟩
  obtain ⟨next, reads, gives⟩ := collect_reads archiver rebased ⟨.two⟩ rfl run spelled
  let failed : StoreWorld := { World.start base [] with flight := [.read run] }.record ⟨.read run, .error ⟨.other, ""⟩⟩
  have fails : Reaches (ownedBackend True) (collect archiver rebased, World.start base []) (.done (), failed) := by
    rw [reads, ← gives ""]
    refine .single (.exchange (.read run) next _ _ _ (.lost _ _ trivial ?_))
    intro absent
    cases absent
  have passed : Passed archiver rebased base failed.slots failed.flight := .pass base [] .untouched _ failed fails
  obtain ⟨_, ⟨world, reached⟩, _⟩ :=
    collection_resumable archiver rebased base rebased_authored failed.slots failed.flight passed
  have decoded := (decodeWal_ok_iff archiver _ _ _ _).mpr ⟨by rw [sized]; decide, archiver.output_accessed _, rfl, rfl⟩
  have nonempty : archiver.output laterRun.archived ≠ [] := by
    intro empty
    rw [empty] at sized
    cases sized
  have only : ∀ batch, Between rebased batch → batch = ⟨.two⟩ := by
    intro batch between
    have above : 1 < batch.get := between.1
    have below : batch.get ≤ 2 := between.2
    exact BatchId.get_injective _ _ (Nat.le_antisymm below above)
  have holds : HoldsObject archiver rebased base ⟨.two⟩ run laterRun := ⟨_, rfl, decoded, nonempty⟩
  have runSwept : Sweeps archiver rebased base run := by
    refine .inl ⟨⟨.two⟩, ⟨⟨by decide, by decide⟩, ran, laterRun, _, holds, rfl⟩, ?_⟩
    intro earlier between before
    rw [only earlier between] at before
    exact absurd before (Nat.lt_irrefl _)
  have tableSwept : Sweeps archiver rebased base table := by
    refine .inr ⟨⟨_, by decide +kernel, named⟩, ?_⟩
    intro batch between key _
    rw [only batch between]
    exact .inr ⟨laterRun, _, rfl, decoded, nonempty⟩
  have spared : ¬ Sweeps archiver rebased base genesis := by
    rintro (⟨batch, dead, _⟩ | ⟨⟨object, dropped, spells⟩, _⟩)
    · have head := walKey_head batch
      rw [← dead.2.1, first, sealKey_head] at head
      cases head
    · have head := tableKey_head _ (rebased_authored.dropped object dropped)
      rw [← spells, first, sealKey_head] at head
      cases head
  have ends := passed.ends rebased_authored failed.slots failed.flight world reached
  refine ⟨archiver, base, run, table, genesis, failed, world, ran, named, first, fails, rfl, rfl, rfl, reached, (ends run).1 runSwept,
    (ends table).1 tableSwept, ?_⟩
  rw [(ends genesis).2 spared]
  rfl

end StromDB
