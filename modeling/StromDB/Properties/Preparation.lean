import StromDB.Engine.Reload
import StromDB.Properties.Loading

namespace StromDB

open Bootstrap Checked

section

variable [Rkyv] [OrdMap.Differ] (input : CheckpointInput) (legal : input.source.Legal) (tables after : Tables)
  (loads : Loads tables input.source input.base) (folded : Forest.Folded input.base input.snapshot) (created : List EncodedTable)
  (prepared : PreparedCheckpoint) (done : prepareCheckpoint input = .ok (.ok (created, prepared)))
  (kept : ∀ table ∈ input.source.tables, ∀ body, tables table.object = some body → after table.object = some body)
  (emitted : ∀ table ∈ created, after table.key = some table.object)

include legal loads folded done kept emitted

theorem checkpoint_loads_snapshot :
    Loads after prepared.successor input.snapshot ∧
    prepared.successor.replay = .through input.ticket.cut ⟨input.ticket.attempt.ownerClaim⟩ ∧
    ∀ sources, planBootstrapSources prepared.successor = .ok sources →
      ¬ (Bootstrap.TableRows.read after prepared.successor.partition).Exceeding prepared.successor →
      ∀ claimed, handleAll
        (tableReads (sources.map fun source =>
          (source, (Bootstrap.TableRows.read after prepared.successor.partition).decoded source.table)))
        (readNextTable ⟨claimed, sources, MergedRows.empty, none, none⟩) =
          .ok (effect (.observingWalTail ⟨claimed, input.snapshot, input.snapshot⟩ none) .observeWalTail) := by
  obtain ⟨loaded, successorLegal, replay⟩ :=
    prepareCheckpoint_loads legal tables after loads folded created prepared done kept emitted
  refine ⟨loaded, replay, ?_⟩
  intro sources planned fits claimed
  exact loaded.handled after prepared.successor input.snapshot successorLegal sources planned fits claimed

end

def claimedSeal : Seal := ⟨firstPartition, ⟨.two⟩, .genesis, TreeVersion.empty, TreeVersion.empty⟩

def firstTicket (cut : BatchId) : CheckpointTicket := ⟨claimedSeal.generation, cut, ⟨claimedSeal.generation, 0⟩⟩

attribute [local instance] plainRkyv OrdMap.exactDiffer

def firstInput : CheckpointInput := ⟨firstTicket firstBatch, claimedSeal, Forest.empty, oneStream⟩

theorem claimed_legal : claimedSeal.Legal :=
  ((Seal.new_ok_iff claimedSeal.partition claimedSeal.generation claimedSeal.replay claimedSeal.directory claimedSeal.ledger
    claimedSeal).mp (by decide +kernel)).2

def firstPreparation : Option (List EncodedTable × PreparedCheckpoint) :=
  match prepareCheckpoint firstInput with
  | .ok (.ok result) => some result
  | _ => none

theorem firstPreparation_isSome : firstPreparation.isSome = true := by decide +kernel

def firstCreated : List EncodedTable := (firstPreparation.get firstPreparation_isSome).1

def firstPrepared : PreparedCheckpoint := (firstPreparation.get firstPreparation_isSome).2

theorem first_prepared : prepareCheckpoint firstInput = .ok (.ok (firstCreated, firstPrepared)) := by
  have found : firstPreparation = some (firstCreated, firstPrepared) := (Option.some_get firstPreparation_isSome).symm
  unfold firstPreparation at found
  split at found
  · rename_i result prepared
    rw [prepared, Option.some.inj found]
  · cases found

def firstTables : Tables := fun key => (firstCreated.find? fun table => table.key = key).map EncodedTable.object

theorem claimed_loads (tables : Tables) : Loads tables claimedSeal Forest.empty :=
  (loads_iff tables claimedSeal claimed_legal Forest.empty).mpr
    ⟨Forest.Consistent.empty, [], [], List.Forall₂.nil, List.Forall₂.nil, rfl, rfl⟩

theorem checkpoint_loads_snapshot_first : firstCreated.length = 2 ∧ Loads firstTables firstPrepared.successor oneStream :=
  ⟨by decide +kernel, (checkpoint_loads_snapshot firstInput claimed_legal firstTables firstTables (claimed_loads firstTables)
    oneStream_folded firstCreated firstPrepared first_prepared (fun _ _ _ held => held) (by decide +kernel)).1⟩

def Openable (sealed : Seal) : Prop := sealed.Legal ∧ ∃ sources, planBootstrapSources sealed = .ok sources

-- Claims and checkpoints, each on the Seal before it, with any valid base and
-- any snapshot folded from it.
inductive CheckpointChain [Rkyv] [OrdMap.Differ] (first : Seal) : Seal → Prop where
  | start : CheckpointChain first first
  | claim (sealed next : Seal) (chain : CheckpointChain first sealed) (claimed : sealed.claimSuccessor = .ok next) :
      CheckpointChain first next
  | checkpoint (input : CheckpointInput) (created : List EncodedTable) (prepared : PreparedCheckpoint)
      (chain : CheckpointChain first input.source) (base : input.base.Consistent)
      (folded : Forest.Folded input.base input.snapshot) (done : prepareCheckpoint input = .ok (.ok (created, prepared))) :
      CheckpointChain first prepared.successor

theorem planBootstrapSources_of_bounds {sealed : Seal} (bounds : SourceBounds sealed) :
    planBootstrapSources sealed = .ok (treeSources sealed.directory ++ treeSources sealed.ledger) := by
  rw [planBootstrapSources, if_neg]
  exact fun exceeds => exceeds.elim (Nat.not_lt.mpr bounds.1) (Nat.not_lt.mpr bounds.2)

theorem Openable.claim {sealed next : Seal} (openable : Openable sealed) (claimed : sealed.claimSuccessor = .ok next) :
    Openable next := by
  obtain ⟨legal, sources, planned⟩ := openable
  refine ⟨legal.claim claimed, sources, ?_⟩
  rw [(Seal.claimSuccessor_ok_iff.mp claimed).2]
  exact planned

theorem Openable.checkpoint [Rkyv] [OrdMap.Differ] {input : CheckpointInput} (openable : Openable input.source)
    (base : input.base.Consistent)
    (folded : Forest.Folded input.base input.snapshot) (created : List EncodedTable) (prepared : PreparedCheckpoint)
    (done : prepareCheckpoint input = .ok (.ok (created, prepared))) : Openable prepared.successor := by
  obtain ⟨unexhausted, owner⟩ := prepareCheckpoint_success done
  obtain ⟨generation, predates, cells, carried, directoryTables, ledgerTables, directory, ledger, encoded, _, _, _, _, _, legal,
    bounds, planned⟩ := prepareCheckpoint_planned openable.1 base (folded.consistent _ _ base) (folded.grows) owner
      unexhausted
  rw [planned] at done
  obtain ⟨checked, passed, done⟩ := bind_ok done
  cases done
  rw [PreparedCheckpoint.new_ok passed]
  exact ⟨legal, _, planBootstrapSources_of_bounds bounds⟩

theorem advances_iff {replay : WalReplayPoint} {cut : BatchId} :
    (replay.batch.all fun sourceCut => sourceCut < cut) = true ↔ replay.cut < cut.get := by
  refine ⟨?_, advances_batch⟩
  cases replay with
  | genesis => exact fun _ => cut.positive
  | through batch owner => simp [WalReplayPoint.batch, WalReplayPoint.cut]

theorem planned_seal_openable [Rkyv] [OrdMap.Differ] :
    (∀ input : CheckpointInput, Openable input.source → input.base.Consistent → Forest.Folded input.base input.snapshot →
      input.ticket.source = input.source.generation → input.ticket.attempt.ownerClaim.get ≤ input.source.generation.get →
      input.source.generation.get + 1 < 2 ^ 64 →
      ∃ created successor, Openable successor ∧ successor.directory.runs.length ≤ 16 ∧ successor.ledger.runs.length ≤ 16 ∧
        successor.tables.length ≤ 1024 ∧ (successor.tables.map fun table => table.objectBytes.get).sum ≤ 32 * 2 ^ 30 ∧
        (input.source.replay.cut < input.ticket.cut.get →
          ∃ candidate, prepareCheckpoint input = .ok (.ok (created, ⟨input.source, successor, input.snapshot, candidate⟩))) ∧
        (¬ input.source.replay.cut < input.ticket.cut.get →
          prepareCheckpoint input = .error "a prepared checkpoint strictly advances its source replay cut")) ∧
    ∀ first last, Openable first → CheckpointChain first last → Openable last := by
  refine ⟨?_, ?_⟩
  · intro input openable base folded named owner unexhausted
    obtain ⟨generation, predates, cells, carried, directoryTables, ledgerTables, directory, ledger, encoded, _, succeeds, _, _,
      same, legal, bounds, planned⟩ := prepareCheckpoint_planned openable.1 base (folded.consistent _ _ base)
        (folded.grows) owner unexhausted
    refine ⟨directoryTables ++ ledgerTables, encoded.sealed, ⟨legal, _, planBootstrapSources_of_bounds bounds⟩,
      encoded.sealed.directory.bounded, encoded.sealed.ledger.bounded, bounds.1, bounds.2, ?_, ?_⟩
    · intro advances
      refine ⟨encoded, ?_⟩
      simp only [planned, PreparedCheckpoint.new, require, named, same, advances_iff.mpr advances, succeeds,
        ok_bind, pure_eq_ok, if_true]
    · intro behind
      rw [← advances_iff] at behind
      simp only [planned, PreparedCheckpoint.new, require, named, same, behind, succeeds, ok_bind, if_true]
      rfl
  · intro first last openable chain
    induction chain with
    | start => exact openable
    | claim sealed next _ claimed held => exact held.claim claimed
    | checkpoint input created prepared _ base folded done held => exact held.checkpoint base folded created prepared done

theorem layered_openable : Openable layeredSeal := ⟨layered_legal, _, rfl⟩

def layeredInput (cut : BatchId) : CheckpointInput :=
  ⟨⟨layeredSeal.generation, cut, ⟨layeredSeal.generation, 0⟩⟩, layeredSeal, Forest.empty, oneStream⟩

theorem planned_seal_openable_layered : ∃ created successor candidate, Openable successor ∧
    prepareCheckpoint (layeredInput ⟨⟨2, by decide, by decide⟩⟩) =
      .ok (.ok (created, ⟨layeredSeal, successor, oneStream, candidate⟩)) := by
  obtain ⟨created, successor, openable, _, _, _, _, accepted, _⟩ :=
    planned_seal_openable.1 (layeredInput ⟨⟨2, by decide, by decide⟩⟩) layered_openable Forest.Consistent.empty oneStream_folded
      rfl (by decide) (by decide)
  obtain ⟨candidate, done⟩ := accepted (by decide)
  exact ⟨created, successor, candidate, openable, done⟩

theorem planned_cut_not_advanced : Openable (layeredInput firstBatch).source ∧ (layeredInput firstBatch).base.Consistent ∧
    Forest.Folded (layeredInput firstBatch).base (layeredInput firstBatch).snapshot ∧
    (layeredInput firstBatch).ticket.source = layeredSeal.generation ∧
    (layeredInput firstBatch).ticket.attempt.ownerClaim.get ≤ layeredSeal.generation.get ∧
    prepareCheckpoint (layeredInput firstBatch) = .error "a prepared checkpoint strictly advances its source replay cut" :=
  ⟨layered_openable, Forest.Consistent.empty, oneStream_folded, rfl, by decide, by decide +kernel⟩

end StromDB
