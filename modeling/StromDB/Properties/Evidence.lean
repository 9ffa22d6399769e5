import StromDB.Engine.TypedStores
import StromDB.Properties.Formats
import StromDB.Properties.Keys

namespace StromDB

open Archive Client Durable

section

variable {α : Type} {post : Checked α → StoreWorld → Prop}

theorem createTyped_spec {spelling : String} {bytes : Bytes} (unfit : String) (nonempty : bytes ≠ [])
    (fits : bytes.length ≤ PUT_BYTES_MAX)
    (key : ObjectKey) (spelled : key.text = spelling) (world : StoreWorld) (fresh : world.Fresh) :
    SendsOnce (createTyped spelling bytes unfit) (Reports key bytes) world := by
  simp only [createTyped, objectKey_ok spelled, PutBody.tryFrom_ok nonempty fits, Checked.expectOk, Program.expect,
    Program.done_bind]
  refine Program.Meets.bind _ _ ?_ ?_ world (createIfAbsent_spec key ⟨bytes, nonempty, fits⟩ world fresh)
  · intro evidence later known
    refine reports_done known.1 ?_
    intro found same
    exact known.2 found (congrArg _ (Checked.mapError_ok_iff.mp same))
  · intro message later known
    exact ⟨known.1, (by intros; contradiction)⟩

theorem reported_done {key : ObjectKey} {bytes : Bytes} {evidence : Except TypedStoreError CreateEvidence} {value : α}
    (concludes : ∀ world : StoreWorld, (∀ found, evidence = .ok found → EvidenceHolds key bytes world found) → post (.ok value) world)
    (world : StoreWorld) (known : Reports key bytes (.ok evidence) world) :
    SendsOnce (Program.done value) post world := by
  have lasting : Lasting fun world : StoreWorld => ∀ found, evidence = .ok found → EvidenceHolds key bytes world found :=
    fun before after more holds found same => EvidenceHolds.lasting key bytes found before after more (holds found same)
  exact lasting.done value (fun last _ holds => concludes last holds) world known.1 fun found same => known.2 found (congrArg _ same)

end

section

variable [Rkyv] (archiver : Archiver ArchivedWalObject) (key : ObjectKey) (world : StoreWorld)

omit [Rkyv] in
theorem publishAuthority_spec (candidate : Durable.EncodedAuthoritySeal)
    (spelled : key.text = sealKey candidate.encoded.sealed.generation)
    (fresh : world.Fresh) :
    SendsOnce (SealStore.publishAuthority candidate) (fun outcome world =>
      (outcome = .ok (.ok .authored) → world.Held key ⟨candidate.encoded.bytes.bytes, true⟩) ∧
      (outcome = .ok (.ok .noAuthority) → ∃ other, world.Held key ⟨other, false⟩)) world := by
  have fits : candidate.encoded.bytes.bytes.length ≤ PUT_BYTES_MAX := candidate.encoded.bytes.bounded.trans (by decide)
  refine Program.Meets.bind _ _ ?_ ?_ world
    (createTyped_spec _ candidate.encoded.bytes.nonempty fits key spelled world fresh)
  · intro evidence later known
    refine reported_done ?_ later known
    intro last holds
    cases evidence with
    | error error => exact ⟨nofun, nofun⟩
    | ok found =>
      have shown := holds found rfl
      cases found with
      | direct => exact ⟨fun _ => shown, nofun⟩
      | durableMatch | notOurs => exact ⟨nofun, fun _ => shown.1⟩
      | unresolved => exact ⟨nofun, nofun⟩
  · intro message later known
    exact ⟨nofun, nofun⟩

omit [Rkyv] in
theorem establishGenesis_spec (candidate : Durable.EncodedGenesisSeal)
    (spelled : key.text = sealKey candidate.encoded.sealed.generation)
    (fresh : world.Fresh) :
    SendsOnce (SealStore.establishGenesis candidate) (fun outcome world =>
      outcome = .ok (.ok .established) → ∃ own, world.Held key ⟨candidate.encoded.bytes.bytes, own⟩) world := by
  have fits : candidate.encoded.bytes.bytes.length ≤ PUT_BYTES_MAX := candidate.encoded.bytes.bounded.trans (by decide)
  refine Program.Meets.bind _ _ ?_ ?_ world
    (createTyped_spec _ candidate.encoded.bytes.nonempty fits key spelled world fresh)
  · intro evidence later known
    refine reported_done ?_ later known
    intro last holds
    cases evidence with
    | error error => exact nofun
    | ok found =>
      have shown := holds found rfl
      cases found with
      | direct => exact fun _ => ⟨true, shown⟩
      | durableMatch => exact fun _ => shown.2
      | notOurs | unresolved => exact nofun
  · intro message later known
    exact nofun

theorem readWal_spec (partition : PartitionId) (batch : BatchId) (spelled : key.text = walKey batch) (sent : world.creates ≤ 1) :
    SendsOnce (WalStore.readWal archiver partition batch) (fun outcome world =>
      world.creates ≤ 1 ∧ ∀ observed, outcome = .ok (.ok (some observed)) → ∃ own,
      world.Held key ⟨observed.bytes.bytes, own⟩) world := by
  simp only [WalStore.readWal, objectKey_ok spelled, Program.expect, Program.done_bind]
  refine Program.Meets.bind _ _ ?_ ?_ world (read_spec key _ world sent)
  · intro reply later known
    have lasting : Lasting fun world : StoreWorld => ∀ raw, reply = .ok (some raw) → ∃ own, world.Held key ⟨raw.body, own⟩ :=
      fun _ _ more held raw same => (held raw same).imp fun _ there => there.later more
    refine lasting.done _ ?_ later known.1 fun raw same => known.2 raw (congrArg _ same)
    intro last sent held
    refine ⟨sent, ?_⟩
    intro observed same
    obtain ⟨raw, found, _, kept⟩ := WalStore.observeWal_some (Except.ok.inj same)
    exact kept ▸ held raw found
  · intro message later known
    exact ⟨known.1, (by intros; contradiction)⟩

theorem establishWal_spec (candidate : Durable.EncodedWal) (spelled : key.text = walKey candidate.batch) (fresh : world.Fresh) :
    SendsOnce (WalStore.establishWal archiver candidate) (fun outcome world =>
      (outcome = .ok (.ok .durable) → ∃ own, world.Held key ⟨candidate.bytes.bytes, own⟩) ∧
      (outcome = .ok (.ok .occupied) → ∃ occupant, occupant.body ≠ candidate.bytes.bytes ∧ world.Held key occupant)) world := by
  have fits : candidate.bytes.bytes.length ≤ PUT_BYTES_MAX := candidate.bytes.bounded.trans (by decide)
  refine Program.Meets.bind _ _ ?_ ?_ world (createTyped_spec _ candidate.bytes.nonempty fits key spelled world fresh)
  · intro evidence later known
    cases evidence with
    | error error => exact reported_done (fun _ _ => ⟨nofun, nofun⟩) later known
    | ok found =>
      cases found with
      | direct => exact reported_done (fun _ holds => ⟨fun _ => ⟨true, holds _ rfl⟩, nofun⟩) later known
      | durableMatch => exact reported_done (fun _ holds => ⟨fun _ => (holds _ rfl).2, nofun⟩) later known
      | notOurs => exact reported_done (fun _ holds => ⟨nofun, fun _ => (holds _ rfl).2⟩) later known
      | unresolved =>
        refine Program.Meets.bind _ _ ?_ ?_ later
          (readWal_spec archiver key later candidate.partition candidate.batch spelled known.1)
        · intro reply last seen
          have lasting : Lasting fun world : StoreWorld =>
              ∀ observed, reply = .ok (some observed) → ∃ own, world.Held key ⟨observed.bytes.bytes, own⟩ :=
            fun _ _ more held observed same => (held observed same).imp fun _ there => there.later more
          refine lasting.done _ ?_ last seen.1 fun observed same => seen.2 observed (congrArg _ same)
          intro final _ held
          unfold WalStore.reconcileObserved
          split
          · exact ⟨nofun, nofun⟩
          · rename_i observed
            obtain ⟨own, there⟩ := held observed rfl
            split
            case isTrue same => exact ⟨fun _ => ⟨own, same ▸ there⟩, nofun⟩
            case isFalse differs => exact ⟨nofun, fun _ => ⟨_, differs, there⟩⟩
          · exact ⟨nofun, nofun⟩
        · intro message last seen
          exact ⟨nofun, nofun⟩
  · intro message later known
    exact ⟨nofun, nofun⟩

section

variable (candidate : Durable.EncodedTable) (spelled : key.text = tableKey candidate.key)

include spelled

omit [Rkyv] in
theorem reconcileTable_spec (sent : world.creates ≤ 1) :
    SendsOnce (TableStore.reconcileTable candidate) (fun outcome world =>
      world.creates ≤ 1 ∧ (outcome = .ok (.ok .same) → ∃ own, world.Held key ⟨candidate.bytes.bytes, own⟩)) world := by
  simp only [TableStore.reconcileTable, objectKey_ok spelled, Program.expect, Program.done_bind]
  refine Program.Meets.bind _ _ ?_ ?_ world (read_spec key _ world sent)
  · intro reply later known
    have lasting : Lasting fun world : StoreWorld => ∀ raw, reply = .ok (some raw) → ∃ own, world.Held key ⟨raw.body, own⟩ :=
      fun _ _ more held raw same => (held raw same).imp fun _ there => there.later more
    refine lasting.done _ ?_ later known.1 fun raw same => known.2 raw (congrArg _ same)
    intro last sent held
    refine ⟨sent, ?_⟩
    intro same
    cases reply with
    | error error => cases same
    | ok observed =>
      cases observed with
      | none => cases same
      | some raw =>
        have equal : raw.body = candidate.bytes.bytes := by
          by_contra differs
          simp only [Except.mapError, Except.map, TableStore.candidateEvidence, if_neg differs] at same
          cases same
        exact equal ▸ held raw rfl
  · intro message later known
    exact ⟨known.1, (by intros; contradiction)⟩

omit [Rkyv] in
theorem establishTable_spec (fresh : world.Fresh) :
    SendsOnce (TableStore.establishTable candidate) (fun outcome world =>
      outcome = .ok .established → ∃ own, world.Held key ⟨candidate.bytes.bytes, own⟩) world := by
  have fits : candidate.bytes.bytes.length ≤ PUT_BYTES_MAX := candidate.bytes.bounded.trans (by decide)
  refine Program.Meets.bind _ _ ?_ ?_ world (createTyped_spec _ candidate.bytes.nonempty fits key spelled world fresh)
  · intro evidence later known
    cases evidence with
    | error error => cases error <;> exact reported_done (fun _ _ => nofun) later known
    | ok found =>
      cases found with
      | direct => exact reported_done (fun _ holds _ => ⟨true, holds _ rfl⟩) later known
      | durableMatch => exact reported_done (fun _ holds _ => (holds .durableMatch rfl).2) later known
      | notOurs => exact reported_done (fun _ _ => nofun) later known
      | unresolved =>
        refine Program.Meets.bind _ _ ?_ ?_ later (reconcileTable_spec key later candidate spelled known.1)
        · intro reply last seen
          have lasting : Lasting fun world : StoreWorld => reply = .ok .same → ∃ own, world.Held key ⟨candidate.bytes.bytes, own⟩ :=
            fun _ _ more held same => (held same).imp fun _ there => there.later more
          refine lasting.done _ ?_ last seen.1 fun same => seen.2 (congrArg _ same)
          intro final _ held established
          refine held ?_
          unfold TableStore.reconciled at established
          split at established
          · rfl
          · cases established
          · cases established
          · rename_i error
            cases error <;> cases established
        · intro message last seen
          exact nofun
  · intro message later known
    exact nofun

end

end

def callStart (contents : ObjectKey → Option Bytes) : StoreWorld :=
  World.start (fun key => (contents key).map fun body => ⟨body, false⟩) []

theorem callStart_fresh (contents : ObjectKey → Option Bytes) : (callStart contents).Fresh := by
  refine World.start_fresh ?_
  intro key occupant here
  obtain ⟨body, _, rfl⟩ := Option.map_eq_some_iff.mp here
  rfl

theorem create_evidence_sound [Rkyv] (archiver : Archiver ArchivedWalObject) (contents : ObjectKey → Option Bytes) :
    (∀ (candidate : Durable.EncodedAuthoritySeal) (key : ObjectKey), key.text = sealKey candidate.encoded.sealed.generation →
      ∀ program world, Reaches sharedBackend (SealStore.publishAuthority candidate, callStart contents) (program, world) →
        world.creates ≤ 1 ∧
        (program = .done (.ok .authored) → world.Held key ⟨candidate.encoded.bytes.bytes, true⟩) ∧
        (program = .done (.ok .noAuthority) → ∃ other, world.Held key ⟨other, false⟩)) ∧
    (∀ (candidate : Durable.EncodedWal) (key : ObjectKey), key.text = walKey candidate.batch →
      ∀ program world, Reaches sharedBackend (WalStore.establishWal archiver candidate, callStart contents) (program, world) →
        world.creates ≤ 1 ∧
        (program = .done (.ok .durable) → ∃ own, world.Held key ⟨candidate.bytes.bytes, own⟩) ∧
        (program = .done (.ok .occupied) → ∃ occupant, occupant.body ≠ candidate.bytes.bytes ∧ world.Held key occupant)) ∧
    (∀ (candidate : Durable.EncodedTable) (key : ObjectKey), key.text = tableKey candidate.key →
      ∀ program world, Reaches sharedBackend (TableStore.establishTable candidate, callStart contents) (program, world) →
        world.creates ≤ 1 ∧ (program = .done .established → ∃ own, world.Held key ⟨candidate.bytes.bytes, own⟩)) ∧
    ∀ (candidate : Durable.EncodedGenesisSeal) (key : ObjectKey), key.text = sealKey candidate.encoded.sealed.generation →
      ∀ program world, Reaches sharedBackend (SealStore.establishGenesis candidate, callStart contents) (program, world) →
        world.creates ≤ 1 ∧ (program = .done (.ok .established) → ∃ own, world.Held key ⟨candidate.encoded.bytes.bytes, own⟩) := by
  have fresh := callStart_fresh contents
  refine ⟨?_, ?_, ?_, ?_⟩
  · intro candidate key spelled program world reached
    have meets := publishAuthority_spec key _ candidate spelled fresh
    refine ⟨Program.Meets.guarded (Program.Meets.reaches meets reached), ?_, ?_⟩
    · rintro rfl
      exact (Program.Meets.outcome meets reached).1 rfl
    · rintro rfl
      exact (Program.Meets.outcome meets reached).2 rfl
  · intro candidate key spelled program world reached
    have meets := establishWal_spec archiver key _ candidate spelled fresh
    refine ⟨Program.Meets.guarded (Program.Meets.reaches meets reached), ?_, ?_⟩
    · rintro rfl
      exact (Program.Meets.outcome meets reached).1 rfl
    · rintro rfl
      exact (Program.Meets.outcome meets reached).2 rfl
  · intro candidate key spelled program world reached
    have meets := establishTable_spec key _ candidate spelled fresh
    refine ⟨Program.Meets.guarded (Program.Meets.reaches meets reached), ?_⟩
    rintro rfl
    exact Program.Meets.outcome meets reached rfl
  · intro candidate key spelled program world reached
    have meets := establishGenesis_spec key _ candidate spelled fresh
    refine ⟨Program.Meets.guarded (Program.Meets.reaches meets reached), ?_⟩
    rintro rfl
    exact Program.Meets.outcome meets reached rfl

attribute [local instance] plainRkyv

def laterCandidate : Durable.EncodedAuthoritySeal where
  encoded := ⟨emptySeal laterGeneration, ⟨[0], by decide, by decide⟩⟩
  advanced := by decide

theorem create_evidence_sound_rival : ∃ (key : ObjectKey) (world : StoreWorld), key.text = sealKey laterGeneration ∧
    Reaches sharedBackend (SealStore.publishAuthority laterCandidate, callStart fun _ => some [0]) (.done (.ok .noAuthority), world) ∧
    world.creates = 1 ∧ ∃ other, world.Held key ⟨other, false⟩ := by
  obtain ⟨key, _, spelled⟩ := seal_legal laterGeneration
  obtain ⟨archiver, _⟩ := Archiver.exists_sized createdRun.archived 0
  have fits : ([0] : Bytes).length ≤ PUT_BYTES_MAX := by decide
  have begins : SealStore.publishAuthority laterCandidate =
      ((createIfAbsent key ⟨[0], by decide, fits⟩ >>= fun evidence => pure (evidence.mapError typedStoreError)) >>=
        fun evidence => pure (evidence.map publishAuthorityOutcome)) := by
    change (createTyped (sealKey laterGeneration) [0] _ >>= _) = _
    rw [createTyped, objectKey_ok spelled, PutBody.tryFrom_ok (by decide) fits]
    rfl
  obtain ⟨world, reached, once⟩ : ∃ world, Reaches sharedBackend (SealStore.publishAuthority laterCandidate,
    callStart fun _ => some [0])
      (.done (.ok .noAuthority), world) ∧ world.creates = 1 := by
    rw [begins]
    refine ⟨_, .head (.exchange (.create key [0]) _ (.error ⟨.alreadyExists, ""⟩) _ _ (.answered _ _ ⟨.inl rfl, nofun⟩)) <|
      .head (.exchange (.read key) _ (.ok ⟨1, some "etag", [.ok [0]]⟩) _ _ (.answered _ _ ⟨⟨[0], false⟩, rfl, rfl, ?_⟩)) .refl, rfl⟩
    rintro _ ⟨⟩
    rfl
  have sound := (create_evidence_sound archiver fun _ => some [0]).1 laterCandidate key spelled _ world reached
  exact ⟨key, world, spelled, reached, once, sound.2.2 rfl⟩

end StromDB
