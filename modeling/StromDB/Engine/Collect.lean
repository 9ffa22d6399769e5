import StromDB.Engine.TypedStores

namespace StromDB

open Archive Checked Client Durable WalStore List

variable [Rkyv]

section

variable (archiver : Archiver ArchivedWalObject)

def collectCoordinate (partition : PartitionId) (batch : BatchId) : StoreProgram Bool := do
  match ← readWal archiver partition batch with
  | .ok (some observed) =>
    match observed.intoRunDelete with
    | .ok proof => do
      match ← deleteRun proof with
      | .error _ => pure false
      | .ok _ => pure true
    | .error _ => pure true
  | .ok none => pure true
  | .error _ => pure false

def collectRuns (partition : PartitionId) (cut batch : BatchId) : StoreProgram Bool := do
  let continues ← collectCoordinate archiver partition batch
  if continues then
    if batch = cut then pure true
    else
      match _found : batch.successor with
      | .ok next => collectRuns partition cut next
      | .error _ => .halt "a collection coordinate below its cut has a successor"
  else pure false
termination_by 2 ^ 64 - batch.get
decreasing_by
  have later := BatchId.successor_ok_iff.mp _found
  have bound := next.raw.bounded
  simp only [BatchId.get] at later bound ⊢
  omega

def deleteTables : List TableObjectId → StoreProgram Unit
  | [] => pure ()
  | object :: rest => do
    match ← TableStore.deleteTable object with
    | .error _ => pure ()
    | .ok _ => deleteTables rest

def collect (input : CollectionInput) : StoreProgram Unit := do
  let first ← .expect (collectFirst input)
  let continues ← collectRuns archiver input.source.partition input.cut first
  if continues then deleteTables (droppedBy input) else pure ()

end

def GetResult.Whole (observation : GetResult) (body : Bytes) : Prop :=
  observation.bytes = .ok body ∧ ∃ etag, observation.etag = some etag ∧ etag ≠ ""

def ownedBackend (faulty : Prop) : Setting Bytes GetResult BackendError where
  shows observation body := observation.Shows body ∧ (¬ faulty → observation.Whole body)
  conflict := BackendError.Conflict
  absent := BackendError.Absent
  faulty := faulty
  shared := False

section

variable (archiver : Archiver ArchivedWalObject) (input : CollectionInput) (base : StoreSlots)

def ReadsAs (partition : PartitionId) (batch : BatchId) (body : Bytes) (object : WalObject) : Prop :=
  Durable.decodeWal archiver partition batch body = .ok object ∧ body ≠ []

def HoldsObject (batch : BatchId) (key : ObjectKey) (object : WalObject) : Prop :=
  ∃ occupant, base key = some occupant ∧ ReadsAs archiver input.source.partition batch occupant.body object

def Between (batch : BatchId) : Prop := input.source.replay.cut < batch.get ∧ batch.get ≤ input.cut.get

def Passable (batch : BatchId) : Prop :=
  ∀ key : ObjectKey, key.text = walKey batch → base key = none ∨ ∃ object, HoldsObject archiver input base batch key object

def DeadRun (key : ObjectKey) (batch : BatchId) : Prop :=
  Between input batch ∧ key.text = walKey batch ∧ ∃ object facts, HoldsObject archiver input base batch key object ∧
  object.body = .run facts

def DeadTable (key : ObjectKey) : Prop := ∃ object ∈ droppedBy input, key.text = tableKey object

-- What one pass without failures deletes: it ends at the first coordinate it
-- cannot read.
def Sweeps (key : ObjectKey) : Prop :=
  (∃ batch, DeadRun archiver input base key batch ∧
    ∀ earlier, Between input earlier → earlier.get < batch.get → Passable archiver input base earlier) ∨
  DeadTable input key ∧ ∀ batch, Between input batch → Passable archiver input base batch

def PermitsDelete (trace : List StoreEvent) (key : ObjectKey) : Prop :=
  (∃ batch reply observed facts, Between input batch ∧ key.text = walKey batch ∧ ⟨.read key, reply⟩ ∈ trace ∧
    observeWal archiver input.source.partition batch (observeBounded key WAL_ENCODED_BYTES_MAX reply) = .ok (some observed) ∧
    observed.object.body = .run facts) ∨
  DeadTable input key

abbrev CollectSweeping (cleared : ObjectKey → Prop) : StoreWorld → Prop :=
  World.Sweeping base (Sweeps archiver input base) (PermitsDelete archiver input) cleared

end

section

variable {archiver : Archiver ArchivedWalObject} {input : CollectionInput} {base : StoreSlots} {batch : BatchId} {key : ObjectKey}
    {reply : Except BackendError GetResult} {faulty : Prop}

theorem ReadsAs.unique {partition : PartitionId} {body : Bytes} {first second : WalObject}
    (one : ReadsAs archiver partition batch body first) (other : ReadsAs archiver partition batch body second) : first = second := by
  have same := one.1
  rw [other.1] at same
  cases same
  rfl

omit [Rkyv] in
theorem consumeChunks_whole (key : ObjectKey) (bytesMax : Nat) (stream : List (Except BackendError Bytes)) : ∀ body collected : Bytes,
    (stream.mapM id).map List.flatten = .ok collected → body.length + collected.length ≤ bytesMax →
    consumeChunks key bytesMax body stream = .ok (body ++ collected) := by
  induction stream with
  | nil =>
    rintro body _ ⟨⟩ _
    exact congrArg Except.ok (append_nil body).symm
  | cons chunk rest ih =>
    intro body collected gathered fits
    cases chunk with
    | error error => cases gathered
    | ok bytes =>
      cases all : rest.mapM id with
      | error error =>
        simp only [mapM_cons, id, ok_bind, all, error_bind] at gathered
        cases gathered
      | ok chunks =>
        simp only [mapM_cons, id, ok_bind, all, pure_eq_ok, Except.map, flatten_cons,
          Except.ok.injEq] at gathered
        subst gathered
        rw [length_append] at fits
        simp only [consumeChunks, Except.mapError, ok_bind]
        rw [if_neg (by omega), ih (body ++ bytes) chunks.flatten (by rw [all]; rfl) (by rw [length_append]; omega),
          append_assoc]

omit [Rkyv] in
theorem observeBounded_whole (key : ObjectKey) (bytesMax : Nat) (observation : GetResult) (body : Bytes)
    (size : observation.size = body.length)
    (whole : observation.Whole body) (fits : body.length ≤ bytesMax) :
    ∃ etag, observeBounded key bytesMax (.ok observation) = .ok (some ⟨body, etag⟩) := by
  obtain ⟨gathered, etag, tagged, nonempty⟩ := whole
  have consumed := consumeChunks_whole key bytesMax observation.stream [] body gathered (by simpa using fits)
  refine ⟨⟨etag, nonempty⟩, ?_⟩
  simp only [observeBounded, consumeBoundedObject, requireEtag, tagged, dif_neg nonempty, ok_bind, consumed, nil_append,
    Except.map]
  exact if_neg (by omega)

theorem observed_some {observed : ObservedWal}
    (read : observeWal archiver input.source.partition batch (observeBounded key WAL_ENCODED_BYTES_MAX reply) = .ok (some observed))
    (seen : ∀ view, reply = .ok view → ∃ occupant, base key = some occupant ∧ (ownedBackend faulty).shows view occupant.body) :
    HoldsObject archiver input base batch key observed.object := by
  obtain ⟨raw, found, decoded, kept⟩ := observeWal_some read
  obtain ⟨observation, rfl, gathered⟩ := observeBounded_some found
  obtain ⟨occupant, here, ⟨_, body⟩, _⟩ := seen observation rfl
  refine ⟨occupant, here, ?_⟩
  rw [← body _ gathered]
  exact ⟨decoded, kept ▸ observed.bytes.nonempty⟩

theorem observed_none
    (read : observeWal archiver input.source.partition batch (observeBounded key WAL_ENCODED_BYTES_MAX reply) = .ok none) :
    ∃ error, reply = .error error ∧ error.Absent := by
  unfold observeWal at read
  split at read
  · cases read
  · rename_i nothing
    cases reply with
    | ok observation =>
      simp only [observeBounded] at nothing
      split at nothing
      · cases nothing
      cases consumed : consumeBoundedObject key WAL_ENCODED_BYTES_MAX observation <;> rw [consumed] at nothing <;> cases nothing
    | error error =>
      refine ⟨error, rfl, ?_⟩
      simp only [observeBounded] at nothing
      split at nothing
      case isTrue absent => exact absent
      case isFalse => cases nothing
  · split at read
    · cases read
    split at read <;> cases read

theorem observed_error (spelled : key.text = walKey batch) (error : TypedStoreError)
    (read : observeWal archiver input.source.partition batch (observeBounded key WAL_ENCODED_BYTES_MAX reply) = .error error)
    (seen : ∀ view, reply = .ok view → ∃ occupant, base key = some occupant ∧ (ownedBackend faulty).shows view occupant.body)
    (lost : ∀ error, reply = .error error → ¬ error.Absent → faulty) (quiet : ¬ faulty) : ¬ Passable archiver input base batch := by
  intro passable
  cases reply with
  | error error =>
    have absent : error.Absent := by
      by_contra present
      exact quiet (lost error rfl present)
    simp only [observeBounded, if_pos (show error.kind = .notFound from absent), observeWal] at read
    cases read
  | ok observation =>
    obtain ⟨occupant, here, ⟨size, _⟩, whole⟩ := seen observation rfl
    rcases passable key spelled with vacant | ⟨object, other, there, decoded, nonempty⟩
    · rw [here] at vacant
      cases vacant
    · rw [here, Option.some.injEq] at there
      subst there
      have fits := ((decodeWal_ok_iff archiver _ _ _ _).mp decoded).1
      obtain ⟨etag, found⟩ := observeBounded_whole key WAL_ENCODED_BYTES_MAX observation occupant.body size (whole quiet) fits
      have kept := PutBody.tryFrom_ok nonempty (fits.trans (by decide))
      simp only [found, observeWal, decoded, kept] at read
      cases read

end

section

variable {archiver : Archiver ArchivedWalObject} {input : CollectionInput} {base : StoreSlots} {faulty : Prop}
    (ranged : ∀ object ∈ droppedBy input, object.InRange)

theorem passable_at {batch : BatchId} {key : ObjectKey} (spelled : key.text = walKey batch)
    (here : base key = none ∨ ∃ object, HoldsObject archiver input base batch key object) : Passable archiver input base batch := by
  intro other same
  exact ObjectKey.text_injective other key (same.trans spelled.symm) ▸ here

def CoordinateEnds (archiver : Archiver ArchivedWalObject) (input : CollectionInput) (base : StoreSlots) (faulty : Prop)
    (cleared : ObjectKey → Prop) (batch : BatchId) (key : ObjectKey) (outcome : Checked Bool) (world : StoreWorld) : Prop :=
  ∃ continues, outcome = .ok continues ∧ CollectSweeping archiver input base cleared world ∧
    (continues = true → Passable archiver input base batch ∧ (Sweeps archiver input base key → world.slots key = none)) ∧
    (continues = false → ¬ faulty → ¬ Passable archiver input base batch)

theorem coordinate_beyond {cleared : ObjectKey → Prop} {batch : BatchId} {key : ObjectKey}
    (passable : Passable archiver input base batch)
    (world : StoreWorld) (sweeping : CollectSweeping archiver input base cleared world)
    (gone : Sweeps archiver input base key → world.slots key = none) :
    (Program.done true).Meets (ownedBackend faulty) (CollectSweeping archiver input base fun _ => False)
      (CoordinateEnds archiver input base faulty cleared batch key) world := by
  have more : CollectSweeping archiver input base (fun other => cleared other ∨ other = key ∧
      Sweeps archiver input base other) world := by
    refine sweeping.clear _ ?_
    rintro other (before | ⟨rfl, sweeps⟩)
    · exact sweeping.gone other before
    · exact gone sweeps
  refine World.Sweeping.done id true ?_ world more
  intro last swept
  exact ⟨true, rfl, swept.clear _ fun other before => swept.gone other (.inl before),
    fun _ => ⟨passable, fun sweeps => swept.gone key (.inr ⟨rfl, sweeps⟩)⟩, nofun⟩

def RunsEnd (archiver : Archiver ArchivedWalObject) (input : CollectionInput) (base : StoreSlots) (faulty : Prop)
    (outcome : Checked Bool) (world : StoreWorld) : Prop :=
  ∃ continues, outcome = .ok continues ∧
    (continues = true → (∀ batch, Between input batch → Passable archiver input base batch) ∧
      CollectSweeping archiver input base (fun key => Sweeps archiver input base key ∧ ∃ batch, key.text = walKey batch) world) ∧
    (continues = false → CollectSweeping archiver input base (fun key => ¬ faulty ∧ Sweeps archiver input base key) world)

theorem sweeps_below {batch : BatchId} (blocked : ¬ Passable archiver input base batch) (between : Between input batch)
    (key : ObjectKey)
    (sweeps : Sweeps archiver input base key) : ∃ earlier : BatchId, earlier.get < batch.get ∧ key.text = walKey earlier := by
  rcases sweeps with ⟨other, dead, below⟩ | ⟨_, all⟩
  · refine ⟨other, ?_, dead.2.1⟩
    rcases Nat.lt_trichotomy other.get batch.get with less | same | more
    · exact less
    · obtain ⟨_, spelled, object, _, holds, _⟩ := BatchId.get_injective _ _ same ▸ dead
      exact absurd (passable_at spelled (.inr ⟨object, holds⟩)) blocked
    · exact absurd (below batch between more) blocked
  · exact absurd (all batch between) blocked

include ranged

theorem Sweeps.run (batch : BatchId) (key : ObjectKey) (spelled : key.text = walKey batch) (sweeps : Sweeps archiver input base key) :
    DeadRun archiver input base key batch := by
  rcases sweeps with ⟨other, dead, _⟩ | ⟨⟨object, dropped, named⟩, _⟩
  · have same : other = batch := walKey_injective (dead.2.1.symm.trans spelled)
    exact same ▸ dead
  · have head := tableKey_head object (ranged object dropped)
    rw [← named, spelled, walKey_head] at head
    cases head

theorem passable_vacant (batch : BatchId) (key : ObjectKey) (spelled : key.text = walKey batch)
    (vacant : base key = none ∨ Sweeps archiver input base key) : Passable archiver input base batch := by
  refine passable_at spelled (vacant.imp id fun sweeps => ?_)
  obtain ⟨_, _, object, _, holds, _⟩ := Sweeps.run ranged batch key spelled sweeps
  exact ⟨object, holds⟩

theorem collectCoordinate_spec (batch : BatchId) (key : ObjectKey) (spelled : key.text = walKey batch) (between : Between input batch)
    (below : ∀ earlier, Between input earlier → earlier.get < batch.get → Passable archiver input base earlier)
    (cleared : ObjectKey → Prop) (world : StoreWorld) (sweeping : CollectSweeping archiver input base cleared world) :
    (collectCoordinate archiver input.source.partition batch).Meets (ownedBackend faulty)
      (CollectSweeping archiver input base fun _ => False) (CoordinateEnds archiver input base faulty cleared batch key) world := by
  have owned : ¬ (ownedBackend faulty).shared := id
  simp only [collectCoordinate, readWal, objectKey_ok spelled, Program.expect, Program.done_bind, read, Backend.getOpts,
    Program.perform, Program.send_bind, Program.pure_eq_done]
  refine World.Sweeping.read owned key _ ?_ world sweeping
  intro reply world sweeping traced seen vacant lost
  cases result : observeWal archiver input.source.partition batch (observeBounded key WAL_ENCODED_BYTES_MAX reply) with
  | error error =>
    refine World.Sweeping.done owned false ?_ world sweeping
    intro last swept
    exact ⟨false, rfl, swept, fun on => Bool.noConfusion on, fun _ quiet => observed_error spelled error result seen lost quiet⟩
  | ok observed =>
    cases observed with
    | none =>
      obtain ⟨error, rfl, absent⟩ := observed_none result
      have gone := vacant error rfl absent
      have passable := passable_vacant ranged batch key spelled (sweeping.vacant key gone)
      exact coordinate_beyond passable world sweeping fun _ => gone
    | some observed =>
      have holds := observed_some result seen
      have passable := passable_at spelled (.inr ⟨_, holds⟩)
      cases body : observed.object.body with
      | fence =>
        simp only [ObservedWal.intoRunDelete, body]
        refine coordinate_beyond passable world sweeping fun sweeps => ?_
        obtain ⟨_, _, object, facts, ⟨occupant, here, reads⟩, run⟩ := Sweeps.run ranged batch key spelled sweeps
        obtain ⟨same, there, others⟩ := holds
        rw [here, Option.some.injEq] at there
        rw [reads.unique (there ▸ others), body] at run
        cases run
      | run facts =>
        have sweeps : Sweeps archiver input base key := .inl ⟨batch, ⟨between, spelled, _, facts, holds, body⟩, below⟩
        obtain ⟨occupant, here, decoded, nonempty⟩ := holds
        have place : observed.object.batch = batch := ((decodeWal_ok_iff archiver _ _ _ _).mp decoded).2.2.2
        simp only [ObservedWal.intoRunDelete, body, deleteRun, place, objectKey_ok spelled, Program.expect,
          Program.done_bind, deleteIdempotent, Backend.delete, Program.perform, Program.send_bind, Program.pure_eq_done]
        refine World.Sweeping.delete owned key sweeps (fun trace => ⟨.read key, reply⟩ ∈ trace) ?_ _ ?_ world sweeping traced
        · exact fun trace read => .inl ⟨batch, reply, observed, facts, between, spelled, read, result, body⟩
        intro answer world sweeping deleted absent lost
        cases answer with
        | ok u => exact coordinate_beyond passable world sweeping fun _ => deleted u rfl
        | error error =>
          by_cases missing : error.Absent
          · simp only [if_pos (show error.kind = .notFound from missing)]
            exact coordinate_beyond passable world sweeping fun _ => absent error rfl missing
          · simp only [if_neg (show ¬ error.kind = .notFound from missing)]
            refine World.Sweeping.done owned false ?_ world sweeping
            exact fun last swept => ⟨false, rfl, swept, fun on => Bool.noConfusion on,
              fun _ quiet => absurd (lost error rfl missing) quiet⟩

theorem collectRuns_spec (left : Nat) : ∀ batch : BatchId, input.cut.get - batch.get = left → Between input batch →
    (∀ earlier, Between input earlier → earlier.get < batch.get → Passable archiver input base earlier) →
    ∀ world : StoreWorld, CollectSweeping archiver input base (fun key => Sweeps archiver input base key ∧
      ∃ earlier : BatchId, earlier.get < batch.get ∧ key.text = walKey earlier) world →
    (collectRuns archiver input.source.partition input.cut batch).Meets (ownedBackend faulty)
      (CollectSweeping archiver input base fun _ => False) (RunsEnd archiver input base faulty) world := by
  induction left using Nat.strong_induction_on with
  | h left ih =>
    intro batch measured between below world sweeping
    obtain ⟨key, _, spelled⟩ := wal_legal batch
    rw [collectRuns]
    refine Program.Meets.bind _ _ ?_ ?_ world (collectCoordinate_spec ranged batch key spelled between below _ world sweeping)
    · rintro value world ⟨continues, same, swept, goes, ends⟩
      cases same
      cases value with
      | false =>
        have stopped : CollectSweeping archiver input base (fun key => ¬ faulty ∧ Sweeps archiver input base key) world := by
          refine swept.clear _ ?_
          rintro other ⟨quiet, sweeps⟩
          exact swept.gone other ⟨sweeps, sweeps_below (ends rfl quiet) between other sweeps⟩
        exact World.Sweeping.done id false (fun last here => ⟨false, rfl, fun on => Bool.noConfusion on, fun _ => here⟩) world stopped
      | true =>
        obtain ⟨passable, gone⟩ := goes rfl
        have passed : ∀ earlier, Between input earlier → earlier.get ≤ batch.get → Passable archiver input base earlier := by
          intro earlier inside le
          rcases Nat.lt_or_eq_of_le le with less | same
          · exact below earlier inside less
          · exact BatchId.get_injective _ _ same ▸ passable
        have cleared : ∀ other (earlier : BatchId), Sweeps archiver input base other → earlier.get ≤ batch.get →
            other.text = walKey earlier → world.slots other = none := by
          intro other earlier sweeps le named
          rcases Nat.lt_or_eq_of_le le with less | same
          · exact swept.gone other ⟨sweeps, earlier, less, named⟩
          · have here : other = key := by
              rw [BatchId.get_injective _ _ same] at named
              exact ObjectKey.text_injective _ _ (named.trans spelled.symm)
            exact here ▸ gone (here ▸ sweeps)
        simp only [if_true]
        split
        case isTrue last =>
          have all : ∀ other, Between input other → Passable archiver input base other :=
            fun other inside => passed other inside (last ▸ inside.2)
          have clean : CollectSweeping archiver input base
              (fun key => Sweeps archiver input base key ∧ ∃ batch, key.text = walKey batch) world := by
            refine swept.clear _ ?_
            rintro other ⟨sweeps, earlier, named⟩
            exact cleared other earlier sweeps (last ▸ (Sweeps.run ranged earlier other named sweeps).1.2) named
          exact World.Sweeping.done id true (fun last here => ⟨true, rfl, fun _ => ⟨all, here⟩, fun on => Bool.noConfusion on⟩)
            world clean
        case isFalse more =>
          have less : batch.get < input.cut.get :=
            Nat.lt_of_le_of_ne between.2 fun same => more (BatchId.get_injective _ _ same)
          split
          · rename_i next found
            have later := BatchId.successor_ok_iff.mp found
            have above := between.1
            refine ih (input.cut.get - next.get) (by omega) next rfl ⟨by omega, by omega⟩
              (fun earlier inside before => passed earlier inside (by omega)) world (swept.clear _ ?_)
            rintro other ⟨sweeps, earlier, before, named⟩
            exact cleared other earlier sweeps (by omega) named
          · rename_i exhausted found
            have last := (BatchId.successor_error_iff _ _).mp found
            have bound := input.cut.raw.bounded
            simp only [BatchId.get] at less last bound
            omega
    · rintro message world ⟨_, same, _⟩
      cases same

theorem deleteTables_spec (all : ∀ batch, Between input batch → Passable archiver input base batch) (objects : List TableObjectId) :
    objects ⊆ droppedBy input → ∀ (cleared : ObjectKey → Prop) (world : StoreWorld), CollectSweeping archiver input base cleared world →
    (deleteTables objects).Meets (ownedBackend faulty) (CollectSweeping archiver input base fun _ => False)
      (fun outcome world => outcome = .ok () ∧ CollectSweeping archiver input base
        (fun key => ¬ faulty ∧ (cleared key ∨ ∃ object ∈ objects, key.text = tableKey object)) world) world := by
  induction objects with
  | nil =>
    intro _ cleared world sweeping
    refine World.Sweeping.done id () ?_ world sweeping
    intro last swept
    refine ⟨rfl, swept.clear _ ?_⟩
    rintro key ⟨_, before | ⟨object, nothing, _⟩⟩
    · exact swept.gone key before
    · cases nothing
  | cons object rest ih =>
    intro dropped cleared world sweeping
    obtain ⟨first, others⟩ := cons_subset.mp dropped
    obtain ⟨key, _, spelled⟩ := table_objectKey object (ranged object first)
    have sweeps : Sweeps archiver input base key := .inr ⟨⟨object, first, spelled⟩, all⟩
    simp only [deleteTables, TableStore.deleteTable, objectKey_ok spelled, Program.expect, Program.done_bind, deleteIdempotent,
      Backend.delete, Program.perform, Program.send_bind, Program.pure_eq_done]
    refine World.Sweeping.delete id key sweeps (fun _ => True) (fun _ _ => .inr ⟨object, first, spelled⟩) _ ?_ world sweeping trivial
    intro reply world swept deleted absent lost
    have further (gone : world.slots key = none) : (deleteTables rest).Meets (ownedBackend faulty)
        (CollectSweeping archiver input base fun _ => False) (fun outcome world => outcome = .ok () ∧
        CollectSweeping archiver input base
          (fun other => ¬ faulty ∧ (cleared other ∨ ∃ table ∈ object :: rest, other.text = tableKey table)) world) world := by
      have more : CollectSweeping archiver input base (fun other => cleared other ∨ other = key) world := by
        refine swept.clear _ ?_
        rintro other (before | rfl)
        · exact swept.gone other before
        · exact gone
      refine Program.Meets.mono _ world ?_ (ih others _ world more)
      rintro outcome last ⟨done, clean⟩
      refine ⟨done, clean.clear _ ?_⟩
      rintro other ⟨quiet, before | ⟨table, listed, named⟩⟩
      · exact clean.gone other ⟨quiet, .inl (.inl before)⟩
      · rcases mem_cons.mp listed with rfl | later
        · exact clean.gone other ⟨quiet, .inl (.inr (ObjectKey.text_injective _ _ (named.trans spelled.symm)))⟩
        · exact clean.gone other ⟨quiet, .inr ⟨table, later, named⟩⟩
    cases reply with
    | ok u => exact further (deleted u rfl)
    | error error =>
      by_cases missing : error.Absent
      · simp only [if_pos (show error.kind = .notFound from missing)]
        exact further (absent error rfl missing)
      · simp only [if_neg (show ¬ error.kind = .notFound from missing)]
        refine World.Sweeping.done id () ?_ world swept
        exact fun last here => ⟨rfl, here.clear _ fun _ clean => absurd (lost error rfl missing) clean.1⟩

theorem collect_spec (advances : input.source.replay.cut < input.cut.get) (world : StoreWorld)
    (sweeping : CollectSweeping archiver input base (fun _ => False) world) :
    (collect archiver input).Meets (ownedBackend faulty) (CollectSweeping archiver input base fun _ => False)
      (fun outcome world => outcome = .ok () ∧
        CollectSweeping archiver input base (fun key => ¬ faulty ∧ Sweeps archiver input base key) world) world := by
  obtain ⟨first, found, place⟩ := collectFirst_ok advances
  simp only [collect, found, Program.expect, Program.done_bind]
  have none : CollectSweeping archiver input base (fun key => Sweeps archiver input base key ∧
      ∃ earlier : BatchId, earlier.get < first.get ∧ key.text = walKey earlier) world := by
    refine sweeping.clear _ ?_
    rintro key ⟨sweeps, earlier, before, named⟩
    have inside := (Sweeps.run ranged earlier key named sweeps).1.1
    omega
  refine Program.Meets.bind _ _ ?_ ?_ world (collectRuns_spec ranged (input.cut.get - first.get) first rfl ⟨by omega, by omega⟩
    (fun earlier inside before => absurd inside.1 (by omega)) world none)
  · rintro value world ⟨continues, same, goes, ends⟩
    cases same
    cases value with
    | false =>
      exact World.Sweeping.done id () (fun last here => ⟨rfl, here⟩) world (ends rfl)
    | true =>
      obtain ⟨all, swept⟩ := goes rfl
      refine Program.Meets.mono _ world ?_ (deleteTables_spec ranged all (droppedBy input) (List.Subset.refl _) _ world swept)
      rintro outcome last ⟨done, clean⟩
      refine ⟨done, clean.clear _ ?_⟩
      rintro key ⟨quiet, sweeps⟩
      refine clean.gone key ⟨quiet, ?_⟩
      rcases sweeps with ⟨batch, dead, below⟩ | ⟨⟨object, dropped, named⟩, passable⟩
      · exact .inl ⟨.inl ⟨batch, dead, below⟩, batch, dead.2.1⟩
      · exact .inr ⟨object, dropped, named⟩
  · rintro message world ⟨_, same, _⟩
    cases same

end

omit [Rkyv] in
theorem expect_within {α : Type} (value : Checked α) : (Program.expect value : StoreProgram α).Within 0 := by
  cases value
  · exact Program.Within.halt _ 0
  · exact Program.Within.done _ 0

theorem readWal_within (archiver : Archiver ArchivedWalObject) (partition : PartitionId) (batch : BatchId) :
    (readWal archiver partition batch).Within 1 := by
  refine Program.Within.bind _ _ 1 (fun key => ?_) 0 (expect_within _)
  exact Program.Within.send _ _ 0 fun reply => Program.Within.done _ 0

omit [Rkyv] in
theorem deleteIdempotent_within (key : ObjectKey) : (deleteIdempotent key).Within 1 := by
  refine Program.Within.send _ _ 0 fun reply => ?_
  cases reply with
  | ok u => exact Program.Within.done _ 0
  | error error =>
    change (if error.kind = .notFound then _ else _ : StoreProgram (Except StoreError Unit)).Within 0
    split <;> exact Program.Within.done _ 0

section

variable (archiver : Archiver ArchivedWalObject) (partition : PartitionId)

theorem collectCoordinate_within (batch : BatchId) :
    (collectCoordinate archiver partition batch).Within 2 := by
  refine Program.Within.bind _ _ 1 (fun read => ?_) 1 (readWal_within archiver partition batch)
  split
  · split
    · refine Program.Within.bind _ _ 0 (fun deleted => ?_) 1 ?_
      · split <;> exact Program.Within.done _ 0
      · refine Program.Within.bind _ _ 1 (fun key => ?_) 0 (expect_within _)
        exact Program.Within.bind _ _ 0 (fun deleted => Program.Within.done _ 0) 1 (deleteIdempotent_within key)
    · exact Program.Within.done _ 1
  · exact Program.Within.done _ 1
  · exact Program.Within.done _ 1

theorem collectRuns_within (cut : BatchId) (left : Nat) :
    ∀ batch : BatchId, batch.get ≤ cut.get → cut.get - batch.get = left →
      (collectRuns archiver partition cut batch).Within (2 + 2 * left) := by
  induction left using Nat.strong_induction_on with
  | h left ih =>
    intro batch below measured
    rw [collectRuns]
    refine Program.Within.bind _ _ (2 * left) (fun continues => ?_) 2 (collectCoordinate_within archiver partition batch)
    split
    · split
      · exact Program.Within.done _ _
      rename_i more
      have less : batch.get < cut.get := Nat.lt_of_le_of_ne below fun same => more (BatchId.get_injective _ _ same)
      split
      · rename_i next found
        have later := BatchId.successor_ok_iff.mp found
        have rest := ih (cut.get - next.get) (by omega) next (by omega) rfl
        exact Program.Within.mono _ _ _ (by omega) rest
      · exact Program.Within.halt _ _
    · exact Program.Within.done _ _

end

omit [Rkyv] in
theorem deleteTables_within (objects : List TableObjectId) : (deleteTables objects).Within objects.length := by
  induction objects with
  | nil => exact Program.Within.done _ 0
  | cons object rest ih =>
    rw [deleteTables, length_cons, Nat.add_comm]
    refine Program.Within.bind _ _ rest.length (fun deleted => ?_) 1 ?_
    · split
      · exact Program.Within.done _ _
      · exact ih
    · refine Program.Within.bind _ _ 1 (fun key => ?_) 0 (expect_within _)
      exact Program.Within.bind _ _ 0 (fun deleted => Program.Within.done _ 0) 1 (deleteIdempotent_within key)

theorem collect_within (archiver : Archiver ArchivedWalObject) (input : CollectionInput)
    (advances : input.source.replay.cut < input.cut.get) :
    (collect archiver input).Within (2 * (input.cut.get - input.source.replay.cut) + (droppedBy input).length) := by
  obtain ⟨first, found, place⟩ := collectFirst_ok advances
  simp only [collect, found, Program.expect, Program.done_bind]
  refine Program.Within.bind _ _ (droppedBy input).length (fun continues => ?_) _ ?_
  · split
    · exact deleteTables_within _
    · exact Program.Within.done _ _
  · exact Program.Within.mono _ _ _ (by omega)
      (collectRuns_within archiver input.source.partition input.cut (input.cut.get - first.get) first (by omega) rfl)

end StromDB
