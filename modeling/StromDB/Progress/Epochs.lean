import StromDB.Progress.Checkpoint

namespace StromDB

variable [Rkyv] [OrdMap.Differ]

structure Standing (sealed : Seal) (tail : Nat) (sys : System) : Prop where
  reached : ReachableSystem sys
  newest : sys.store.head = some sealed
  listed : cutNumber sys.store.wal.greatest = tail
  cut : sealed.replay.cut ≤ tail

def Renewed (n : Nat) (sealed renewed : Seal) : Prop :=
  renewed.generation.get = sealed.generation.get + n ∧ renewed = { sealed with generation := renewed.generation }

omit [Rkyv] [OrdMap.Differ] in
theorem Renewed.trans {m n : Nat} {first second third : Seal} (before : Renewed m first second) (after : Renewed n second third) :
    Renewed (m + n) first third := by
  obtain ⟨number, same⟩ := before
  obtain ⟨later, equal⟩ := after
  refine ⟨by omega, ?_⟩
  rw [equal, same]

theorem TakenOver.folds {pid : Pid} {recovery : WriterRecovery} {before sys : System} (taken : TakenOver pid recovery sys)
    (extended : before.view.Extends sys.view) (tail : Nat) (next : recovery.durableBatch.get = tail + 1) (forest : Forest)
    (folded : before.view.FoldIs tail forest) : sys.view.FoldIs (tail + 1) forest := by
  have ok := taken.reached.ok sys
  have recovered : sys.view.Recovered pid recovery := ok.history _ taken.completed
  rw [← next]
  refine View.FoldIs.step _ forest forest ok.view.log recovered.fence ?_ rfl
  have behind : recovery.durableBatch.get - 1 = tail := by omega
  rw [fenceObject, behind]
  exact folded.extend extended

section

variable {sys : System} {sealed : Seal} {tail : Nat} (standing : Standing sealed tail sys)

include standing

theorem Standing.takeover (pid : Pid) (idle : (sys.procs pid).phase = .idle) (unexhausted : sealed.generation.get + 1 < 2 ^ 64)
    (coordinates : tail + 2 < 2 ^ 64) (suffix : tail < sealed.replay.cut + WAL_SUFFIX_COORDINATES_MAX_V2) :
    ∃ after recovery, Leads (· = pid) sys after ∧ TakenOver pid recovery after ∧ Standing recovery.sealed (tail + 1) after ∧
      Renewed 1 sealed recovery.sealed ∧ recovery.durableBatch.get = tail + 1 ∧
      ∀ forest, sys.view.FoldIs tail forest → after.view.FoldIs (tail + 1) forest := by
  have cut := standing.cut
  have listed := standing.listed
  obtain ⟨started, candidate, begins, claimed, fence, number, after, recovery, _, follows, taken, same, place⟩ :=
    starts_takeover standing.reached idle sealed.partition sealed standing.newest unexhausted ⟨by omega, by omega⟩
  obtain ⟨following, renewed⟩ := Seal.claimSuccessor_ok_iff.mp claimed
  have replay : candidate.replay = sealed.replay := by rw [renewed]
  have kept : started.store = sys.store := by
    obtain ⟨_, starts, store, _⟩ := starts_booting standing.reached idle sealed.partition
    rw [begins] at starts
    cases starts
    exact store
  have isCandidate : recovery.sealed = candidate := congrArg ClaimedBootstrap.sealed same
  have ok := taken.reached.ok after
  have recovered : after.view.Recovered pid recovery := ok.history _ taken.completed
  simp only [kept, replay] at number
  have leads : Leads (· = pid) sys after := .head ⟨_, rfl, rfl, begins⟩ follows
  have next : recovery.durableBatch.get = tail + 1 := by
    rw [place]
    omega
  refine ⟨after, recovery, leads, taken, ?_, ?_, next, taken.folds leads.extends tail next⟩
  · refine ⟨taken.reached, ok.claim_head _ recovered.claimed taken.current, ?_, ?_⟩
    · rw [taken.tail, place]
      simp only [cutNumber]
      omega
    · rw [isCandidate, replay]
      omega
  · rw [isCandidate]
    exact ⟨following, renewed⟩

end

def Among (first last : Nat) (pid : Nat) : Prop := first ≤ pid ∧ pid ≤ last

instance (first last pid : Nat) : Decidable (Among first last pid) := inferInstanceAs (Decidable (_ ∧ _))

omit [Rkyv] [OrdMap.Differ] in
theorem Among.one (first last pid : Nat) (inside : Among first last pid) (other : Nat) (same : other = pid) :
    Among first last other := by
  rw [same]
  exact inside

omit [Rkyv] [OrdMap.Differ] in
theorem Among.wider (first last lower upper : Nat) (below : lower ≤ first) (above : last ≤ upper) (pid : Nat)
    (inside : Among first last pid) : Among lower upper pid :=
  ⟨Nat.le_trans below inside.1, Nat.le_trans inside.2 above⟩

theorem takeovers (n : Nat) : ∀ (sys : System) (sealed : Seal) (tail first : Nat), Standing sealed tail sys →
    (∀ pid : Nat, first ≤ pid → (sys.procs pid).phase = .idle) → sealed.generation.get + (n + 1) < 2 ^ 64 → tail + n + 2 < 2 ^ 64 →
    tail + n < sealed.replay.cut + WAL_SUFFIX_COORDINATES_MAX_V2 →
    ∃ after recovery, Leads (Among first (first + n)) sys after ∧ TakenOver (first + n) recovery after ∧
      Standing recovery.sealed (tail + n + 1) after ∧ Renewed (n + 1) sealed recovery.sealed ∧
      recovery.durableBatch.get = tail + n + 1 ∧ ∀ forest, sys.view.FoldIs tail forest → after.view.FoldIs (tail + n + 1) forest := by
  induction n with
  | zero =>
    intro sys sealed tail first standing idle unexhausted coordinates suffix
    obtain ⟨after, recovery, leads, rest⟩ := standing.takeover first (idle first (Nat.le_refl _)) unexhausted coordinates suffix
    exact ⟨after, recovery, leads.weaken _ (Among.one _ _ first ⟨Nat.le_refl _, Nat.le_refl _⟩), rest⟩
  | succ n ih =>
    intro sys sealed tail first standing idle unexhausted coordinates suffix
    obtain ⟨middle, earlier, once, _, stands, renewed, _, folds⟩ := standing.takeover first (idle first (Nat.le_refl _)) (by omega)
      (by omega) (by omega)
    have cut : earlier.sealed.replay = sealed.replay := by rw [renewed.2]
    have generation := renewed.1
    have still : ∀ pid : Nat, first + 1 ≤ pid → (middle.procs pid).phase = .idle := by
      intro pid above
      have apart : pid ≠ first := by omega
      rw [once.others pid apart]
      exact idle pid (by omega)
    obtain ⟨after, recovery, leads, taken, later, again, place, rest⟩ := ih middle earlier.sealed (tail + 1) (first + 1) stands still
      (by omega) (by omega) (by rw [cut]; omega)
    have together := (once.weaken (Among first (first + (n + 1))) (Among.one _ _ first ⟨by omega, by omega⟩)).trans
      (leads.weaken _ (Among.wider _ _ _ _ (by omega) (by omega)))
    refine ⟨after, recovery, together, ?_, ?_, ?_, by omega, ?_⟩
    · rw [show first + (n + 1) = first + 1 + n by omega]
      exact taken
    · rw [show tail + (n + 1) + 1 = tail + 1 + n + 1 by omega]
      exact later
    · rw [show n + 1 + 1 = 1 + (n + 1) by omega]
      exact renewed.trans again
    · intro forest folded
      rw [show tail + (n + 1) + 1 = tail + 1 + n + 1 by omega]
      exact rest forest (folds forest folded)

-- What a checkpoint of a recovered writer leaves: a new head over the same log,
-- and a collection that is about to start.
structure Advanced (pid : Pid) (recovery : WriterRecovery) (prepared : PreparedCheckpoint) (sys after : System) : Prop where
  leads : Leads (· = pid) sys after
  made : ∃ input created, input.source = recovery.sealed ∧ input.base = recovery.base ∧ input.snapshot = recovery.durable ∧
    Prepared input created prepared
  replay : prepared.successor.replay.cut = recovery.durableBatch.get
  standing : Standing prepared.successor recovery.durableBatch.get after
  wal : after.store.wal = sys.store.wal
  collects : ∃ machine first, first.get = recovery.sealed.replay.cut + 1 ∧
    Reading pid machine ⟨recovery.durableBatch, recovery.sealed, prepared.successor⟩
      (droppedBy ⟨recovery.durableBatch, recovery.sealed, prepared.successor⟩) first after

theorem TakenOver.advances {pid : Pid} {recovery : WriterRecovery} {sys : System} (taken : TakenOver pid recovery sys)
    (span : recovery.sealed.replay.cut + WAL_SUFFIX_CHECKPOINT_SPAN_TRIGGER ≤ recovery.durableBatch.get)
    (unexhausted : recovery.sealed.generation.get + 1 < 2 ^ 64) : ∃ after prepared, Advanced pid recovery prepared sys after := by
  have recovered : sys.view.Recovered pid recovery := (taken.reached.ok sys).history _ taken.completed
  have newest := (taken.reached.ok sys).claim_head _ recovered.claimed taken.current
  obtain ⟨after, machine, input, created, prepared, leads, source, base, snapshot, cut, made, wal, head, spawned⟩ :=
    checkpoint_published taken.reached taken.ready taken.completed newest span unexhausted
  have replay : prepared.successor.replay.cut = recovery.durableBatch.get := by
    rw [made.replay, cut]
    rfl
  let collection : CollectionInput := ⟨recovery.durableBatch, recovery.sealed, prepared.successor⟩
  obtain ⟨first, number, reading⟩ := @spawnCollect_reads _ _ _ _ _ collection spawned recovered.above
  refine ⟨after, prepared, leads, ⟨input, created, source, base, snapshot, made⟩, replay, ⟨spawned.reached, head, ?_, ?_⟩, wal, machine,
    first, number, reading⟩
  · rw [wal, taken.tail]
    rfl
  · exact Nat.le_of_eq replay

omit [OrdMap.Differ] in
theorem create_admitted {forest : Forest} (consistent : forest.Consistent) (batch : BatchId) (command : CreateStream)
    (reply : ReplySender) (vacant : forest.directory[command.path]? = none)
    (room : forest.pathCount < PARTITION_PATH_OCCUPANCIES_MAX_V2) :
    ∃ admitted completion, decideAdmission forest batch (.create command reply) = .ok (.fact admitted completion) ∧
      Forest.applyFact forest batch admitted.fact = some admitted.forest ∧
      admitted.forest.directory[command.path]?.isSome = true ∧ admitted.forest.pathCount = forest.pathCount + 1 := by
  obtain ⟨admission, decided, answers⟩ := admitCreate_answers forest consistent batch command reply
  have holds := forest.holding_vacant command.path vacant
  have answer : forest.catalogue.answer (.create command reply) = .create (.ok .created) reply := by
    simp [Catalogue.answer, Forest.catalogue, holds, room]
  cases admission with
  | fact admitted completion =>
    obtain ⟨_, _, applied, next⟩ := answers
    simp only [Catalogue.next, Forest.catalogue, holds, room, if_true, Catalogue.mk.injEq] at next
    refine ⟨admitted, completion, decided, applied, ?_, next.2⟩
    have held := congrFun next.1 command.path
    simp only [Catalogue.put, if_true] at held
    cases found : admitted.forest.directory[command.path]? with
    | some entry => rfl
    | none =>
      rw [admitted.forest.holding_vacant command.path found] at held
      cases held
  | idempotent completion =>
    obtain ⟨rfl, _, quiet, _⟩ := answers
    rw [answer] at quiet
    cases quiet
  | refused completion =>
    obtain ⟨rfl, failed, _⟩ := answers
    rw [answer] at failed
    cases failed

omit [OrdMap.Differ] in
theorem exists_unused (history : List Event) : ∃ reply, System.replyUnused history reply = true := by
  have bounded : ∃ bound : Nat, ∀ reply : Nat, bound ≤ reply → System.replyUnused history reply = true := by
    induction history with
    | nil => exact ⟨0, fun _ _ => rfl⟩
    | cons event older ih =>
      obtain ⟨bound, free⟩ := ih
      cases event with
      | commanded pid envelope =>
        let used : Nat := envelope.reply
        refine ⟨max bound (used + 1), ?_⟩
        intro reply above
        have apart : used ≠ reply := by omega
        have rest := free reply (by omega)
        rw [System.replyUnused, List.all_cons, Bool.and_eq_true]
        exact ⟨decide_eq_true apart, rest⟩
      | _ => exact ⟨bound, free⟩
  obtain ⟨bound, free⟩ := bounded
  exact ⟨bound, free bound (Nat.le_refl _)⟩

section

variable {sys : System} {pid : Pid} {recovery : WriterRecovery} (reached : ReachableSystem sys)
  (ready : (sys.procs pid).phase = .ready recovery) (completed : .completed pid recovery ∈ sys.history)

include reached ready completed

theorem run_sent (short : recovery.durableBatch.get < recovery.sealed.replay.cut + WAL_SUFFIX_CHECKPOINT_SPAN_TRIGGER)
    (coordinates : recovery.durableBatch.get + 2 < 2 ^ 64) (path : StreamPath) (vacant : recovery.durable.directory[path]? = none)
    (paths : recovery.durable.pathCount < PARTITION_PATH_OCCUPANCIES_MAX_V2) : ∃ after id object forest, Leads (· = pid) sys after ∧
      after.store = sys.store ∧ (after.procs pid).wire.lookup id = some (.createWal object) ∧
      object.batch.get = recovery.durableBatch.get + 1 ∧ object.body.isFence = false ∧
      Forest.applyFacts object.batch object.facts recovery.durable = some forest ∧ forest.directory[path]?.isSome = true ∧
      forest.pathCount = recovery.durable.pathCount + 1 := by
  have recovered : sys.view.Recovered pid recovery := (reached.ok sys).history _ completed
  have above := recovered.above
  obtain ⟨waiting, nextBatch, launches, sameStore, number, idle⟩ := launch_waits reached ready completed short
  obtain ⟨reply, unused⟩ := exists_unused waiting.history
  let command : CreateStream := ⟨path, .octetStream, .none, .opened⟩
  obtain ⟨admitted, completion, decided, applied, held, counted⟩ := create_admitted recovered.durable.consistent
    nextBatch command reply vacant paths
  have rest := WriterMachine.launched_resting recovery 10 1000 nextBatch
  let next : BatchId := ⟨⟨nextBatch.get + 1, Nat.succ_pos _, by omega⟩⟩
  have room : runLeavesTakeoverRoom recovery.sealed.replay.batch nextBatch = true := by
    rw [runLeavesTakeoverRoom_iff, cutNumber_batch]
    simp only [WAL_SUFFIX_CHECKPOINT_SPAN_TRIGGER, WAL_SUFFIX_COORDINATES_MAX_V2] at short ⊢
    omega
  obtain ⟨facts, encoded, content, object, handled⟩ := rest.command 0 admitted completion (.create command reply) decided room
    ⟨Nat.le_of_lt above, short⟩ next rfl
  obtain ⟨sending, commands, spawned, kept⟩ := idle.commanded (.create command reply) unused rest.admissionOpen _ _ handled
  obtain ⟨id, _, wire⟩ := spawned.waits
  refine ⟨sending, id, encoded.object, admitted.forest, launches.trans commands, kept.trans sameStore, wire _ rfl, ?_, ?_, ?_, held,
    counted⟩
  · rw [object]
    exact number
  · rw [object]
    rfl
  · rw [object]
    simp [WalObject.facts, content, Forest.applyFacts, WriterMachine.launched, applied]

theorem run_lands (listed : cutNumber sys.store.wal.greatest = recovery.durableBatch.get)
    (short : recovery.durableBatch.get < recovery.sealed.replay.cut + WAL_SUFFIX_CHECKPOINT_SPAN_TRIGGER)
    (coordinates : recovery.durableBatch.get + 2 < 2 ^ 64) (path : StreamPath) (vacant : recovery.durable.directory[path]? = none)
    (paths : recovery.durable.pathCount < PARTITION_PATH_OCCUPANCIES_MAX_V2) : ∃ after object forest, Leads (· = pid) sys after ∧
      after.store.seals = sys.store.seals ∧ after.store.wal.greatest = some object.batch ∧
      object.batch.get = recovery.durableBatch.get + 1 ∧ object.body.isFence = false ∧ object ∈ after.view.log ∧
      after.view.FoldIs object.batch.get forest ∧ forest.directory[path]?.isSome = true ∧
      forest.pathCount = recovery.durable.pathCount + 1 := by
  have recovered : sys.view.Recovered pid recovery := (reached.ok sys).history _ completed
  obtain ⟨sending, id, object, forest, sends, same, wire, number, isRun, applied, held, counted⟩ :=
    run_sent reached ready completed short coordinates path vacant paths
  have stepped := System.apply_eq sending pid id (.createWal object) wire
  obtain ⟨executed, greatest⟩ := execute_createWal sending.store object (by rw [same, listed, number]; exact Nat.lt_succ_self _)
  have landed : (sending.applied pid id (.createWal object)).store =
      { sending.store with wal := sending.store.wal.insert object.batch object } := by
    rw [System.applied_store, executed]
  have passed : calm sending (.apply pid id) = true := by
    refine calm_apply wire ?_
    rintro other ⟨⟩ fence
    rw [isRun] at fence
    cases fence
  have arrives : Leads (· = pid) sys (sending.applied pid id (.createWal object)) := sends.tail ⟨_, rfl, passed, stepped⟩
  have ok := (arrives.reached reached).ok _
  have member : object ∈ (sending.applied pid id (.createWal object)).view.log := by
    obtain ⟨_, stale | ⟨inLog, _⟩⟩ := ok.stored.wal object.batch object (by rw [landed, OrdMap.get_insert, if_pos rfl])
    · rw [(ok.view.residue.stale _ stale).1] at isRun
      cases isRun
    · exact inLog
  refine ⟨_, object, forest, arrives, ?_, ?_, number, isRun, member, ?_, held, counted⟩
  · rw [landed, same]
  · rw [landed]
    exact greatest
  · refine View.FoldIs.step object recovery.durable forest ok.view.log member ?_ applied
    rw [number]
    exact recovered.durable.extend arrives.extends

end

end StromDB
