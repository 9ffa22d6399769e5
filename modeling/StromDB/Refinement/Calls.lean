import StromDB.Refinement.Process

namespace StromDB

variable [Rkyv]

namespace View

def ResponseOk (view : View) (pid : Pid) (call : Call) (response : Response) : Prop :=
  ∀ reply, response = .answer reply → view.ReplyOk pid call.request reply

structure Delivered (view : View) (pid : Pid) (proc next : Proc) (call : Call) (response : Response) : Prop where
  keeps : Keeps pid view view proc next
  silent : Silent pid view view proc next
  wire : view.WireOk pid next
  response : view.ResponseOk pid call response

theorem PendingOk.deliver {view : View} {pid : Pid} {proc next : Proc} {pending : Pending} (ok : view.PendingOk pid proc pending)
    (wire : view.WireOk pid proc) (delivery : Delivery) (response : Response)
    (delivered : proc.deliver pending delivery = some (response, next)) :
    Delivered view pid proc next pending.call response ∧ next.phase = proc.phase ∧ next.tasks = proc.tasks ∧
      next.nextRequest = proc.nextRequest ∧ next.replies = proc.replies ∧
      ∀ reply, response = .answer reply → proc.replies pending.request = some reply := by
  cases delivery with
  | answer =>
    obtain ⟨reply, found, same⟩ := Option.map_eq_some_iff.mp delivered
    cases same
    refine ⟨⟨Keeps.refl pid view proc, Silent.refl pid view proc, wire, ?_⟩, rfl, rfl, rfl, rfl, ?_⟩
    · intro told here
      cases here
      exact ok.reply _ found
    · intro told here
      cases here
      exact found
  | failed detail =>
    cases delivered
    exact ⟨⟨Keeps.refl pid view proc, Silent.refl pid view proc, wire, nofun⟩, rfl, rfl, rfl, rfl,
      nofun⟩
  | refused detail =>
    simp only [Proc.deliver] at delivered
    split at delivered
    · cases delivered
      have back : ∀ sent, sent ∈ (proc.unsend pending.request).wire → sent ∈ proc.wire := by
        intro sent member
        exact (List.mem_filter.mp member).1
      refine ⟨⟨⟨Extends.refl view, Nat.le_refl _, fun id request member => .inl (back _ member), fun _ _ found => .inl found⟩,
        ⟨?_, ?_, fun _ held => held⟩, ⟨fun id request member => wire.numbered id request (back _ member), wire.unanswered,
          fun id request member => wire.ops id request (back _ member), wire.apart.filter _⟩, nofun⟩,
        rfl, rfl, rfl, rfl, nofun⟩
      · intro object held
        exact held.imp_left fun ⟨id, member⟩ => ⟨id, back _ member⟩
      · intro object body held
        exact held.imp_left fun ⟨id, candidate, member, rest⟩ => ⟨id, candidate, back _ member, rest⟩
    · cases delivered

section

variable {view : View} (known : view.Ok)

include known

section

variable (sealed : Seal) (member : sealed ∈ view.chain) (batch : BatchId) (object : WalObject) (seen : view.Seen batch object)

include member seen

theorem Ok.seen_decodes : decodeWalBody sealed.partition batch (some object) = .ok (some object) := by
  obtain ⟨same, inLog | inStale⟩ := seen
  · have bounded := known.log.bounded object inLog
    have partition := known.log.partition object inLog sealed member
    rw [decodeWalBody, if_neg (Nat.not_lt.mpr bounded), decodeWal_ok bounded partition same]
  · obtain ⟨_, _, _, _, partition, bounded⟩ := known.residue.stale object inStale
    rw [decodeWalBody, if_neg (Nat.not_lt.mpr bounded), decodeWal_ok bounded (partition sealed member) same]

theorem Ok.seen_partition : object.partition = sealed.partition := by
  rcases seen.2 with inLog | stale
  · exact known.log.partition object inLog sealed member
  · exact (known.residue.stale object stale).2.2.2.2.1 sealed member

end

theorem Ok.seal_decodes (sealed : Seal) (member : sealed ∈ view.chain) :
    decodeSealBody sealed.generation (some sealed) = .ok (some sealed) := by
  have bounded := sealLength_bounded (known.chain.bounds sealed member)
  rw [decodeSealBody, if_neg (Nat.not_lt.mpr bounded), decodeSeal_ok (known.chain.legal sealed member) bounded rfl]

end

def WalCall (candidate : EncodedWal) (call : Call) : Prop :=
  call = .createWal candidate ∨ call = .compareWal candidate ∨ call = .reconcileWal candidate

structure WalResult (view : View) (object : WalObject) (result : Except TypedStoreError WalEstablishment) : Prop where
  durable : result = .ok .durable → view.Seen object.batch object
  occupied : result = .ok .occupied → ∃ other, view.Seen object.batch other ∧ other ≠ object
  legal : ∀ detail, result ≠ .error (.contradiction detail)

theorem WalResult.extend {before after : View} (extended : before.Extends after) (object : WalObject)
    (result : Except TypedStoreError WalEstablishment) (known : before.WalResult object result) : after.WalResult object result where
  durable := fun same => (known.durable same).extend extended
  occupied := fun same => by
    obtain ⟨other, seen, differs⟩ := known.occupied same
    exact ⟨other, seen.extend extended, differs⟩
  legal := known.legal

section

variable {view : View} {pid : Pid} (known : view.Ok) (candidate : EncodedWal) (sealed : Seal) (member : sealed ∈ view.chain)
  (partition : candidate.object.partition = sealed.partition)

def WalStep (view : View) (candidate : EncodedWal) (step : CallStep) : Prop :=
  (∃ next, step = .wait next ∧ (next = .compareWal candidate ∨ next = .reconcileWal candidate)) ∨
    ∃ result, step = .done (.establishWal result) ∧ view.WalResult candidate.object result

theorem walEvidence_step (evidence : CreateEvidence)
    (mine : evidence = .direct ∨ evidence = .durableMatch → view.Seen candidate.object.batch candidate.object)
    (other : evidence = .notOurs → ∃ other, view.Seen candidate.object.batch other ∧ other ≠ candidate.object) :
    WalStep view candidate (walEvidence candidate evidence) := by
  cases evidence with
  | direct => exact .inr ⟨_, rfl, fun _ => mine (.inl rfl), nofun, nofun⟩
  | durableMatch => exact .inr ⟨_, rfl, fun _ => mine (.inr rfl), nofun, nofun⟩
  | notOurs => exact .inr ⟨_, rfl, nofun, fun _ => other rfl, nofun⟩
  | unresolved => exact .inl ⟨_, rfl, .inr rfl⟩

theorem occupant_step (observed : Option WalObject)
    (told : ∀ object, observed = some object → view.Seen candidate.object.batch object) :
    WalStep view candidate (walEvidence candidate (occupantEvidence candidate.object observed)) := by
  apply walEvidence_step
  · intro mine
    cases observed with
    | none => simp [occupantEvidence] at mine
    | some object =>
      by_cases same : object = candidate.object
      · exact same ▸ told object rfl
      · simp [occupantEvidence, same] at mine
  · intro other
    cases observed with
    | none => simp [occupantEvidence] at other
    | some object =>
      refine ⟨object, told object rfl, ?_⟩
      intro same
      simp [occupantEvidence, same] at other

include known member partition

theorem reconcile_step (observed : Option WalObject)
    (told : ∀ object, observed = some object → view.Seen candidate.object.batch object) :
    view.WalResult candidate.object
      (reconcileWalRead candidate (decodeWalBody candidate.object.partition candidate.object.batch observed)) := by
  cases observed with
  | none => exact ⟨nofun, nofun, nofun⟩
  | some object =>
    have seen := told object rfl
    rw [partition, known.seen_decodes sealed member _ object seen, reconcileWalRead]
    split
    · rename_i same
      exact ⟨fun _ => same ▸ seen, nofun, nofun⟩
    · rename_i differs
      exact ⟨nofun, fun _ => ⟨object, seen, differs⟩, nofun⟩

theorem WalCall.resume (call : Call) (mine : WalCall candidate call) (response : Response) (told : view.ResponseOk pid call response)
    (step : CallStep) (resumed : call.resume response = some step) : WalStep view candidate step := by
  have finish : ∀ result : Except TypedStoreError WalEstablishment, (∀ outcome, result ≠ .ok outcome) →
      (∀ detail, result ≠ .error (.contradiction detail)) → WalStep view candidate (.done (.establishWal result)) :=
    fun result failed legal => .inr ⟨result, rfl, fun same => absurd same (failed _), fun same => absurd same (failed _), legal⟩
  rcases mine with rfl | rfl | rfl
  · cases response with
    | answer reply =>
      cases reply <;> cases resumed
      · exact walEvidence_step candidate .direct (fun _ => told _ rfl) nofun
      · exact .inl ⟨_, rfl, .inl rfl⟩
    | failed detail =>
      cases resumed
      exact .inl ⟨_, rfl, .inr rfl⟩
    | refused detail =>
      cases resumed
      exact finish _ nofun nofun
  · cases response with
    | answer reply =>
      cases reply <;> cases resumed
      rename_i observed
      refine occupant_step candidate observed ?_
      intro object same
      subst same
      exact told _ rfl
    | failed detail | refused detail =>
      cases resumed
      exact .inl ⟨_, rfl, .inr rfl⟩
  cases response with
  | answer reply =>
    cases reply <;> cases resumed
    rename_i observed
    refine .inr ⟨_, rfl, reconcile_step known candidate sealed member partition observed ?_⟩
    intro object same
    subst same
    exact told _ rfl
  | failed detail | refused detail =>
    cases resumed
    exact finish _ nofun nofun

end

def SealCall (candidate : Seal) (call : Call) : Prop := call = .createSeal candidate ∨ call = .compareSeal candidate

-- What create_seal concludes. Only the answer to the create itself says who
-- authored the Seal.
structure SealResult (view : View) (pid : Pid) (candidate : Seal) (result : Except TypedStoreError CreateEvidence) : Prop where
  direct : result = .ok .direct → candidate ∈ view.chain ∧ view.Authored pid candidate.generation
  durableMatch : result = .ok .durableMatch → candidate ∈ view.chain
  legal : ∀ detail, result ≠ .error (.contradiction detail)

theorem SealCall.resume {view : View} {pid : Pid} {candidate : Seal} {call : Call} (mine : SealCall candidate call)
    (response : Response) (told : view.ResponseOk pid call response) (step : CallStep) (resumed : call.resume response = some step) :
    step = .wait (.compareSeal candidate) ∨
      ∃ result, step = .done (.createSeal result) ∧ view.SealResult pid candidate result := by
  have finish : ∀ result : Except TypedStoreError CreateEvidence, result ≠ .ok .direct → result ≠ .ok .durableMatch →
      (∀ detail, result ≠ .error (.contradiction detail)) → view.SealResult pid candidate result :=
    fun result notDirect notMatch legal => ⟨fun same => absurd same notDirect, fun same => absurd same notMatch, legal⟩
  rcases mine with rfl | rfl
  · cases response with
    | answer reply =>
      cases reply <;> cases resumed
      · exact .inr ⟨_, rfl, fun _ => told _ rfl, nofun, nofun⟩
      · exact .inl rfl
    | failed detail | refused detail =>
      cases resumed
      exact .inr ⟨_, rfl, finish _ (by simp) (by simp) (by simp)⟩
  cases response with
  | answer reply =>
    cases reply <;> cases resumed
    rename_i observed
    refine .inr ⟨_, rfl, ?_⟩
    cases observed with
    | none => exact finish _ (by simp [occupantEvidence]) (by simp [occupantEvidence]) (by simp [occupantEvidence])
    | some occupant =>
      by_cases same : occupant = candidate
      · refine ⟨?_, ?_, ?_⟩
        · simp [occupantEvidence, same]
        · intro _
          exact same ▸ (told _ rfl).1
        · simp [occupantEvidence, same]
      · exact finish _ (by simp [occupantEvidence, same]) (by simp [occupantEvidence, same])
          (by simp [occupantEvidence, same])
  | failed detail | refused detail =>
    cases resumed
    exact .inr ⟨_, rfl, finish _ (by simp) (by simp) (by simp)⟩

def TableCall (candidate : EncodedTable) (call : Call) : Prop :=
  call = .createTable candidate ∨ call = .compareTable candidate ∨ call = .reconcileTable candidate

structure TableResult (view : View) (candidate : EncodedTable) (result : TableEstablishment) : Prop where
  established : result = .established → view.tables candidate.key = some candidate.object
  legal : ∀ detail, result ≠ .contradiction detail

section

variable {view : View} {pid : Pid} (candidate : EncodedTable)
  (mine : ∀ body, view.tables candidate.key = some body → body = candidate.object)

include mine

def TableStep (view : View) (candidate : EncodedTable) (step : CallStep) : Prop :=
  (∃ next, step = .wait next ∧ (next = .compareTable candidate ∨ next = .reconcileTable candidate)) ∨
    ∃ result, step = .done (.establishTable result) ∧ view.TableResult candidate result

theorem TableCall.resume (call : Call) (made : TableCall candidate call) (response : Response)
    (told : view.ResponseOk pid call response) (step : CallStep) (resumed : call.resume response = some step) :
    TableStep view candidate step := by
  have abandoned : TableStep view candidate (.done (.establishTable .abandoned)) :=
    .inr ⟨_, rfl, nofun, nofun⟩
  have established : view.tables candidate.key = some candidate.object →
      TableStep view candidate (.done (.establishTable .established)) :=
    fun found => .inr ⟨_, rfl, fun _ => found, nofun⟩
  rcases made with rfl | rfl | rfl
  · cases response with
    | answer reply =>
      cases reply <;> cases resumed
      · exact established (told _ rfl)
      · exact .inl ⟨_, rfl, .inl rfl⟩
    | failed detail =>
      cases resumed
      exact .inl ⟨_, rfl, .inr rfl⟩
    | refused detail =>
      cases resumed
      exact abandoned
  · cases response with
    | answer reply =>
      cases reply <;> cases resumed
      rename_i observed
      cases observed with
      | none => exact .inl ⟨_, rfl, .inr rfl⟩
      | some body =>
        have found : view.tables candidate.key = some body := told _ rfl
        have same := mine body found
        subst same
        simp only [occupantEvidence, if_true, tableEvidence]
        exact established found
    | failed detail | refused detail =>
      cases resumed
      exact .inl ⟨_, rfl, .inr rfl⟩
  cases response with
  | answer reply =>
    cases reply <;> cases resumed
    rename_i observed
    cases observed with
    | none => exact abandoned
    | some body =>
      have found : view.tables candidate.key = some body := told _ rfl
      have same := mine body found
      subst same
      have fits : ¬ tableLength candidate.object > candidate.table.objectBytes.get := by
        rw [candidate.sameLength]
        exact Nat.lt_irrefl _
      rw [reconcileTableRead, if_neg fits, if_pos rfl]
      exact established found
  | failed detail | refused detail =>
    cases resumed
    exact abandoned

end

end View

end StromDB
