import StromDB.Refinement.Effects

namespace StromDB

variable [Rkyv]

namespace View

def Wrote (view : View) (pid : Pid) (proc : Proc) (object : WalObject) : Prop :=
  (∃ id, (id, .createWal object) ∈ proc.wire) ∨ (object ∈ view.log ∧ view.Authored pid object.owner.generation)

def Filed (view : View) (pid : Pid) (proc : Proc) (object : TableObjectId) (body : SstObject) : Prop :=
  (∃ id candidate, (id, .createTable candidate) ∈ proc.wire ∧ candidate.key = object ∧ candidate.object = body) ∨
    (view.tables object = some body ∧ view.Authored pid object.fresh.attempt.ownerClaim)

structure WireOk (view : View) (pid : Pid) (proc : Proc) : Prop where
  numbered : ∀ id request, (id, request) ∈ proc.wire → id < proc.nextRequest
  unanswered : ∀ id, proc.nextRequest ≤ id → proc.replies id = none
  ops : ∀ id request, (id, request) ∈ proc.wire → view.OpOk pid request
  apart : proc.wire.Pairwise fun first second => Compatible first.2 second.2

instance : Std.Symm fun first second : Nat × Request => Compatible first.2 second.2 := ⟨fun _ _ held => held.symm⟩

-- What a process finds when it looks again: the view has grown, and a new
-- answer to a request it had sent is the one that the store gave.
structure Keeps (pid : Pid) (before after : View) (proc next : Proc) : Prop where
  extended : before.Extends after
  numbers : proc.nextRequest ≤ next.nextRequest
  wire : ∀ id request, (id, request) ∈ next.wire → (id, request) ∈ proc.wire ∨ proc.nextRequest ≤ id
  replies : ∀ id reply, next.replies id = some reply → proc.replies id = some reply ∨
    ∃ request store, (id, request) ∈ proc.wire ∧ Stored store before ∧ (store.execute request).2 = reply ∧
      after.ReplyOk pid request reply

structure Silent (pid : Pid) (before after : View) (proc next : Proc) : Prop where
  wrote : ∀ object, after.Wrote pid next object → before.Wrote pid proc object
  filed : ∀ object body, after.Filed pid next object body → before.Filed pid proc object body
  issued : ∀ batch, (pid, batch) ∈ after.issued → (pid, batch) ∈ before.issued

structure PendingOk (view : View) (pid : Pid) (proc : Proc) (pending : Pending) : Prop where
  sent : pending.request < proc.nextRequest
  wire : ∀ request, (pending.request, request) ∈ proc.wire → request = pending.call.request
  reply : ∀ reply, proc.replies pending.request = some reply → view.ReplyOk pid pending.call.request reply

section

variable {pid : Pid} {before after : View} {proc next : Proc} (held : Keeps pid before after proc next)

include held

theorem Keeps.wire_old (id : Nat) (request : Request) (sent : id < proc.nextRequest) (member : (id, request) ∈ next.wire) :
    (id, request) ∈ proc.wire := by
  rcases held.wire id request member with old | new
  · exact old
  · omega

theorem PendingOk.keeps (pending : Pending) (ok : before.PendingOk pid proc pending) : after.PendingOk pid next pending where
  sent := Nat.lt_of_lt_of_le ok.sent held.numbers
  wire := fun request member => ok.wire request (held.wire_old _ request ok.sent member)
  reply := by
    intro reply found
    rcases held.replies _ reply found with old | ⟨request, store, member, _, _, told⟩
    · exact (ok.reply reply old).extend held.extended
    · rwa [ok.wire request member] at told

end

theorem Keeps.refl (pid : Pid) (view : View) (proc : Proc) : Keeps pid view view proc proc :=
  ⟨Extends.refl view, Nat.le_refl _, fun _ _ member => .inl member, fun _ _ found => .inl found⟩

theorem Silent.refl (pid : Pid) (view : View) (proc : Proc) : Silent pid view view proc proc :=
  ⟨fun _ held => held, fun _ _ held => held, fun _ held => held⟩

structure SameWire (proc next : Proc) : Prop where
  numbers : next.nextRequest = proc.nextRequest
  wire : next.wire = proc.wire
  replies : next.replies = proc.replies

section

variable {pid : Pid} {view : View} {proc next : Proc} (same : SameWire proc next)

include same

theorem SameWire.keeps : Keeps pid view view proc next :=
  ⟨Extends.refl view, Nat.le_of_eq same.numbers.symm, fun _ _ member => .inl (same.wire ▸ member),
    fun _ _ found => .inl (same.replies ▸ found)⟩

theorem SameWire.silent : Silent pid view view proc next where
  wrote := by
    intro object held
    rwa [Wrote, same.wire] at held
  filed := by
    intro object body held
    rwa [Filed, same.wire] at held
  issued := fun _ held => held

theorem WireOk.sameWire (ok : view.WireOk pid proc) : view.WireOk pid next where
  numbered := by
    rw [same.wire, same.numbers]
    exact ok.numbered
  unanswered := by
    rw [same.numbers, same.replies]
    exact ok.unanswered
  ops := by
    rw [same.wire]
    exact ok.ops
  apart := by
    rw [same.wire]
    exact ok.apart

end

section

variable {pid : Pid} {before after : View} (proc : Proc) (others : Rely pid before after)

include others

theorem Rely.keeps : Keeps pid before after proc proc where
  extended := others.extended
  numbers := Nat.le_refl _
  wire := fun _ _ member => .inl member
  replies := fun _ _ found => .inl found

theorem Rely.silent (issued : ∀ batch, (pid, batch) ∈ after.issued → (pid, batch) ∈ before.issued) :
    Silent pid before after proc proc where
  wrote := by
    intro object held
    rcases held with sent | ⟨member, authored⟩
    · exact .inl sent
    · exact .inr (others.entries object member authored)
  filed := by
    intro object body held
    rcases held with sent | ⟨found, authored⟩
    · exact .inl sent
    · exact .inr (others.keys object body found authored)
  issued := issued

theorem WireOk.rely (old : before.ChainOk) (new : after.ChainOk) (ok : before.WireOk pid proc) : after.WireOk pid proc :=
  { ok with ops := fun id request member => (ok.ops id request member).rely others old new request }

end

section

variable {pid : Pid} {store : ObjectStore} {before after : View} {proc : Proc} {id : Nat} {request : Request}
  (known : before.Ok) (stored : Stored store before) (sent : (id, request) ∈ proc.wire)
  (done : Executed store before pid request after)

omit known stored sent done in
theorem Proc.mem_answer_wire {reply : Reply} {number : Nat} {other : Request} :
    (number, other) ∈ (proc.answer id reply).wire ↔ (number, other) ∈ proc.wire ∧ number ≠ id := by
  simp [Proc.answer, Proc.unsend, List.mem_filter]

include stored sent done in
theorem Executed.keeps : Keeps pid before after proc (proc.answer id (store.execute request).2) where
  extended := done.effect.extends pid request after
  numbers := Nat.le_refl _
  wire := fun number other member => .inl (Proc.mem_answer_wire.mp member).1
  replies := by
    intro number reply found
    simp only [Proc.answer] at found
    split at found
    · rename_i same
      cases found
      subst same
      exact .inr ⟨request, store, sent, stored, rfl, done.reply⟩
    · exact .inl found

include known sent done in
theorem Executed.silent : Silent pid before after proc (proc.answer id (store.execute request).2) where
  wrote := by
    intro object held
    rcases held with ⟨number, member⟩ | ⟨member, authored⟩
    · exact .inl ⟨number, (Proc.mem_answer_wire.mp member).1⟩
    · rcases done.effect.entries known pid request after pid object member authored with old | ⟨_, same, _⟩
      · exact .inr old
      · rw [same] at sent
        exact .inl ⟨id, sent⟩
  filed := by
    intro object body held
    rcases held with ⟨number, candidate, member, same⟩ | ⟨found, authored⟩
    · exact .inl ⟨number, candidate, (Proc.mem_answer_wire.mp member).1, same⟩
    · rcases done.effect.keys known pid request after pid object body found authored with old | ⟨_, candidate, same, key⟩
      · exact .inr old
      · rw [same] at sent
        exact .inl ⟨id, candidate, sent, key⟩
  issued := by
    intro batch held
    rwa [done.effect.issued pid request after] at held

include known sent done in
theorem WireOk.executed (ok : before.WireOk pid proc) : after.WireOk pid (proc.answer id (store.execute request).2) where
  numbered := fun number other member => ok.numbered number other (Proc.mem_answer_wire.mp member).1
  unanswered := by
    intro number above
    have below := ok.numbered id request sent
    have differs : number ≠ id := by
      intro same
      simp only [Proc.answer, Proc.unsend] at above
      omega
    simp only [Proc.answer, if_neg differs]
    exact ok.unanswered number above
  ops := by
    intro number other member
    obtain ⟨here, differs⟩ := Proc.mem_answer_wire.mp member
    have apart : Compatible request other :=
      ok.apart.forall sent here (fun same => differs (congrArg Prod.fst same).symm)
    exact done.effect.own known pid request after other (ok.ops number other here) apart
  apart := by
    simp only [Proc.answer, Proc.unsend]
    exact ok.apart.filter _

end

def issue (view : View) (pid : Pid) : Option Request → View
  | some (.deleteWal batch) => { view with issued := (pid, batch) :: view.issued }
  | _ => view

theorem of_issued (pid : Pid) (request : Option Request) (history : List Event) :
    of (System.issued pid request ++ history) = (of history).issue pid request := by
  unfold System.issued issue
  split <;> simp_all [of, record]

theorem issue_extends (view : View) (pid : Pid) (request : Option Request) : view.Extends (view.issue pid request) := by
  unfold issue
  split
  · exact { Extends.refl view with issued := List.subset_cons_self _ _ }
  · exact Extends.refl view

theorem issue_rely (view : View) (pid other : Pid) (request : Option Request) : Rely other view (view.issue pid request) := by
  have extended := view.issue_extends pid request
  unfold issue at extended ⊢
  split at extended
  · exact ⟨extended, fun _ member authored => ⟨member, authored⟩, fun _ _ found authored => ⟨found, authored⟩,
      fun _ gone _ => gone⟩
  · exact ⟨extended, fun _ member authored => ⟨member, authored⟩, fun _ _ found authored => ⟨found, authored⟩,
      fun _ gone _ => gone⟩

theorem issue_silent (view : View) (pid other : Pid) (apart : other ≠ pid) (request : Option Request) (proc : Proc) :
    Silent other view (view.issue pid request) proc proc := by
  refine (issue_rely view pid other request).silent proc ?_
  intro batch issued
  unfold issue at issued
  split at issued
  · rcases List.mem_cons.mp issued with same | old
    · exact absurd (congrArg Prod.fst same) apart
    · exact old
  · exact issued

section

variable {view : View} {pid : Pid} {proc : Proc}

theorem mem_send_wire {request : Request} {id : Nat} {other : Request} :
    (id, other) ∈ (proc.send (some request)).wire ↔ (id, other) ∈ proc.wire ∨ (id = proc.nextRequest ∧ other = request) := by
  simp [Proc.send]

theorem keeps_send (request : Option Request) : Keeps pid view (view.issue pid request) proc (proc.send request) := by
  cases request with
  | none => exact Keeps.refl pid view proc
  | some request =>
    refine ⟨view.issue_extends pid _, Nat.le_succ _, ?_, fun _ _ found => .inl found⟩
    intro id other member
    rcases mem_send_wire.mp member with old | ⟨same, _⟩
    · exact .inl old
    · exact .inr (Nat.le_of_eq same.symm)

theorem WireOk.send (ok : view.WireOk pid proc) (known : view.Ok) (request : Request)
    (op : (view.issue pid (some request)).OpOk pid request)
    (apart : ∀ id other, (id, other) ∈ proc.wire → Compatible other request) (new : (view.issue pid (some request)).ChainOk) :
    (view.issue pid (some request)).WireOk pid (proc.send (some request)) where
  numbered := by
    intro id other member
    rcases mem_send_wire.mp member with old | ⟨same, _⟩
    · exact Nat.lt_succ_of_lt (ok.numbered id other old)
    · rw [same]
      exact Nat.lt_succ_self _
  unanswered := fun id above => ok.unanswered id (Nat.le_of_succ_le above)
  ops := by
    intro id other member
    rcases mem_send_wire.mp member with old | ⟨_, same⟩
    · exact (ok.ops id other old).rely (view.issue_rely pid pid _) known.chain new other
    · rw [same]
      exact op
  apart := by
    simp only [Proc.send]
    rw [List.pairwise_append]
    refine ⟨ok.apart, List.pairwise_singleton _ _, ?_⟩
    intro first here second there
    rw [List.mem_singleton.mp there]
    exact apart first.1 first.2 here

theorem PendingOk.sent_now (ok : view.WireOk pid proc) (call : Call) :
    (view.issue pid (some call.request)).PendingOk pid (proc.send (some call.request)) ⟨call, proc.nextRequest⟩ where
  sent := Nat.lt_succ_self _
  wire := by
    intro request member
    rcases mem_send_wire.mp member with old | ⟨_, same⟩
    · exact absurd (ok.numbered proc.nextRequest request old) (Nat.lt_irrefl _)
    · exact same
  reply := by
    intro reply found
    rw [show (proc.send (some call.request)).replies = proc.replies from rfl, ok.unanswered _ (Nat.le_refl _)] at found
    cases found

def Plain : Request → Bool
  | .createWal _ => false
  | .createTable _ => false
  | .deleteWal _ => false
  | _ => true

theorem issue_plain {request : Request} (plain : Plain request = true) : view.issue pid (some request) = view := by
  cases request <;> first | rfl | cases plain

theorem silent_plain {request : Request} (plain : Plain request = true) :
    Silent pid view view proc (proc.send (some request)) where
  wrote := by
    intro object held
    rcases held with ⟨id, member⟩ | inLog
    · rcases mem_send_wire.mp member with old | ⟨_, same⟩
      · exact .inl ⟨id, old⟩
      · rw [← same] at plain
        cases plain
    · exact .inr inLog
  filed := by
    intro object body held
    rcases held with ⟨id, candidate, member, key⟩ | established
    · rcases mem_send_wire.mp member with old | ⟨_, same⟩
      · exact .inl ⟨id, candidate, old, key⟩
      · rw [← same] at plain
        cases plain
    · exact .inr established
  issued := fun _ held => held

theorem compatible_plain (request other : Request) (plain : Plain request = true) : Compatible other request := by
  cases request <;> simp only [Plain, Bool.false_eq_true] at plain <;> cases other <;> trivial

theorem WireOk.send_plain (ok : view.WireOk pid proc) (known : view.Ok) (request : Request) (plain : Plain request = true)
    (op : view.OpOk pid request) : view.WireOk pid (proc.send (some request)) := by
  have same : view.issue pid (some request) = view := issue_plain plain
  have sent := ok.send known request (by rwa [same]) (fun _ other _ => compatible_plain request other plain)
    (by rw [same]; exact known.chain)
  rwa [same] at sent

end

end View

end StromDB
