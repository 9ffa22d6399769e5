import StromDB.Refinement.Newest

namespace StromDB

variable [Rkyv]

theorem Proc.deliver_next (proc next : Proc) (pending : Pending) (delivery : Delivery) (response : Response)
    (delivered : proc.deliver pending delivery = some (response, next)) : next = proc ∨ next = proc.unsend pending.request := by
  cases delivery with
  | answer =>
    obtain ⟨_, _, same⟩ := Option.map_eq_some_iff.mp delivered
    cases same
    exact .inl rfl
  | failed detail =>
    cases delivered
    exact .inl rfl
  | refused detail =>
    simp only [Proc.deliver] at delivered
    split at delivered
    · cases delivered
      exact .inr rfl
    · cases delivered

theorem Proc.deliver_same (proc next : Proc) (pending : Pending) (delivery : Delivery) (response : Response)
    (delivered : proc.deliver pending delivery = some (response, next)) : next.phase = proc.phase ∧ next.tasks = proc.tasks := by
  rcases proc.deliver_next next pending delivery response delivered with rfl | rfl <;> exact ⟨rfl, rfl⟩

structure Proc.Awaits (before after : Proc) : Prop where
  replies : after.replies = before.replies
  numbers : before.nextRequest ≤ after.nextRequest
  waits : ∀ state effect pending, after.phase = .bootstrapping state effect pending →
    before.phase = .bootstrapping state effect pending ∨ before.nextRequest ≤ pending.request

namespace Proc.Awaits

theorem refl (proc : Proc) : Awaits proc proc := ⟨rfl, Nat.le_refl _, fun _ _ _ here => .inl here⟩

theorem trans {first second third : Proc} (before : Awaits first second) (after : Awaits second third) : Awaits first third := by
  refine ⟨after.replies.trans before.replies, Nat.le_trans before.numbers after.numbers, fun state effect pending here => ?_⟩
  rcases after.waits state effect pending here with earlier | sent
  · exact before.waits state effect pending earlier
  · exact .inr (Nat.le_trans before.numbers sent)

theorem setTask (proc : Proc) (key : EffectKey) (task : Option Task) : Awaits proc (proc.setTask key task) :=
  ⟨rfl, Nat.le_refl _, fun _ _ _ here => .inl here⟩

theorem send (proc : Proc) (request : Option Request) : Awaits proc (proc.send request) := by
  cases request with
  | none => exact refl proc
  | some request => exact ⟨rfl, Nat.le_succ _, fun _ _ _ here => .inl here⟩

theorem deliver (proc next : Proc) (pending : Pending) (delivery : Delivery) (response : Response)
    (delivered : proc.deliver pending delivery = some (response, next)) : Awaits proc next := by
  rcases proc.deliver_next next pending delivery response delivered with rfl | rfl
  · exact refl _
  · exact ⟨rfl, Nat.le_refl _, fun _ _ _ here => .inl here⟩

end Proc.Awaits

namespace System

theorem Moves.awaits {pid : Pid} {kind : Event → Prop} {before after : System} (moves : Moves pid kind before after) :
    Proc.Awaits (before.procs pid) (after.procs pid) := by
  induction moves with
  | refl sys | record sys events all => exact .refl _
  | trans _ _ _ _ _ first second => exact first.trans second
  | setTask sys key task =>
    rw [System.setTask, setProc_self]
    exact .setTask _ key task
  | send sys request =>
    rw [System.send, record_procs, setProc_self]
    exact .send _ request
  | deliver sys pending delivery response proc delivered =>
    rw [setProc_self]
    exact .deliver _ _ _ _ _ delivered
  | setPhase sys phase ended =>
    rw [System.setPhase, setProc_self]
    exact ⟨rfl, Nat.le_refl _, fun state effect pending here => absurd here (ended state effect pending)⟩
  | await sys state effect call =>
    rw [System.await, System.send, record_procs, setProc_self, System.setPhase, setProc_self]
    refine ⟨rfl, Nat.le_succ _, fun state effect pending here => .inr ?_⟩
    cases here
    exact Nat.le_refl _

end System

variable [OrdMap.Differ]

namespace System

theorem step_awaits {sys after : System} {label : Label} (stepped : step label sys = some after)
    (idle : ∀ pid id, label ≠ .apply pid id) : Proc.Awaits (sys.procs label.pid) (after.procs label.pid) := by
  rcases step_applied_or_moves sys after label stepped with ⟨pid, id, _, same, _, _⟩ | moves
  · exact absurd same (idle pid id)
  · exact moves.awaits

theorem step_other {sys after : System} {label : Label} (stepped : step label sys = some after) (other : Pid)
    (apart : other ≠ label.pid) : after.procs other = sys.procs other := by
  rcases step_applied_or_moves sys after label stepped with ⟨pid, id, request, rfl, found, _⟩ | moves
  · simp only [step, apply, found] at stepped
    cases stepped
    exact setProc_other _ _ _ _ apart
  · exact moves.others other apart

theorem step_history {sys after : System} {label : Label} (stepped : step label sys = some after) :
    ∃ events, after.history = events ++ sys.history := by
  rcases step_applied_or_aside sys after label stepped with ⟨_, _, _, _, _, effect⟩ | aside
  · exact ⟨_, effect.history⟩
  · obtain ⟨events, same, _⟩ := aside.history
    exact ⟨events, same⟩

end System

def Label.granted : Label → Bool
  | .respond _ _ (.refused _) => false
  | _ => true

-- A FENCE takes effect only while the newest Seal still has the cut of the
-- claim that the FENCE was placed for.
def fencesFirst (sys : System) : Label → Bool
  | .apply pid id =>
    match (sys.procs pid).wire.lookup id with
    | some (.createWal object) =>
      !object.body.isFence || sys.store.head.map (fun newest => newest.replay.cut) =
        sys.store.seals[object.owner.generation]?.map fun claim => claim.replay.cut
    | _ => true
  | _ => true

def calm (sys : System) (label : Label) : Bool := label.granted && fencesFirst sys label

omit [OrdMap.Differ] in
theorem calm_apply {sys : System} {pid : Pid} {id : Nat} {request : Request} (sent : (sys.procs pid).wire.lookup id = some request)
    (first : ∀ object, request = .createWal object → object.body.isFence = true →
      sys.store.head.map (fun newest => newest.replay.cut) =
        sys.store.seals[object.owner.generation]?.map fun claim => claim.replay.cut) : calm sys (.apply pid id) = true := by
  simp only [calm, Label.granted, fencesFirst, sent, Bool.true_and]
  cases request with
  | createWal object =>
    cases fence : object.body.isFence with
    | false => simp [fence]
    | true => simpa [fence] using first object rfl fence
  | _ => rfl

-- One system leads to another while only the active processes move, no request
-- is refused and no FENCE comes late.
abbrev Leads (active : Pid → Prop) (sys after : System) : Prop :=
  Relation.ReflTransGen
    (fun before next : System => ∃ label : Label, active label.pid ∧ calm before label = true ∧ System.step label before = some next)
    sys after

section

variable {active : Pid → Prop} {sys after : System}

theorem Leads.run (labels : List Label) : ∀ sys after : System, (∀ label ∈ labels, active label.pid) →
    Transition.runWhere System.step calm labels sys = some after → Leads active sys after := by
  induction labels with
  | nil =>
    intro sys after _ ran
    cases ran
    exact .refl
  | cons label rest ih =>
    intro sys after within ran
    unfold Transition.runWhere at ran
    split at ran
    · rename_i passed
      obtain ⟨middle, stepped, ran⟩ := Option.bind_eq_some_iff.mp ran
      exact .head ⟨label, within label List.mem_cons_self, passed, stepped⟩
        (ih middle after (fun other member => within other (List.mem_cons_of_mem _ member)) ran)
    · cases ran

section

variable (leads : Leads active sys after)

include leads

theorem Leads.reached (reached : ReachableSystem sys) : ReachableSystem after := by
  induction leads with
  | refl => exact reached
  | tail _ stepped ih =>
    obtain ⟨label, _, _, stepped⟩ := stepped
    exact ih.after _ _ label stepped

theorem Leads.admitted (allowed : System → Label → Bool)
    (weaker : ∀ before label, calm before label = true → allowed before label = true)
    (reached : ReachableWhere (fun before label => allowed before label = true) sys) :
    ReachableWhere (fun before label => allowed before label = true) after := by
  induction leads with
  | refl => exact reached
  | tail _ stepped ih =>
    obtain ⟨label, _, passed, stepped⟩ := stepped
    exact .next _ _ label ih (weaker _ _ passed) stepped

theorem Leads.unrefused (reached : ReachableWhere (fun _ label => label.granted = true) sys) :
    ReachableWhere (fun _ label => label.granted = true) after :=
  leads.admitted (fun _ label => label.granted) (fun _ _ passed => (Bool.and_eq_true_iff.mp passed).1) reached

theorem Leads.fences_first (reached : ReachableWhere (fun before label => fencesFirst before label = true) sys) :
    ReachableWhere (fun before label => fencesFirst before label = true) after :=
  leads.admitted fencesFirst (fun _ _ passed => (Bool.and_eq_true_iff.mp passed).2) reached

theorem Leads.others (other : Pid) (still : ¬ active other) : after.procs other = sys.procs other := by
  induction leads with
  | refl => rfl
  | tail _ stepped ih =>
    obtain ⟨label, moves, _, stepped⟩ := stepped
    rw [System.step_other stepped other (fun same => still (same ▸ moves)), ih]

theorem Leads.weaken (wider : Pid → Prop) (within : ∀ pid, active pid → wider pid) : Leads wider sys after := by
  induction leads with
  | refl => exact .refl
  | tail _ stepped ih =>
    obtain ⟨label, moves, granted, stepped⟩ := stepped
    exact ih.tail ⟨label, within _ moves, granted, stepped⟩

theorem Leads.history : ∃ events, after.history = events ++ sys.history := by
  induction leads with
  | refl => exact ⟨[], rfl⟩
  | tail _ stepped ih =>
    obtain ⟨label, _, _, stepped⟩ := stepped
    obtain ⟨events, same⟩ := System.step_history stepped
    obtain ⟨earlier, before⟩ := ih
    exact ⟨events ++ earlier, by rw [same, before, List.append_assoc]⟩

theorem Leads.extends : sys.view.Extends after.view := by
  obtain ⟨events, same⟩ := leads.history
  rw [System.view, System.view, same]
  exact View.of_extends events sys.history

end

end

end StromDB
