import StromDB.Session.Reserve
import StromDB.Session.Serial

namespace StromDB

open Session List Log

variable [Rkyv]

def CheckpointMarker.ticket : CheckpointMarker → CheckpointTicket
  | .preparing ticket => ticket
  | .cancelling ticket => ticket
  | .publishing ticket _ => ticket

omit [Rkyv] in
theorem Completion.succeeds_overloaded (completion : Completion) (success : completion.succeeds = true) :
    completion.overloaded = false := by
  cases completion with
  | create outcome reply | close outcome reply | delete outcome reply =>
    cases outcome with
    | ok _ => rfl
    | error _ => cases success

@[simp] def Entry.sheds (entry : Entry) : Bool := entry.replies.any Completion.overloaded

@[simp] def Entry.abandons (ticket : CheckpointTicket) : Entry → Bool
  | .observed _ (.checkpointPrepared abandoned .abandoned) _ => abandoned = ticket
  | _ => false

namespace Log

@[simp] def unshed : List Entry → List CheckpointInput
  | [] => []
  | entry :: older => if entry.sheds then [] else unshed older ++ entry.attempts

@[simp] def observer : List Entry → Option WriterMachine
  | [] => none
  | .observed _ _ machine :: _ => some machine
  | _ :: older => observer older

@[simp] def sheds : List Entry → Bool
  | [] => false
  | .observed _ _ _ :: _ => false
  | entry :: older => entry.sheds || sheds older

def abandoned (ticket : CheckpointTicket) (log : List Entry) : Bool := log.any fun entry => entry.abandons ticket

@[simp] theorem abandoned_cons (ticket : CheckpointTicket) (entry : Entry) (older : List Entry) :
    abandoned ticket (entry :: older) = (entry.abandons ticket || abandoned ticket older) := rfl

end Log

def Spaced (entry : Entry) (older : List Entry) : Prop :=
  ∀ input ∈ entry.attempts, ∀ other ∈ Log.unshed older, other.ticket.cut ≠ input.ticket.cut

-- After an Overloaded answer of a machine that had no room: its forests and its
-- barrier are as they were, and a checkpoint is under way or asked for.
structure Shedding (s : Session) (machine : WriterMachine) : Prop where
  sealed : s.machine.sealed = machine.sealed
  admitted : s.machine.admitted = machine.admitted
  pending : s.machine.pending = machine.pending
  nextBatch : s.machine.nextBatch = machine.nextBatch
  idle : s.machine.flight = none → s.machine.pending.commands = []
  durable : s.machine.durableBatch = machine.durableBatch
  opened : s.machine.ingressOpen = true
  full : runLeavesTakeoverRoom machine.sealed.replay.batch machine.nextBatch = false
  next : machine.nextBatch.get ≤ machine.durableBatch.get + 2
  above : machine.sealed.replay.cut < machine.nextBatch.get
  retry : s.machine.checkpoint = none → s.machine.retryCheckpointAt = some s.machine.durableBatch

def Outcome (s : Session) (ticket : CheckpointTicket) : Prop :=
  s.machine.checkpoint.map CheckpointMarker.ticket = some ticket ∨ s.machine.ingressOpen = false ∨
    Log.abandoned ticket s.log = true ∨ s.machine.sealed.replay.cut = ticket.cut.get

structure Attempts (s : Session) : Prop where
  count : s.machine.checkpointAttempt = (Log.attempts s.log).length
  marked : ∀ marker, s.machine.checkpoint = some marker → s.machine.lastCheckpointAttemptedCut = some marker.ticket.cut
  last : ∀ cut, s.machine.lastCheckpointAttemptedCut = some cut →
    ∃ input ∈ Log.attempts s.log, input.ticket.cut = cut ∧ Outcome s input.ticket
  unshed : ∀ input ∈ Log.unshed s.log, s.machine.retryCheckpointAt = none ∧
    (input.ticket.cut.get < s.machine.durableBatch.get ∨
      (input.ticket.cut = s.machine.durableBatch ∧ s.machine.lastCheckpointAttemptedCut = some s.machine.durableBatch))
  spaced : Log.Every Spaced s.log
  sheds : Log.sheds s.log = true → ∃ machine, Log.observer s.log = some machine ∧ Shedding s machine

section

variable {recovery : WriterRecovery} {past : List WalObject} {now : Instant} {s : Session}

theorem Session.Move.counted {later : Session} (known : s.machine.checkpointAttempt = (Log.attempts s.log).length)
    (move : Session.Move now s later) : later.machine.checkpointAttempt = (Log.attempts later.log).length := by
  cases move with
  | _ => simp [observe, emit, known]

theorem Session.Move.marked (later : Session)
    (known : ∀ marker, s.machine.checkpoint = some marker → s.machine.lastCheckpointAttemptedCut = some marker.ticket.cut)
    (move : Session.Move now s later) :
    ∀ marker, later.machine.checkpoint = some marker → later.machine.lastCheckpointAttemptedCut = some marker.ticket.cut := by
  cases move with
  | cancelling ticket opened marked =>
    rintro marker ⟨rfl⟩
    exact known (.preparing ticket) marked
  | prepared input checkpoint issued built marked =>
    rintro marker ⟨rfl⟩
    exact known (.preparing input.ticket) marked
  | planned ticket idle opened named due =>
    rintro marker ⟨rfl⟩
    rw [named]
    rfl
  | abandoned ticket marked | cancelled ticket event finished marked
  | collecting ticket checkpoint cut marked reaches opened idle | authored ticket checkpoint marked => rintro marker ⟨⟩
  | _ => exact known

theorem Session.Move.unshed (held : Held recovery past s) (later : Session)
    (known : ∀ input ∈ Log.unshed s.log, s.machine.retryCheckpointAt = none ∧
      (input.ticket.cut.get < s.machine.durableBatch.get ∨
        (input.ticket.cut = s.machine.durableBatch ∧ s.machine.lastCheckpointAttemptedCut = some s.machine.durableBatch)))
    (move : Session.Move now s later) :
    ∀ input ∈ Log.unshed later.log, later.machine.retryCheckpointAt = none ∧
      (input.ticket.cut.get < later.machine.durableBatch.get ∨
        (input.ticket.cut = later.machine.durableBatch ∧
          later.machine.lastCheckpointAttemptedCut = some later.machine.durableBatch)) := by
  cases move with
  | shed envelope admitted completion polled decided full =>
    simp [observe, completion.refusal_overloaded]
  | landed flight active =>
    intro input member
    have earlier : input ∈ Log.unshed s.log := by
      simp only [observe, Log.emits_cons, Log.emits_nil, Log.unshed] at member
      split at member
      · cases member
      · simpa using member
    obtain ⟨retry, cut⟩ := known input earlier
    have flying := held.core.flight
    rw [active] at flying
    have batch := flying.1
    refine ⟨retry, .inl ?_⟩
    simp only [observe]
    rcases cut with below | ⟨same, _⟩
    · omega
    · rw [same]
      omega
  | planned ticket idle opened named due =>
    intro input member
    have either : input ∈ Log.unshed s.log ∨ input = ⟨ticket, s.machine.sealed, s.machine.base, s.machine.durable⟩ := by
      simpa [emit] using member
    refine ⟨rfl, ?_⟩
    rcases either with earlier | rfl
    · rcases (known input earlier).2 with below | ⟨same, _⟩
      · exact .inl below
      · exact .inr ⟨same, rfl⟩
    · exact .inr ⟨by rw [named]; rfl, rfl⟩
  | _ =>
    intro input member
    apply known input
    simp only [observe, emit, Log.emits_cons, Log.emits_nil, Log.unshed, Entry.sheds, Entry.replies, List.any_nil,
      Entry.attempts, List.append_nil] at member
    first
      | exact member
      | split at member
        · cases member
        · simpa using member

theorem Session.Move.spaced (attempts : Attempts s) (later : Session) (move : Session.Move now s later) :
    Log.Every Spaced later.log := by
  have known := attempts.spaced
  cases move with
  | planned ticket idle opened named due =>
    refine ⟨?_, known⟩
    intro input member other earlier same
    have here : input = ⟨ticket, s.machine.sealed, s.machine.base, s.machine.durable⟩ := by simpa using member
    have cut : other.ticket.cut = s.machine.durableBatch := by rw [same, here, named]
    obtain ⟨retry, behind⟩ := attempts.unshed other earlier
    rcases behind with below | ⟨_, last⟩
    · rw [cut] at below
      exact Nat.lt_irrefl _ below
    · rw [due last] at retry
      cases retry
  | _ => simp [observe, emit, Log.Every, Spaced, known]

theorem Session.Move.outcome (held : Held recovery past s) (attempts : Attempts s) (later : Session) (move : Session.Move now s later) :
    ∀ cut, later.machine.lastCheckpointAttemptedCut = some cut →
      ∃ input ∈ Log.attempts later.log, input.ticket.cut = cut ∧ Outcome later input.ticket := by
  have known := attempts.last
  have newest : ∀ marker, s.machine.checkpoint = some marker → ∀ cut, s.machine.lastCheckpointAttemptedCut = some cut →
      marker.ticket.cut = cut := by
    intro marker here cut last
    have same := attempts.marked marker here
    rw [last] at same
    exact (Option.some.inj same).symm
  have sealed : ∀ ticket checkpoint, s.machine.checkpoint = some (.publishing ticket checkpoint) →
      checkpoint.successor.replay.cut = ticket.cut.get := by
    intro ticket checkpoint here
    rw [(held.slots.publishing ticket checkpoint here).replay]
    rfl
  cases move with
  | planned ticket idle opened named due =>
    rintro cut ⟨rfl⟩
    refine ⟨_, mem_append_right _ (mem_singleton_self _), ?_, .inl rfl⟩
    rw [named]
  | cancelling ticket opened marked | closed opened unmarked =>
    intro cut last
    obtain ⟨input, member, same, _⟩ := known cut last
    exact ⟨input, by simpa [observe] using member, same, .inr (.inl rfl)⟩
  | prepared input checkpoint issued built marked =>
    intro cut last
    obtain ⟨other, member, same, outcome⟩ := known cut last
    refine ⟨other, by simpa [observe] using member, same, ?_⟩
    rcases outcome with active | closed | abandoned | reached
    · left
      rw [marked] at active
      exact active
    · exact .inr (.inl closed)
    · exact .inr (.inr (.inl (by simpa [observe] using abandoned)))
    · exact .inr (.inr (.inr reached))
  | abandoned ticket marked =>
    intro cut last
    obtain ⟨other, member, same, outcome⟩ := known cut last
    refine ⟨other, by simpa [observe] using member, same, ?_⟩
    rcases outcome with active | closed | abandoned | reached
    · right
      rw [marked] at active
      have name : ticket = other.ticket := Option.some.inj active
      simp [observe, name]
    · exact .inr (.inl closed)
    · exact .inr (.inr (.inl (by simp [observe, abandoned])))
    · exact .inr (.inr (.inr reached))
  | cancelled ticket event finished marked =>
    intro cut last
    obtain ⟨other, member, same, _⟩ := known cut last
    exact ⟨other, by simpa [observe] using member, same, .inr (.inl (held.slots.closing ticket marked))⟩
  | collecting ticket checkpoint reaches marked cuts opened idle | authored ticket checkpoint marked =>
    intro cut last
    obtain ⟨other, member, same, _⟩ := known cut last
    refine ⟨other, by simpa [observe] using member, same, .inr (.inr (.inr ?_))⟩
    rw [same, ← newest _ marked cut last]
    exact sealed ticket checkpoint marked
  | _ => simpa [observe, emit, Outcome] using known

omit [Rkyv] in
theorem sheds_of_successes {replies : List Completion} (successes : ∀ completion ∈ replies, completion.succeeds = true) :
    replies.any Completion.overloaded = false := by
  rw [any_eq_false]
  intro completion member
  simp [completion.succeeds_overloaded (successes completion member)]

section

variable (held : Held recovery past s) (books : Books recovery s) (roomy : Roomy s) (later : Session)

include held books roomy

theorem Session.Move.sheds
    (known : Log.sheds s.log = true → ∃ machine, Log.observer s.log = some machine ∧ Shedding s machine)
    (move : Session.Move now s later) :
    Log.sheds later.log = true → ∃ machine, Log.observer later.log = some machine ∧ Shedding later machine := by
  have waits := books.balanced.waits
  rw [ledger_owed] at waits
  cases move with
  | refused envelope completion polled decided | repeated envelope completion polled decided landed empty =>
    obtain ⟨answer, _⟩ := held.answers envelope _ decided
    simp [observe, answer, Catalogue.answer_overloaded]
  | shed envelope admitted completion polled decided full =>
    intro _
    refine ⟨s.machine, by simp [observe], rfl, rfl, rfl, rfl, ?_, rfl, polled.opened, full, ?_, held.core.next_above,
      fun _ => rfl⟩
    · intro down
      refine (polled.quiet down).resolve_right fun facts => ?_
      have room := (runLeavesTakeoverRoom_iff s.machine.sealed.replay.batch s.machine.nextBatch).mpr
        ⟨held.core.reserve facts, by rw [cutNumber_batch]; exact held.core.next_above,
          by rw [cutNumber_batch]; exact roomy.pending facts⟩
      rw [full] at room
      cases room
    have flying := held.core.flight
    cases active : s.machine.flight with
    | none =>
      rw [active] at flying
      have next := flying.1
      omega
    | some flight =>
      rw [active] at flying
      have next := flying.2.1
      omega
  | landed flight active =>
    have successes : flight.replies.any Completion.overloaded = false := by
      apply sheds_of_successes
      intro completion member
      apply waits completion (mem_append_left _ ?_)
      simpa [WriterMachine.flightReplies, active] using member
    simp only [observe, emits_cons, emits_nil, sheds, Entry.sheds, Entry.replies, successes]
    simp
  | released landed nonempty bare =>
    have successes := sheds_of_successes (fun completion member => waits completion (mem_append_right _ member))
    intro shed
    simp only [emit, sheds, Entry.sheds, Entry.replies, successes, Bool.false_or] at shed
    obtain ⟨machine, observer, shedding⟩ := known shed
    exact absurd (shedding.idle landed) nonempty
  | flushed facts candidate next landed same carries follows clock =>
    intro shed
    obtain ⟨machine, observer, shedding⟩ := known (by simpa [emit] using shed)
    have empty := shedding.idle landed
    refine absurd ?_ facts.nonempty
    simp [same, PendingBarrier.facts, empty]
  | armed started unarmed last =>
    intro shed
    obtain ⟨machine, observer, shedding⟩ := known (by simpa [emit] using shed)
    exact ⟨machine, observer, { shedding with }⟩
  | planned ticket idle opened named due =>
    intro shed
    obtain ⟨machine, observer, shedding⟩ := known (by simpa [emit] using shed)
    exact ⟨machine, observer, { shedding with retry := fun here => by cases here }⟩
  | _ => simp [observe]

theorem Attempts.move (attempts : Attempts s)
    (move : Session.Move now s later) : Attempts later where
  count := move.counted attempts.count
  marked := move.marked later attempts.marked
  last := move.outcome held attempts later
  unshed := move.unshed held later attempts.unshed
  spaced := move.spaced attempts later
  sheds := move.sheds held books roomy later attempts.sheds

end

theorem Attempts.opens (s : Session) (opens : Session.Opens recovery s) : Attempts s := by
  obtain ⟨_, _, _, _, rfl⟩ := opens.eq
  exact ⟨rfl, by simp [WriterMachine.launched], by simp [WriterMachine.launched], by simp, trivial, by simp⟩

end

end StromDB
