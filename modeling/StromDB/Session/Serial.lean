import StromDB.Session.Books

namespace StromDB

open Catalogue Session

variable [Rkyv]

def Completion.overloaded : Completion → Bool
  | .create (.error .overloaded) _ => true
  | .close (.error .overloaded) _ => true
  | .delete (.error .overloaded) _ => true
  | _ => false

omit [Rkyv] in
theorem Completion.refusal_overloaded (completion : Completion) : (completion.refusal .overloaded).overloaded = true := by
  cases completion <;> rfl

theorem Catalogue.answer_overloaded (catalogue : Catalogue) (envelope : CommandEnvelope) :
    (catalogue.answer envelope).overloaded = false := by
  cases envelope <;> simp only [answer] <;> split <;> try split
  all_goals rfl

@[simp] def Entry.catalogue (before : Catalogue) : Entry → Catalogue
  | .observed _ (.command envelope) machine =>
    if (machine.verdict envelope).any Completion.overloaded then before else before.next envelope
  | _ => before

@[simp] def Log.catalogue (recovered : Forest) : List Entry → Catalogue
  | [] => recovered.catalogue
  | entry :: older => entry.catalogue (catalogue recovered older)

-- A command is answered as the catalogue answers it, or a change is shed and
-- admission leaves everything but the checkpoint request as it was.
def Serves (recovered : Forest) (entry : Entry) (older : List Entry) : Prop :=
  ∀ now envelope machine, entry = .observed now (.command envelope) machine →
    machine.verdict envelope = some ((Log.catalogue recovered older).answer envelope) ∨
    (((Log.catalogue recovered older).answer envelope).mutates = true ∧
      machine.verdict envelope = some (((Log.catalogue recovered older).answer envelope).refusal .overloaded) ∧
      machine.admitCommand envelope = .ok ({ machine with retryCheckpointAt := some machine.durableBatch },
        some (((Log.catalogue recovered older).answer envelope).refusal .overloaded)))

structure Serial (recovery : WriterRecovery) (s : Session) : Prop where
  catalogue : s.machine.admitted.catalogue = Log.catalogue recovery.durable s.log
  serves : Log.Every (Serves recovery.durable) s.log

section

variable {recovery : WriterRecovery} {past : List WalObject} {now : Instant} {s : Session}

theorem Serial.answered (serial : Serial recovery s) (now : Instant) (envelope : CommandEnvelope) (completion : Completion)
    (answer : completion = s.machine.admitted.catalogue.answer envelope) (verdict : s.machine.verdict envelope = some completion)
    (following : Forest) (next : following.catalogue = s.machine.admitted.catalogue.next envelope) :
    following.catalogue = Log.catalogue recovery.durable (.observed now (.command envelope) s.machine :: s.log) ∧
      Log.Every (Serves recovery.durable) (.observed now (.command envelope) s.machine :: s.log) := by
  constructor
  · simp [verdict, answer, answer_overloaded, next, serial.catalogue]
  · refine ⟨?_, serial.serves⟩
    intro _ _ _ here
    cases here
    left
    rw [verdict, answer, serial.catalogue]

theorem Serial.move (held : Held recovery past s) (later : Session) (serial : Serial recovery s) (move : Session.Move now s later) :
    Serial recovery later := by
  have catalogue := serial.catalogue
  have serves := serial.serves
  cases move with
  | refused envelope completion polled decided =>
    obtain ⟨answer, _, next⟩ := held.answers envelope _ decided
    obtain ⟨following, every⟩ := serial.answered now envelope completion answer
      (verdict_refused held envelope polled completion decided) s.machine.admitted next.symm
    exact ⟨following, (by simp [Serves]), every⟩
  | shed envelope admitted completion polled decided full =>
    obtain ⟨answer, mutates, _⟩ := held.answers envelope _ decided
    have verdict := verdict_shed held envelope polled admitted completion decided full
    refine ⟨?_, (by simp [Serves]), ?_, serves⟩
    · simpa [observe, verdict, completion.refusal_overloaded] using catalogue
    · intro _ _ _ here
      cases here
      right
      rw [catalogue] at answer
      rw [← answer]
      exact ⟨mutates, verdict,
        (admit_concludes held envelope polled _ decided).trans (conclude_shed _ admitted completion full)⟩
  | accepted envelope admitted completion polled decided fits =>
    obtain ⟨answer, _, _, next⟩ := held.answers envelope _ decided
    obtain ⟨following, every⟩ := serial.answered now envelope completion answer
      (verdict_accepted held envelope polled admitted completion decided fits) admitted.forest next
    exact ⟨following, every⟩
  | repeated envelope completion polled decided landed empty =>
    obtain ⟨answer, _, _, next⟩ := held.answers envelope _ decided
    obtain ⟨following, every⟩ := serial.answered now envelope completion answer
      (verdict_repeated held envelope polled completion decided landed empty) s.machine.admitted next.symm
    exact ⟨following, (by simp [Serves]), every⟩
  | deferred envelope completion polled decided behind =>
    obtain ⟨answer, _, _, next⟩ := held.answers envelope _ decided
    obtain ⟨following, every⟩ := serial.answered now envelope completion answer
      (verdict_deferred held envelope polled completion decided behind) s.machine.admitted next.symm
    exact ⟨following, every⟩
  | cancelled ticket event finished marked =>
    cases event <;> simp [WriterEvent.completes] at finished <;>
      exact ⟨by simpa [observe] using catalogue, by simp [observe, Log.Every, Serves, serves]⟩
  | _ =>
    exact ⟨by simpa [observe, emit] using catalogue,
      by simp [observe, emit, Log.Every, Serves, serves]⟩

-- A released PathOccupied answers the create before it: the path is taken in
-- the admitted forest, and in the durable one unless a fact on it is not
-- durable yet.
def Conflicts (entry : Entry) (older : List Entry) : Prop :=
  ∀ reply, .create (.error .pathOccupied) reply ∈ entry.replies →
    ∃ now command machine earlier, older = .observed now (.command (.create command reply)) machine :: earlier ∧
      machine.admitted.catalogue.answer (.create command reply) = .create (.error .pathOccupied) reply ∧
      ((∀ object ∈ (Log.runs earlier).drop (Log.landed earlier).length, ∀ fact ∈ object.facts, command.path ≠ fact.path) →
        (∀ fact ∈ machine.pending.facts, command.path ≠ fact.path) →
        machine.durable.catalogue.answer (.create command reply) = .create (.error .pathOccupied) reply)

theorem Catalogue.answer_occupied (catalogue other : Catalogue) (command : CreateStream) (reply : ReplySender)
    (same : other.holding command.path = catalogue.holding command.path)
    (occupied : catalogue.answer (.create command reply) = .create (.error .pathOccupied) reply) :
    other.answer (.create command reply) = .create (.error .pathOccupied) reply := by
  unfold answer at occupied ⊢
  simp only at occupied ⊢
  rw [same]
  split at occupied
  · split at occupied <;> cases occupied
  · exact occupied
  · exact occupied

theorem Held.durable_holding (held : Held recovery past s) (path : StreamPath)
    (landing : ∀ object ∈ (Log.runs s.log).drop (Log.landed s.log).length, ∀ fact ∈ object.facts, path ≠ fact.path)
    (waiting : ∀ fact ∈ s.machine.pending.facts, path ≠ fact.path) :
    s.machine.durable.holding path = s.machine.admitted.holding path := by
  have admitted := Forest.applyFacts_holding_other _ _ held.core.settled_consistent waiting held.core.admitted
  rw [admitted]
  have flying := held.core.flight
  unfold WriterMachine.settled
  cases active : s.machine.flight with
  | none => rfl
  | some flight =>
    rw [active] at flying
    obtain ⟨_, _, object, issued, _, applied⟩ := flying
    refine (Forest.applyFacts_holding_other _ _ held.core.consistent (landing object ?_) applied).symm
    rw [issued, List.drop_left]
    exact List.mem_singleton_self _

theorem Session.Move.conflicts (held : Held recovery past s) (books : Books recovery s) (later : Session)
    (known : Log.Every Conflicts s.log) (move : Session.Move now s later) : Log.Every Conflicts later.log := by
  have waits := books.balanced.waits
  rw [ledger_owed] at waits
  have successes : ∀ completion ∈ s.machine.held, ∀ reply, completion ≠ .create (.error .pathOccupied) reply := by
    rintro completion member reply rfl
    cases waits _ member
  cases move with
  | refused envelope completion polled decided =>
    refine ⟨?_, by simp [Conflicts], known⟩
    intro reply member
    have same : completion = .create (.error .pathOccupied) reply := (List.mem_singleton.mp member).symm
    obtain ⟨answer, _⟩ := held.answers envelope _ decided
    rw [same] at answer
    cases envelope with
    | close path token | delete path token =>
      simp only [Catalogue.answer] at answer
      split at answer <;> cases answer
    | create command token =>
      have token : token = reply := by
        have replies := congrArg Completion.reply answer
        rw [Catalogue.answer_reply] at replies
        exact replies.symm
      subst token
      refine ⟨now, command, s.machine, s.log, rfl, answer.symm, fun landing waiting => ?_⟩
      exact Catalogue.answer_occupied s.machine.admitted.catalogue _ command _
        (held.durable_holding command.path landing waiting) answer.symm
  | shed envelope admitted completion polled decided full =>
    refine ⟨?_, by simp [Conflicts], known⟩
    intro reply member
    have same := List.mem_singleton.mp member
    cases completion <;> cases same
  | repeated envelope completion polled decided landed empty =>
    refine ⟨?_, by simp [Conflicts], known⟩
    intro reply member
    obtain ⟨_, success, _⟩ := held.answers envelope _ decided
    rw [← List.mem_singleton.mp member] at success
    cases success
  | landed flight active =>
    refine ⟨?_, by simp [Conflicts], by simp [Conflicts], known⟩
    intro reply member
    refine absurd rfl (successes _ (List.mem_append_left _ ?_) reply)
    simpa [WriterMachine.flightReplies, active] using member
  | released landed nonempty bare =>
    refine ⟨?_, known⟩
    intro reply member
    exact absurd rfl (successes _ (List.mem_append_right _ member) reply)
  | _ => simp [Session.observe, Session.emit, Log.Every, Conflicts, known]

theorem Serial.opens (s : Session) (opens : Session.Opens recovery s) : Serial recovery s := by
  obtain ⟨_, _, _, _, rfl⟩ := opens.eq
  exact ⟨rfl, trivial⟩

end

end StromDB
