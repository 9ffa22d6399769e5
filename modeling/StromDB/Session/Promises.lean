import StromDB.Session.Hosted

namespace StromDB

open Session WriterMachine PendingBarrier Catalogue

variable [Rkyv]

def Shown (commands : List CommandEnvelope) (forest : Forest) (replies : List Completion) : Prop :=
  ∀ completion ∈ replies, ∃ envelope ∈ commands, envelope.reply = completion.reply ∧ Reflects forest envelope completion

section

variable {commands : List CommandEnvelope} {forest next : Forest} {replies more : List Completion} {catalogue : Catalogue}

@[simp] theorem shown_append : Shown commands forest (replies ++ more) ↔ Shown commands forest replies ∧ Shown commands forest more :=
  List.forall_mem_append

theorem Shown.later (precedes : Forest.Precedes forest next) (shown : Shown commands forest replies) : Shown commands next replies := by
  intro completion member
  obtain ⟨envelope, heard, same, reflected⟩ := shown completion member
  exact ⟨envelope, heard, same, reflected.later precedes⟩

theorem Shown.heard (envelope : CommandEnvelope) (shown : Shown commands forest replies) :
    Shown (commands ++ [envelope]) forest replies := by
  intro completion member
  obtain ⟨other, heard, rest⟩ := shown completion member
  exact ⟨other, List.mem_append_left _ heard, rest⟩

theorem Shown.answered {envelope : CommandEnvelope} (reflected : Reflects forest envelope (catalogue.answer envelope)) :
    Shown (commands ++ [envelope]) forest [catalogue.answer envelope] := by
  intro completion member
  cases List.mem_singleton.mp member
  exact ⟨envelope, by simp, (answer_reply _ _).symm, reflected⟩

end

-- A sent reply shows in the durable forest, one in flight in the forest of its
-- RUN, and one that waits in the admitted forest.
structure Promises (s : Session) : Prop where
  released : Shown (Log.commands s.log) s.machine.durable (Log.released s.log)
  flying : ∀ flight, s.machine.flight = some flight → Shown (Log.commands s.log) flight.forest flight.replies
  waiting : Shown (Log.commands s.log) s.machine.admitted s.machine.pending.replies

section

variable {recovery : WriterRecovery} {past : List WalObject}

theorem Held.quiescent {s : Session} (held : Held recovery past s) (landed : s.machine.flight = none)
    (bare : s.machine.pending.facts = []) : s.machine.admitted = s.machine.durable := by
  have admitted := held.core.admitted
  rw [settled, landed, bare] at admitted
  exact (Option.some.inj admitted).symm

theorem Promises.opens (s : Session) (opens : Session.Opens recovery s) : Promises s := by
  obtain ⟨_, _, _, _, rfl⟩ := opens.eq
  exact ⟨nofun, nofun, nofun⟩

theorem Promises.move (now : Instant) (s later : Session) (held : Held recovery past s) (promises : Promises s)
    (move : Session.Move now s later) : Promises later := by
  obtain ⟨released, flying, waiting⟩ := promises
  have aloft := fun envelope flight here => (flying flight here).heard envelope
  have sent : ∀ envelope completion machine, machine.durable = s.machine.durable → machine.flight = s.machine.flight →
      machine.admitted = s.machine.admitted → machine.pending = s.machine.pending →
      Shown (Log.commands s.log ++ [envelope]) s.machine.durable [completion] →
      Promises (s.observe now (.command envelope) machine [.action (.sendReplies [completion])]) := by
    intro envelope completion machine durable flight admitted pending fresh
    exact ⟨by simpa [observe, durable] using ⟨released.heard envelope, fresh⟩, by simpa [observe, flight] using aloft envelope,
      by simpa [observe, admitted, pending] using waiting.heard envelope⟩
  cases move with
  | refused envelope completion polled decided =>
    obtain ⟨rfl, refuses, _⟩ := held.answers envelope _ decided
    exact sent envelope _ _ rfl rfl rfl rfl (.answered (reflects_refusal refuses _))
  | shed envelope admitted completion polled decided full =>
    obtain ⟨rfl, mutates, _, next⟩ := held.answers envelope _ decided
    have reflected := reflects (Completion.mutates_succeeds _ mutates) next
    refine sent envelope _ _ rfl rfl rfl rfl ?_
    intro completion member
    cases List.mem_singleton.mp member
    exact ⟨envelope, by simp, by rw [Completion.reply_refusal, answer_reply], reflected.refusal _ _ _ _ _⟩
  | repeated envelope completion polled decided landed empty =>
    obtain ⟨rfl, succeeds, _, next⟩ := held.answers envelope _ decided
    refine sent envelope _ _ rfl rfl rfl rfl ?_
    rw [← held.quiescent landed (by simp [PendingBarrier.facts, empty])]
    exact .answered (reflects succeeds next.symm)
  | accepted envelope admitted completion polled decided fits =>
    obtain ⟨rfl, mutates, applied, next⟩ := held.answers envelope _ decided
    have more : Forest.applyFacts s.machine.nextBatch [admitted.fact] s.machine.admitted = some admitted.forest := by
      simp [Forest.applyFacts, applied]
    have kept := (waiting.later (Forest.applyFacts_precedes held.core.admitted_consistent more)).heard envelope
    have promise := reflects (Completion.mutates_succeeds _ mutates) next
    exact ⟨by simpa [observe] using released.heard envelope, by simpa [observe] using aloft envelope,
      by simpa [observe, replies_pushFact] using ⟨kept, .answered promise⟩⟩
  | deferred envelope completion polled decided behind =>
    obtain ⟨rfl, succeeds, _, next⟩ := held.answers envelope _ decided
    exact ⟨by simpa [observe] using released.heard envelope, by simpa [observe] using aloft envelope,
      by simpa [observe, replies_pushIdempotent] using ⟨waiting.heard envelope, .answered (reflects succeeds next.symm)⟩⟩
  | landed flight active =>
    obtain ⟨object, _, _, _, applied⟩ := held.core.lands flight active
    have kept := released.later (Forest.applyFacts_precedes held.core.consistent applied)
    exact ⟨by simpa [observe] using ⟨kept, flying flight active⟩, by simp [observe], by simpa [observe] using waiting⟩
  | released landed nonempty bare =>
    rw [held.quiescent landed bare] at waiting
    exact ⟨by simpa [emit] using ⟨released, waiting⟩, by simpa [emit] using flying, by simp [emit, new, replies, Shown]⟩
  | flushed facts candidate next landed same carries follows clock =>
    exact ⟨by simpa [emit] using released, by simpa [emit] using waiting, by simp [emit, new, replies, Shown]⟩
  | cancelled ticket event finished marked =>
    cases event <;> simp [WriterEvent.completes] at finished <;>
      exact ⟨by simpa [observe] using released, by simpa [observe] using flying, by simpa [observe] using waiting⟩
  | _ => exact ⟨by simpa [observe, emit] using released, by simpa [observe, emit] using flying, by simpa [observe, emit] using waiting⟩

end

end StromDB
