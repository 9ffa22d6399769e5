import StromDB.Session.Books

namespace StromDB

open Session WriterMachine List Log

variable [Rkyv]

@[simp] def Log.through (reply : ReplySender) : List Entry → List Entry
  | [] => []
  | entry :: older => if entry.commands.any (fun envelope => envelope.reply = reply) then entry :: older else through reply older

theorem Log.facts_through_prefix (reply : ReplySender) (log : List Entry) : Log.facts (Log.through reply log) <+: Log.facts log := by
  induction log with
  | nil => exact prefix_rfl
  | cons entry older ih =>
    unfold through
    split
    · exact prefix_rfl
    · exact ih.trans (prefix_append _ _)

-- A published view is made of the RUNs that were reported Durable, and it is
-- the view before it with some of them folded in.
def Published (recovery : WriterRecovery) (entry : Entry) (older : List Entry) : Prop :=
  ∀ forest, entry = .emitted (.action (.publishView forest)) →
    foldLog (Log.landed older) recovery.durable = some forest ∧
    ∃ earlier later, Log.landed older = earlier ++ later ∧
      foldLog earlier recovery.durable = some (Log.view recovery.durable older) ∧
      foldLog later (Log.view recovery.durable older) = some forest

-- A success is released when the view is the fold of all Durable RUNs and these
-- carry every fact admitted no later than its command.
def Answered (recovery : WriterRecovery) (entry : Entry) (older : List Entry) : Prop :=
  ∀ completion ∈ entry.replies, completion.succeeds = true →
    foldLog (Log.landed older) recovery.durable = some (Log.view recovery.durable older) ∧
    (∃ envelope ∈ Log.commands older, envelope.reply = completion.reply) ∧
    Log.facts (Log.through completion.reply older) <+: (Log.landed older).flatMap WalObject.facts

structure Views (recovery : WriterRecovery) (s : Session) : Prop where
  books : Books recovery s
  view : Log.view recovery.durable s.log = s.machine.durable
  carried : ∀ completion ∈ s.machine.flightReplies,
    Log.facts (Log.through completion.reply s.log) <+: (Log.runs s.log).flatMap WalObject.facts
  published : Log.Every (Published recovery) s.log
  answered : Log.Every (Answered recovery) s.log

section

variable {recovery : WriterRecovery} {past : List WalObject} {now : Instant} {s : Session}

theorem Books.facts_eq (books : Books recovery s) :
    (Log.runs s.log).flatMap WalObject.facts ++ s.machine.pending.facts = Log.facts s.log := by
  have facts := books.balanced.facts
  rw [ledger_queued] at facts
  exact facts

theorem Books.heard (books : Books recovery s) (completion : Completion) (member : completion ∈ s.machine.held) :
    ∃ envelope ∈ Log.commands s.log, envelope.reply = completion.reply := by
  have kept := books.balanced.kept
  rw [ledger_owed] at kept
  have decided : completion ∈ verdicts s.log := kept.mem_iff.mp (mem_append_right _ member)
  have token : completion.reply ∈ (commands s.log).map CommandEnvelope.reply := by
    rw [← books.tokens.same]
    exact mem_map_of_mem decided
  obtain ⟨envelope, found, same⟩ := mem_map.mp token
  exact ⟨envelope, found, same⟩

theorem Views.through_command (views : Views recovery s) (envelope : CommandEnvelope)
    (fresh : ∀ earlier ∈ Log.commands s.log, earlier.reply ≠ envelope.reply) (completion : Completion)
    (member : completion ∈ s.machine.held) (older : List Entry) :
    Log.through completion.reply (.observed now (.command envelope) s.machine :: older) = Log.through completion.reply older := by
  obtain ⟨earlier, found, same⟩ := views.books.heard completion member
  have apart := fresh earlier found
  rw [same] at apart
  simp [Ne.symm apart]

theorem Session.Move.viewed {later : Session} (known : Log.view recovery.durable s.log = s.machine.durable)
    (move : Session.Move now s later) : Log.view recovery.durable later.log = later.machine.durable := by
  cases move with
  | _ => simp [observe, emit, known]

theorem Session.Move.carried (views : Views recovery s) (later : Session) (move : Session.Move now s later) :
    ∀ completion ∈ later.machine.flightReplies,
      Log.facts (Log.through completion.reply later.log) <+: (Log.runs later.log).flatMap WalObject.facts := by
  have known := views.carried
  have same : ∀ envelope, s.Polled envelope → ∀ completion ∈ s.machine.flightReplies,
      facts (through completion.reply (.observed now (.command envelope) s.machine :: s.log)) <+:
        (runs s.log).flatMap WalObject.facts := by
    intro envelope polled completion member
    rw [views.through_command envelope polled.fresh completion (mem_append_left _ member)]
    exact known completion member
  cases move with
  | refused envelope completion polled decided
  | shed envelope admitted completion polled decided full
  | accepted envelope admitted completion polled decided fits
  | repeated envelope completion polled decided landed empty
  | deferred envelope completion polled decided behind => simpa [observe, flightReplies] using same envelope polled
  | cancelled ticket event finished marked =>
    cases event <;> simp [WriterEvent.completes] at finished <;> simpa [observe, flightReplies] using known
  | flushed facts candidate next landed same carries follows clock =>
    intro completion _
    have carried : (runs (.emitted (.effect (.establishWal candidate)) :: s.log)).flatMap WalObject.facts =
        Log.facts s.log := by
      rw [← views.books.facts_eq]
      simp [carries, WalObject.facts, same]
    rw [emit, carried]
    exact facts_through_prefix completion.reply s.log
  | landed flight active => simp [observe, flightReplies]
  | _ => simpa [observe, emit, flightReplies] using known

section

variable (held : Held recovery past s) (views : Views recovery s) (later : Session) (move : Session.Move now s later)

include held views move

theorem Session.Move.published : Log.Every (Published recovery) later.log := by
  have known := views.published
  have folds := held.core.durable
  have again : ∀ ticket : CheckpointTicket, Published recovery (.emitted (.action (.publishView s.machine.durable)))
      (.observed now (.sealPublished ticket (.ok .authored)) s.machine :: s.log) := by
    intro ticket forest same
    cases same
    refine ⟨by simpa using folds, Log.landed s.log, [], by simp, ?_, ?_⟩
    · exact views.view ▸ folds
    · exact congrArg some views.view
  cases move with
  | landed flight active =>
    obtain ⟨object, issued, same, found, applied⟩ := held.core.lands flight active
    simp only [observe, emits_cons, emits_nil]
    refine ⟨(fun _ here => by cases here), ?_, ?_, known⟩
    · intro forest same
      cases same
      have landed : Log.landed (.observed now (.walEstablished flight.batch (.ok .durable)) s.machine :: s.log) =
          Log.landed s.log ++ [object] := by
        simp only [Log.landed, Entry.lands]
        rw [found]
      have view : view recovery.durable (.observed now (.walEstablished flight.batch (.ok .durable)) s.machine :: s.log) =
          s.machine.durable := views.view
      have single : foldLog [object] s.machine.durable = some flight.forest := by simp [foldLog, applied]
      rw [landed, view]
      refine ⟨?_, Log.landed s.log, [object], rfl, folds, single⟩
      rw [foldLog_append, folds]
      exact single
    · intro forest here
      cases here
  | collecting ticket checkpoint cut marked reaches opened idle =>
    exact ⟨(fun _ here => by cases here), again ticket, (fun _ here => by cases here), known⟩
  | authored ticket checkpoint marked => exact ⟨again ticket, (fun _ here => by cases here), known⟩
  | _ => simp [observe, emit, Log.Every, Published, known]

theorem Session.Move.answered : Log.Every (Answered recovery) later.log := by
  have known := views.answered
  have folds := held.core.durable
  have down : s.machine.flight = none → Log.runs s.log = Log.landed s.log := by
    intro landed
    have flying := held.core.flight
    rw [landed] at flying
    exact flying.2
  cases move with
  | refused envelope completion polled decided =>
    obtain ⟨_, fails, _⟩ := held.answers envelope _ decided
    simp [observe, Log.Every, Answered, known, fails]
  | shed envelope admitted completion polled decided full =>
    simp [observe, Log.Every, Answered, known, completion.refusal_succeeds]
  | repeated envelope completion polled decided landed empty =>
    obtain ⟨answer, _⟩ := held.answers envelope _ decided
    have reply : completion.reply = envelope.reply := answer ▸ Catalogue.answer_reply _ _
    refine ⟨?_, by simp [Answered], known⟩
    intro other member _
    cases mem_singleton.mp member
    refine ⟨?_, ⟨envelope, by simp, reply.symm⟩, ?_⟩
    · simpa [views.view] using folds
    · have facts := views.books.facts_eq
      rw [down landed, show s.machine.pending.facts = [] by simp [PendingBarrier.facts, empty], append_nil] at facts
      simp [reply, admits_idempotent _ envelope completion decided, facts]
  | landed flight active =>
    obtain ⟨object, issued, same, found, applied⟩ := held.core.lands flight active
    simp only [observe, emits_cons, emits_nil]
    refine ⟨?_, by simp [Answered], by simp [Answered], known⟩
    intro completion member _
    have flying : completion ∈ s.machine.flightReplies := by
      simpa [flightReplies, active] using member
    obtain ⟨envelope, heard, reply⟩ := views.books.heard completion (mem_append_left _ flying)
    have landed : Log.landed (.emitted (.action (.publishView flight.forest)) ::
        .observed now (.walEstablished flight.batch (.ok .durable)) s.machine :: s.log) = runs s.log := by
      simp only [Log.landed, Entry.lands, Log.runs, Entry.runs, List.append_nil]
      rw [found, issued]
      simp
    rw [landed]
    refine ⟨?_, ⟨envelope, by simpa using heard, reply⟩, ?_⟩
    · rw [issued, foldLog_append, folds]
      simp [foldLog, applied]
    · simpa using views.carried completion flying
  | released landed nonempty bare =>
    refine ⟨?_, known⟩
    intro completion member _
    have waiting : completion ∈ s.machine.held := mem_append_right _ member
    refine ⟨views.view ▸ folds, views.books.heard completion waiting, ?_⟩
    have facts := views.books.facts_eq
    rw [bare, append_nil, down landed] at facts
    rw [facts]
    exact facts_through_prefix completion.reply s.log
  | _ => simp [observe, emit, Log.Every, Answered, known]

end

theorem Views.move (held : Held recovery past s) (later : Session) (views : Views recovery s) (move : Session.Move now s later) :
    Views recovery later where
  books := views.books.move held later move
  view := move.viewed views.view
  carried := move.carried views later
  published := move.published held views later
  answered := move.answered held views later

theorem Views.opens (s : Session) (opens : Session.Opens recovery s) : Views recovery s := by
  have books := Books.opens s opens
  obtain ⟨_, _, _, _, rfl⟩ := opens.eq
  exact ⟨books, rfl, by simp [flightReplies], trivial, trivial⟩

end

end StromDB
