import StromDB.Lib.GroupCommit
import StromDB.Session.Run

namespace StromDB

open PendingBarrier Session WriterMachine List Catalogue

variable [Rkyv]

omit [Rkyv] in
theorem Completion.refusal_succeeds (completion : Completion) (refusal : AdmissionRefusal) :
    (completion.refusal refusal).succeeds = false := by
  cases completion <;> rfl

def Session.ledger (s : Session) : GroupCommit.Ledger Completion OperationFact WalObject where
  verdicts := Log.verdicts s.log
  facts := Log.facts s.log
  issued := Log.runs s.log
  landed := Log.landed s.log
  released := Log.released s.log
  flying := s.machine.flightReplies
  pending := s.machine.pending.commands.map fun command => (command.fact, command.completion)

section

variable (m : WriterMachine) (envelope : CommandEnvelope) (admitted : AdmittedCommand) (completion : Completion)

theorem admits_refused (decided : decideAdmission m.admitted m.nextBatch envelope = .ok (.refused completion)) :
    m.admits envelope = none := by
  simp only [admits, decided]

theorem admits_idempotent (decided : decideAdmission m.admitted m.nextBatch envelope = .ok (.idempotent completion)) :
    m.admits envelope = none := by
  simp only [admits, decided]

theorem admits_fact (decided : decideAdmission m.admitted m.nextBatch envelope = .ok (.fact admitted completion)) :
    m.admits envelope =
      if runLeavesTakeoverRoom m.sealed.replay.batch m.nextBatch then some admitted.fact else none := by
  simp only [admits, decided]

end

section

variable {recovery : WriterRecovery} {past : List WalObject} {s : Session} (held : Held recovery past s) (envelope : CommandEnvelope)
  (polled : s.Polled envelope) (admitted : AdmittedCommand) (completion : Completion)

include held polled

theorem admit_concludes (admission : Admission)
    (decided : decideAdmission s.machine.admitted s.machine.nextBatch envelope = .ok admission) :
    s.machine.admitCommand envelope = s.machine.conclude admission :=
  admit_decided (Session.Polled.guarded held envelope polled) decided

theorem verdict_refused (decided : decideAdmission s.machine.admitted s.machine.nextBatch envelope = .ok (.refused completion)) :
    s.machine.verdict envelope = some completion := by
  simp only [verdict, admit_concludes held envelope polled _ decided]
  rfl

section

variable (decided : decideAdmission s.machine.admitted s.machine.nextBatch envelope = .ok (.fact admitted completion))

include decided

theorem verdict_shed
    (full : runLeavesTakeoverRoom s.machine.sealed.replay.batch s.machine.nextBatch = false) :
    s.machine.verdict envelope = some (completion.refusal .overloaded) := by
  simp only [verdict, admit_concludes held envelope polled _ decided, conclude_shed _ admitted completion full]

theorem verdict_accepted
    (fits : runLeavesTakeoverRoom s.machine.sealed.replay.batch s.machine.nextBatch = true) :
    s.machine.verdict envelope = some completion := by
  have bound := (held.core.barrier.pushFact admitted.fact completion polled.room polled.bytes).fits
  simp [verdict, admit_concludes held envelope polled _ decided, conclude_accepted _ admitted completion fits bound, replies_pushFact]

end

section

variable (decided : decideAdmission s.machine.admitted s.machine.nextBatch envelope = .ok (.idempotent completion))

include decided

theorem verdict_repeated
    (landed : s.machine.flight = none) (empty : s.machine.pending.commands = []) : s.machine.verdict envelope = some completion := by
  simp [verdict, admit_concludes held envelope polled _ decided, conclude_repeated _ completion held.core.barrier landed empty]

theorem verdict_deferred
    (behind : s.machine.flight ≠ none ∨ s.machine.pending.facts ≠ []) : s.machine.verdict envelope = some completion := by
  simp [verdict, admit_concludes held envelope polled _ decided, conclude_deferred _ completion held.core.barrier behind,
    replies_pushIdempotent]

end

end

section

variable {recovery : WriterRecovery} {past : List WalObject} {now : Instant} {s : Session}

theorem ledger_waiting : s.ledger.waiting = s.machine.pending.replies := by
  simp [ledger, GroupCommit.Ledger.waiting, replies]

theorem ledger_queued : s.ledger.queued = s.machine.pending.facts := by
  simp [ledger, GroupCommit.Ledger.queued, PendingBarrier.facts, filterMap_map]

theorem ledger_owed : s.ledger.owed = s.machine.held := by
  rw [GroupCommit.Ledger.owed, ledger_waiting]
  rfl

theorem flightReplies_landed (landed : s.machine.flight = none) : s.machine.flightReplies = [] := by
  simp [flightReplies, landed]

theorem Session.Move.books (held : Held recovery past s) (later : Session) (move : Session.Move now s later) :
    GroupCommit.Step Completion.succeeds WalObject.facts s.ledger later.ledger := by
  cases move with
  | refused envelope completion polled decided =>
    obtain ⟨_, fails, _⟩ := held.answers envelope _ decided
    refine .of_eq (.answer completion (fun success => ?_)) ?_
    · rw [fails] at success
      cases success
    · simp [ledger, observe, verdict_refused held envelope polled completion decided,
        admits_refused _ envelope completion decided]
  | shed envelope admitted completion polled decided full =>
    refine .of_eq (.answer (completion.refusal .overloaded) (fun success => ?_)) ?_
    · rw [completion.refusal_succeeds] at success
      cases success
    · simp [ledger, observe, verdict_shed held envelope polled admitted completion decided full,
        admits_fact _ envelope admitted completion decided, full, flightReplies]
  | accepted envelope admitted completion polled decided fits =>
    obtain ⟨_, mutates, _⟩ := held.answers envelope _ decided
    refine .of_eq (.join (some admitted.fact) completion (completion.mutates_succeeds mutates)) ?_
    simp [ledger, observe, verdict_accepted held envelope polled admitted completion decided fits,
      admits_fact _ envelope admitted completion decided, fits, flightReplies, pushFact]
  | repeated envelope completion polled decided landed empty =>
    refine .of_eq (.answer completion (fun _ => ⟨flightReplies_landed landed, ?_⟩)) ?_
    · simp [ledger, empty]
    · simp [ledger, observe, verdict_repeated held envelope polled completion decided landed empty,
        admits_idempotent _ envelope completion decided]
  | deferred envelope completion polled decided behind =>
    obtain ⟨_, success, _⟩ := held.answers envelope _ decided
    refine .of_eq (.join none completion success) ?_
    simp [ledger, observe, verdict_deferred held envelope polled completion decided behind,
      admits_idempotent _ envelope completion decided, flightReplies, pushIdempotent]
  | landed flight active =>
    refine .of_eq (.land (Log.landed s.log ++ (Log.runs s.log).filter fun object => object.batch = flight.batch)) ?_
    simp [ledger, observe, flightReplies, active]
  | released landed nonempty bare =>
    refine .of_eq (.release (flightReplies_landed landed) (ledger_queued.trans bare)) ?_
    simp [ledger, emit, flightReplies, landed, new, GroupCommit.Ledger.waiting,
      replies]
  | flushed facts candidate next landed same carries follows clock =>
    refine .of_eq (.issue candidate.object (flightReplies_landed landed) ?_) ?_
    · rw [ledger_queued, carries]
      exact same
    · simp [ledger, emit, flightReplies, new, GroupCommit.Ledger.waiting,
        replies]
  | cancelled ticket event finished marked =>
    refine .of_eq .still ?_
    cases event <;> simp [WriterEvent.completes] at finished <;> simp [ledger, observe, flightReplies]
  | _ =>
    refine .of_eq .still ?_
    simp [ledger, observe, emit, flightReplies]

structure Tokens (log : List Entry) : Prop where
  same : (Log.verdicts log).map Completion.reply = (Log.commands log).map CommandEnvelope.reply
  fresh : ((Log.commands log).map CommandEnvelope.reply).Nodup

theorem Tokens.command (log : List Entry) (known : Tokens log) (envelope : CommandEnvelope) (completion : Completion)
    (fresh : ∀ earlier ∈ Log.commands log, earlier.reply ≠ envelope.reply) (answers : completion.reply = envelope.reply)
    (later : List Entry) (verdicts : Log.verdicts later = Log.verdicts log ++ [completion])
    (commands : Log.commands later = Log.commands log ++ [envelope]) : Tokens later := by
  constructor
  · rw [verdicts, commands, map_append, map_append, known.same]
    simp [answers]
  · rw [commands, map_append]
    refine List.Nodup.append known.fresh (nodup_singleton _) ?_
    simp only [disjoint_singleton, map_cons, map_nil, mem_map, not_exists, not_and]
    exact fresh

theorem Session.Move.tokens (held : Held recovery past s) (later : Session) (known : Tokens s.log) (move : Session.Move now s later) :
    Tokens later.log := by
  cases move with
  | refused envelope completion polled decided =>
    obtain ⟨answer, _⟩ := held.answers envelope _ decided
    refine known.command s.log envelope completion polled.fresh (answer ▸ answer_reply _ _) _ ?_ ?_
    · simp [observe, verdict_refused held envelope polled completion decided]
    · simp [observe]
  | shed envelope admitted completion polled decided full =>
    obtain ⟨answer, _⟩ := held.answers envelope _ decided
    refine known.command s.log envelope (completion.refusal .overloaded) polled.fresh ?_ _ ?_ ?_
    · rw [completion.reply_refusal, answer, answer_reply]
    · simp [observe, verdict_shed held envelope polled admitted completion decided full]
    · simp [observe]
  | accepted envelope admitted completion polled decided fits =>
    obtain ⟨answer, _⟩ := held.answers envelope _ decided
    refine known.command s.log envelope completion polled.fresh (answer ▸ answer_reply _ _) _ ?_ ?_
    · simp [observe, verdict_accepted held envelope polled admitted completion decided fits]
    · simp [observe]
  | repeated envelope completion polled decided landed empty =>
    obtain ⟨answer, _⟩ := held.answers envelope _ decided
    refine known.command s.log envelope completion polled.fresh (answer ▸ answer_reply _ _) _ ?_ ?_
    · simp [observe, verdict_repeated held envelope polled completion decided landed empty]
    · simp [observe]
  | deferred envelope completion polled decided behind =>
    obtain ⟨answer, _⟩ := held.answers envelope _ decided
    refine known.command s.log envelope completion polled.fresh (answer ▸ answer_reply _ _) _ ?_ ?_
    · simp [observe, verdict_deferred held envelope polled completion decided behind]
    · simp [observe]
  | cancelled ticket event finished marked =>
    cases event <;> simp [WriterEvent.completes] at finished <;> exact ⟨by simpa [observe] using known.same,
      by simpa [observe] using known.fresh⟩
  | _ => exact ⟨by simpa [observe, emit] using known.same, by simpa [observe, emit] using known.fresh⟩

structure Signed (recovery : WriterRecovery) (object : WalObject) : Prop where
  owner : object.owner = recovery.claim.owner
  partition : object.partition = recovery.sealed.partition
  nonempty : object.facts ≠ []

def Paced (entry : Entry) (older : List Entry) : Prop := entry.runs ≠ [] → Log.landed older = Log.runs older

structure Books (recovery : WriterRecovery) (s : Session) : Prop where
  balanced : GroupCommit.Balanced Completion.succeeds WalObject.facts s.ledger
  tokens : Tokens s.log
  runs : ∀ object ∈ Log.runs s.log, Signed recovery object
  paced : Log.Every Paced s.log

section

variable (held : Held recovery past s) (later : Session)

include held

theorem Session.Move.signed (known : ∀ object ∈ Log.runs s.log, Signed recovery object)
    (move : Session.Move now s later) : ∀ object ∈ Log.runs later.log, Signed recovery object := by
  cases move with
  | flushed facts candidate next landed same carries follows clock =>
    intro object member
    rcases mem_append.mp member with earlier | last
    · exact known object earlier
    · have same := mem_singleton.mp last
      rw [same, carries, held.core.claim, held.core.partition]
      exact ⟨rfl, rfl, facts.nonempty⟩
  | _ => simpa [observe, emit] using known

theorem Session.Move.paced (known : Log.Every Paced s.log)
    (move : Session.Move now s later) : Log.Every Paced later.log := by
  cases move with
  | flushed facts candidate next landed same carries follows clock =>
    refine ⟨fun _ => ?_, known⟩
    have flying := held.core.flight
    rw [landed] at flying
    exact flying.2.symm
  | _ => simp [observe, emit, Log.Every, Paced, known]

theorem Books.move (books : Books recovery s) (move : Session.Move now s later) :
    Books recovery later where
  balanced := books.balanced.step (move.books held)
  tokens := move.tokens held later books.tokens
  runs := move.signed held later books.runs
  paced := move.paced held later books.paced

end

theorem Books.opens (s : Session) (opens : Session.Opens recovery s) : Books recovery s := by
  obtain ⟨_, _, _, _, rfl⟩ := opens.eq
  exact ⟨.empty, ⟨rfl, nodup_nil⟩, by simp, trivial⟩

theorem Core.runs_numbered (landed runs : List WalObject) (m : WriterMachine) (core : Core recovery past landed runs m) :
    runs.map (fun object => object.batch.get) = List.range' (past.length + 1) runs.length := by
  have flying := core.flight
  cases active : m.flight with
  | none =>
    rw [active] at flying
    rw [flying.2]
    exact core.numbered
  | some flight =>
    rw [active] at flying
    obtain ⟨batch, _, object, issued, same, _⟩ := flying
    have count := core.count
    rw [issued, map_append, core.numbered, length_append, length_singleton, range'_concat]
    simp only [map_cons, map_nil, same, batch, count]
    congr 2
    omega

end

end StromDB
