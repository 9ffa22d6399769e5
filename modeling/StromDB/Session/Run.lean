import StromDB.Session.Schedule

namespace StromDB

open Checked

variable [Rkyv]

-- What a recovery hands to its writer: the past is the log through the
-- coordinate of the recovered FENCE.
structure Starts (recovery : WriterRecovery) (past : List WalObject) : Prop where
  length : past.length = recovery.durableBatch.get
  named : recovery.claim.generation = recovery.sealed.generation
  cut : recovery.sealed.replay.cut ≤ recovery.durableBatch.get
  next : recovery.durableBatch.get + 1 < 2 ^ 64
  based : foldLog (past.drop recovery.sealed.replay.cut) recovery.base = some recovery.durable
  consistent : recovery.durable.Consistent

theorem WriterMachine.fromRecovery_ok {recovery : WriterRecovery} (named : recovery.claim.generation = recovery.sealed.generation)
    (cut : recovery.sealed.replay.cut ≤ recovery.durableBatch.get) (room : recovery.durableBatch.get + 1 < 2 ^ 64)
    (flushIntervalMin : Instant) (flushBufferBytes : Nat) (positive : 1 ≤ flushBufferBytes)
    (fits : flushBufferBytes ≤ WAL_ENCODED_BYTES_MAX) :
    ∃ machine, WriterMachine.fromRecovery recovery flushIntervalMin flushBufferBytes = .ok machine := by
  have behind : recovery.sealed.replay.batch.all (fun cut => decide (cut ≤ recovery.durableBatch)) = true := by
    cases replay : recovery.sealed.replay with
    | genesis => rfl
    | through batch owner =>
      rw [replay] at cut
      exact decide_eq_true cut
  let next : BatchId := ⟨⟨recovery.durableBatch.get + 1, Nat.succ_pos _, room⟩⟩
  have follows : recovery.durableBatch.successor = .ok next := BatchId.successor_ok_iff.mpr rfl
  simp only [WriterMachine.fromRecovery, require, if_pos named, if_pos behind, follows, expectOk,
    ok_bind, if_pos (And.intro positive fits)]
  exact ⟨_, rfl⟩

section

variable {recovery : WriterRecovery} {past : List WalObject} (starts : Starts recovery past)

theorem Session.Opens.eq {s : Session} (opens : Session.Opens recovery s) :
    ∃ flushIntervalMin flushBufferBytes nextBatch, nextBatch.get = recovery.durableBatch.get + 1 ∧
      s = ⟨{ WriterMachine.launched recovery flushIntervalMin flushBufferBytes nextBatch with started := false }, []⟩ := by
  obtain ⟨flushIntervalMin, flushBufferBytes, made, empty⟩ := opens
  obtain ⟨machine, log⟩ := s
  cases empty
  obtain ⟨nextBatch, next, rfl⟩ := WriterMachine.fromRecovery_eq made
  exact ⟨_, _, nextBatch, next, rfl⟩

theorem Session.step_eq_some_iff {s later : Session} {now : Instant} {event : WriterEvent} :
    Session.step (now, event) s = some later ↔
      s.conforms event = true ∧ ∃ effects, s.machine.handle now event = .ok effects ∧ later = s.after now event effects := by
  unfold Session.step
  split
  · rename_i conforms
    cases handled : s.machine.handle now event with
    | ok effects => simp [conforms, eq_comm]
    | error message => simp
  · rename_i other
    simp only [reduceCtorEq, false_iff]
    rintro ⟨conforms, _⟩
    exact other conforms

theorem Session.conforms_running (s : Session) (event : WriterEvent) (conforms : s.conforms event = true) : Log.exit s.log = none := by
  simp only [Session.conforms, Bool.and_eq_true, Option.isNone_iff_eq_none] at conforms
  exact conforms.1.1

theorem Session.Halt.exit_eq {now : Instant} {s later : Session} {exit : WriterExit} (halt : Session.Halt now s exit later) :
    Log.exit later.log = some exit := by
  cases halt <;> rfl

inductive Stepped (now : Instant) (s later : Session) : Prop where
  | goes (path : Moves now s later) (rest : Rest later) (running : Log.exit later.log = none)
  | fails (exit : WriterExit) (halt : Session.Halt now s exit later)
  | closes (middle : Session) (path : Moves now s middle) (halt : Session.Halt now middle .shutdown later)

theorem Held.steps {s later : Session} {now : Instant} {event : WriterEvent} (held : Held recovery past s) (rest : Rest s)
    (stepped : Session.step (now, event) s = some later) : Stepped now s later := by
  obtain ⟨conforms, effects, handled, rfl⟩ := Session.step_eq_some_iff.mp stepped
  rcases handle_turned held now rest event conforms with ⟨_, found, turned⟩ | ⟨_, message, failed⟩
  · rw [handled] at found
    cases found
    cases turned with
    | goes machine outputs path rests =>
      refine .goes path rests ?_
      simp only [Session.after, Option.map_none, Option.toList_none, List.nil_append, Log.exit_emits]
      exact s.conforms_running event conforms
    | fails machine exit halt => exact .fails exit halt
    | closes machine outputs middle path halt => exact .closes middle path halt
  · rw [handled] at failed
    cases failed

inductive Fate (recovery : WriterRecovery) (past : List WalObject) (live : Session → Prop) (s : Session) : Prop where
  | running (going : Log.exit s.log = none) (held : Held recovery past s) (rest : Rest s) (here : live s)
  | ended (now : Instant) (last : Session) (exit : WriterExit) (held : Held recovery past last) (here : live last)
      (halt : Session.Halt now last exit s)

include starts

theorem fromRecovery_starts (flushIntervalMin : Instant) (flushBufferBytes : Nat) (positive : 1 ≤ flushBufferBytes)
    (fits : flushBufferBytes ≤ WAL_ENCODED_BYTES_MAX) :
    ∃ machine, WriterMachine.fromRecovery recovery flushIntervalMin flushBufferBytes = .ok machine :=
  WriterMachine.fromRecovery_ok starts.named starts.cut starts.next flushIntervalMin flushBufferBytes positive fits

theorem opens_held (s : Session) (opens : Session.Opens recovery s) : Held recovery past s ∧ Rest s := by
  obtain ⟨flushIntervalMin, flushBufferBytes, nextBatch, next, rfl⟩ := opens.eq
  refine ⟨⟨?_, ?_⟩, ⟨rfl, fun _ => .inl rfl, nofun, fun here => absurd rfl here⟩⟩
  · exact {
      claim := rfl
      partition := rfl
      cut := starts.cut
      count := by simpa [WriterMachine.launched] using starts.length.symm
      numbered := rfl
      durable := rfl
      based := by simpa [WriterMachine.launched] using starts.based
      consistent := starts.consistent
      flight := ⟨next, rfl⟩
      admitted := rfl
      roots := fun _ => rfl
      barrier := Bounded.new
      reserve := fun some => absurd rfl some
      attempted := fun _ here => by cases here }
  · exact Slots.idle rfl (List.Perm.refl _) rfl (fun _ _ => rfl) nofun

section

variable (live : Session → Prop) (initial : ∀ s, Session.Opens recovery s → live s)
  (moved : ∀ now s later, Held recovery past s → live s → Session.Move now s later → live later)

include initial moved

omit starts initial in
theorem Moves.keep (now : Instant) (s later : Session) (held : Held recovery past s) (here : live s) (path : Moves now s later) :
    Held recovery past later ∧ live later := by
  induction path with
  | refl => exact ⟨held, here⟩
  | tail _ move ih => exact ⟨ih.1.move _ move, moved now _ _ ih.1 ih.2 move⟩

theorem ReachableSession.fate (s : Session) (reached : ReachableSession recovery s) : Fate recovery past live s := by
  refine Transition.Reachable.invariant (Fate recovery past live) ?_ ?_ s reached
  · intro s opens
    obtain ⟨held, rest⟩ := opens_held starts s opens
    have empty : s.log = [] := by
      obtain ⟨_, _, _, empty⟩ := opens
      exact empty
    exact .running (by rw [empty]; rfl) held rest (initial s opens)
  rintro s later ⟨now, event⟩ known stepped
  obtain ⟨conforms, _⟩ := Session.step_eq_some_iff.mp stepped
  cases known with
  | running _ held rest here =>
    cases held.steps rest stepped with
    | goes path rests running =>
      obtain ⟨held, here⟩ := Moves.keep live moved now s later held here path
      exact .running running held rests here
    | fails exit halt => exact .ended now s exit held here halt
    | closes middle path halt =>
      obtain ⟨held, here⟩ := Moves.keep live moved now s middle held here path
      exact .ended now middle .shutdown held here halt
  | ended _ last exit _ _ halt =>
    have ended := halt.exit_eq
    rw [s.conforms_running event conforms] at ended
    cases ended

theorem ReachableSession.running (s : Session) (reached : ReachableSession recovery s) (going : Log.exit s.log = none) :
    Held recovery past s ∧ Rest s ∧ live s := by
  cases ReachableSession.fate starts live initial moved s reached with
  | running _ held rest here => exact ⟨held, rest, here⟩
  | ended _ last exit _ _ halt =>
    have ended := halt.exit_eq
    rw [going] at ended
    cases ended

end

end

end StromDB
