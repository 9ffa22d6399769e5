import StromDB.Session.Run

namespace StromDB

open Session

variable [Rkyv]

def InOrder (entry : Entry) (older : List Entry) : Prop := Log.clock older ≤ entry.clock (Log.clock older)

instance (entry : Entry) (older : List Entry) : Decidable (InOrder entry older) := inferInstanceAs (Decidable (_ ≤ _))

structure Timely (s : Session) : Prop where
  started : ∀ started, s.machine.lastFlushStartedAt = some started → started ≤ Log.clock s.log
  timer : ∀ deadline, Log.timer s.log = some deadline →
    ∃ started, s.machine.lastFlushStartedAt = some started ∧ deadline ≤ saturatingAdd started s.machine.flushIntervalMin

omit [Rkyv] in
theorem saturatingAdd_mono (first second duration : Nat) (ordered : first ≤ second) :
    saturatingAdd first duration ≤ saturatingAdd second duration := by
  have sum : first + duration ≤ second + duration := Nat.add_le_add_right ordered duration
  exact Nat.le_min.mpr ⟨Nat.le_trans (Nat.min_le_left _ _) sum, Nat.min_le_right _ _⟩

-- Every RUN of the writer, and the one that the barrier will become, leaves a
-- coordinate for a FENCE above the Seal's cut.
structure Roomy (s : Session) : Prop where
  runs : ∀ object ∈ Log.runs s.log, object.batch.get + 1 ≤ s.machine.sealed.replay.cut + WAL_SUFFIX_COORDINATES_MAX_V2
  pending : s.machine.pending.facts ≠ [] →
    s.machine.nextBatch.get + 1 ≤ s.machine.sealed.replay.cut + WAL_SUFFIX_COORDINATES_MAX_V2

section

variable {recovery : WriterRecovery} {past : List WalObject} {now : Instant} {s : Session}

theorem Timely.event (timely : Timely s) (later : Session) (before : Log.clock s.log ≤ Log.clock later.log)
    (timer : Log.timer later.log = Log.timer s.log ∨ Log.timer later.log = none)
    (last : later.machine.lastFlushStartedAt = s.machine.lastFlushStartedAt)
    (interval : later.machine.flushIntervalMin = s.machine.flushIntervalMin) : Timely later := by
  constructor
  · intro started here
    exact Nat.le_trans (timely.started started (last ▸ here)) before
  · intro deadline here
    rw [last, interval]
    rcases timer with same | stopped
    · exact timely.timer deadline (same ▸ here)
    · rw [stopped] at here
      cases here

theorem Session.Move.timely {later : Session} (known : Log.Every InOrder s.log → Timely s) (move : Session.Move now s later) :
    Log.Every InOrder later.log → Timely later := by
  cases move with
  | flushed facts candidate next landed same carries follows clock =>
    intro ordered
    have timely := known ordered.2
    refine ⟨fun started here => ?_, fun deadline here => ⟨now, rfl, ?_⟩⟩
    · cases here
      exact Nat.le_of_eq clock.symm
    · obtain ⟨started, last, bound⟩ := timely.timer deadline here
      refine Nat.le_trans bound (saturatingAdd_mono started now _ ?_)
      exact clock ▸ timely.started started last
  | armed started unarmed last =>
    intro ordered
    have timely := known ordered.2
    refine ⟨timely.started, fun deadline here => ⟨started, last, ?_⟩⟩
    cases here
    exact Nat.le_refl _
  | released landed nonempty bare | planned ticket idle opened named due =>
    intro ordered
    have timely := known ordered.2
    exact ⟨timely.started, timely.timer⟩
  | cancelled ticket event finished marked =>
    intro ordered
    have before := Log.Every.before _ _ _ ordered
    refine (known before.2).event _ before.1 (.inl ?_) rfl rfl
    cases event <;> simp [WriterEvent.completes] at finished <;> simp [observe]
  | due armed =>
    intro ordered
    have before := Log.Every.before _ _ _ ordered
    exact (known before.2).event _ before.1 (.inr rfl) rfl rfl
  | _ =>
    intro ordered
    have before := Log.Every.before _ _ _ ordered
    exact (known before.2).event _ before.1 (.inl rfl) rfl rfl

theorem Roomy.move (held : Held recovery past s) (later : Session) (roomy : Roomy s) (move : Session.Move now s later) :
    Roomy later := by
  have advance : ∀ ticket checkpoint, s.machine.checkpoint = some (.publishing ticket checkpoint) →
      s.machine.sealed.replay.cut ≤ checkpoint.successor.replay.cut := by
    intro ticket checkpoint marked
    have publishing := held.slots.publishing ticket checkpoint marked
    rw [publishing.replay]
    exact Nat.le_of_lt publishing.advances
  cases move with
  | accepted envelope admitted completion polled decided fits =>
    refine ⟨by simpa [observe] using roomy.runs, fun _ => ?_⟩
    have room := (runLeavesTakeoverRoom_iff _ _).mp fits
    rw [cutNumber_batch] at room
    exact room.2.2
  | deferred envelope completion polled decided behind =>
    refine ⟨by simpa [observe] using roomy.runs, fun some => roomy.pending ?_⟩
    simpa [observe, PendingBarrier.facts_pushIdempotent] using some
  | collecting ticket checkpoint cut marked reaches opened idle | authored ticket checkpoint marked =>
    have above := advance ticket checkpoint marked
    constructor
    · intro object member
      have bound := roomy.runs object (by simpa [observe] using member)
      simp only [observe]
      omega
    · intro some
      have bound := roomy.pending some
      simp only [observe]
      omega
  | flushed facts candidate next landed same carries follows clock =>
    refine ⟨?_, fun some => absurd rfl some⟩
    intro object member
    rcases List.mem_append.mp member with earlier | last
    · exact roomy.runs object earlier
    · rw [List.mem_singleton.mp last, carries]
      exact roomy.pending (same ▸ facts.nonempty)
  | released landed nonempty bare => exact ⟨by simpa [emit] using roomy.runs, fun some => absurd rfl some⟩
  | _ => exact ⟨by simpa [observe, emit] using roomy.runs, roomy.pending⟩

theorem Timely.opens (s : Session) (opens : Session.Opens recovery s) : Timely s := by
  obtain ⟨_, _, _, _, rfl⟩ := opens.eq
  exact ⟨nofun, nofun⟩

theorem Roomy.opens (s : Session) (opens : Session.Opens recovery s) : Roomy s := by
  obtain ⟨_, _, _, _, rfl⟩ := opens.eq
  exact ⟨by simp, fun some => absurd rfl some⟩

end

end StromDB
