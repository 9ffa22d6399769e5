import StromDB.Session.Run

namespace StromDB

open Session List

variable [Rkyv]

inductive EffectSlot where
  | wal
  | checkpoint
  | collection
deriving DecidableEq

def EffectKey.slot : EffectKey → EffectSlot
  | .wal _ => .wal
  | .checkpointPreparation _ => .checkpoint
  | .sealPublication _ => .checkpoint
  | .collection _ => .collection

-- An effect is issued into a free slot, the timer is armed while none is armed,
-- and a cancellation names a preparation that is under way.
def Slotted : Entry → List Entry → Prop
  | .emitted (.effect effect), older => ∀ other ∈ Log.outstanding older, other.key.slot ≠ effect.key.slot
  | .emitted (.action (.armFlush _)), older => Log.timer older = none
  | .emitted (.action (.cancelCheckpointPreparation ticket)), older =>
    ∃ input, .prepareCheckpoint input ∈ Log.outstanding older ∧ input.ticket = ticket
  | _, _ => True

@[simp] def Entry.closes : Entry → Bool
  | .observed _ .ingressClosed _ => true
  | _ => false

def Log.closed (log : List Entry) : Bool := log.any Entry.closes

@[simp] theorem Log.closed_nil : Log.closed [] = false := rfl

@[simp] theorem Log.closed_cons (entry : Entry) (older : List Entry) :
    Log.closed (entry :: older) = (entry.closes || Log.closed older) := rfl

def Drains : Entry → List Entry → Prop
  | .emitted (.effect effect), older => Log.closed older = true → ∃ candidate, effect = .establishWal candidate
  | _, _ => True

structure Closing (s : Session) : Prop where
  closed : Log.closed s.log = !s.machine.ingressOpen
  drains : Log.Every Drains s.log

theorem Log.slots_nodup {log : List Entry} (slotted : Log.Every Slotted log) :
    ((Log.outstanding log).map fun effect => effect.key.slot).Nodup := by
  induction log with
  | nil => exact nodup_nil
  | cons entry older ih =>
    have kept := (ih slotted.2).sublist ((filter_sublist (p := fun effect => !entry.completes effect)).map fun effect =>
      effect.key.slot)
    rw [Log.outstanding, map_append]
    cases entry with
    | emitted output =>
      cases output with
      | effect effect =>
        refine List.Nodup.append kept (nodup_singleton _) ?_
        intro slot taken new
        obtain ⟨other, member, rfl⟩ := mem_map.mp taken
        exact slotted.1 other (mem_filter.mp member).1 (mem_singleton.mp new)
      | action action => simpa using kept
    | _ => simpa using kept

section

variable {recovery : WriterRecovery} {past : List WalObject} {now : Instant} {s : Session}

theorem Held.slot_taken (held : Held recovery past s) (effect : WriterEffect) (issued : effect ∈ Log.outstanding s.log) :
    (∃ flight, s.machine.flight = some flight ∧ effect.key = .wal flight.batch) ∨
    (∃ marker, s.machine.checkpoint = some marker ∧ effect.key = marker.key) ∨
    ∃ cut, s.machine.collector = some cut ∧ effect.key = .collection cut := by
  have member : effect.key ∈ s.machine.slotKeys := held.slots.keys.mem_iff.mp (mem_map_of_mem issued)
  simp only [WriterMachine.slotKeys, mem_append, Option.mem_toList, Option.map_eq_some_iff] at member
  rcases member with ⟨flight, active, same⟩ | ⟨marker, marked, same⟩ | ⟨cut, busy, same⟩
  · exact .inl ⟨flight, active, same.symm⟩
  · exact .inr (.inl ⟨marker, marked, same.symm⟩)
  · exact .inr (.inr ⟨cut, busy, same.symm⟩)

theorem CheckpointMarker.key_slot (marker : CheckpointMarker) : marker.key.slot = .checkpoint := by
  cases marker <;> rfl

section

variable (held : Held recovery past s)

include held

theorem Held.wal_free (landed : s.machine.flight = none) (effect : WriterEffect)
    (issued : effect ∈ Log.outstanding s.log) : effect.key.slot ≠ .wal := by
  rcases held.slot_taken effect issued with ⟨flight, active, _⟩ | ⟨marker, _, same⟩ | ⟨cut, _, same⟩
  · rw [landed] at active
    cases active
  · rw [same, marker.key_slot]
    simp
  · simp [same, EffectKey.slot]

theorem Held.collection_free (idle : s.machine.collector = none) (effect : WriterEffect)
    (issued : effect ∈ Log.outstanding s.log) : effect.key.slot ≠ .collection := by
  rcases held.slot_taken effect issued with ⟨flight, _, same⟩ | ⟨marker, _, same⟩ | ⟨cut, busy, _⟩
  · simp [same, EffectKey.slot]
  · rw [same, marker.key_slot]
    simp
  · rw [idle] at busy
    cases busy

theorem Held.checkpoint_taken (effect : WriterEffect) (issued : effect ∈ Log.outstanding s.log)
    (taken : effect.key.slot = .checkpoint) : ∃ marker, s.machine.checkpoint = some marker ∧ effect.key = marker.key := by
  rcases held.slot_taken effect issued with ⟨flight, _, same⟩ | marked | ⟨cut, _, same⟩
  · simp [same, EffectKey.slot] at taken
  · exact marked
  · simp [same, EffectKey.slot] at taken

theorem Held.preparation_issued (ticket : CheckpointTicket) (marked : s.machine.checkpoint = some (.preparing ticket)) :
    ∃ input, .prepareCheckpoint input ∈ Log.outstanding s.log ∧ input.ticket = ticket := by
  have member : EffectKey.checkpointPreparation ticket ∈ s.machine.slotKeys := by
    simp [WriterMachine.slotKeys, marked, CheckpointMarker.key]
  obtain ⟨effect, issued, key⟩ := mem_map.mp (held.slots.keys.mem_iff.mpr member)
  cases effect with
  | prepareCheckpoint input => exact ⟨input, issued, EffectKey.checkpointPreparation.inj key⟩
  | _ => cases key

theorem Session.Move.slotted (later : Session) (known : Log.Every Slotted s.log)
    (move : Session.Move now s later) : Log.Every Slotted later.log := by
  cases move with
  | cancelling ticket opened marked =>
    obtain ⟨input, issued, same⟩ := held.preparation_issued ticket marked
    exact ⟨⟨input, by simpa [WriterEvent.completes] using issued, same⟩, trivial, known⟩
  | prepared input checkpoint issued built marked =>
    refine ⟨?_, trivial, known⟩
    intro other member taken
    change other ∈ Log.outstanding (_ :: s.log) at member
    simp only [Log.outstanding, Entry.effects, append_nil, mem_filter] at member
    obtain ⟨marker, here, same⟩ := held.checkpoint_taken other member.1 taken
    rw [marked] at here
    cases here
    simp [WriterEvent.completes, same, CheckpointMarker.key] at member
  | collecting ticket checkpoint cut marked reaches opened idle =>
    refine ⟨?_, trivial, trivial, known⟩
    intro other member
    change other ∈ Log.outstanding (_ :: _ :: s.log) at member
    simp only [Log.outstanding, Entry.effects, Entry.completes, Bool.not_false, filter_true, append_nil,
      mem_filter] at member
    exact held.collection_free idle other member.1
  | flushed facts candidate next landed same carries follows clock => exact ⟨held.wal_free landed, known⟩
  | armed started unarmed last =>
    have timer := held.slots.timer
    rw [unarmed, Option.isSome_eq_false_iff, Option.isNone_iff_eq_none] at timer
    exact ⟨timer, known⟩
  | planned ticket idle opened named due =>
    refine ⟨?_, known⟩
    intro other issued taken
    obtain ⟨marker, here, _⟩ := held.checkpoint_taken other issued taken
    rw [idle] at here
    cases here
  | _ => simp [observe, emit, Log.Every, Slotted, known]

end

theorem Closing.opens (s : Session) (opens : Session.Opens recovery s) : Closing s := by
  obtain ⟨_, _, _, _, rfl⟩ := opens.eq
  exact ⟨rfl, trivial⟩

theorem Closing.move (held : Held recovery past s) (later : Session) (closing : Closing s) (move : Session.Move now s later) :
    Closing later := by
  have closed := closing.closed
  have drains := closing.drains
  have still : s.machine.ingressOpen = true → Log.closed s.log = false := by
    intro opened
    rw [closed, opened]
    rfl
  cases move with
  | prepared input checkpoint issued built marked =>
    have opened := held.slots.opened input.ticket marked
    exact ⟨by simpa [observe] using closed, by simp [Drains, still opened], trivial, drains⟩
  | collecting ticket checkpoint cut marked reaches opened idle =>
    exact ⟨by simpa [observe] using closed, by simp [Drains, still opened], trivial, trivial, drains⟩
  | planned ticket idle opened named due =>
    exact ⟨by simpa [emit] using closed, by simp [Drains, still opened], drains⟩
  | flushed facts candidate next landed same carries follows clock =>
    exact ⟨by simpa [emit] using closed, fun _ => ⟨candidate, rfl⟩, drains⟩
  | cancelled ticket event finished marked =>
    cases event <;> simp [WriterEvent.completes] at finished <;>
      exact ⟨by simpa [observe] using closed, trivial, drains⟩
  | _ =>
    refine ⟨?_, by simp [observe, emit, Log.Every, Drains, drains]⟩
    simp [observe, emit, closed]

end

end StromDB
