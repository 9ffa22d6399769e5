import StromDB.Properties.Recovery
import StromDB.Session.Promises

namespace StromDB

def StreamStatus.holding [Rkyv] : StreamStatus → Option Holding
  | .missing => none
  | .deleted => some .deleted
  | .live contentType expiry lifecycle => some (.live contentType expiry lifecycle)

def CommandEnvelope.path [Rkyv] : CommandEnvelope → StreamPath
  | .create command _ => command.path
  | .close path _ => path
  | .delete path _ => path

-- What a read after the command's success may show: the stream as it was asked
-- for, closed since at most, or that it was deleted.
def StreamStatus.Reports [Rkyv] : StreamStatus → CommandEnvelope → Prop
  | .deleted, _ => True
  | .live contentType expiry lifecycle, .create command _ =>
    contentType = command.contentType ∧ expiry = command.expiry ∧ (command.lifecycle = .closed → lifecycle = .closed)
  | .live _ _ lifecycle, .close _ _ => lifecycle = .closed
  | _, _ => False

section

variable [Rkyv] {forest : Forest} {path : StreamPath}

theorem stream_live {uid : StreamUid} {record : StreamRecord} (live : forest.resolve path = some (.live uid))
    (found : forest.record uid = some record) :
    PublishedView.stream forest path = .ok (.live record.contentType record.expiry record.lifecycle) := by
  simp only [PublishedView.stream, live, found]
  rfl

theorem stream_holding (consistent : forest.Consistent) (path : StreamPath) :
    ∃ status, PublishedView.stream forest path = .ok status ∧ status.holding = forest.holding path := by
  cases entry : forest.resolve path with
  | none => exact ⟨.missing, by simp only [PublishedView.stream, entry]; rfl, (forest.holding_vacant path entry).symm⟩
  | some entry' =>
    cases entry' with
    | tombstone uid => exact ⟨.deleted, by simp only [PublishedView.stream, entry]; rfl, (forest.holding_deleted path uid entry).symm⟩
    | live uid =>
      obtain ⟨record, found⟩ := consistent.recorded path uid entry
      exact ⟨_, stream_live entry found, (forest.holding_live path uid record entry found).symm⟩

theorem stream_reports (forest : Forest) (envelope : CommandEnvelope) (completion : Completion) (succeeds : completion.succeeds = true)
    (reflected : Reflects forest envelope completion) :
    ∃ status, PublishedView.stream forest envelope.path = .ok status ∧ status.Reports envelope := by
  have gone : ∀ path uid, forest.resolve path = some (.tombstone uid) → PublishedView.stream forest path = .ok .deleted := by
    intro path uid entry
    simp only [PublishedView.stream, entry]
    rfl
  unfold Reflects at reflected
  split at reflected
  · rcases reflected with ⟨uid, entry⟩ | ⟨uid, record, live, found, asked⟩
    · exact ⟨.deleted, gone _ uid entry, trivial⟩
    · exact ⟨_, stream_live live found, asked⟩
  · rcases reflected with ⟨uid, entry⟩ | ⟨uid, record, live, found, closed⟩
    · exact ⟨.deleted, gone _ uid entry, trivial⟩
    · exact ⟨_, stream_live live found, closed⟩
  · obtain ⟨uid, entry⟩ := reflected
    exact ⟨.deleted, gone _ uid entry, trivial⟩
  all_goals first | exact reflected.elim | cases succeeds

end

section

variable [Rkyv] [OrdMap.Differ] (sys : System) (reached : ReachableSystem sys) (pid : Pid) (owner : OwnerToken) (forest : Forest)
  (served : Engine.view (sys.procs pid).phase = some (owner, forest))

include reached served

theorem ReachableSystem.handle : ∃ n, sys.view.FoldIs n forest ∧ sys.view.OwnerIs n owner.get := by
  have ok := reached.ok sys
  have phase := (ok.procs pid).phase
  cases here : (sys.procs pid).phase with
  | ready recovery =>
    rw [here] at phase served
    cases served
    have recovered := phase.2.recovered
    exact ⟨_, recovered.durable, recovered.durable.1, ok.view.log.ownerAt_batch _ recovered.fence⟩
  | running machine timer view =>
    rw [here] at phase served
    cases served
    obtain ⟨recovery, s, hosted⟩ := reached.hosted pid machine timer forest here
    obtain ⟨_, _, accounts⟩ := (hosted.completes reached).running s hosted.reached hosted.going
    have shown : forest = machine.durable := by rw [← hosted.view, accounts.views.view, hosted.machine]
    exact ⟨_, shown ▸ phase.seat.folded, phase.seat.owner⟩
  | _ =>
    rw [here] at served
    cases served

theorem reads_show_log : (∃ n runs, RunsThrough sys.history n runs ∧ foldLog runs Forest.empty = some forest) ∧
    ∀ path, ∃ status, Engine.stream (sys.procs pid).phase path = .ok (.ok status) ∧ status.holding = forest.holding path := by
  obtain ⟨n, folded, _⟩ := reached.handle sys pid owner forest served
  refine ⟨⟨n, (reached.ok sys).view.fold_runs n forest folded⟩, ?_⟩
  intro path
  obtain ⟨status, shown, holds⟩ := stream_holding folded.consistent path
  refine ⟨status, ?_, holds⟩
  simp only [Engine.stream, served, shown]
  rfl

theorem newer_owner_reads_all :
    (∀ other older view, Engine.view (sys.procs other).phase = some (older, view) → older < owner → Forest.Precedes view forest) ∧
    ∀ writer older completion, .replied writer older completion ∈ sys.history → older < owner → completion.succeeds = true →
      ∃ client envelope status, .commanded client envelope ∈ sys.history ∧ envelope.reply = completion.reply ∧
        Engine.stream (sys.procs pid).phase envelope.path = .ok (.ok status) ∧ status.Reports envelope := by
  have ok := reached.ok sys
  obtain ⟨n, folded, owned⟩ := reached.handle sys pid owner forest served
  have below : ∀ m (older : OwnerToken), sys.view.OwnerIs m older.get → older < owner → m ≤ n := by
    intro m older held less
    by_contra above
    have ordered := ok.view.log.ownerAt_mono n m (by omega)
    rw [owned.2, held.2] at ordered
    exact absurd less (Nat.not_lt.mpr ordered)
  constructor
  · intro other older view there less
    obtain ⟨m, early, held⟩ := reached.handle sys other older view there
    exact early.precedes (below m older held less) folded
  intro writer older completion replied less succeeds
  obtain ⟨m, early, there, held, acked⟩ := ok.history _ replied
  obtain ⟨envelope, member, same, reflected⟩ := acked.fold (below m older held less) early forest there folded completion
  obtain ⟨client, commanded⟩ := View.mem_commands.mp member
  obtain ⟨status, shown, reports⟩ := stream_reports forest envelope completion succeeds reflected
  refine ⟨client, envelope, status, commanded, same, ?_, reports⟩
  simp only [Engine.stream, served, shown]
  rfl

end

section

variable [Rkyv] [OrdMap.Differ] (sys : System) (recovery : WriterRecovery) (completes : Completes sys recovery) (s : Session)
  (reached : ReachableSession recovery s)

include completes reached

theorem Completes.shown : Shown (Log.commands s.log) (Log.view recovery.durable s.log) (Log.released s.log) := by
  have fate := reached.fate completes.starts (fun s => Promises s ∧ Log.view recovery.durable s.log = s.machine.durable)
    (fun s opens => ⟨.opens s opens, by obtain ⟨_, _, _, _, rfl⟩ := opens.eq; rfl⟩)
    (fun now s later held known move => ⟨known.1.move now s later held move, move.viewed known.2⟩)
  cases fate with
  | running going held rest here => exact here.2 ▸ here.1.released
  | ended now last exit held here halt =>
    have view : Log.view recovery.durable s.log = Log.view recovery.durable last.log := by cases halt <;> rfl
    rw [halt.finished.released, halt.finished.commands, view, here.2]
    exact here.1.released

theorem own_writes_read (completion : Completion) (sent : completion ∈ Log.released s.log) (succeeds : completion.succeeds = true) :
    ∃ envelope ∈ Log.commands s.log, envelope.reply = completion.reply ∧
      ∃ status, PublishedView.stream (Log.view recovery.durable s.log) envelope.path = .ok status ∧ status.Reports envelope := by
  obtain ⟨envelope, heard, same, reflected⟩ := completes.shown sys recovery s reached completion sent
  exact ⟨envelope, heard, same, stream_reports _ envelope completion succeeds reflected⟩

end

attribute [local instance] plainRkyv OrdMap.exactDiffer

theorem acknowledged_served : (Engine.view (acknowledgedSystem.procs 1).phase).isSome = true := by decide +kernel

theorem reads_show_log_acknowledged : ∃ view, Engine.view (acknowledgedSystem.procs 1).phase = some view ∧
    ∃ n runs, RunsThrough acknowledgedSystem.history n runs ∧ foldLog runs Forest.empty = some view.2 :=
  ⟨_, (Option.some_get acknowledged_served).symm,
    (reads_show_log acknowledgedSystem acknowledged_reached 1 _ _ (Option.some_get acknowledged_served).symm).1⟩

theorem newer_owner_reads_all_acknowledged : ∃ client envelope status, .commanded client envelope ∈ acknowledgedSystem.history ∧
    envelope.reply = 0 ∧ Engine.stream (acknowledgedSystem.procs 1).phase envelope.path = .ok (.ok status) ∧ status.Reports envelope :=
  (newer_owner_reads_all acknowledgedSystem acknowledged_reached 1 _ _ (Option.some_get acknowledged_served).symm).2 0 ⟨⟨.two⟩⟩
    (.create (.ok .created) 0) (by decide +kernel) (by decide +kernel) rfl

theorem own_writes_read_waiting : ∃ envelope ∈ Log.commands waitingSession.log, envelope.reply = 0 ∧
    ∃ status, PublishedView.stream (Log.view openedRecovery.durable waitingSession.log) envelope.path = .ok status ∧
      status.Reports envelope :=
  own_writes_read openedSystem openedRecovery opened_completes waitingSession waiting_reached (.create (.ok .created) 0)
    (by decide +kernel) rfl

end StromDB
