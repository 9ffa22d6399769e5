import StromDB.Refinement.Reach
import StromDB.Session.Attempts
import StromDB.Session.Slots
import StromDB.Session.Views

namespace StromDB

open List

variable [Rkyv] [OrdMap.Differ]

structure Completes (sys : System) (recovery : WriterRecovery) : Prop where
  reached : ReachableSystem sys
  completed : ∃ pid, .completed pid recovery ∈ sys.history

def System.past (sys : System) (recovery : WriterRecovery) : List WalObject := sys.view.log.take recovery.durableBatch.get

theorem Completes.starts (sys : System) (recovery : WriterRecovery) (completes : Completes sys recovery) :
    Starts recovery (sys.past recovery) := by
  obtain ⟨pid, completed⟩ := completes.completed
  have recovered : sys.view.Recovered pid recovery := (ReachableSystem.ok sys completes.reached).history _ completed
  have within := recovered.durable.1
  exact {
    length := by
      rw [System.past, length_take]
      omega
    named := recovered.claimed.same
    cut := Nat.le_of_lt recovered.above
    next := recovered.next
    based := View.FoldIs.between (Nat.le_of_lt recovered.above) _ _ recovered.base recovered.durable
    consistent := View.FoldIs.consistent _ _ recovered.durable }

theorem Completes.coordinates {sys : System} {recovery : WriterRecovery} (completes : Completes sys recovery)
    (landed runs : List WalObject)
    (m : WriterMachine) (core : Core recovery (sys.past recovery) landed runs m) (i : Nat) (object : WalObject)
    (found : (sys.past recovery ++ landed)[i]? = some object) : object.batch.get = i + 1 := by
  by_cases early : i < (sys.past recovery).length
  · rw [getElem?_append_left early] at found
    have within : i < recovery.durableBatch.get := completes.starts.length ▸ early
    rw [System.past, getElem?_take_of_lt within] at found
    exact (ReachableSystem.ok sys completes.reached).view.log.coordinates i object found
  rw [getElem?_append_right (Nat.le_of_not_lt early)] at found
  have number : (landed.map fun object => object.batch.get)[i - (sys.past recovery).length]? = some object.batch.get := by
    rw [getElem?_map, found]
    rfl
  rw [core.numbered] at number
  have bound := (List.getElem?_eq_some_iff.mp number).1
  rw [length_range'] at bound
  rw [getElem?_range' bound] at number
  have value := Option.some.inj number
  omega

structure Accounts (recovery : WriterRecovery) (s : Session) : Prop where
  views : Views recovery s
  serial : Serial recovery s
  conflicts : Log.Every Conflicts s.log
  attempts : Attempts s
  roomy : Roomy s
  slotted : Log.Every Slotted s.log
  closing : Closing s
  timely : Log.Every InOrder s.log → Timely s

section

variable {sys : System} {recovery : WriterRecovery} {past : List WalObject} {s : Session}

omit [OrdMap.Differ] in
theorem Accounts.opens (s : Session) (opens : Session.Opens recovery s) : Accounts recovery s where
  views := Views.opens s opens
  serial := Serial.opens s opens
  conflicts := by
    obtain ⟨_, _, _, empty⟩ := opens
    rw [empty]
    trivial
  attempts := Attempts.opens s opens
  roomy := Roomy.opens s opens
  slotted := by
    obtain ⟨_, _, _, empty⟩ := opens
    rw [empty]
    trivial
  closing := Closing.opens s opens
  timely := fun _ => Timely.opens s opens

omit [OrdMap.Differ] in
theorem Accounts.move (now : Instant) (s later : Session) (held : Held recovery past s) (accounts : Accounts recovery s)
    (move : Session.Move now s later) : Accounts recovery later where
  views := accounts.views.move held later move
  serial := accounts.serial.move held later move
  conflicts := move.conflicts held accounts.views.books later accounts.conflicts
  attempts := accounts.attempts.move held accounts.views.books accounts.roomy later move
  roomy := accounts.roomy.move held later move
  slotted := move.slotted held later accounts.slotted
  closing := accounts.closing.move held later move
  timely := move.timely accounts.timely

section

variable (completes : Completes sys recovery) (s : Session) (reached : ReachableSession recovery s)

include completes reached

theorem Completes.fate :
    Fate recovery (sys.past recovery) (Accounts recovery) s :=
  ReachableSession.fate (completes.starts) (Accounts recovery) Accounts.opens Accounts.move s reached

theorem Completes.running
    (going : Log.exit s.log = none) : Held recovery (sys.past recovery) s ∧ Rest s ∧ Accounts recovery s :=
  ReachableSession.running (completes.starts) (Accounts recovery) Accounts.opens Accounts.move s reached going

end

structure Finished (s later : Session) : Prop where
  machine : ∃ flight checkpoint, later.machine = { s.machine with flight, checkpoint }
  landed : Log.landed later.log = Log.landed s.log
  runs : Log.runs later.log = Log.runs s.log
  released : Log.released later.log = Log.released s.log
  commands : Log.commands later.log = Log.commands s.log
  verdicts : Log.verdicts later.log = Log.verdicts s.log
  facts : Log.facts later.log = Log.facts s.log
  catalogue : ∀ recovered, Log.catalogue recovered later.log = Log.catalogue recovered s.log
  every : ∀ holds : Entry → List Entry → Prop, (∀ exit older, holds (.exited exit) older) →
    (∀ now event machine older, event.fails = true → holds (.observed now event machine) older) →
    Log.Every holds s.log → Log.Every holds later.log

omit [OrdMap.Differ] in
theorem Session.Halt.finished {now : Instant} {exit : WriterExit} {later : Session} (halt : Session.Halt now s exit later) :
    Finished s later := by
  cases halt with
  | shutdown closed landed idle empty =>
    exact {
      machine := ⟨_, _, rfl⟩
      landed := by simp
      runs := by simp
      released := by simp
      commands := by simp
      verdicts := by simp
      facts := by simp
      catalogue := by simp
      every := fun holds exits _ every => ⟨exits _ _, every⟩ }
  | failed event exit flight checkpoint failure other =>
    have lost : ∀ object : WalObject, (Entry.observed now event s.machine).lands object = false := by
      intro object
      cases event with
      | walEstablished batch result =>
        cases result with
        | error error => rfl
        | ok outcome =>
          cases outcome with
          | durable => cases failure
          | _ => rfl
      | _ => rfl
    have landed : Log.landed (.observed now event s.machine :: s.log) = Log.landed s.log := by
      rw [Log.landed, filter_eq_nil_iff.mpr, append_nil]
      intro object _
      rw [lost object]
      exact Bool.false_ne_true
    refine {
      machine := ⟨_, _, rfl⟩
      landed := ?_
      runs := by simp
      released := by simp
      commands := ?_
      verdicts := ?_
      facts := ?_
      catalogue := ?_
      every := fun holds exits fails every => ⟨exits _ _, fails _ _ _ _ failure, every⟩ }
    · rw [Log.landed, landed]
      simp
    all_goals cases event <;> first | cases failure | simp

omit [OrdMap.Differ] in
theorem Finished.refl (s : Session) : Finished s s :=
  ⟨⟨_, _, rfl⟩, rfl, rfl, rfl, rfl, rfl, rfl, fun _ => rfl, fun _ _ _ every => every⟩

theorem Completes.last (completes : Completes sys recovery) (s : Session) (reached : ReachableSession recovery s) :
    ∃ last, Held recovery (sys.past recovery) last ∧ Accounts recovery last ∧ Finished last s := by
  cases completes.fate s reached with
  | running going held rest here => exact ⟨s, held, here, .refl s⟩
  | ended now last exit held here halt => exact ⟨last, held, here, halt.finished⟩

end

end StromDB
