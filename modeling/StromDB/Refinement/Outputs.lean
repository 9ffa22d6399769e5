import StromDB.Refinement.Boot
import StromDB.Refinement.Replies
import StromDB.Refinement.Tasks

namespace StromDB

variable [Rkyv]

variable (proc : Proc) (key : EffectKey)

namespace Proc

@[simp] theorem setTask_self (task : Option Task) : (proc.setTask key task).tasks key = task := by
  simp [setTask]

theorem setTask_other (other : EffectKey) (task : Option Task) (apart : other ≠ key) :
    (proc.setTask key task).tasks other = proc.tasks other := by
  simp [setTask, apart]

@[simp] theorem send_tasks (request : Option Request) : (proc.send request).tasks = proc.tasks := by
  cases request <;> rfl

@[simp] theorem send_phase (request : Option Request) : (proc.send request).phase = proc.phase := by
  cases request <;> rfl

theorem send_setTask (task : Option Task) (request : Option Request) :
    (proc.setTask key task).send request = (proc.send request).setTask key task := by
  cases request <;> rfl

def spawn (proc : Proc) (key : EffectKey) (sent : Sent Task) : Proc := (proc.setTask key (some sent.1)).send sent.2

@[simp] theorem spawn_phase (sent : Sent Task) : (proc.spawn key sent).phase = proc.phase := by
  obtain ⟨task, request⟩ := sent
  cases request <;> rfl

end Proc

namespace View

theorem sameWire_setTask (task : Option Task) : SameWire proc (proc.setTask key task) :=
  ⟨rfl, rfl, rfl⟩

theorem sameWire_spawn (sent : Sent Task) : SameWire (proc.send sent.2) (proc.spawn key sent) := by
  rw [Proc.spawn, Proc.send_setTask]
  exact sameWire_setTask _ _ _

structure TasksOk (view : View) (pid : Pid) (proc : Proc) : Prop where
  assigned : ∀ key task, proc.tasks key = some task → ∃ assignment, assignment.key = key ∧ view.TaskOk pid proc assignment task
  preparation : ∀ first second, (proc.tasks (.checkpointPreparation first)).isSome →
    (proc.tasks (.checkpointPreparation second)).isSome → first = second
  collection : ∀ first second, (proc.tasks (.collection first)).isSome → (proc.tasks (.collection second)).isSome → first = second

theorem TasksOk.keeps {pid : Pid} {before after : View} {proc next : Proc} (held : Keeps pid before after proc next)
    (silent : Silent pid before after proc next) (old : before.ChainOk) (new : after.ChainOk) (same : next.tasks = proc.tasks)
    (ok : before.TasksOk pid proc) : after.TasksOk pid next where
  assigned := by
    intro key task found
    rw [same] at found
    obtain ⟨assignment, here, known⟩ := ok.assigned key task found
    exact ⟨assignment, here, known.keeps held old new assignment (fun _ _ => silent.filed) (fun _ _ => silent.issued) task⟩
  preparation := by
    rw [same]
    exact ok.preparation
  collection := by
    rw [same]
    exact ok.collection

section

variable {view : View} {pid : Pid} {proc : Proc} (known : view.Ok) (ok : view.TasksOk pid proc) (assignment : Assignment)
  (sent : Sent Task)

theorem spawn_tasks (key : EffectKey) (apart : key ≠ assignment.key) : (proc.spawn assignment.key sent).tasks key = proc.tasks key := by
  rw [Proc.spawn, Proc.send_tasks, Proc.setTask_other _ _ _ _ apart]

theorem spawn_task : (proc.spawn assignment.key sent).tasks assignment.key = some sent.1 := by
  rw [Proc.spawn, Proc.send_tasks, Proc.setTask_self]

include known ok

theorem TasksOk.spawn (done : Launched view pid proc assignment sent)
    (preparation : ∀ ticket, assignment = .prepare ticket → ∀ other, (proc.tasks (.checkpointPreparation other)).isSome →
      other = ticket) (collection : ∀ input, assignment = .collect input → ∀ cut, (proc.tasks (.collection cut)).isSome →
        cut = input.cut) :
    (view.issue pid sent.2).TasksOk pid (proc.spawn assignment.key sent) := by
  have held : Keeps pid view (view.issue pid sent.2) proc (proc.send sent.2) := keeps_send sent.2
  have same := sameWire_spawn proc assignment.key sent
  have settle : ∀ other task, (view.issue pid sent.2).TaskOk pid (proc.send sent.2) other task →
      (view.issue pid sent.2).TaskOk pid (proc.spawn assignment.key sent) other task :=
    fun other task there => there.keeps same.keeps done.ok.chain done.ok.chain other (fun _ _ => same.silent.filed)
      (fun _ _ => same.silent.issued) task
  have lookup : ∀ key, ((proc.spawn assignment.key sent).tasks key).isSome → key = assignment.key ∨ (proc.tasks key).isSome := by
    intro key found
    by_cases here : key = assignment.key
    · exact .inl here
    · rw [spawn_tasks assignment sent key here] at found
      exact .inr found
  refine ⟨?_, ?_, ?_⟩
  · intro key task found
    by_cases here : key = assignment.key
    · subst here
      rw [spawn_task] at found
      cases found
      exact ⟨assignment, rfl, settle assignment sent.1 done.task⟩
    rw [spawn_tasks assignment sent key here] at found
    obtain ⟨other, rfl, before⟩ := ok.assigned key task found
    refine ⟨other, rfl, settle other task (before.keeps held known.chain done.ok.chain other ?_ ?_ task)⟩
    · rintro ticket rfl object body filed
      rcases done.filed object body filed with old | ⟨mine, rfl, _⟩
      · exact old
      · exact absurd (congrArg EffectKey.checkpointPreparation (preparation mine rfl ticket (Option.isSome_of_eq_some found))) here
    · rintro input rfl batch issued
      rcases done.issued batch issued with old | ⟨mine, rfl, _⟩
      · exact old
      · exact absurd (congrArg EffectKey.collection (collection mine rfl input.cut (Option.isSome_of_eq_some found))) here
  · have only : ∀ ticket, EffectKey.checkpointPreparation ticket = assignment.key → ∀ other,
        ((proc.spawn assignment.key sent).tasks (.checkpointPreparation other)).isSome → other = ticket := by
      intro ticket mine other found
      rcases lookup _ found with also | old
      · exact EffectKey.checkpointPreparation.inj (also.trans mine.symm)
      · cases assignment <;> cases mine
        exact preparation _ rfl other old
    intro first second here there
    rcases lookup _ here with mine | old
    · exact (only first mine second there).symm
    · rcases lookup _ there with mine | old'
      · exact only second mine first here
      · exact ok.preparation first second old old'
  have only : ∀ cut, EffectKey.collection cut = assignment.key → ∀ other,
      ((proc.spawn assignment.key sent).tasks (.collection other)).isSome → other = cut := by
    intro cut mine other found
    rcases lookup _ found with also | old
    · exact EffectKey.collection.inj (also.trans mine.symm)
    · cases assignment <;> cases mine
      exact collection _ rfl other old
  intro first second here there
  rcases lookup _ here with mine | old
  · exact (only first mine second there).symm
  · rcases lookup _ there with mine | old'
    · exact only second mine first here
    · exact ok.collection first second old old'

end

def ExitOk (view : View) : WriterExit → Prop
  | .contradiction _ _ => 2 ^ 64 ≤ view.chain.length + 1
  | _ => True

def EventFact (view : View) : Event → Prop
  | .completed pid recovery => view.Recovered pid recovery
  | .replied _ owner completion => view.ReplyFact owner completion
  | .authored pid generation => view.Authored pid generation
  | .sealIssued _ candidate => ∀ table ∈ candidate.tables, (view.tables table.object).isSome
  | .writerExited _ exit => view.ExitOk exit
  | _ => True

theorem EventFact.extend {before after : View} (extended : before.Extends after) (event : Event) (known : before.EventFact event) :
    after.EventFact event := by
  cases event with
  | completed pid recovery => exact Recovered.extend extended pid recovery known
  | replied pid owner completion => exact ReplyFact.extend extended owner completion known
  | authored pid generation => exact Authored.extend extended pid generation known
  | sealIssued pid candidate =>
    intro table member
    obtain ⟨body, found⟩ := Option.isSome_iff_exists.mp (known table member)
    exact Option.isSome_of_eq_some (extended.tables _ _ found)
  | writerExited pid exit =>
    cases exit with
    | contradiction batch detail => exact Nat.le_trans known (Nat.succ_le_succ extended.chain.length_le)
    | _ => trivial
  | _ => trivial

theorem SealOp.established {view : View} (known : view.Ok) (candidate : Seal) (op : view.SealOp candidate) (table : TableRef)
    (member : table ∈ candidate.tables) : (view.tables table.object).isSome := by
  rcases op with ⟨first, legal, _⟩ | ⟨source, here, claimed⟩ | advance
  · obtain ⟨_, directory, ledger⟩ := legal.genesis first
    simp [Seal.tables, TreeVersion.tables, directory, ledger] at member
  · obtain ⟨forest, _, content⟩ := known.chain.content source here
    rw [(Seal.claimSuccessor_ok_iff.mp claimed).2] at member
    exact content.established table member
  · obtain ⟨forest, _, content⟩ := advance.content
    exact content.established table member

variable [OrdMap.Differ]

def perform (pid : Pid) (owner : OwnerToken) (proc : Proc) : WriterOutput → Proc × List Event
  | .effect effect =>
    (proc.spawn effect.key (spawnEffect proc.nextRequest effect), System.issued pid (spawnEffect proc.nextRequest effect).2)
  | .action (.sendReplies replies) => (proc, (replies.map (Event.replied pid owner)).reverse)
  | .action (.cancelCheckpointPreparation ticket) =>
    (proc.setTask (.checkpointPreparation ticket) ((proc.tasks (.checkpointPreparation ticket)).map Task.cancel), [])
  | .action _ => (proc, [])

theorem perform_tasks (pid : Pid) (owner : OwnerToken) (proc : Proc) (effect : WriterEffect) (key : EffectKey)
    (apart : key ≠ effect.key) : (perform pid owner proc (.effect effect)).1.tasks key = proc.tasks key := by
  simp only [perform, Proc.spawn, Proc.send_tasks]
  exact Proc.setTask_other _ _ _ _ apart

def Enabled (proc : Proc) : WriterOutput → Prop
  | .effect effect => proc.tasks effect.key = none
  | .action (.cancelCheckpointPreparation ticket) => (proc.tasks (.checkpointPreparation ticket)).isSome
  | _ => True

def OutputOk (view : View) (pid : Pid) (owner : OwnerToken) (proc : Proc) : WriterOutput → Prop
  | .effect effect => ∃ assignment, assignment.key = effect.key ∧
      Launched view pid proc assignment (spawnEffect proc.nextRequest effect) ∧
      view.issue pid (spawnEffect proc.nextRequest effect).2 = view ∧
      (∀ ticket, assignment = .prepare ticket → ∀ other, (proc.tasks (.checkpointPreparation other)).isSome → other = ticket) ∧
      (∀ input, assignment = .collect input → ∀ cut, (proc.tasks (.collection cut)).isSome → cut = input.cut) ∧
      ∀ candidate, (spawnEffect proc.nextRequest effect).2 = some (.createSeal candidate) → view.SealOp candidate
  | .action (.sendReplies replies) => ∀ completion ∈ replies, view.ReplyFact owner completion
  | .action _ => True

theorem perform_view (pid : Pid) (owner : OwnerToken) (proc : Proc) (output : WriterOutput) (history : List Event)
    (ok : (of history).OutputOk pid owner proc output) : of ((perform pid owner proc output).2 ++ history) = of history := by
  cases output with
  | effect effect =>
    obtain ⟨_, _, _, silent, _⟩ := ok
    simp only [perform]
    rw [of_issued, silent]
  | action action =>
    cases action with
    | sendReplies replies =>
      simp only [perform]
      rw [← List.map_reverse]
      induction replies.reverse with
      | nil => rfl
      | cons completion rest ih => exact ih
    | _ => rfl

-- The outputs may be executed in order, and post holds behind the last one.
def Performs (view : View) (pid : Pid) (owner : OwnerToken) : List WriterOutput → Proc → (Proc → Prop) → Prop
  | [], proc, post => post proc
  | output :: rest, proc, post => view.OutputOk pid owner proc output ∧
      (Enabled proc output → Performs view pid owner rest (perform pid owner proc output).1 post)

theorem Performs.append (view : View) (pid : Pid) (owner : OwnerToken) (first second : List WriterOutput) (post : Proc → Prop) :
    ∀ proc, Performs view pid owner first proc (fun next => Performs view pid owner second next post) →
      Performs view pid owner (first ++ second) proc post := by
  induction first with
  | nil => exact fun _ known => known
  | cons output rest ih => exact fun proc known => ⟨known.1, fun enabled => ih _ (known.2 enabled)⟩

theorem Performs.mono (view : View) (pid : Pid) (owner : OwnerToken) (outputs : List WriterOutput) (weak strong : Proc → Prop)
    (implies : ∀ proc, strong proc → weak proc) : ∀ proc, Performs view pid owner outputs proc strong →
      Performs view pid owner outputs proc weak := by
  induction outputs with
  | nil => exact fun proc known => implies proc known
  | cons output rest ih => exact fun proc known => ⟨known.1, fun enabled => ih _ (known.2 enabled)⟩

omit [OrdMap.Differ] in
theorem TaskOk.cancel {view : View} {pid : Pid} {proc : Proc} {assignment : Assignment} {task : Task}
    (ok : view.TaskOk pid proc assignment task) : view.TaskOk pid proc assignment task.cancel := by
  cases task with
  | prepare job =>
    cases assignment with
    | prepare ticket =>
      obtain ⟨created, known⟩ := ok
      exact ⟨created, known.same, known.planned, known.covered, known.queued, known.unfiled, known.active⟩
    | _ => exact ok
  | _ => exact ok

structure BaseOk (view : View) (pid : Pid) (proc : Proc) : Prop where
  wire : view.WireOk pid proc
  tasks : view.TasksOk pid proc

section

variable {view : View} {pid : Pid} {proc : Proc} (known : view.Ok) (base : view.BaseOk pid proc)

include known base

omit [OrdMap.Differ] in
theorem BaseOk.setTask (key : EffectKey)
    (task : Option Task) (ok : ∀ now, task = some now → ∃ assignment, assignment.key = key ∧ view.TaskOk pid proc assignment now)
    (present : task.isSome → (proc.tasks key).isSome) : view.BaseOk pid (proc.setTask key task) := by
  have same := sameWire_setTask proc key task
  have lookup : ∀ other, ((proc.setTask key task).tasks other).isSome → (proc.tasks other).isSome := by
    intro other found
    by_cases here : other = key
    · subst here
      rw [Proc.setTask_self] at found
      exact present found
    · rwa [Proc.setTask_other _ _ _ _ here] at found
  refine ⟨base.wire.sameWire same, ?_, fun first second here there => base.tasks.preparation _ _ (lookup _ here) (lookup _ there),
    fun first second here there => base.tasks.collection _ _ (lookup _ here) (lookup _ there)⟩
  intro other now found
  have moved : ∃ assignment, assignment.key = other ∧ view.TaskOk pid proc assignment now := by
    by_cases here : other = key
    · subst here
      rw [Proc.setTask_self] at found
      exact ok now found
    · rw [Proc.setTask_other _ _ _ _ here] at found
      exact base.tasks.assigned other now found
  obtain ⟨assignment, there, before⟩ := moved
  exact ⟨assignment, there, before.keeps same.keeps known.chain known.chain assignment (fun _ _ => same.silent.filed)
    (fun _ _ => same.silent.issued) now⟩

theorem BaseOk.perform (owner : OwnerToken)
    (output : WriterOutput) (ok : view.OutputOk pid owner proc output) :
    view.BaseOk pid (perform pid owner proc output).1 ∧ ∀ event ∈ (View.perform pid owner proc output).2, view.EventFact event := by
  cases output with
  | effect effect =>
    obtain ⟨assignment, key, done, silent, preparation, collection, seals⟩ := ok
    have tasks := base.tasks.spawn known assignment _ done preparation collection
    have wire := done.wire
    rw [silent] at tasks wire
    rw [key] at tasks
    refine ⟨⟨wire.sameWire (sameWire_spawn proc effect.key _), tasks⟩, ?_⟩
    intro event member
    simp only [View.perform, System.issued] at member
    split at member
    · rename_i candidate same
      rw [List.mem_singleton.mp member]
      exact fun table inside => SealOp.established known candidate (seals candidate same) table inside
    · rw [List.mem_singleton.mp member]
      trivial
    · cases member
  | action action =>
    cases action with
    | sendReplies replies =>
      refine ⟨base, ?_⟩
      intro event member
      obtain ⟨completion, inside, rfl⟩ := List.mem_map.mp (List.mem_reverse.mp member)
      exact ok completion inside
    | cancelCheckpointPreparation ticket =>
      refine ⟨base.setTask known _ _ ?_ (by simp), by simp [View.perform]⟩
      intro now found
      obtain ⟨task, held, rfl⟩ := Option.map_eq_some_iff.mp found
      obtain ⟨assignment, key, before⟩ := base.tasks.assigned _ task held
      exact ⟨assignment, key, before.cancel⟩
    | _ => exact ⟨base, by simp [View.perform]⟩

end

theorem Performs.base {view : View} {pid : Pid} (known : view.Ok) (owner : OwnerToken) (post : Proc → Prop)
    (outputs : List WriterOutput) : ∀ proc, view.BaseOk pid proc → Performs view pid owner outputs proc post →
      Performs view pid owner outputs proc fun next => view.BaseOk pid next ∧ post next := by
  induction outputs with
  | nil => exact fun _ base done => ⟨base, done⟩
  | cons output rest ih =>
    exact fun proc base done => ⟨done.1, fun enabled => ih _ (base.perform known owner output done.1).1 (done.2 enabled)⟩

end View

end StromDB
