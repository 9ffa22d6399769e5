import StromDB.Refinement.Reach

namespace StromDB

open StromDB.System List

variable [Rkyv]

variable (history : List Event) (store : ObjectStore) (sys : System)

def Event.stores : Event → Bool
  | .sealCreated _ _ => true
  | .walCreated _ _ => true
  | .tableCreated _ _ => true
  | .walDeleted _ _ => true
  | .tableDeleted _ _ => true
  | _ => false

def Event.plain : Event → Bool
  | .completed _ _ => false
  | .bootstrapExited _ _ => false
  | event => !event.stores

theorem Event.plain_quiet (event : Event) (plain : event.plain = true) : event.stores = false := by
  cases event <;> first | rfl | cases plain

structure Records (kind : Event → Prop) (before after : System) : Prop where
  store : after.store = before.store
  history : ∃ events, after.history = events ++ before.history ∧ ∀ event ∈ events, kind event

abbrev Aside (before after : System) : Prop := Records (fun event => event.stores = false) before after

namespace Records

section

variable {kind : Event → Prop}

theorem refl (sys : System) : Records kind sys sys := ⟨rfl, [], rfl, by simp⟩

theorem trans {first second third : System} (before : Records kind first second) (after : Records kind second third) :
    Records kind first third := by
  obtain ⟨older, same, quiet⟩ := before.history
  obtain ⟨newer, more, silent⟩ := after.history
  refine ⟨after.store.trans before.store, newer ++ older, by rw [more, same, append_assoc], ?_⟩
  intro event member
  rcases mem_append.mp member with new | old
  · exact silent event new
  · exact quiet event old

theorem record (sys : System) (events : List Event) (all : ∀ event ∈ events, kind event) : Records kind sys (sys.record events) :=
  ⟨rfl, events, rfl, all⟩

theorem setProc (sys : System) (pid : Pid) (proc : Proc) : Records kind sys (sys.setProc pid proc) := ⟨rfl, [], rfl, by simp⟩

end

end Records

abbrev Plain (before after : System) : Prop := Records (fun event => event.plain = true) before after

-- All that a step does besides executing a request: what it records is of one
-- kind, a response is taken off, and a bootstrap waits only for what it sends
-- then.
inductive System.Moves (pid : Pid) (kind : Event → Prop) : System → System → Prop where
  | refl (sys : System) : Moves pid kind sys sys
  | trans (first second third : System) (before : Moves pid kind first second) (after : Moves pid kind second third) :
      Moves pid kind first third
  | record (sys : System) (events : List Event) (all : ∀ event ∈ events, kind event) : Moves pid kind sys (sys.record events)
  | setTask (sys : System) (key : EffectKey) (task : Option Task) : Moves pid kind sys (sys.setTask pid key task)
  | send (sys : System) (request : Option Request) : Moves pid kind sys (sys.send pid request)
  | deliver (sys : System) (pending : Pending) (delivery : Delivery) (response : Response) (proc : Proc)
      (delivered : (sys.procs pid).deliver pending delivery = some (response, proc)) : Moves pid kind sys (sys.setProc pid proc)
  | setPhase (sys : System) (phase : Phase) (ended : ∀ state effect pending, phase ≠ .bootstrapping state effect pending) :
      Moves pid kind sys (sys.setPhase pid phase)
  | await (sys : System) (state : BootstrapState) (effect : BootstrapEffect) (call : Call) :
      Moves pid kind sys (sys.await pid state effect call)

namespace System

theorem issued_plain {pid : Pid} {request : Option Request} : ∀ event ∈ issued pid request, event.plain = true := by
  intro event member
  unfold issued at member
  split at member
  · rw [mem_singleton.mp member]
    rfl
  · rw [mem_singleton.mp member]
    rfl
  · cases member

namespace Moves

section

variable {pid : Pid} {kind : Event → Prop} {before after : System}

theorem records (moves : Moves pid kind before after) (sent : ∀ event, event.plain = true → kind event) :
    Records kind before after := by
  have sends : ∀ (sys : System) (request : Option Request), Records kind sys (sys.send pid request) := fun sys request =>
    (Records.setProc sys pid _).trans (.record _ _ fun event member => sent event (issued_plain event member))
  induction moves with
  | refl sys => exact .refl sys
  | trans _ _ _ _ _ first second => exact first.trans second
  | record sys events all => exact .record sys events all
  | send sys request => exact sends sys request
  | setTask sys | deliver sys | setPhase sys => exact .setProc sys pid _
  | await sys state effect call => exact (Records.setProc sys pid _).trans (sends _ _)

theorem weaken (moves : Moves pid kind before after) (wider : Event → Prop) (within : ∀ event, kind event → wider event) :
    Moves pid wider before after := by
  induction moves with
  | refl sys => exact .refl sys
  | trans _ _ _ _ _ first second => exact first.trans _ _ _ second
  | record sys events all => exact .record sys events fun event member => within event (all event member)
  | setTask sys key task => exact .setTask sys key task
  | send sys request => exact .send sys request
  | deliver sys pending delivery response proc delivered => exact .deliver sys pending delivery response proc delivered
  | setPhase sys phase ended => exact .setPhase sys phase ended
  | await sys state effect call => exact .await sys state effect call

theorem others (moves : Moves pid kind before after) (other : Pid) (apart : other ≠ pid) : after.procs other = before.procs other := by
  induction moves with
  | refl sys | record sys events all => rfl
  | trans _ _ _ _ _ first second => exact second.trans first
  | _ => simp [System.setTask, System.send, System.setPhase, System.await, setProc_other _ _ _ _ apart]

theorem spawn (sys : System) (key : EffectKey) (sent : Sent Task) : Moves pid kind sys (sys.spawn pid key sent) :=
  .trans _ _ _ (.setTask sys key _) (.send _ sent.2)

end

theorem plain {pid : Pid} {before after : System} (moves : Moves pid (fun event => event.plain = true) before after) :
    Plain before after :=
  moves.records fun _ plain => plain

theorem aside {pid : Pid} {before after : System} (moves : Moves pid (fun event => event.stores = false) before after) :
    Aside before after :=
  moves.records Event.plain_quiet

end Moves

section

variable (pid : Pid)

theorem executeOutput_moves [OrdMap.Differ] (owner : OwnerToken) (execution next : Execution) (output : WriterOutput)
    (done : executeOutput pid owner execution output = .ok next) :
    Moves pid (fun event => event.plain = true) execution.sys next.sys := by
  cases output with
  | effect effect =>
    obtain ⟨_, _, done⟩ := Checked.bind_ok done
    cases done
    exact .spawn _ _ _
  | action action =>
    cases action with
    | armFlush deadline =>
      obtain ⟨_, _, done⟩ := Checked.bind_ok done
      cases done
      exact .refl _
    | publishView forest =>
      cases done
      exact .refl _
    | sendReplies replies =>
      cases done
      refine .record _ _ ?_
      intro event member
      obtain ⟨completion, _, rfl⟩ := mem_map.mp (mem_reverse.mp member)
      rfl
    | cancelCheckpointPreparation ticket =>
      simp only [executeOutput] at done
      split at done
      · cases done
      · cases done
        exact .setTask _ _ _

theorem executeOutputs_moves [OrdMap.Differ] (owner : OwnerToken) (outputs : List WriterOutput) : ∀ execution : Execution,
    Moves pid (fun event => event.plain = true) execution.sys (executeOutputs pid owner outputs execution).1.sys := by
  induction outputs with
  | nil => exact fun execution => .refl _
  | cons output rest ih =>
    intro execution
    simp only [executeOutputs]
    cases first : executeOutput pid owner execution output with
    | error message => exact .refl _
    | ok next => exact (executeOutput_moves pid owner execution next output first).trans _ _ _ (ih next)

theorem driveWriter_moves [OrdMap.Differ] (sys : System) (machine : WriterMachine) (timer : Option Instant) (view : Forest)
    (now : Instant)
    (event : WriterEvent) : Moves pid (fun event => event.plain = true) sys (sys.driveWriter pid machine timer view now event) := by
  unfold driveWriter
  split
  · exact .setPhase sys _ (by simp)
  rename_i machine outputs exit _
  have executed := executeOutputs_moves pid machine.claim.owner outputs ⟨sys, timer, view⟩
  split
  · rename_i execution message same
    rw [same] at executed
    exact executed.trans _ _ _ (.setPhase _ _ (by simp))
  · rename_i execution same
    rw [same] at executed
    refine executed.trans _ _ _ ?_
    unfold finishStep
    split
    · exact .setPhase _ _ (by simp)
    · exact .trans _ _ _ (.setPhase _ _ (by simp)) (.record _ _ (by simp [Event.plain, Event.stores]))

end

theorem driveBootstrap_moves (pid : Pid) (state : BootstrapState) (event : BootstrapEvent) :
    Moves pid (fun event => event.stores = false) sys (sys.driveBootstrap pid state event) := by
  unfold driveBootstrap
  split
  · exact .setPhase sys _ (by simp)
  · exact .await sys _ _ _
  · exact .trans _ _ _ (.setPhase sys _ (by simp)) (.record _ _ (by simp [Event.stores]))
  · exact .trans _ _ _ (.setPhase sys _ (by simp)) (.record _ _ (by simp [Event.stores]))

theorem BootAnswered.moves {sys after : System} {pid : Pid} {delivery : Delivery} (answered : BootAnswered sys pid delivery after) :
    Moves pid (fun event => event.stores = false) sys after := by
  cases answered with
  | waits _ _ _ _ proc _ _ delivered => exact .trans _ _ _ (.deliver sys _ _ _ proc delivered) (.await _ _ _ _)
  | done _ effect _ _ proc _ event _ delivered =>
    refine .trans _ _ _ (.deliver sys _ _ _ proc delivered) (.trans _ _ _ (.record _ _ ?_) (driveBootstrap_moves _ pid _ _))
    intro other member
    unfold authoredBy at member
    split at member
    · rw [mem_singleton.mp member]
      rfl
    · cases member

end System

structure TakesEffect (before : System) (pid : Pid) (request : Request) (after : System) : Prop where
  sent : ∃ id, (id, request) ∈ (before.procs pid).wire
  store : after.store = (before.store.execute request).1
  history : after.history = effectOf before.store pid request ++ before.history

section

variable [OrdMap.Differ] (after : System) (label : Label) (stepped : step label sys = some after)

include stepped

theorem step_cases :
    (∃ pid id request, label = .apply pid id ∧ (sys.procs pid).wire.lookup id = some request ∧ TakesEffect sys pid request after) ∨
      (∃ pid delivery, label = .respond pid .boot delivery ∧ BootAnswered sys pid delivery after) ∨
      System.Moves label.pid (fun event => event.plain = true) sys after := by
  cases step_steps stepped with
  | apply pid id request found => exact .inl ⟨pid, id, request, rfl, found, ⟨id, mem_of_lookup found⟩, rfl, rfl⟩
  | boot pid delivery _ answered => exact .inr (.inl ⟨pid, delivery, rfl, answered⟩)
  | halts _ phase dead => rcases dead with rfl | ⟨_, rfl⟩ <;> exact .inr (.inr (.setPhase sys _ (by simp)))
  | start => exact .inr (.inr (.await sys _ _ _))
  | launch pid _ _ now | flushDue pid now | ingressClosed pid now => exact .inr (.inr (driveWriter_moves pid sys _ _ _ now _))
  | command pid now =>
    exact .inr (.inr (.trans _ _ _ (.record sys _ (by simp [Event.plain, Event.stores])) (driveWriter_moves pid _ _ _ _ now _)))
  | join pid now key => exact .inr (.inr (.trans _ _ _ (.setTask sys key none) (driveWriter_moves pid _ _ _ _ now _)))
  | spawnTable pid key _ sent | settle pid key _ sent => exact .inr (.inr (.spawn sys key sent))
  | table pid key _ _ _ _ _ proc _ sent _ _ delivered =>
    exact .inr (.inr (.trans _ _ _ (.deliver sys _ _ _ proc delivered) (.spawn _ key sent)))
  | task pid key _ _ _ _ proc _ sent _ _ delivered =>
    refine .inr (.inr (.trans _ _ _ (.deliver sys _ _ _ proc delivered) (.trans _ _ _ (.record _ _ ?_) (.spawn _ key sent))))
    intro other member
    unfold taskAuthored at member
    split at member
    · rw [mem_singleton.mp member]
      rfl
    · cases member

theorem step_applied_or_moves :
    (∃ pid id request, label = .apply pid id ∧ (sys.procs pid).wire.lookup id = some request ∧ TakesEffect sys pid request after) ∨
      System.Moves label.pid (fun event => event.stores = false) sys after := by
  rcases step_cases sys after label stepped with applied | ⟨pid, delivery, rfl, answered⟩ | plain
  · exact .inl applied
  · exact .inr answered.moves
  · exact .inr (plain.weaken _ Event.plain_quiet)

theorem step_applied_or_aside :
    (∃ pid id request, label = .apply pid id ∧ (sys.procs pid).wire.lookup id = some request ∧ TakesEffect sys pid request after) ∨
      Aside sys after :=
  (step_applied_or_moves sys after label stepped).imp id System.Moves.aside

end

theorem effectOf_cases (pid : Pid) (request : Request) :
    effectOf store pid request = [] ∨ ∃ event, effectOf store pid request = [event] ∧ event.stores = true := by
  cases request with
  | createSeal candidate =>
    by_cases taken : store.seals.contains candidate.generation = true
    · exact .inl (by simp [effectOf, taken])
    · exact .inr ⟨_, by simp only [effectOf, if_neg taken]; rfl, rfl⟩
  | createWal candidate =>
    by_cases taken : store.wal.contains candidate.batch = true
    · exact .inl (by simp [effectOf, taken])
    · exact .inr ⟨_, by simp only [effectOf, if_neg taken]; rfl, rfl⟩
  | createTable candidate =>
    by_cases taken : (store.tables candidate.key).isSome = true
    · exact .inl (by simp [effectOf, taken])
    · exact .inr ⟨_, by simp only [effectOf, if_neg taken]; rfl, rfl⟩
  | deleteWal batch =>
    cases found : store.wal[batch]? with
    | none => exact .inl (by simp [effectOf, found])
    | some object => exact .inr ⟨_, by simp only [effectOf, found]; rfl, rfl⟩
  | deleteTable object =>
    by_cases held : (store.tables object).isSome = true
    · exact .inr ⟨_, by simp only [effectOf, if_pos held]; rfl, rfl⟩
    · exact .inl (by simp [effectOf, held])
  | _ => exact .inl rfl

section

variable (owner pid : Pid) (request : Request)

theorem effectOf_walCreated (object : WalObject)
    (one : effectOf store owner request = [.walCreated pid object]) :
    owner = pid ∧ request = .createWal object ∧ store.wal.contains object.batch = false := by
  cases request with
  | createWal candidate =>
    simp only [effectOf] at one
    split at one
    · cases one
    · rename_i free
      cases one
      exact ⟨rfl, rfl, Bool.not_eq_true _ ▸ free⟩
  | _ =>
    simp only [effectOf] at one
    first
      | cases one
      | split at one <;> cases one

theorem effectOf_tableCreated (candidate : EncodedTable)
    (one : effectOf store owner request = [.tableCreated pid candidate]) : owner = pid ∧ request = .createTable candidate := by
  cases request with
  | createTable requested =>
    simp only [effectOf] at one
    split at one
    · cases one
    · cases one
      exact ⟨rfl, rfl⟩
  | _ =>
    simp only [effectOf] at one
    first
      | cases one
      | split at one <;> cases one

theorem effectOf_tableDeleted (object : TableObjectId)
    (one : effectOf store owner request = [.tableDeleted pid object]) : (store.tables object).isSome = true := by
  cases request with
  | deleteTable requested =>
    simp only [effectOf] at one
    split at one
    · rename_i stored
      cases one
      exact stored
    · cases one
  | _ =>
    simp only [effectOf] at one
    first
      | cases one
      | split at one <;> cases one

end

section

variable {allowed : System → Label → Prop}

abbrev ReachableWhere [OrdMap.Differ] (allowed : System → Label → Prop) (sys : System) : Prop :=
  Transition.ReachableWhere step allowed Initial sys

section

variable [OrdMap.Differ] (sys : System) (reached : ReachableWhere allowed sys) (newer older : List Event) (event : Event)
  (split : sys.history = newer ++ event :: older)

include reached split

theorem ReachableWhere.moment :
    (∃ before after pid id request, ReachableWhere allowed before ∧ allowed before (.apply pid id) ∧ before.history = older ∧
      (before.procs pid).wire.lookup id = some request ∧ TakesEffect before pid request after ∧ ReachableWhere allowed after ∧
      effectOf before.store pid request = [event]) ∨
    ∃ after recent rest, ReachableWhere allowed after ∧ event.stores = false ∧ newer = rest ++ recent ∧
      after.history = recent ++ event :: older ∧ ∀ other ∈ recent, other.stores = false := by
  induction reached generalizing newer with
  | start sys initial =>
    rw [show sys = System.initial from initial] at split
    simp [System.initial] at split
  | next before after label earlier admitted stepped ih =>
    have reached : ReachableWhere allowed after := .next before after label earlier admitted stepped
    have recorded : ∀ events, after.history = events ++ before.history →
        (∃ rest, newer = events ++ rest ∧ before.history = rest ++ event :: older) ∨
          ∃ recent, events = newer ++ event :: recent ∧ older = recent ++ before.history := by
      intro events same
      rw [split] at same
      rcases append_eq_append_iff.mp same.symm with ⟨rest, first, second⟩ | ⟨rest, first, second⟩
      · exact .inl ⟨rest, first, second⟩
      · cases rest with
        | nil =>
          rw [append_nil] at first
          exact .inl ⟨[], by rw [first, append_nil], second.symm⟩
        | cons head rest =>
          obtain ⟨rfl, same⟩ := cons.inj second
          exact .inr ⟨rest, first, same⟩
    rcases step_applied_or_aside before after label stepped with ⟨pid, id, request, rfl, found, applied⟩ | aside
    · rcases recorded _ applied.history with ⟨rest, rfl, earlierSplit⟩ | ⟨recent, same, behind⟩
      · rcases ih rest earlierSplit with applied | ⟨moment, recent, more, here, quiet, rfl, there⟩
        · exact .inl applied
        · exact .inr ⟨moment, recent, _ ++ more, here, quiet, (append_assoc _ _ _).symm, there⟩
      left
      rcases effectOf_cases before.store pid request with none | ⟨single, one, _⟩
      · rw [none] at same
        simp at same
      · rw [one] at same
        have short := congrArg length same
        simp only [length_cons, length_nil, length_append] at short
        have first : newer = [] := eq_nil_of_length_eq_zero (by omega)
        have last : recent = [] := eq_nil_of_length_eq_zero (by omega)
        rw [first, last] at same
        rw [last] at behind
        exact ⟨before, after, pid, id, request, earlier, admitted, behind.symm, found, applied, reached, one.trans same⟩
    obtain ⟨events, grown, quiet⟩ := aside.history
    rcases recorded events grown with ⟨rest, rfl, earlierSplit⟩ | ⟨recent, rfl, behind⟩
    · rcases ih rest earlierSplit with applied | ⟨moment, recent, more, here, quiet, rfl, there⟩
      · exact .inl applied
      · exact .inr ⟨moment, recent, _ ++ more, here, quiet, (append_assoc _ _ _).symm, there⟩
    · refine .inr ⟨after, newer, [], reached, quiet event (by simp), rfl, split, ?_⟩
      intro other member
      exact quiet other (mem_append_left _ member)

theorem ReachableWhere.stored_moment (stores : event.stores = true) :
    ∃ before after pid id request, ReachableWhere allowed before ∧ allowed before (.apply pid id) ∧ before.history = older ∧
      (before.procs pid).wire.lookup id = some request ∧ TakesEffect before pid request after ∧ ReachableWhere allowed after ∧
      effectOf before.store pid request = [event] := by
  rcases reached.moment sys newer older event split with applied | ⟨_, _, _, _, quiet, _⟩
  · exact applied
  · rw [stores] at quiet
    cases quiet

end

end

theorem ReachableSystem.told_moment [OrdMap.Differ] (reached : ReachableSystem sys) (newer older : List Event) (event : Event)
    (split : sys.history = newer ++ event :: older) (quiet : event.stores = false) :
    ∃ after recent, ReachableSystem after ∧ after.history = recent ++ event :: older ∧ ∀ other ∈ recent, other.stores = false := by
  rcases ReachableWhere.moment sys reached newer older event split with
    ⟨before, _, pid, _, request, _, _, _, _, _, _, one⟩ | ⟨after, recent, _, here, _, _, same, others⟩
  · rcases effectOf_cases before.store pid request with none | ⟨single, same, stores⟩
    · rw [none] at one
      cases one
    · rw [one] at same
      cases same
      rw [quiet] at stores
      cases stores
  · exact ⟨after, recent, here, same, others⟩

namespace View

theorem mem_created (object : WalObject) :
    (∃ pid, Event.walCreated pid object ∈ history) ↔ object ∈ (of history).log ∨ object ∈ (of history).stale := by
  induction history with
  | nil => simp [of, empty]
  | cons event older ih =>
    cases event with
    | walCreated pid created =>
      simp only [mem_cons, Event.walCreated.injEq, of, record]
      split
      · grind
      · grind
    | _ => simpa [of, record] using ih

theorem of_walCreated (pid : Pid) (object : WalObject) (older : List Event) :
    (of (.walCreated pid object :: older)).chain = (of older).chain ∧ (of (.walCreated pid object :: older)).dropped =
      (of older).dropped := by
  simp only [of, record]
  split <;> exact ⟨rfl, rfl⟩

theorem mem_chain (sealed : Seal) : (∃ pid, Event.sealCreated pid sealed ∈ history) ↔ sealed ∈ (of history).chain := by
  induction history with
  | nil => simp [of, empty]
  | cons event older ih =>
    cases event with
    | sealCreated pid created =>
      simp only [mem_cons, Event.sealCreated.injEq, of, record, mem_append, ← ih]
      grind
    | walCreated pid object =>
      rw [(of_walCreated pid object older).1, ← ih]
      simp
    | _ => simpa [of, record] using ih

theorem mem_dropped (object : TableObjectId) : (∃ pid, Event.tableDeleted pid object ∈ history) ↔ object ∈ (of history).dropped := by
  induction history with
  | nil => simp [of, empty]
  | cons event older ih =>
    cases event with
    | tableDeleted pid deleted =>
      simp only [mem_cons, Event.tableDeleted.injEq, of, record, ← ih]
      grind
    | walCreated pid created =>
      rw [(of_walCreated pid created older).2, ← ih]
      simp
    | _ => simpa [of, record] using ih

theorem tables_created (object : TableObjectId) (body : SstObject) (found : (of history).tables object = some body) :
    ∃ pid candidate, Event.tableCreated pid candidate ∈ history ∧ candidate.key = object ∧ candidate.object = body := by
  induction history with
  | nil => cases found
  | cons event older ih =>
    have earlier : (of older).tables object = some body →
        ∃ pid candidate, Event.tableCreated pid candidate ∈ event :: older ∧ candidate.key = object ∧ candidate.object = body := by
      intro there
      obtain ⟨pid, candidate, member, rest⟩ := ih there
      exact ⟨pid, candidate, mem_cons_of_mem _ member, rest⟩
    cases event with
    | tableCreated pid candidate =>
      simp only [of, record] at found
      split at found
      · rename_i held
        exact earlier (held.trans found)
      · split at found
        · rename_i same
          exact ⟨pid, candidate, mem_cons_self, same.symm, Option.some.inj found⟩
        · cases found
    | walCreated pid created =>
      rw [of, record_wal_tables] at found
      exact earlier found
    | _ => exact earlier found

theorem tables_aside (recent older : List Event) (quiet : ∀ event ∈ recent, event.stores = false) :
    (of (recent ++ older)).tables = (of older).tables := by
  induction recent with
  | nil => rfl
  | cons event rest ih =>
    have here := quiet event mem_cons_self
    rw [← ih fun other member => quiet other (mem_cons_of_mem _ member)]
    cases event <;> first | rfl | cases here

end View

section

variable {allowed : System → Label → Prop}

section

variable [OrdMap.Differ] {sys : System} (reached : ReachableWhere allowed sys)

include reached

theorem ReachableWhere.ok : SystemOk sys :=
  ReachableSystem.ok sys (reached.reachable)

theorem ReachableWhere.wal_moment (newer older : List Event) (pid : Pid)
    (object : WalObject) (split : sys.history = newer ++ .walCreated pid object :: older) :
    ∃ before id, ReachableWhere allowed before ∧ allowed before (.apply pid id) ∧ before.history = older ∧
      (before.procs pid).wire.lookup id = some (.createWal object) ∧
      ((before.view.FenceOp pid object ∧
          (object.batch.get = before.view.log.length + 1 ∨ object.batch ∈ before.view.collected)) ∨
        (before.view.RunOp pid object ∧ object.batch.get = before.view.log.length + 1)) := by
  obtain ⟨before, after, owner, id, request, here, admitted, same, found, applied, _, one⟩ :=
    reached.stored_moment sys newer older _ split rfl
  obtain ⟨rfl, rfl, free⟩ := effectOf_walCreated before.store owner pid request object one
  have ok := here.ok
  obtain ⟨sent, member⟩ := applied.sent
  have vacant := View.vacant_of_not_contains object.batch free
  refine ⟨before, id, here, admitted, same, found, ?_⟩
  rcases (ok.procs owner).base.wire.ops sent _ member with fence | run
  · exact .inl ⟨fence, fence.lands owner ok.stored ok.view object vacant⟩
  · exact .inr ⟨run, run.lands owner ok.stored ok.view object vacant⟩

theorem ReachableWhere.table_moment (newer older : List Event) (pid : Pid)
    (candidate : EncodedTable) (split : sys.history = newer ++ .tableCreated pid candidate :: older) :
    (View.of older).tables candidate.key = none := by
  obtain ⟨before, after, owner, id, request, here, _, same, _, applied, _, one⟩ :=
    reached.stored_moment sys newer older _ split rfl
  obtain ⟨sent, member⟩ := applied.sent
  rw [(effectOf_tableCreated before.store owner pid request candidate one).2] at member
  have op : before.view.TableOp owner candidate := (here.ok.procs owner).base.wire.ops sent _ member
  rw [← same]
  exact op.fresh

end

end

theorem ReachableSystem.table_established [OrdMap.Differ] (reached : ReachableSystem sys) (pid : Pid) (candidate : EncodedTable)
    (member : .tableCreated pid candidate ∈ sys.history) : sys.view.tables candidate.key = some candidate.object := by
  obtain ⟨newer, older, split⟩ := append_of_mem member
  have fresh := ReachableWhere.table_moment reached newer older pid candidate split
  have grown := View.of_extends newer (.tableCreated pid candidate :: older)
  rw [← split] at grown
  apply grown.tables
  simp [View.of, View.record, fresh]

theorem ReachableSystem.table_deleted [OrdMap.Differ] (reached : ReachableSystem sys) (pid : Pid) (object : TableObjectId)
    (member : .tableDeleted pid object ∈ sys.history) : sys.view.tables object ≠ none := by
  obtain ⟨newer, older, split⟩ := append_of_mem member
  obtain ⟨before, _, owner, _, request, here, _, same, _, _, _, one⟩ := ReachableWhere.stored_moment sys reached newer older _ split rfl
  obtain ⟨body, stored⟩ := Option.isSome_iff_exists.mp (effectOf_tableDeleted before.store owner pid request object one)
  have held := (ReachableWhere.ok here).stored.tables object body stored
  have grown := View.of_extends newer (.tableDeleted pid object :: older)
  rw [← split] at grown
  have later := grown.tables object body (by
    rw [view, same] at held
    exact held)
  rw [view, later]
  exact Option.some_ne_none body

end StromDB
