import StromDB.Engine.Load
import StromDB.Engine.System
import StromDB.Lib.EpochLog

namespace StromDB

open List

variable [Rkyv]

def foldLog : List WalObject → Forest → Option Forest
  | [], forest => some forest
  | object :: rest, forest => (Forest.applyFacts object.batch object.facts forest).bind (foldLog rest)

theorem foldLog_append (first second : List WalObject) (forest : Forest) :
    foldLog (first ++ second) forest = (foldLog first forest).bind (foldLog second) := by
  induction first generalizing forest with
  | nil => rfl
  | cons object rest ih =>
    simp only [cons_append, foldLog]
    cases Forest.applyFacts object.batch object.facts forest with
    | none => rfl
    | some next => exact ih next

theorem foldLog_invariant {inv : Forest → Prop}
    (kept : ∀ forest next batch fact, inv forest → Forest.Step forest batch fact next → inv next) (log : List WalObject) :
    ∀ forest next : Forest, inv forest → foldLog log forest = some next → inv next := by
  induction log with
  | nil =>
    intro forest next held done
    cases done
    exact held
  | cons object rest ih =>
    intro forest next held done
    obtain ⟨middle, first, later⟩ := Option.bind_eq_some_iff.mp done
    exact ih middle next (Forest.applyFacts_invariant inv object.batch (fun f n fact => kept f n object.batch fact)
      object.facts forest middle held first) later

theorem foldLog_consistent {log : List WalObject} {forest next : Forest} (consistent : forest.Consistent)
    (done : foldLog log forest = some next) : next.Consistent :=
  foldLog_invariant (fun f n batch fact held step => held.step f n batch fact step) log forest next consistent done

-- What the objects that were ever created amount to: the log with the first
-- object at every coordinate, the Seals in order with the process that created
-- each one, and the established tables. Collection takes nothing out of it.
structure View where
  log : List WalObject
  stale : List WalObject
  chain : List Seal
  authors : List Pid
  tables : Tables
  collected : List BatchId
  dropped : List TableObjectId
  issued : List (Pid × BatchId)
  commands : List CommandEnvelope

namespace View

def empty : View := ⟨[], [], [], [], fun _ => none, [], [], [], []⟩

-- An object at a coordinate that the log has passed already is stale: the log
-- keeps the object that was there first.
def record (view : View) : Event → View
  | .sealCreated pid sealed => { view with chain := view.chain ++ [sealed], authors := view.authors ++ [pid] }
  | .walCreated _ object =>
    if object.batch.get = view.log.length + 1 then { view with log := view.log ++ [object] }
    else { view with stale := object :: view.stale }
  | .tableCreated _ candidate =>
    { view with tables := fun object =>
        match view.tables object with
        | some body => some body
        | none => if object = candidate.key then some candidate.object else none }
  | .walDeleted _ object => { view with collected := object.batch :: view.collected }
  | .tableDeleted _ object => { view with dropped := object :: view.dropped }
  | .runDeleteIssued pid batch => { view with issued := (pid, batch) :: view.issued }
  | .commanded _ envelope => { view with commands := envelope :: view.commands }
  | _ => view

def of : List Event → View
  | [] => empty
  | event :: older => (of older).record event

structure Extends (before after : View) : Prop where
  log : before.log <+: after.log
  stale : before.stale ⊆ after.stale
  chain : before.chain <+: after.chain
  authors : before.authors <+: after.authors
  tables : ∀ object body, before.tables object = some body → after.tables object = some body
  collected : before.collected ⊆ after.collected
  dropped : before.dropped ⊆ after.dropped
  issued : before.issued ⊆ after.issued
  commands : before.commands ⊆ after.commands

theorem Extends.refl (view : View) : view.Extends view :=
  ⟨prefix_rfl, fun _ h => h, prefix_rfl, prefix_rfl, fun _ _ h => h, fun _ h => h, fun _ h => h, fun _ h => h,
    fun _ h => h⟩

theorem Extends.trans {first second third : View} (before : first.Extends second) (after : second.Extends third) :
    first.Extends third :=
  ⟨before.log.trans after.log, fun _ h => after.stale (before.stale h), before.chain.trans after.chain,
    before.authors.trans after.authors, fun object body h => after.tables object body (before.tables object body h),
    fun _ h => after.collected (before.collected h), fun _ h => after.dropped (before.dropped h),
    fun _ h => after.issued (before.issued h), fun _ h => after.commands (before.commands h)⟩

theorem record_extends (view : View) (event : Event) : view.Extends (view.record event) := by
  have same := Extends.refl view
  cases event with
  | sealCreated pid sealed => exact { same with chain := prefix_append _ _, authors := prefix_append _ _ }
  | walCreated pid object =>
    simp only [record]
    split
    · exact { same with log := prefix_append _ _ }
    · exact { same with stale := subset_cons_self _ _ }
  | tableCreated pid candidate =>
    refine { same with tables := ?_ }
    intro object body found
    simp [record, found]
  | walDeleted pid object => exact { same with collected := subset_cons_self _ _ }
  | tableDeleted pid object => exact { same with dropped := subset_cons_self _ _ }
  | runDeleteIssued pid batch => exact { same with issued := subset_cons_self _ _ }
  | commanded pid envelope => exact { same with commands := subset_cons_self _ _ }
  | _ => exact same

theorem of_extends (newer older : List Event) : (of older).Extends (of (newer ++ older)) := by
  induction newer with
  | nil => exact Extends.refl _
  | cons event rest ih => exact ih.trans (record_extends _ event)

def ownerAt (view : View) (n : Nat) : Nat := EpochLog.ownerAt (fun object => object.owner.get) (view.log.take n)

def FoldIs (view : View) (n : Nat) (forest : Forest) : Prop :=
  n ≤ view.log.length ∧ foldLog (view.log.take n) Forest.empty = some forest

def OwnerIs (view : View) (n owner : Nat) : Prop := n ≤ view.log.length ∧ view.ownerAt n = owner

def Authored (view : View) (pid : Pid) (generation : SealGeneration) : Prop := view.authors[generation.get - 1]? = some pid

def Claim (view : View) (sealed : Seal) : Prop := sealed ∈ view.chain ∧ ∃ source ∈ view.chain, source.claimSuccessor = .ok sealed

def Superseded (view : View) (generation : SealGeneration) : Prop := generation.get < view.chain.length

def Seen (view : View) (batch : BatchId) (object : WalObject) : Prop :=
  object.batch = batch ∧ (object ∈ view.log ∨ object ∈ view.stale)

def Unselectable (view : View) (object : TableObjectId) : Prop :=
  ∃ sealed ∈ view.chain, object.fresh.birthGeneration.get ≤ sealed.generation.get ∧ object ∉ sealed.tables.map TableRef.object

def DeleteRight (view : View) (pid : Pid) (batch : BatchId) : Prop :=
  ∃ source ∈ view.chain, ∃ sealed ∈ view.chain, sealed.generation.get = source.generation.get + 1 ∧
    view.Authored pid sealed.generation ∧ source.replay.cut < batch.get ∧ batch.get ≤ sealed.replay.cut

section

variable {before after : View} (extended : before.Extends after)

include extended

theorem Extends.take_log (n : Nat) (within : n ≤ before.log.length) : after.log.take n = before.log.take n := by
  obtain ⟨rest, same⟩ := extended.log
  rw [← same, take_append_of_le_length within]

theorem FoldIs.extend (n : Nat) (forest : Forest) (known : before.FoldIs n forest) : after.FoldIs n forest :=
  ⟨Nat.le_trans known.1 extended.log.length_le, by rw [extended.take_log n known.1]; exact known.2⟩

theorem OwnerIs.extend (n owner : Nat) (known : before.OwnerIs n owner) : after.OwnerIs n owner :=
  ⟨Nat.le_trans known.1 extended.log.length_le, by rw [ownerAt, extended.take_log n known.1]; exact known.2⟩

theorem Authored.extend (pid : Pid) (generation : SealGeneration) (known : before.Authored pid generation) :
    after.Authored pid generation := by
  obtain ⟨rest, same⟩ := extended.authors
  have bound := (List.getElem?_eq_some_iff.mp known).1
  rw [Authored, ← same, List.getElem?_append_left bound]
  exact known

theorem Authored.reflect (pid : Pid) (generation : SealGeneration) (known : after.Authored pid generation)
    (within : generation.get ≤ before.authors.length) : before.Authored pid generation := by
  obtain ⟨rest, same⟩ := extended.authors
  have positive := generation.positive
  rw [Authored, ← same, getElem?_append_left (by omega)] at known
  exact known

theorem Claim.extend (sealed : Seal) (known : before.Claim sealed) : after.Claim sealed := by
  obtain ⟨here, source, member, claimed⟩ := known
  exact ⟨extended.chain.subset here, source, extended.chain.subset member, claimed⟩

theorem Superseded.extend (generation : SealGeneration) (known : before.Superseded generation) : after.Superseded generation :=
  Nat.lt_of_lt_of_le known extended.chain.length_le

theorem Seen.extend (batch : BatchId) (object : WalObject) (known : before.Seen batch object) : after.Seen batch object :=
  ⟨known.1, known.2.imp (fun h => extended.log.subset h) (fun h => extended.stale h)⟩

theorem Unselectable.extend (object : TableObjectId) (known : before.Unselectable object) : after.Unselectable object := by
  obtain ⟨sealed, member, rest⟩ := known
  exact ⟨sealed, extended.chain.subset member, rest⟩

theorem DeleteRight.extend (pid : Pid) (batch : BatchId) (known : before.DeleteRight pid batch) : after.DeleteRight pid batch := by
  obtain ⟨source, here, sealed, there, next, authored, rest⟩ := known
  exact ⟨source, extended.chain.subset here, sealed, extended.chain.subset there, next, authored.extend extended, rest⟩

end

end View

def System.view (sys : System) : View := View.of sys.history

end StromDB
