import StromDB.Protocol.ForestHistory
import StromDB.Refinement.Invariant

namespace StromDB

variable [Rkyv]

def Completion.reply : Completion → ReplySender
  | .create _ reply => reply
  | .close _ reply => reply
  | .delete _ reply => reply

def CreateReflected (forest : Forest) (command : CreateStream) : Prop :=
  (∃ uid, forest.resolve command.path = some (.tombstone uid)) ∨
    ∃ uid record, forest.resolve command.path = some (.live uid) ∧ forest.record uid = some record ∧
      record.contentType = command.contentType ∧ record.expiry = command.expiry ∧
      (command.lifecycle = .closed → record.lifecycle = .closed)

def CloseReflected (forest : Forest) (path : StreamPath) : Prop :=
  (∃ uid, forest.resolve path = some (.tombstone uid)) ∨
    ∃ uid record, forest.resolve path = some (.live uid) ∧ forest.record uid = some record ∧ record.lifecycle = .closed

def DeleteReflected (forest : Forest) (path : StreamPath) : Prop := ∃ uid, forest.resolve path = some (.tombstone uid)

def Reflects (forest : Forest) : CommandEnvelope → Completion → Prop
  | .create command _, .create (.ok _) _ => CreateReflected forest command
  | .close path _, .close (.ok _) _ => CloseReflected forest path
  | .delete path _, .delete (.ok _) _ => DeleteReflected forest path
  | .create _ _, .create (.error _) _ => True
  | .close _ _, .close (.error _) _ => True
  | .delete _ _, .delete (.error _) _ => True
  | _, _ => False

section

variable {forest next : Forest} (precedes : Forest.Precedes forest next) {envelope : CommandEnvelope} {completion : Completion}

include precedes

theorem live_precedes (path : StreamPath) (uid : StreamUid) (record : StreamRecord) (live : forest.resolve path = some (.live uid))
    (found : forest.record uid = some record) : DeleteReflected next path ∨
      ∃ kept, next.resolve path = some (.live uid) ∧ next.record uid = some kept ∧ record.Continues kept := by
  obtain ⟨entry, there, same⟩ := precedes.kept path _ live
  cases entry with
  | tombstone other => exact .inl ⟨other, there⟩
  | live other =>
    cases same
    obtain ⟨kept, held, continues⟩ := precedes.records path _ record live found there
    exact .inr ⟨kept, there, held, continues⟩

theorem Reflects.later (held : Reflects forest envelope completion) : Reflects next envelope completion := by
  unfold Reflects at held ⊢
  split at held
  · rcases held with ⟨uid, gone⟩ | ⟨uid, record, live, found, contentType, expiry, closed⟩
    · exact .inl ⟨uid, precedes.buried _ uid gone⟩
    · rcases live_precedes precedes _ uid record live found with gone | ⟨kept, here, there, continues⟩
      · exact .inl gone
      · exact .inr ⟨uid, kept, here, there, continues.contentType.trans contentType, continues.expiry.trans expiry,
          fun same => continues.closed (closed same)⟩
  · rcases held with ⟨uid, gone⟩ | ⟨uid, record, live, found, closed⟩
    · exact .inl ⟨uid, precedes.buried _ uid gone⟩
    · rcases live_precedes precedes _ uid record live found with gone | ⟨kept, here, there, continues⟩
      · exact .inl gone
      · exact .inr ⟨uid, kept, here, there, continues.closed closed⟩
  · obtain ⟨uid, gone⟩ := held
    exact ⟨uid, precedes.buried _ uid gone⟩
  · trivial
  · trivial
  · trivial
  · exact held

end

namespace View

def AckOk (view : View) (forest : Forest) (completion : Completion) : Prop :=
  ∃ envelope ∈ view.commands, envelope.reply = completion.reply ∧ Reflects forest envelope completion

def ReplyFact (view : View) (owner : OwnerToken) (completion : Completion) : Prop :=
  ∃ n forest, view.FoldIs n forest ∧ view.OwnerIs n owner.get ∧ view.AckOk forest completion

theorem AckOk.extend {before after : View} (extended : before.Extends after) (forest : Forest) (completion : Completion)
    (known : before.AckOk forest completion) : after.AckOk forest completion := by
  obtain ⟨envelope, member, rest⟩ := known
  exact ⟨envelope, extended.commands member, rest⟩

theorem ReplyFact.extend {before after : View} (extended : before.Extends after) (owner : OwnerToken) (completion : Completion)
    (known : before.ReplyFact owner completion) : after.ReplyFact owner completion := by
  obtain ⟨n, forest, folded, owned, acked⟩ := known
  exact ⟨n, forest, folded.extend extended, owned.extend extended, acked.extend extended⟩

theorem AckOk.applyFacts {view : View} {batch : BatchId} {facts : List OperationFact} {forest next : Forest}
    (consistent : forest.Consistent) (applied : Forest.applyFacts batch facts forest = some next) (completion : Completion)
    (known : view.AckOk forest completion) : view.AckOk next completion := by
  obtain ⟨envelope, member, same, held⟩ := known
  exact ⟨envelope, member, same, held.later (Forest.applyFacts_precedes consistent applied)⟩

theorem FoldIs.precedes {view : View} {m n : Nat} (ordered : m ≤ n) {first second : Forest} (here : view.FoldIs m first)
    (there : view.FoldIs n second) : Forest.Precedes first second :=
  (FoldIs.invariant (fun later => later.Consistent ∧ Forest.Precedes first later)
    (fun before after batch fact known step => ⟨known.1.step before after batch fact step, known.2.trans (step.precedes known.1)⟩)
    m n ordered first second here there ⟨here.consistent, .refl first⟩).2

theorem AckOk.fold {view : View} {m n : Nat} (ordered : m ≤ n) (first second : Forest) (here : view.FoldIs m first)
    (there : view.FoldIs n second) (completion : Completion) (known : view.AckOk first completion) : view.AckOk second completion := by
  obtain ⟨envelope, member, same, held⟩ := known
  exact ⟨envelope, member, same, held.later (FoldIs.precedes ordered here there)⟩

end View

end StromDB
