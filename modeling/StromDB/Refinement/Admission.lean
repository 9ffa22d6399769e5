import StromDB.Protocol.Catalogue
import StromDB.Refinement.Replies

namespace StromDB

variable [Rkyv]

section

variable {forest : Forest} {path : StreamPath}

theorem Forest.holding_eq_live {contentType : StreamContentType} {expiry : ExpiryPolicy} {lifecycle : StreamLifecycle}
    (here : forest.holding path = some (.live contentType expiry lifecycle)) :
    ∃ uid record, forest.resolve path = some (.live uid) ∧ forest.record uid = some record ∧ record.contentType = contentType ∧
      record.expiry = expiry ∧ record.lifecycle = lifecycle := by
  unfold holding at here
  split at here
  · cases here
  · cases here
  · rename_i uid live
    obtain ⟨record, found, same⟩ := Option.map_eq_some_iff.mp here
    cases same
    exact ⟨uid, record, live, found, rfl, rfl, rfl⟩

theorem Forest.holding_eq_deleted (here : forest.holding path = some .deleted) : DeleteReflected forest path := by
  unfold holding at here
  split at here
  · cases here
  · rename_i uid gone
    exact ⟨uid, gone⟩
  · obtain ⟨_, _, same⟩ := Option.map_eq_some_iff.mp here
    cases same

end

omit [Rkyv] in
theorem Completion.reply_refusal (completion : Completion) (refusal : AdmissionRefusal) :
    (completion.refusal refusal).reply = completion.reply := by
  cases completion <;> rfl

omit [Rkyv] in
theorem Completion.mutates_succeeds (completion : Completion) (mutates : completion.mutates = true) : completion.succeeds = true := by
  rcases completion with ⟨_ | _, _⟩ | ⟨_ | _, _⟩ | ⟨_ | _, _⟩ <;> first | rfl | cases mutates

namespace Catalogue

theorem answer_reply (catalogue : Catalogue) (envelope : CommandEnvelope) : (catalogue.answer envelope).reply = envelope.reply := by
  cases envelope <;> simp only [answer] <;> split <;> try split
  all_goals rfl

theorem reflects_refusal {catalogue : Catalogue} {envelope : CommandEnvelope} (refuses : (catalogue.answer envelope).succeeds = false)
    (forest : Forest) : Reflects forest envelope (catalogue.answer envelope) := by
  revert refuses
  cases envelope <;> simp only [answer] <;> split <;> try split
  all_goals intro refuses; trivial

theorem reflects {forest next : Forest} {envelope : CommandEnvelope} (succeeds : (forest.catalogue.answer envelope).succeeds = true)
    (after : next.catalogue = forest.catalogue.next envelope) : Reflects next envelope (forest.catalogue.answer envelope) := by
  have holds : ∀ path, next.holding path = (forest.catalogue.next envelope).holding path := fun path => after ▸ rfl
  revert succeeds
  cases envelope with
  | create command reply =>
    have here := holds command.path
    simp only [answer, Catalogue.next] at here ⊢
    split <;> rename_i held <;> simp only [held] at here
    · split <;> rename_i room
      · rw [if_pos room] at here
        obtain ⟨uid, record, live, found, contentType, expiry, lifecycle⟩ := Forest.holding_eq_live (here.trans (if_pos rfl))
        exact fun _ => .inr ⟨uid, record, live, found, contentType, expiry, fun closed => lifecycle.trans closed⟩
      · intros
        contradiction
    · split <;> rename_i same
      · obtain ⟨uid, record, live, found, contentType, expiry, lifecycle⟩ := Forest.holding_eq_live here
        exact fun _ => .inr ⟨uid, record, live, found, contentType.trans same.1, expiry.trans same.2.1,
          fun closed => lifecycle.trans (same.2.2.trans closed)⟩
      · intros
        contradiction
    · intros
      contradiction
  | close path reply =>
    have here := holds path
    simp only [answer, Catalogue.next] at here ⊢
    split
    · rename_i held
      simp only [held] at here
      obtain ⟨uid, record, live, found, _, _, closed⟩ := Forest.holding_eq_live (here.trans (if_pos rfl))
      exact fun _ => .inr ⟨uid, record, live, found, closed⟩
    · rename_i held
      simp only [held] at here
      obtain ⟨uid, record, live, found, _, _, closed⟩ := Forest.holding_eq_live here
      exact fun _ => .inr ⟨uid, record, live, found, closed⟩
    · intros
      contradiction
  | delete path reply =>
    have here := holds path
    simp only [answer, Catalogue.next] at here ⊢
    split
    · rename_i held
      simp only [held] at here
      exact fun _ => Forest.holding_eq_deleted (here.trans (if_pos rfl))
    · intros
      contradiction

end Catalogue

end StromDB
