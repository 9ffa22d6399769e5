import Mathlib

namespace Budget

variable {S R : Type} (cost : S → Nat) (limit : Nat) (write : S → R → S)

def Within (rows : List R) (s : S) : Prop := ∀ first, first <+: rows → cost (first.foldl write s) ≤ limit

theorem within_nil (s : S) : Within cost limit write [] s ↔ cost s ≤ limit := by
  simp [Within]

theorem within_cons (row : R) (rows : List R) (s : S) :
    Within cost limit write (row :: rows) s ↔ cost s ≤ limit ∧ Within cost limit write rows (write s row) := by
  constructor
  · intro within
    refine ⟨within [] (List.nil_prefix), ?_⟩
    intro first here
    exact within (row :: first) (List.cons_prefix_cons.mpr ⟨rfl, here⟩)
  · rintro ⟨start, within⟩ first here
    cases first with
    | nil => exact start
    | cons head rest =>
      obtain ⟨rfl, later⟩ := List.cons_prefix_cons.mp here
      exact within rest later

theorem within_append (first second : List R) (s : S) :
    Within cost limit write (first ++ second) s ↔
      Within cost limit write first s ∧ Within cost limit write second (first.foldl write s) := by
  induction first generalizing s with
  | nil =>
    simp only [List.nil_append, List.foldl_nil, within_nil]
    exact ⟨fun within => ⟨within [] List.nil_prefix, within⟩, fun within => within.2⟩
  | cons row rest ih =>
    rw [List.cons_append, within_cons, within_cons, ih, List.foldl_cons, and_assoc]

theorem Within.last (rows : List R) (s : S) (within : Within cost limit write rows s) : cost (rows.foldl write s) ≤ limit :=
  within rows List.prefix_rfl

end Budget
