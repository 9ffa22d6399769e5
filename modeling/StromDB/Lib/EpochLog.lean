import Mathlib

namespace EpochLog

section

variable {E : Type} (owner : E → Nat) (fence : E → Bool)

def ownerAt (log : List E) : Nat := (log.getLast?.map owner).getD 0

def Admits (current : Nat) (entry : E) : Prop := if fence entry then current < owner entry else owner entry = current

def Legal (log : List E) : Prop := ∀ i entry, log[i]? = some entry → Admits owner fence (ownerAt owner (log.take i)) entry

variable {owner fence}

@[simp] theorem ownerAt_nil : ownerAt owner ([] : List E) = 0 := rfl

@[simp] theorem ownerAt_append_singleton (log : List E) (entry : E) : ownerAt owner (log ++ [entry]) = owner entry := by
  simp [ownerAt]

theorem take_succ_of_getElem? {log : List E} {i : Nat} {entry : E} (found : log[i]? = some entry) :
    log.take (i + 1) = log.take i ++ [entry] := by
  rw [List.take_add_one, found]
  rfl

theorem ownerAt_take_succ (log : List E) (i : Nat) (entry : E) (found : log[i]? = some entry) :
    ownerAt owner (log.take (i + 1)) = owner entry := by
  rw [take_succ_of_getElem? found, ownerAt_append_singleton]

theorem Legal.nil : Legal owner fence ([] : List E) := by
  intro i entry found
  simp at found

theorem Legal.append {log : List E} {entry : E} (legal : Legal owner fence log)
    (admitted : Admits owner fence (ownerAt owner log) entry) : Legal owner fence (log ++ [entry]) := by
  intro i other found
  rcases Nat.lt_or_ge i log.length with inside | outside
  · rw [List.getElem?_append_left inside] at found
    rw [List.take_append_of_le_length (Nat.le_of_lt inside)]
    exact legal i other found
  rw [List.getElem?_append_right outside] at found
  have here : i = log.length := by
    have bound := (List.getElem?_eq_some_iff.mp found).1
    simp only [List.length_cons, List.length_nil] at bound
    omega
  subst here
  simp only [Nat.sub_self, List.getElem?_cons_zero, Option.some.injEq] at found
  subst found
  simpa using admitted

section

variable (log : List E) (legal : Legal owner fence log)

include legal

theorem Legal.fence_owner (i : Nat) (entry : E) (found : log[i]? = some entry)
    (isFence : fence entry = true) : ownerAt owner (log.take i) < owner entry := by
  simpa [Admits, isFence] using legal i entry found

theorem Legal.run_owner (i : Nat) (entry : E) (found : log[i]? = some entry)
    (isRun : fence entry = false) : owner entry = ownerAt owner (log.take i) := by
  simpa [Admits, isRun] using legal i entry found

theorem Legal.ownerAt_le_succ (n : Nat) : ownerAt owner (log.take n) ≤ ownerAt owner (log.take (n + 1)) := by
  cases found : log[n]? with
  | none =>
    have past : log.length ≤ n := List.getElem?_eq_none_iff.mp found
    rw [List.take_of_length_le past, List.take_of_length_le (Nat.le_succ_of_le past)]
  | some entry =>
    rw [ownerAt_take_succ log n entry found]
    cases kind : fence entry with
    | true => exact Nat.le_of_lt (legal.fence_owner log n entry found kind)
    | false => exact Nat.le_of_eq (legal.run_owner log n entry found kind).symm

theorem Legal.ownerAt_mono (m n : Nat) (ordered : m ≤ n) : ownerAt owner (log.take m) ≤ ownerAt owner (log.take n) := by
  induction ordered with
  | refl => exact Nat.le_refl _
  | step _ ih => exact Nat.le_trans ih (legal.ownerAt_le_succ log _)

theorem Legal.fence_between (m n : Nat) (raised : ownerAt owner (log.take m) < ownerAt owner (log.take n)) :
    ∃ i entry, m ≤ i ∧ i < n ∧ log[i]? = some entry ∧ fence entry = true ∧ owner entry = ownerAt owner (log.take n) := by
  induction n with
  | zero => simp at raised
  | succ n ih =>
    rcases Nat.lt_or_ge (ownerAt owner (log.take m)) (ownerAt owner (log.take n)) with before | here
    · obtain ⟨i, entry, above, below, found, isFence, owns⟩ := ih before
      cases last : log[n]? with
      | none =>
        have past : log.length ≤ n := List.getElem?_eq_none_iff.mp last
        rw [List.take_of_length_le (Nat.le_succ_of_le past)]
        rw [List.take_of_length_le past] at owns
        exact ⟨i, entry, above, by omega, found, isFence, owns⟩
      | some other =>
        cases kind : fence other with
        | true =>
          have later : m ≤ n := by
            rcases Nat.lt_or_ge n m with less | more
            · omega
            · exact more
          exact ⟨n, other, later, by omega, last, kind, (ownerAt_take_succ log n other last).symm⟩
        | false =>
          have same := legal.run_owner log n other last kind
          rw [ownerAt_take_succ log n other last, same]
          exact ⟨i, entry, above, by omega, found, isFence, owns⟩
    cases last : log[n]? with
    | none =>
      have past : log.length ≤ n := List.getElem?_eq_none_iff.mp last
      rw [List.take_of_length_le (Nat.le_succ_of_le past)] at raised
      rw [List.take_of_length_le past] at here
      omega
    | some other =>
      rw [ownerAt_take_succ log n other last] at raised ⊢
      have later : m ≤ n := by
        rcases Nat.lt_or_ge n m with less | more
        · have reversed := legal.ownerAt_mono log (n + 1) m less
          rw [ownerAt_take_succ log n other last] at reversed
          omega
        · exact more
      cases kind : fence other with
      | true => exact ⟨n, other, later, by omega, last, kind, rfl⟩
      | false =>
        have same := legal.run_owner log n other last kind
        omega

end

variable (owner fence)

def Walks (current : Nat) : List E → Prop
  | [] => True
  | entry :: rest => Admits owner fence current entry ∧ Walks (owner entry) rest

variable {owner fence}

theorem Legal.walks {log : List E} (legal : Legal owner fence log) (n : Nat) :
    Walks owner fence (ownerAt owner (log.take n)) (log.drop n) := by
  generalize same : log.drop n = rest
  induction rest generalizing n with
  | nil => trivial
  | cons entry rest ih =>
    have found : log[n]? = some entry := by
      rw [← List.head?_drop, same]
      rfl
    refine ⟨legal n entry found, ?_⟩
    have tail : log.drop (n + 1) = rest := by
      rw [← List.tail_drop, same]
      rfl
    have owned : ownerAt owner (log.take (n + 1)) = owner entry := ownerAt_take_succ log n entry found
    rw [← owned]
    exact ih (n + 1) tail

end

end EpochLog
