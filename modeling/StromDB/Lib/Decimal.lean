import StromDB.Lib.Text

namespace Decimal

open Text

def value (text : Chars) : Nat := text.foldl (fun n c => 10 * n + (c.toNat - 48)) 0

def numeral : Nat → Nat → Chars
  | 0, _ => []
  | width + 1, n => numeral width (n / 10) ++ [Nat.digitChar (n % 10)]

theorem value_append (text : Chars) (c : Char) : value (text ++ [c]) = 10 * value text + (c.toNat - 48) := by
  simp [value]

theorem isDigit_iff {c : Char} : c.isDigit = true ↔ 48 ≤ c.toNat ∧ c.toNat ≤ 57 := by
  simp only [Char.isDigit, Bool.and_eq_true, decide_eq_true_eq]
  exact Iff.rfl

theorem toNat_digitChar {n : Nat} (small : n < 10) : (Nat.digitChar n).toNat - 48 = n := by
  rw [Nat.toNat_digitChar_of_lt_ten small]
  omega

theorem digitChar_toNat {c : Char} (digit : c.isDigit = true) : Nat.digitChar (c.toNat - 48) = c := by
  have range := isDigit_iff.mp digit
  apply Char.toNat_inj.mp
  rw [Nat.toNat_digitChar_of_lt_ten (by omega)]
  omega

@[simp] theorem length_numeral (width n : Nat) : (numeral width n).length = width := by
  induction width generalizing n with
  | zero => rfl
  | succ width ih => simp [numeral, ih]

theorem isDigit_numeral (width n : Nat) : ∀ c ∈ numeral width n, c.isDigit = true := by
  induction width generalizing n with
  | zero => simp [numeral]
  | succ width ih =>
    intro c member
    rw [numeral, List.mem_append, List.mem_singleton] at member
    rcases member with before | rfl
    · exact ih _ c before
    · rw [Nat.isDigit_digitChar, decide_eq_true_eq]
      exact Nat.mod_lt _ (by decide)

theorem value_numeral (width n : Nat) : value (numeral width n) = n % 10 ^ width := by
  induction width generalizing n with
  | zero => simp [numeral, value, Nat.mod_one]
  | succ width ih =>
    rw [numeral, value_append, ih, toNat_digitChar (Nat.mod_lt _ (by decide)), Nat.pow_succ', Nat.mod_mul]
    omega

theorem numeral_value {text : Chars} (digits : ∀ c ∈ text, c.isDigit = true) : numeral text.length (value text) = text := by
  induction text using List.reverseRecOn with
  | nil => rfl
  | append_singleton before c ih =>
    have here := digits c (by simp)
    have range := isDigit_iff.mp here
    have rest := ih fun d member => digits d (by simp [member])
    have low : (10 * value before + (c.toNat - 48)) % 10 = c.toNat - 48 := by omega
    have high : (10 * value before + (c.toNat - 48)) / 10 = value before := by omega
    rw [List.length_append, List.length_singleton, numeral, value_append, low, high, rest, digitChar_toNat here]

theorem value_lt {text : Chars} (digits : ∀ c ∈ text, c.isDigit = true) : value text < 10 ^ text.length := by
  have whole := value_numeral text.length (value text)
  rw [numeral_value digits] at whole
  rw [whole]
  exact Nat.mod_lt _ (Nat.pow_pos (by decide))

theorem padded_toDigits {width n : Nat} (fits : n < 10 ^ width) (wide : 0 < width) :
    List.replicate (width - (Nat.toDigits 10 n).length) '0' ++ Nat.toDigits 10 n = numeral width n := by
  induction width generalizing n with
  | zero => omega
  | succ width ih =>
    have zeros : ∀ w, numeral w 0 = List.replicate w '0' := by
      intro w
      induction w with
      | zero => rfl
      | succ w ih =>
        rw [numeral, Nat.zero_div, ih, List.replicate_succ']
        rfl
    rw [Nat.toDigits_eq_if (by decide)]
    split
    case isTrue small =>
      rw [numeral, Nat.div_eq_of_lt small, Nat.mod_eq_of_lt small, zeros]
      simp
    case isFalse large =>
      have less : n / 10 < 10 ^ width := by
        rw [Nat.div_lt_iff_lt_mul (by decide)]
        rwa [Nat.pow_succ] at fits
      have some : 0 < width := by
        rcases Nat.eq_zero_or_pos width with rfl | positive
        · omega
        · exact positive
      rw [numeral, ← ih less some]
      simp

theorem numeral_cons (width n : Nat) : numeral (width + 1) n = Nat.digitChar (n / 10 ^ width % 10) :: numeral width n := by
  induction width generalizing n with
  | zero => simp [numeral]
  | succ width ih =>
    rw [numeral, ih, Nat.div_div_eq_div_mul, ← Nat.pow_succ', List.cons_append]
    rfl

theorem numeral_mod (width n : Nat) : numeral width (n % 10 ^ width) = numeral width n := by
  have same := value_numeral width n
  have back := numeral_value (isDigit_numeral width n)
  rwa [length_numeral, same] at back

theorem digitChar_lt {a b : Nat} (less : a < b) (small : b < 10) : Nat.digitChar a < Nat.digitChar b := by
  change (Nat.digitChar a).toNat < (Nat.digitChar b).toNat
  rw [Nat.toNat_digitChar_of_lt_ten (by omega), Nat.toNat_digitChar_of_lt_ten small]
  omega

theorem numeral_lt {width a b : Nat} (less : a < b) (fits : b < 10 ^ width) : numeral width a < numeral width b := by
  induction width generalizing a b with
  | zero =>
    omega
  | succ width ih =>
    have positive : 0 < 10 ^ width := Nat.pow_pos (by decide)
    have leading : ∀ n, n < 10 ^ (width + 1) → n / 10 ^ width < 10 := by
      intro n bound
      rw [Nat.div_lt_iff_lt_mul positive, ← Nat.pow_succ']
      exact bound
    rw [numeral_cons, numeral_cons, Nat.mod_eq_of_lt (leading a (by omega)), Nat.mod_eq_of_lt (leading b fits),
      List.cons_lt_cons_iff]
    rcases Nat.lt_or_ge (a / 10 ^ width) (b / 10 ^ width) with first | later
    · exact Or.inl (digitChar_lt first (leading b fits))
    have same : a / 10 ^ width = b / 10 ^ width := Nat.le_antisymm (Nat.div_le_div_right (Nat.le_of_lt less)) later
    refine Or.inr ⟨by rw [same], ?_⟩
    rw [← numeral_mod width a, ← numeral_mod width b]
    refine ih ?_ (Nat.mod_lt _ positive)
    have split := Nat.div_add_mod a (10 ^ width)
    have other := Nat.div_add_mod b (10 ^ width)
    rw [same] at split
    omega

attribute [irreducible] numeral

end Decimal
