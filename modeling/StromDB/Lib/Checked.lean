import Mathlib

-- A computation that may stop at an assertion. The error is the text of the
-- panic. An ordinary failure is part of the returned value instead.
abbrev Checked (α : Type) := Except String α

namespace Checked

variable {α β ε : Type}

def require (condition : Prop) [Decidable condition] (message : String) : Checked Unit :=
  if condition then .ok () else .error message

def expect (message : String) : Option α → Checked α
  | some value => .ok value
  | none => .error message

def expectOk (message : String) : Except ε α → Checked α
  | .ok value => .ok value
  | .error _ => .error message

theorem bind_ok_iff {x : Except ε α} {f : α → Except ε β} {r : β} : (x >>= f) = .ok r ↔ ∃ a, x = .ok a ∧ f a = .ok r := by
  cases x <;> simp [bind, Except.bind]

theorem bind_ok {x : Except ε α} {f : α → Except ε β} {r : β} (done : (x >>= f) = .ok r) : ∃ a, x = .ok a ∧ f a = .ok r :=
  bind_ok_iff.mp done

@[simp] theorem ok_bind (a : α) (f : α → Except ε β) : ((.ok a : Except ε α) >>= f) = f a := rfl

@[simp] theorem error_bind (e : ε) (f : α → Except ε β) : ((.error e : Except ε α) >>= f) = .error e := rfl

@[simp] theorem pure_eq_ok (a : α) : (pure a : Except ε α) = .ok a := rfl

@[simp] theorem require_ok_iff (condition : Prop) [Decidable condition] (message : String) (u : Unit) :
    require condition message = .ok u ↔ condition := by
  unfold require
  split <;> simp_all

@[simp] theorem expect_ok_iff (message : String) (value : Option α) (a : α) : expect message value = .ok a ↔ value = some a := by
  cases value <;> simp [expect]

@[simp] theorem expectOk_ok_iff {message : String} {value : Except ε α} {a : α} : expectOk message value = .ok a ↔ value = .ok a := by
  cases value <;> simp [expectOk]

@[simp] theorem mapError_ok_iff {ε' : Type} {f : ε → ε'} {value : Except ε α} {a : α} : value.mapError f = .ok a ↔ value = .ok a := by
  cases value <;> simp [Except.mapError]

end Checked
