import StromDB.Lib.OrdMap

namespace StromDB

structure NonZeroU64 where
  get : Nat
  positive : 0 < get
  bounded : get < 2 ^ 64
deriving DecidableEq, Repr

inductive ZeroCoordinate where
  | zeroCoordinate
deriving DecidableEq, Repr

inductive CoordinateExhausted where
  | coordinateExhausted
deriving DecidableEq, Repr

def CoordinateExhausted.toText : CoordinateExhausted → String
  | .coordinateExhausted => "storage coordinate is exhausted"

namespace NonZeroU64

theorem get_injective (a b : NonZeroU64) (same : a.get = b.get) : a = b := by
  cases a
  cases b
  simpa using same

def new (value : Nat) : Option NonZeroU64 :=
  if legal : 0 < value ∧ value < 2 ^ 64 then some ⟨value, legal.1, legal.2⟩ else none

def min : NonZeroU64 := ⟨1, by decide, by decide⟩

def two : NonZeroU64 := ⟨2, by decide, by decide⟩

def three : NonZeroU64 := ⟨3, by decide, by decide⟩

def four : NonZeroU64 := ⟨4, by decide, by decide⟩

def successor (value : NonZeroU64) : Except CoordinateExhausted NonZeroU64 :=
  match new (value.get + 1) with
  | some next => .ok next
  | none => .error .coordinateExhausted

theorem new_eq_some_iff (value : Nat) (result : NonZeroU64) : new value = some result ↔ result.get = value := by
  have positive := result.positive
  have bounded := result.bounded
  unfold new
  split
  case isTrue legal =>
    constructor
    · intro same
      cases same
      rfl
    · intro same
      exact congrArg some (get_injective _ _ same.symm)
  case isFalse illegal =>
    simp only [reduceCtorEq, false_iff]
    omega

theorem successor_ok_iff (value next : NonZeroU64) : value.successor = .ok next ↔ next.get = value.get + 1 := by
  rw [← new_eq_some_iff, successor]
  cases new (value.get + 1) <;> simp

theorem successor_error_iff (value : NonZeroU64) (error : CoordinateExhausted) :
    value.successor = .error error ↔ value.get = 2 ^ 64 - 1 := by
  have bounded := value.bounded
  unfold successor new
  split
  case h_1 next found =>
    split at found
    case isTrue legal =>
      simp only [reduceCtorEq, false_iff]
      omega
    case isFalse => cases found
  case h_2 found =>
    split at found
    case isTrue => cases found
    case isFalse illegal =>
      simp only [true_iff]
      omega

end NonZeroU64

structure SealGeneration where
  raw : NonZeroU64
deriving DecidableEq, Repr

structure BatchId where
  raw : NonZeroU64
deriving DecidableEq, Repr

structure StreamUid where
  raw : NonZeroU64
deriving DecidableEq, Repr

structure OwnerToken where
  generation : SealGeneration
deriving DecidableEq, Repr

namespace SealGeneration

def get (generation : SealGeneration) : Nat := generation.raw.get

def genesis : SealGeneration := ⟨NonZeroU64.min⟩

def successor (generation : SealGeneration) : Except CoordinateExhausted SealGeneration :=
  generation.raw.successor.map mk

def tryFrom (generation : Nat) : Except ZeroCoordinate SealGeneration :=
  match NonZeroU64.new generation with
  | some raw => .ok ⟨raw⟩
  | none => .error .zeroCoordinate

end SealGeneration

namespace BatchId

def get (batch : BatchId) : Nat := batch.raw.get

def successor (batch : BatchId) : Except CoordinateExhausted BatchId :=
  batch.raw.successor.map mk

def tryFrom (batch : Nat) : Except ZeroCoordinate BatchId :=
  match NonZeroU64.new batch with
  | some raw => .ok ⟨raw⟩
  | none => .error .zeroCoordinate

end BatchId

namespace StreamUid

def get (uid : StreamUid) : Nat := uid.raw.get

end StreamUid

def OwnerToken.get (owner : OwnerToken) : Nat := owner.generation.get

instance : Ord SealGeneration := ⟨compareOn SealGeneration.get⟩
instance : Ord BatchId := ⟨compareOn BatchId.get⟩
instance : Ord StreamUid := ⟨compareOn StreamUid.get⟩

instance : LT SealGeneration := ⟨fun a b => a.get < b.get⟩
instance : LE SealGeneration := ⟨fun a b => a.get ≤ b.get⟩
instance : LT BatchId := ⟨fun a b => a.get < b.get⟩
instance : LE BatchId := ⟨fun a b => a.get ≤ b.get⟩
instance : LT OwnerToken := ⟨fun a b => a.get < b.get⟩
instance : LE OwnerToken := ⟨fun a b => a.get ≤ b.get⟩

instance (a b : SealGeneration) : Decidable (a < b) := inferInstanceAs (Decidable (a.get < b.get))
instance (a b : SealGeneration) : Decidable (a ≤ b) := inferInstanceAs (Decidable (a.get ≤ b.get))
instance (a b : BatchId) : Decidable (a < b) := inferInstanceAs (Decidable (a.get < b.get))
instance (a b : BatchId) : Decidable (a ≤ b) := inferInstanceAs (Decidable (a.get ≤ b.get))
instance (a b : OwnerToken) : Decidable (a < b) := inferInstanceAs (Decidable (a.get < b.get))
instance (a b : OwnerToken) : Decidable (a ≤ b) := inferInstanceAs (Decidable (a.get ≤ b.get))

theorem SealGeneration.get_injective (a b : SealGeneration) (same : a.get = b.get) : a = b := by
  exact congrArg SealGeneration.mk (NonZeroU64.get_injective _ _ same)

theorem BatchId.get_injective (a b : BatchId) (same : a.get = b.get) : a = b := by
  exact congrArg BatchId.mk (NonZeroU64.get_injective _ _ same)

theorem StreamUid.get_injective (a b : StreamUid) (same : a.get = b.get) : a = b := by
  exact congrArg StreamUid.mk (NonZeroU64.get_injective _ _ same)

theorem OwnerToken.get_injective (a b : OwnerToken) (same : a.get = b.get) : a = b := by
  exact congrArg OwnerToken.mk (SealGeneration.get_injective _ _ same)

instance : Std.TransOrd SealGeneration := OrdKey.trans_on SealGeneration.get
instance : Std.TransOrd BatchId := OrdKey.trans_on BatchId.get
instance : Std.TransOrd StreamUid := OrdKey.trans_on StreamUid.get
instance : Std.LawfulEqOrd SealGeneration := OrdKey.lawful_on SealGeneration.get_injective
instance : Std.LawfulEqOrd BatchId := OrdKey.lawful_on BatchId.get_injective
instance : Std.LawfulEqOrd StreamUid := OrdKey.lawful_on StreamUid.get_injective

theorem SealGeneration.positive (generation : SealGeneration) : 0 < generation.get := generation.raw.positive

theorem BatchId.positive (batch : BatchId) : 0 < batch.get := batch.raw.positive

theorem BatchId.bounded (batch : BatchId) : batch.get < 2 ^ 64 := batch.raw.bounded

theorem StreamUid.positive (uid : StreamUid) : 0 < uid.get := uid.raw.positive

@[simp] theorem SealGeneration.lt_iff (a b : SealGeneration) : a < b ↔ a.get < b.get := Iff.rfl

@[simp] theorem SealGeneration.le_iff (a b : SealGeneration) : a ≤ b ↔ a.get ≤ b.get := Iff.rfl

@[simp] theorem BatchId.lt_iff {a b : BatchId} : a < b ↔ a.get < b.get := Iff.rfl

@[simp] theorem BatchId.le_iff (a b : BatchId) : a ≤ b ↔ a.get ≤ b.get := Iff.rfl

@[simp] theorem OwnerToken.lt_iff (a b : OwnerToken) : a < b ↔ a.get < b.get := Iff.rfl

@[simp] theorem OwnerToken.le_iff (a b : OwnerToken) : a ≤ b ↔ a.get ≤ b.get := Iff.rfl

theorem SealGeneration.successor_ok_iff {g next : SealGeneration} : g.successor = .ok next ↔ next.get = g.get + 1 := by
  obtain ⟨raw⟩ := next
  simp only [successor, get, ← NonZeroU64.successor_ok_iff]
  cases g.raw.successor <;> simp [Except.map]

theorem BatchId.successor_ok_iff {b next : BatchId} : b.successor = .ok next ↔ next.get = b.get + 1 := by
  obtain ⟨raw⟩ := next
  simp only [successor, get, ← NonZeroU64.successor_ok_iff]
  cases b.raw.successor <;> simp [Except.map]

theorem SealGeneration.successor_error_iff (g : SealGeneration) (error : CoordinateExhausted) :
    g.successor = .error error ↔ g.get = 2 ^ 64 - 1 := by
  rw [successor, get, ← NonZeroU64.successor_error_iff g.raw error]
  cases g.raw.successor <;> simp [Except.map]

theorem BatchId.successor_error_iff (b : BatchId) (error : CoordinateExhausted) : b.successor = .error error ↔ b.get = 2 ^ 64 - 1 := by
  rw [successor, get, ← NonZeroU64.successor_error_iff b.raw error]
  cases b.raw.successor <;> simp [Except.map]

end StromDB
