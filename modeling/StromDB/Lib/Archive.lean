import StromDB.Lib.Checked

namespace Archive

open Checked

abbrev Bytes := List UInt8

-- A serializer that writes its output chunk by chunk, with checked access to
-- arbitrary bytes. Access of a complete output finds the root that was written.
structure Archiver (Root : Type) where
  writes : Root → List Bytes
  access : Bytes → Option Root
  accessed : ∀ root, access (writes root).flatten = some root

namespace Archiver

variable {Root : Type}

def output (archiver : Archiver Root) (root : Root) : Bytes := (archiver.writes root).flatten

theorem output_accessed (archiver : Archiver Root) (root : Root) : archiver.access (archiver.output root) = some root :=
  archiver.accessed root

noncomputable def ofCode (code : Root → Nat) (injective : Function.Injective code) : Archiver Root where
  writes root := [List.replicate (code root) 0]
  access bytes := Function.partialInv code bytes.length
  accessed root := by simpa using Function.partialInv_left injective root

instance : Countable Char := Function.Injective.countable (f := Char.toNat) fun _ _ same => Char.toNat_inj.mp same

instance : Countable UInt8 := Function.Injective.countable (f := UInt8.toNat) fun _ _ same => UInt8.toNat_inj.mp same

instance : Countable String := Function.Injective.countable (f := String.toList) fun _ _ same => String.toList_injective same

theorem exists_sized [Countable Root] (chosen : Root) (size : Nat) :
    ∃ archiver : Archiver Root, (archiver.output chosen).length = size := by
  classical
  obtain ⟨code, injective⟩ := exists_injective_nat Root
  have sized : Function.Injective fun root => if root = chosen then size else code root + size + 1 := by
    intro a b same
    simp only at same
    split at same <;> split at same
    · simp_all
    · omega
    · omega
    · exact injective (by omega)
  exact ⟨ofCode _ sized, by simp [output, ofCode]⟩

end Archiver

section

variable {Value Raw Failure : Type}

-- Decoding accepts the archived form of a value as that value, and nothing
-- else.
def Exact (archive : Value → Raw) (decode : Raw → Except Failure Value) : Prop :=
  ∀ raw value, decode raw = .ok value ↔ raw = archive value

section

variable (archive : Value → Raw) (decode : Raw → Except Failure Value) (exact : Exact archive decode)

include exact

theorem Exact.roundtrip
    (value : Value) : decode (archive value) = .ok value := (exact _ _).mpr rfl

theorem Exact.injective (a b : Value) (same : archive a = archive b) : a = b := by
  have first := exact.roundtrip _ _ a
  rw [same, exact.roundtrip _ _ b] at first
  cases first
  rfl

theorem Exact.mapM : Exact (List.map archive) (List.mapM decode) := by
  intro raws
  induction raws with
  | nil =>
    intro values
    cases values <;> simp
  | cons raw rest ih =>
    intro values
    rw [List.mapM_cons, bind_ok_iff]
    simp only [bind_ok_iff, pure_eq_ok, Except.ok.injEq, exact raw]
    constructor
    · rintro ⟨value, rfl, tail, found, rfl⟩
      rw [(ih tail).mp found, List.map_cons]
    · intro same
      cases values with
      | nil => cases same
      | cons value tail =>
        cases same
        exact ⟨value, rfl, tail, (ih tail).mpr rfl, rfl⟩

theorem Exact.gated (gate : Raw → Prop) [DecidablePred gate] (failure : Failure) (passes : ∀ value, ¬ gate (archive value)) :
    Exact archive (fun raw => if gate raw then .error failure else decode raw) := by
  intro raw value
  simp only
  split
  case isTrue fails =>
    simp only [reduceCtorEq, false_iff]
    rintro rfl
    exact passes value fails
  case isFalse => exact exact raw value

end

theorem Exact.collect {Collection Failure' : Type} (archive : Value → Raw) (decode : Raw → Except Failure Value)
    (exact : Exact archive decode) (items : Collection → List Value) (build : List Value → Except Failure' Collection)
    (built : ∀ values collection, build values = .ok collection ↔ items collection = values) (failure : Failure) :
    Exact (fun collection => (items collection).map archive) (fun raws => do
      let values ← raws.mapM decode
      (build values).mapError fun _ => failure) := by
  intro raws collection
  simp only [bind_ok_iff, exact.mapM archive decode raws, mapError_ok_iff, built]
  constructor
  · rintro ⟨_, rfl, rfl⟩
    rfl
  · rintro rfl
    exact ⟨_, rfl, rfl⟩

end

end Archive
