import StromDB.Domain.Seal

namespace StromDB

inductive GenesisEstablishment where
  | established
  | lostRace
  | unresolved
deriving DecidableEq, Repr

inductive TypedStoreError where
  | retryable (detail : String)
  | rejected (detail : String)
  | contradiction (detail : String)
deriving DecidableEq, Repr

inductive WalEstablishment where
  | durable
  | occupied
  | unresolvedAbsent
deriving DecidableEq, Repr

inductive SealPublication where
  | authored
  | noAuthority
  | unresolved
deriving DecidableEq, Repr

def SealGeneration.debug (generation : SealGeneration) : String := "SealGeneration(" ++ toString generation.get ++ ")"

def BatchId.debug (batch : BatchId) : String := "BatchId(" ++ toString batch.get ++ ")"

def OwnerToken.debug (owner : OwnerToken) : String := "OwnerToken(" ++ owner.generation.debug ++ ")"

inductive TakeoverFenceError where
  | noRunCoordinate
  | notAfterCut
  | spanExceeded (span : Nat)
deriving DecidableEq, Repr

structure TakeoverFence where
  batch : BatchId
  room : batch.get + 1 < 2 ^ 64
deriving DecidableEq, Repr

def spanThrough (cut : Option BatchId) (head : BatchId) : Option Nat :=
  let start := match cut with
    | none => 0
    | some batch => batch.get
  if start ≤ head.get then some (head.get - start) else none

def runLeavesTakeoverRoom (cut : Option BatchId) (run : BatchId) : Bool :=
  match run.successor with
  | .error _ => false
  | .ok fence =>
    match spanThrough cut fence with
    | none => false
    | some span => span > 1 && span ≤ WAL_SUFFIX_COORDINATES_MAX_V2

theorem BatchId.successor_room (batch next : BatchId) (found : batch.successor = .ok next) : batch.get + 1 < 2 ^ 64 :=
  BatchId.successor_ok_iff.mp found ▸ next.bounded

def boundTakeoverFence (cut : Option BatchId) (fence : BatchId) : Except TakeoverFenceError TakeoverFence :=
  match found : fence.successor with
  | .error _ => .error .noRunCoordinate
  | .ok later =>
    match (spanThrough cut fence).filter (0 < ·) with
    | none => .error .notAfterCut
    | some span =>
      if span > WAL_SUFFIX_COORDINATES_MAX_V2 then .error (.spanExceeded span) else .ok ⟨fence, fence.successor_room later found⟩

def cutNumber : Option BatchId → Nat
  | none => 0
  | some batch => batch.get

theorem cutNumber_batch (replay : WalReplayPoint) : cutNumber replay.batch = replay.cut := by
  cases replay <;> rfl

theorem spanThrough_eq_some_iff (cut : Option BatchId) (head : BatchId) (span : Nat) :
    spanThrough cut head = some span ↔ cutNumber cut + span = head.get := by
  cases cut with
  | none | some batch =>
    simp only [spanThrough, cutNumber]
    split <;> simp <;> omega

theorem boundTakeoverFence_ok_iff {cut : Option BatchId} {fence : BatchId} {result : TakeoverFence} :
    boundTakeoverFence cut fence = .ok result ↔ result.batch = fence ∧ fence.get < 2 ^ 64 - 1 ∧
      cutNumber cut < fence.get ∧ fence.get ≤ cutNumber cut + WAL_SUFFIX_COORDINATES_MAX_V2 := by
  obtain ⟨batch, room⟩ := result
  unfold boundTakeoverFence
  split
  case h_1 exhausted found =>
    have last := (BatchId.successor_error_iff _ _).mp found
    simp only [reduceCtorEq, false_iff]
    omega
  case h_2 later found =>
    have limit := fence.successor_room later found
    cases spanned : spanThrough cut fence with
    | none =>
      have missing : ¬ cutNumber cut < fence.get := by
        intro above
        have here := (spanThrough_eq_some_iff cut fence (fence.get - cutNumber cut)).mpr (by omega)
        rw [spanned] at here
        cases here
      simp [missing]
    | some span =>
      have total := (spanThrough_eq_some_iff _ _ _).mp spanned
      by_cases positive : 0 < span
      · rw [Option.filter_some_pos (by simpa using positive)]
        simp only
        split
        · simp only [reduceCtorEq, false_iff]
          omega
        · simp only [Except.ok.injEq, TakeoverFence.mk.injEq, eq_comm (a := fence)]
          constructor
          · intro same
            exact ⟨same, by omega, by omega, by omega⟩
          · intro facts
            exact facts.1
      · rw [Option.filter_some_neg (by simpa using positive)]
        simp only [reduceCtorEq, false_iff]
        omega

theorem boundTakeoverFence_after {cut : Option BatchId} {fence : BatchId} (above : cutNumber cut < fence.get) :
    boundTakeoverFence cut fence ≠ .error .notAfterCut := by
  have spanned := (spanThrough_eq_some_iff cut fence (fence.get - cutNumber cut)).mpr (by omega)
  have positive : 0 < fence.get - cutNumber cut := by omega
  unfold boundTakeoverFence
  split
  · simp
  · rw [spanned, Option.filter_some_pos (by simpa using positive)]
    simp only
    split <;> simp

theorem runLeavesTakeoverRoom_iff (cut : Option BatchId) (run : BatchId) :
    runLeavesTakeoverRoom cut run = true ↔ run.get + 1 < 2 ^ 64 ∧ cutNumber cut < run.get ∧
      run.get + 1 ≤ cutNumber cut + WAL_SUFFIX_COORDINATES_MAX_V2 := by
  unfold runLeavesTakeoverRoom
  cases next : run.successor with
  | error exhausted =>
    have last := (BatchId.successor_error_iff _ _).mp next
    simp only [Bool.false_eq_true, false_iff]
    omega
  | ok fence =>
    have room := BatchId.successor_ok_iff.mp next
    have limit := fence.bounded
    cases found : spanThrough cut fence with
    | none =>
      have missing : ¬ cutNumber cut ≤ fence.get := by
        intro above
        have spanned := (spanThrough_eq_some_iff cut fence (fence.get - cutNumber cut)).mpr (by omega)
        rw [found] at spanned
        cases spanned
      simp only [found, Bool.false_eq_true, false_iff]
      omega
    | some span =>
      have total := (spanThrough_eq_some_iff _ _ _).mp found
      simp only [found, Bool.and_eq_true, decide_eq_true_eq]
      omega

end StromDB
