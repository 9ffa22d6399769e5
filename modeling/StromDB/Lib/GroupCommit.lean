import Mathlib

-- The books of a group commit. A verdict is answered at once or waits in a
-- barrier, with the fact that it adds if it adds one. The barrier is issued as
-- one object, and its verdicts are answered when the object lands.
namespace GroupCommit

variable {Verdict Fact Object : Type}

structure Ledger (Verdict Fact Object : Type) where
  verdicts : List Verdict
  facts : List Fact
  issued : List Object
  landed : List Object
  released : List Verdict
  flying : List Verdict
  pending : List (Option Fact × Verdict)

namespace Ledger

def waiting (ledger : Ledger Verdict Fact Object) : List Verdict := ledger.pending.map Prod.snd

def queued (ledger : Ledger Verdict Fact Object) : List Fact := ledger.pending.filterMap Prod.fst

def owed (ledger : Ledger Verdict Fact Object) : List Verdict := ledger.flying ++ ledger.waiting

end Ledger

-- A success is answered at once only when nothing is owed before it, and only
-- successes wait.
inductive Step (succeeds : Verdict → Bool) (factsOf : Object → List Fact) (ledger : Ledger Verdict Fact Object) :
    Ledger Verdict Fact Object → Prop where
  | still : Step succeeds factsOf ledger ledger
  | answer (verdict : Verdict) (prompt : succeeds verdict = true → ledger.flying = [] ∧ ledger.pending = []) :
      Step succeeds factsOf ledger
        { ledger with verdicts := ledger.verdicts ++ [verdict], released := ledger.released ++ [verdict] }
  | join (fact : Option Fact) (verdict : Verdict) (success : succeeds verdict = true) :
      Step succeeds factsOf ledger
        { ledger with
          verdicts := ledger.verdicts ++ [verdict]
          facts := ledger.facts ++ fact.toList
          pending := ledger.pending ++ [(fact, verdict)] }
  | issue (object : Object) (down : ledger.flying = []) (carries : factsOf object = ledger.queued) :
      Step succeeds factsOf ledger
        { ledger with issued := ledger.issued ++ [object], flying := ledger.waiting, pending := [] }
  | land (landed : List Object) :
      Step succeeds factsOf ledger { ledger with landed, released := ledger.released ++ ledger.flying, flying := [] }
  | release (down : ledger.flying = []) (bare : ledger.queued = []) :
      Step succeeds factsOf ledger { ledger with released := ledger.released ++ ledger.waiting, pending := [] }

structure Balanced (succeeds : Verdict → Bool) (factsOf : Object → List Fact) (ledger : Ledger Verdict Fact Object) : Prop where
  facts : ledger.issued.flatMap factsOf ++ ledger.queued = ledger.facts
  kept : (ledger.released ++ ledger.owed).Perm ledger.verdicts
  ordered : (ledger.released ++ ledger.owed).filter succeeds = ledger.verdicts.filter succeeds
  waits : ∀ verdict ∈ ledger.owed, succeeds verdict = true

section

variable {succeeds : Verdict → Bool} {factsOf : Object → List Fact} {ledger later : Ledger Verdict Fact Object}

theorem Step.of_eq {next : Ledger Verdict Fact Object} (step : Step succeeds factsOf ledger next) (same : later = next) :
    Step succeeds factsOf ledger later := by
  rw [same]
  exact step

theorem Balanced.empty : Balanced succeeds factsOf (⟨[], [], [], [], [], [], []⟩ : Ledger Verdict Fact Object) :=
  ⟨rfl, List.Perm.refl _, rfl, by simp [Ledger.owed, Ledger.waiting]⟩

theorem Balanced.step (known : Balanced succeeds factsOf ledger) (step : Step succeeds factsOf ledger later) :
    Balanced succeeds factsOf later := by
  have facts := known.facts
  have kept := known.kept
  have ordered := known.ordered
  have waits := known.waits
  cases step with
  | still => exact known
  | answer verdict prompt =>
    refine ⟨facts, ?_, ?_, waits⟩
    · have moved : (ledger.released ++ [verdict] ++ ledger.owed).Perm (ledger.released ++ ledger.owed ++ [verdict]) := by
        rw [List.append_assoc, List.append_assoc]
        exact List.Perm.append_left _ List.perm_append_comm
      exact moved.trans (kept.append_right _)
    · change (ledger.released ++ [verdict] ++ ledger.owed).filter succeeds = (ledger.verdicts ++ [verdict]).filter succeeds
      rw [List.filter_append ledger.verdicts, ← ordered]
      cases success : succeeds verdict with
      | false => simp [success]
      | true =>
        obtain ⟨flying, pending⟩ := prompt success
        simp [Ledger.owed, Ledger.waiting, flying, pending]
  | join fact verdict success =>
    have owed : { ledger with
        verdicts := ledger.verdicts ++ [verdict]
        facts := ledger.facts ++ fact.toList
        pending := ledger.pending ++ [(fact, verdict)] }.owed = ledger.owed ++ [verdict] := by
      simp [Ledger.owed, Ledger.waiting]
    refine ⟨?_, ?_, ?_, ?_⟩
    · rw [← facts]
      cases fact <;> simp [Ledger.queued]
    · rw [owed, ← List.append_assoc]
      exact kept.append_right _
    · rw [owed, ← List.append_assoc]
      rw [List.filter_append, ordered, List.filter_append]
    · rw [owed]
      intro other member
      rcases List.mem_append.mp member with earlier | last
      · exact waits other earlier
      · rw [List.mem_singleton.mp last]
        exact success
  | issue object down carries =>
    refine ⟨?_, ?_, ?_, ?_⟩
    · simpa [Ledger.queued, carries] using facts
    · simpa [Ledger.owed, Ledger.waiting, down] using kept
    · simpa [Ledger.owed, Ledger.waiting, down] using ordered
    · simpa [Ledger.owed, Ledger.waiting, down] using waits
  | land landed =>
    refine ⟨facts, ?_, ?_, fun verdict member => waits verdict (List.mem_append_right _ member)⟩
    · simpa [Ledger.owed, Ledger.waiting] using kept
    · simpa [Ledger.owed, Ledger.waiting] using ordered
  | release down bare =>
    refine ⟨?_, ?_, ?_, ?_⟩
    · rw [bare] at facts
      exact facts
    · simpa [Ledger.owed, Ledger.waiting, down] using kept
    · simpa [Ledger.owed, Ledger.waiting, down] using ordered
    · simp [Ledger.owed, Ledger.waiting, down]

theorem Balanced.released_prefix (known : Balanced succeeds factsOf ledger) :
    ledger.released.filter succeeds <+: ledger.verdicts.filter succeeds := by
  rw [← known.ordered, List.filter_append]
  exact List.prefix_append _ _

end

end GroupCommit
