import Mathlib

-- An executable labelled transition function: the label carries every choice
-- the environment makes, and none means that the choice is not enabled.
namespace Transition

variable {State Label : Type}

def run (step : Label → State → Option State) : List Label → State → Option State
  | [], s => some s
  | label :: rest, s => (step label s).bind (run step rest)

def runWhere (step : Label → State → Option State) (allowed : State → Label → Bool) : List Label → State → Option State
  | [], s => some s
  | label :: rest, s => if allowed s label then (step label s).bind (runWhere step allowed rest) else none

-- The states that runs from init reach when each step, taken at a state s with
-- a label l, meets allowed s l.
inductive ReachableWhere (step : Label → State → Option State) (allowed : State → Label → Prop)
    (init : State → Prop) : State → Prop where
  | start (s : State) (initial : init s) : ReachableWhere step allowed init s
  | next (s s' : State) (label : Label) (reached : ReachableWhere step allowed init s)
      (admitted : allowed s label) (stepped : step label s = some s') : ReachableWhere step allowed init s'

def Reachable (step : Label → State → Option State) (init : State → Prop) : State → Prop :=
  ReachableWhere step (fun _ _ => True) init

section

variable {step : Label → State → Option State} {allowed : State → Label → Prop} {init : State → Prop}

theorem ReachableWhere.invariant (inv : State → Prop) (initial : ∀ s, init s → inv s)
    (preserved : ∀ s s' label, inv s → allowed s label → step label s = some s' → inv s')
    (s : State) (reached : ReachableWhere step allowed init s) : inv s := by
  induction reached with
  | start s here => exact initial s here
  | next s s' label _ admitted stepped held => exact preserved s s' label held admitted stepped

theorem ReachableWhere.reachable {s : State} (reached : ReachableWhere step allowed init s) : Reachable step init s := by
  induction reached with
  | start s here => exact .start s here
  | next s s' label _ _ stepped held => exact .next s s' label held trivial stepped

theorem Reachable.invariant (inv : State → Prop) (initial : ∀ s, init s → inv s)
    (preserved : ∀ s s' label, inv s → step label s = some s' → inv s') (s : State) (reached : Reachable step init s) : inv s :=
  ReachableWhere.invariant inv initial (fun s s' label held _ stepped => preserved s s' label held stepped) s reached

theorem Reachable.after (s s' : State) (label : Label) (reached : Reachable step init s)
    (stepped : step label s = some s') : Reachable step init s' :=
  .next s s' label reached trivial stepped

theorem Reachable.run (labels : List Label) : ∀ s s' : State, Reachable step init s →
    Transition.run step labels s = some s' → Reachable step init s' := by
  induction labels with
  | nil =>
    intro s s' reached ran
    cases ran
    exact reached
  | cons label rest ih =>
    intro s s' reached ran
    obtain ⟨middle, stepped, ran⟩ := Option.bind_eq_some_iff.mp ran
    exact ih middle s' (reached.after s middle label stepped) ran

theorem ReachableWhere.run (check : State → Label → Bool) (labels : List Label) : ∀ s s' : State,
    ReachableWhere step (fun s label => check s label = true) init s → runWhere step check labels s = some s' →
    ReachableWhere step (fun s label => check s label = true) init s' := by
  induction labels with
  | nil =>
    intro s s' reached ran
    cases ran
    exact reached
  | cons label rest ih =>
    intro s s' reached ran
    unfold runWhere at ran
    split at ran
    · rename_i passed
      obtain ⟨middle, stepped, ran⟩ := Option.bind_eq_some_iff.mp ran
      exact ih middle s' (.next s middle label reached passed stepped) ran
    · cases ran

theorem runWhere_eq_some {check : State → Label → Bool} {labels : List Label} : ∀ s s' : State,
    (runWhere step check labels s).isSome = true → Transition.run step labels s = some s' → runWhere step check labels s = some s' := by
  induction labels with
  | nil =>
    intro s s' _ ran
    exact ran
  | cons label rest ih =>
    intro s s' passes ran
    obtain ⟨middle, stepped, ran⟩ := Option.bind_eq_some_iff.mp ran
    simp only [runWhere, stepped, Option.bind_some] at passes ⊢
    split at passes
    · rename_i passed
      rw [if_pos passed]
      exact ih middle s' passes ran
    · cases passes

end

end Transition
