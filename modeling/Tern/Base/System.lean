import Mathlib.Data.List.Forall2
import Mathlib.Data.List.Induction
import Mathlib.Order.Basic

/-! Runs of a system whose steps may be refused, with the rule that proves invariants of them. -/

namespace System

variable {σ α : Type*}

/-- The state after a list of actions, if every one of them can be taken. -/
def run (step : σ → α → Option σ) : σ → List α → Option σ
  | state, [] => some state
  | state, action :: rest => (step state action).bind fun next => run step next rest

/-- A run goes on from where its first action leads. -/
theorem run_cons {step : σ → α → Option σ} {state next : σ} {action : α} {rest : List α}
    (taken : step state action = some next) :
    run step state (action :: rest) = run step next rest := by
  rw [run, taken, Option.bind_some]

/-- A run over two lists of actions is a run over the second from where the first one led. -/
theorem run_append (step : σ → α → Option σ) (start : σ) (before after : List α) :
    run step start (before ++ after) = (run step start before).bind fun middle =>
      run step middle after := by
  -- A refused action ends both sides, and behind one that is taken both go on from its state.
  induction before generalizing start with
  | nil => rfl
  | cons action rest ih =>
    rw [List.cons_append, run, run, Option.bind_assoc]
    exact congrArg _ (funext ih)

/-- Every action of a run is taken in a state where the guard allows it. -/
def Meets (step : σ → α → Option σ) (guard : σ → α → Prop) : σ → List α → Prop
  | _, [] => True
  | state, action :: rest =>
    -- What follows is only asked of states the action really leads to.
    guard state action ∧ ∀ next, step state action = some next → Meets step guard next rest

/-- A run meets the guard when its first step does and the rest does from where it leads. -/
theorem Meets.cons {step : σ → α → Option σ} {guard : σ → α → Prop} {state next : σ} {action : α}
    {rest : List α} (allowed : guard state action) (taken : step state action = some next)
    (onward : Meets step guard next rest) : Meets step guard state (action :: rest) := by
  refine ⟨allowed, ?_⟩
  intro other reached
  -- A step leads to one state only.
  rw [taken, Option.some.injEq] at reached
  exact reached ▸ onward

/-- What is asked of the actions of a run in every state is met by the run. -/
theorem meets_of_mem {step : σ → α → Option σ} {guard : σ → α → Prop} {actions : List α}
    (allowed : ∀ state, ∀ action ∈ actions, guard state action) (start : σ) :
    Meets step guard start actions := by
  -- The guard is asked for in every state, so it does not matter where the run leads.
  induction actions generalizing start with
  | nil => trivial
  | cons action rest ih =>
    refine ⟨allowed start action List.mem_cons_self, fun next _ => ih ?_ next⟩
    exact fun state later member => allowed state later (List.mem_cons_of_mem _ member)

/-- What is asked of every action in every state is met by every run. -/
theorem meets_of_forall {step : σ → α → Option σ} {guard : σ → α → Prop}
    (allowed : ∀ state action, guard state action) (start : σ) (actions : List α) :
    Meets step guard start actions :=
  meets_of_mem (fun state action _ => allowed state action) start

/-- A run that meets the guard still does so from any state on the way. -/
theorem Meets.of_append {step : σ → α → Option σ} {guard : σ → α → Prop} {start middle : σ}
    {before after : List α} (meets : Meets step guard start (before ++ after))
    (reached : run step start before = some middle) : Meets step guard middle after := by
  -- The actions before the middle are taken one by one until that state is the start.
  induction before generalizing start with
  | nil =>
    cases reached
    exact meets
  | cons action rest ih =>
    obtain ⟨next, taken, reached⟩ := Option.bind_eq_some_iff.mp reached
    exact ih (meets.2 next taken) reached

/-- Two runs that meet the guard one after another meet it as one. -/
theorem Meets.append {step : σ → α → Option σ} {guard : σ → α → Prop} {start middle : σ}
    {before after : List α} (meets : Meets step guard start before)
    (reached : run step start before = some middle) (onward : Meets step guard middle after) :
    Meets step guard start (before ++ after) := by
  -- The first run is followed to its end, and there the second one takes over.
  induction before generalizing start with
  | nil =>
    cases reached
    exact onward
  | cons action rest ih =>
    obtain ⟨next, taken, reached⟩ := Option.bind_eq_some_iff.mp reached
    exact .cons meets.1 taken (ih (meets.2 next taken) reached)

/-- The first part of a run that meets the guard meets it too. -/
theorem Meets.left {step : σ → α → Option σ} {guard : σ → α → Prop} {start : σ}
    {before after : List α} (meets : Meets step guard start (before ++ after)) :
    Meets step guard start before := by
  induction before generalizing start with
  | nil => trivial
  | cons action rest ih => exact ⟨meets.1, fun next taken => ih (meets.2 next taken)⟩

/-- What every allowed step preserves holds after every run of allowed steps. -/
theorem run_invariant {step : σ → α → Option σ} {guard : σ → α → Prop} {invariant : σ → Prop}
    (preserved : ∀ {state next : σ} {action : α}, guard state action → invariant state →
      step state action = some next → invariant next)
    {start final : σ} {actions : List α} (meets : Meets step guard start actions)
    (initial : invariant start) (ran : run step start actions = some final) :
    invariant final := by
  -- The induction is on the actions, and the start moves along with them.
  induction actions generalizing start with
  | nil =>
    cases ran
    exact initial
  | cons action rest ih =>
    obtain ⟨allowed, onward⟩ := meets
    obtain ⟨next, taken, ran⟩ := Option.bind_eq_some_iff.mp ran
    exact ih (onward next taken) (preserved allowed initial taken) ran

/-- What every step preserves holds after every run. -/
theorem run_preserves {step : σ → α → Option σ} {invariant : σ → Prop}
    (preserved : ∀ {state next : σ} {action : α}, invariant state →
      step state action = some next → invariant next)
    {start final : σ} {actions : List α} (initial : invariant start)
    (ran : run step start actions = some final) : invariant final := by
  -- The induction is on the actions, with the state the run goes on from left open.
  induction actions generalizing start with
  | nil =>
    cases ran
    exact initial
  | cons action rest ih =>
    obtain ⟨next, taken, ran⟩ := Option.bind_eq_some_iff.mp ran
    exact ih (preserved initial taken) ran

/-- What holds of a state and the actions that led to it holds at the end of a run. -/
theorem run_history {step : σ → α → Option σ} {invariant : List α → σ → Prop}
    {start final : σ} {actions : List α} (initial : invariant [] start)
    (preserved : ∀ {before : List α} {action : α} {state next : σ}, action ∈ actions →
      run step start before = some state → invariant before state →
        step state action = some next → invariant (before ++ [action]) next)
    (ran : run step start actions = some final) : invariant actions final := by
  -- The induction takes the last action off, so that the history before it stays whole.
  induction actions using List.reverseRecOn generalizing final with
  | nil =>
    cases ran
    exact initial
  | append_singleton before action ih =>
    rw [run_append, Option.bind_eq_some_iff] at ran
    obtain ⟨state, reached, ran⟩ := ran
    obtain ⟨next, taken, last⟩ := Option.bind_eq_some_iff.mp ran
    cases last
    refine preserved (by simp) reached ?_ taken
    exact ih (fun member => preserved (List.mem_append_left _ member)) reached

/-- A property holds in every state along a run, the first and the last one included. -/
def Throughout (step : σ → α → Option σ) (holds : σ → Prop) : σ → List α → Prop
  | state, [] => holds state
  | state, action :: rest =>
    holds state ∧ ∀ next, step state action = some next → Throughout step holds next rest

/-- What holds throughout a run holds where it ends. -/
theorem Throughout.final {step : σ → α → Option σ} {holds : σ → Prop} {start final : σ}
    {actions : List α} (throughout : Throughout step holds start actions)
    (ran : run step start actions = some final) : holds final := by
  -- What holds throughout holds of the last state like of all the others.
  induction actions generalizing start with
  | nil =>
    cases ran
    exact throughout
  | cons action rest ih =>
    obtain ⟨next, taken, ran⟩ := Option.bind_eq_some_iff.mp ran
    exact ih (throughout.2 next taken) ran

/-- What every allowed step preserves holds throughout every run of allowed steps. -/
theorem throughout_of_meets {step : σ → α → Option σ} {guard : σ → α → Prop}
    {invariant holds : σ → Prop} (safe : ∀ {state : σ}, invariant state → holds state)
    (kept : ∀ {state next : σ} {action : α}, invariant state → step state action = some next →
      guard state action → invariant next)
    {start : σ} {actions : List α} (initial : invariant start)
    (meets : Meets step guard start actions) : Throughout step holds start actions := by
  -- The invariant is carried from step to step, and gives what is wanted at each state.
  induction actions generalizing start with
  | nil => exact safe initial
  | cons action rest ih =>
    refine ⟨safe initial, ?_⟩
    intro next taken
    exact ih (kept initial taken meets.1) (meets.2 next taken)

/--
A property holds throughout exactly the guarded runs
when a guarded step keeps an invariant behind it and any other step breaks it at once.
-/
theorem throughout_iff_meets {step : σ → α → Option σ} {guard : σ → α → Prop}
    {invariant holds : σ → Prop} (safe : ∀ {state : σ}, invariant state → holds state)
    (kept : ∀ {state next : σ} {action : α}, invariant state → step state action = some next →
      guard state action → invariant next)
    (broken : ∀ {state next : σ} {action : α}, invariant state → step state action = some next →
      ¬guard state action → ¬holds next)
    (refused : ∀ {state : σ} {action : α}, step state action = none → guard state action)
    {start : σ} {actions : List α} (initial : invariant start) :
    Throughout step holds start actions ↔ Meets step guard start actions := by
  induction actions generalizing start with
  | nil => exact iff_of_true (safe initial) trivial
  | cons action rest ih =>
    rw [Throughout, Meets, and_iff_right (safe initial)]
    cases taken : step start action with
    | none =>
      -- Nothing is reached, so the guard has to hold of itself.
      simp [refused taken]
    | some next =>
      simp only [Option.some.injEq, forall_eq']
      -- The guard decides whether the property reaches the next state, and the rest follows.
      by_cases allowed : guard start action
      · rw [ih (kept initial taken allowed), and_iff_right allowed]
      · refine iff_of_false ?_ (fun both => allowed both.1)
        intro onward
        apply broken initial taken allowed
        cases rest with
        | nil => exact onward
        | cons _ _ => exact onward.1

/--
A run over related actions, from the image of a state, leads to the image of where the run leads,
when one step over a related action does.
-/
theorem run_image {τ β : Type*} {step : σ → α → Option σ} {other : τ → β → Option τ}
    {image : σ → τ} {related : α → β → Prop}
    (steps : ∀ {state : σ} {action : α} {counterpart : β}, related action counterpart →
      other (image state) counterpart = (step state action).map image)
    {actions : List α} {counterparts : List β} (alike : List.Forall₂ related actions counterparts)
    (start : σ) : run other (image start) counterparts = (run step start actions).map image := by
  -- The two lists are walked together, and a refusal stops both runs.
  induction alike generalizing start with
  | nil => rfl
  | cons first _ ih =>
    rw [run, run, steps first]
    cases step start _ with
    | none => rfl
    | some next => exact ih next

/-- The state reached when actions are taken one after another up to the first that is refused. -/
def runWhile (step : σ → α → Option σ) : σ → List α → σ
  | state, [] => state
  | state, action :: rest =>
    match step state action with
    | none => state
    | some next => runWhile step next rest

/-- When nothing is refused, the state that is reached is that of the whole run. -/
theorem runWhile_of_run {step : σ → α → Option σ} {start final : σ} {actions : List α}
    (ran : run step start actions = some final) : runWhile step start actions = final := by
  -- No action is refused, so the run that stops at a refusal never stops.
  induction actions generalizing start with
  | nil =>
    cases ran
    rfl
  | cons action rest ih =>
    obtain ⟨next, taken, ran⟩ := Option.bind_eq_some_iff.mp ran
    rw [runWhile, taken]
    exact ih ran

/-- Behind actions that are all taken, the rest goes on from where they lead. -/
theorem runWhile_append {step : σ → α → Option σ} {start middle : σ} {first rest : List α}
    (ran : run step start first = some middle) :
    runWhile step start (first ++ rest) = runWhile step middle rest := by
  -- The first actions are all taken, and the run that stops at a refusal has not stopped yet.
  induction first generalizing start with
  | nil =>
    cases ran
    rfl
  | cons action others ih =>
    obtain ⟨next, taken, onward⟩ := Option.bind_eq_some_iff.mp ran
    rw [List.cons_append, runWhile, taken]
    exact ih onward

/-- What comes behind an action that is not reached or not taken changes nothing. -/
theorem runWhile_of_refused {step : σ → α → Option σ} {start : σ} {first rest : List α} {action : α}
    (refused : run step start (first ++ [action]) = none) :
    runWhile step start (first ++ action :: rest) = runWhile step start first := by
  -- The run stops at the refused action, or has stopped before it.
  induction first generalizing start with
  | nil =>
    rw [List.nil_append, runWhile, runWhile]
    cases taken : step start action with
    | none => rfl
    | some next =>
      rw [List.nil_append, run, taken] at refused
      cases refused
  | cons head others ih =>
    rw [List.cons_append, runWhile, runWhile]
    cases taken : step start head with
    | none => rfl
    | some next =>
      rw [List.cons_append, run_cons taken] at refused
      exact ih refused

/-- What every allowed step preserves holds wherever the first refusal stops. -/
theorem runWhile_invariant {step : σ → α → Option σ} {guard : σ → α → Prop} (invariant : σ → Prop)
    (preserved : ∀ {state next : σ} {action : α}, guard state action → invariant state →
      step state action = some next → invariant next)
    {start : σ} {actions : List α} (meets : Meets step guard start actions)
    (initial : invariant start) : invariant (runWhile step start actions) := by
  induction actions generalizing start with
  | nil => exact initial
  | cons action rest ih =>
    obtain ⟨allowed, onward⟩ := meets
    rw [runWhile]
    -- A refused action leaves the state that was reached so far.
    cases taken : step start action with
    | none => exact initial
    | some next => exact ih (onward next taken) (preserved allowed initial taken)

end System
