import Mathlib.Data.List.Basic

/-!
# Deterministic labelled machines

A machine is a step function on a state type; every choice of its environment
is in the label of the step.  A run folds the step function over a list of
labels.  Invariants of runs follow from one step lemma, and a property of the
single steps of a run is followed along the run by `Along`.
-/

namespace Machine

universe u v

variable {σ : Type u} {α : Type v}

/-- The state a run ends in. -/
def run (step : σ → α → σ) (start : σ) (labels : List α) : σ :=
  labels.foldl step start

@[simp] theorem run_nil (step : σ → α → σ) (start : σ) :
    run step start [] = start := rfl

@[simp] theorem run_cons
    (step : σ → α → σ) (start : σ) (label : α) (labels : List α) :
    run step start (label :: labels) = run step (step start label) labels := rfl

@[simp] theorem run_append
    (step : σ → α → σ) (start : σ) (first second : List α) :
    run step start (first ++ second) =
      run step (run step start first) second :=
  List.foldl_append

/-- Some run leads from the first state to the second. -/
def Reaches (step : σ → α → σ) (start finish : σ) : Prop :=
  ∃ labels, run step start labels = finish

namespace Reaches

variable {step : σ → α → σ}

/-- The empty run. -/
theorem refl (state : σ) : Reaches step state state := ⟨[], rfl⟩

/-- A run of one step. -/
theorem single (state : σ) (label : α) :
    Reaches step state (step state label) := ⟨[label], rfl⟩

/-- Runs compose. -/
theorem trans {first second third : σ}
    (left : Reaches step first second)
    (right : Reaches step second third) :
    Reaches step first third := by
  obtain ⟨leftLabels, rfl⟩ := left
  obtain ⟨rightLabels, rfl⟩ := right
  exact ⟨leftLabels ++ rightLabels, run_append ..⟩

/-- One more step. -/
theorem tail {first second : σ}
    (reaches : Reaches step first second) (label : α) :
    Reaches step first (step second label) :=
  reaches.trans (single second label)

end Reaches

/-- A property every step preserves holds at the end of every run. -/
theorem run_preserves
    {step : σ → α → σ} (invariant : σ → Prop)
    (preserved : ∀ state label, invariant state → invariant (step state label))
    {start : σ} (initially : invariant start) (labels : List α) :
    invariant (run step start labels) := by
  induction labels generalizing start with
  | nil => exact initially
  | cons label labels inductionHypothesis =>
      exact inductionHypothesis (preserved start label initially)

/-- Every step of a run satisfies the property, which sees the state the step
starts in and the label of the step. -/
def Along (step : σ → α → σ) (property : σ → α → Prop) : σ → List α → Prop
  | _, [] => True
  | state, label :: labels =>
      property state label ∧ Along step property (step state label) labels

namespace Along

variable {step : σ → α → σ} {property other : σ → α → Prop}

@[simp] theorem nil_iff (state : σ) :
    Along step property state [] ↔ True := Iff.rfl

@[simp] theorem cons_iff (state : σ) (label : α) (labels : List α) :
    Along step property state (label :: labels) ↔
      property state label ∧ Along step property (step state label) labels :=
  Iff.rfl

instance decidable (step : σ → α → σ) (property : σ → α → Prop)
    [∀ state label, Decidable (property state label)] :
    (state : σ) → (labels : List α) →
      Decidable (Along step property state labels)
  | _, [] => inferInstanceAs (Decidable True)
  | state, label :: labels =>
      have := decidable step property (step state label) labels
      inferInstanceAs (Decidable (property state label ∧ _))

/-- A run satisfies a property along its way exactly when both its parts do. -/
theorem append_iff (state : σ) (first second : List α) :
    Along step property state (first ++ second) ↔
      Along step property state first ∧
        Along step property (run step state first) second := by
  induction first generalizing state with
  | nil => simp
  | cons label labels inductionHypothesis =>
      simp [inductionHypothesis, and_assoc]

/-- Two properties that hold along a run hold along it together. -/
theorem and {start : σ} {labels : List α}
    (first : Along step property start labels)
    (second : Along step other start labels) :
    Along step (fun state label => property state label ∧ other state label)
      start labels := by
  induction labels generalizing start with
  | nil => trivial
  | cons label labels inductionHypothesis =>
      exact ⟨⟨first.1, second.1⟩, inductionHypothesis first.2 second.2⟩

/-- A state property that survives the steps satisfying `property` holds at
the end of every run that satisfies `property` along its way. -/
theorem run_preserves
    (invariant : σ → Prop)
    (preserved : ∀ state label,
      invariant state → property state label → invariant (step state label))
    {start : σ} (initially : invariant start) {labels : List α}
    (along : Along step property start labels) :
    invariant (run step start labels) := by
  induction labels generalizing start with
  | nil => exact initially
  | cons label labels inductionHypothesis =>
      exact inductionHypothesis
        (preserved start label initially along.1) along.2

/-- Two step properties hold along the same runs when they agree in every
state that satisfies an invariant, and the steps satisfying the first of them
keep the invariant. -/
theorem iff_of_invariant
    (invariant : σ → Prop)
    (agree : ∀ state label,
      invariant state → (property state label ↔ other state label))
    (preserved : ∀ state label,
      invariant state → property state label → invariant (step state label))
    {start : σ} (initially : invariant start) (labels : List α) :
    Along step property start labels ↔ Along step other start labels := by
  induction labels generalizing start with
  | nil => exact Iff.rfl
  | cons label labels inductionHypothesis =>
      rw [cons_iff, cons_iff, ← agree start label initially]
      exact and_congr_right fun holds =>
        inductionHypothesis (preserved start label initially holds)

/-- One half of `iff_of_invariant`: under an invariant that the steps
satisfying `property` keep, a consequence of `property` holds along too. -/
theorem imp_of_invariant
    (invariant : σ → Prop)
    (implies : ∀ state label,
      invariant state → property state label → other state label)
    (preserved : ∀ state label,
      invariant state → property state label → invariant (step state label))
    {start : σ} (initially : invariant start) {labels : List α}
    (along : Along step property start labels) :
    Along step other start labels := by
  induction labels generalizing start with
  | nil => trivial
  | cons label labels inductionHypothesis =>
      exact ⟨implies start label initially along.1,
        inductionHypothesis (preserved start label initially along.1) along.2⟩

/-- A state property holds in every state of a run exactly when it holds at the
start and after every step. -/
theorem forall_prefix_iff (good : σ → Prop) (start : σ) (labels : List α) :
    (∀ front, front <+: labels → good (run step start front)) ↔
      good start ∧
        Along step (fun state label => good (step state label)) start labels := by
  induction labels generalizing start with
  | nil => simp
  | cons label labels inductionHypothesis =>
      rw [cons_iff, ← inductionHypothesis (step start label)]
      constructor
      · intro all
        refine ⟨all [] List.nil_prefix, fun front isFront => ?_⟩
        exact all (label :: front) (List.cons_prefix_cons.mpr ⟨rfl, isFront⟩)
      · intro ⟨initially, rest⟩ front isFront
        cases front with
        | nil => exact initially
        | cons first front =>
            obtain ⟨rfl, isRest⟩ := List.cons_prefix_cons.mp isFront
            exact rest front isRest

end Along

end Machine
