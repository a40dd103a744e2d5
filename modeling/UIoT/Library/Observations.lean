import UIoT.Library.Machine

/-!
# What machines show

A machine shows something at each step of a run.  Two machines that stay
related show the same along a run exactly if they agree at each of its steps.
-/

namespace Machine

universe u v w

variable {σ τ : Type u} {α : Type v} {β : Type w}

/-- What a machine shows at the steps of a run. -/
def seen (step : σ → α → σ) (look : σ → α → β) : σ → List α → List β
  | _, [] => []
  | state, label :: labels =>
      look state label :: seen step look (step state label) labels

/-- Related machines show the same along a run exactly if they agree at each
step of it. -/
theorem seen_eq_iff {step : σ → α → σ} {look : σ → α → β}
    {step' : τ → α → τ} {look' : τ → α → β} {agrees : τ → α → Prop}
    (related : σ → τ → Prop)
    (keeps : ∀ state state' label, related state state' →
      related (step state label) (step' state' label))
    (agree : ∀ state state' label, related state state' →
      (look state label = look' state' label ↔ agrees state' label))
    {start : σ} {start' : τ} (initially : related start start')
    (labels : List α) :
    seen step look start labels = seen step' look' start' labels ↔
      Along step' agrees start' labels := by
  induction labels generalizing start start' with
  | nil => exact iff_of_true rfl trivial
  | cons label labels inductionHypothesis =>
      rw [seen, seen, List.cons.injEq, Along.cons_iff,
        agree start start' label initially]
      exact and_congr_right fun _ =>
        inductionHypothesis (keeps start start' label initially)

end Machine
