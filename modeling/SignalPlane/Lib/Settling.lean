/-
SignalPlane.Lib.Settling — a loop that handles units of work until none is
left.

A pass takes a state to a state and handles some units. When a settled unit
stays settled, a pass handles no settled unit, and what it handled is settled
afterwards, then no unit is handled by two passes of a run.
-/
import Mathlib

namespace SignalPlane

/-- Passes under which the units that are handled settle. -/
structure Settling {σ υ : Type} (settled : υ → σ → Prop) (pass : σ → List υ → σ → Prop) : Prop where
  keeps : ∀ {s us s' u}, pass s us s' → settled u s → settled u s'
  unsettled : ∀ {s us s' u}, pass s us s' → u ∈ us → ¬ settled u s
  settles : ∀ {s us s' u}, pass s us s' → u ∈ us → settled u s'

/-- A run of passes with the units each of them handled. -/
inductive Passes {σ υ : Type} (pass : σ → List υ → σ → Prop) : σ → List (List υ) → σ → Prop where
  | nil (s : σ) : Passes pass s [] s
  | cons {s s₁ s' : σ} {us : List υ} {uss : List (List υ)} (h : pass s us s₁)
      (hrest : Passes pass s₁ uss s') : Passes pass s (us :: uss) s'

namespace Settling

variable {σ υ : Type} {settled : υ → σ → Prop} {pass : σ → List υ → σ → Prop}

/-- A settled unit is not handled again. -/
theorem not_handled (hp : Settling settled pass) {s s' : σ} {uss : List (List υ)} {u : υ}
    (h : Passes pass s uss s') (hu : settled u s) : ∀ us ∈ uss, u ∉ us := by
  induction h with
  | nil => exact fun us hus => absurd hus List.not_mem_nil
  | cons hpass _ ih =>
    intro us hus hmem
    rcases List.mem_cons.mp hus with rfl | hus
    · exact hp.unsettled hpass hmem hu
    · exact ih (hp.keeps hpass hu) us hus hmem

/-- No unit is handled by two passes of a run. -/
theorem pairwise_disjoint (hp : Settling settled pass) {s s' : σ} {uss : List (List υ)}
    (h : Passes pass s uss s') : uss.Pairwise List.Disjoint := by
  induction h with
  | nil => exact List.Pairwise.nil
  | cons hpass hrest ih =>
    refine List.pairwise_cons.mpr ⟨fun us hus u hu hu' => ?_, ih⟩
    exact hp.not_handled hrest (hp.settles hpass hu) us hus hu'

end Settling

end SignalPlane
