/-
SignalPlane.Lib.SingleFlight — items served one at a time, in order.

A queue gives every item a stage (absent, waiting, in flight, done) and a
rank in a linear order, different for different items. Serving moves one item
forward; it may put a waiting item in flight only when no active item is
ahead of it. A new item arrives behind every item that is already there.

`Ordered` is the invariant: an item in flight is strictly ahead of every other
active item. It is kept by every step, and it leaves room for one item in
flight only (`Ordered.atMostOne`). Nothing else enforces the exclusion: there
is no lock, only the order in which items are picked.
-/
import Mathlib

namespace SignalPlane

/-- The stages of an item that is served once. -/
inductive Stage where
  | absent | waiting | inFlight | done
  deriving DecidableEq, Repr

namespace Stage

/-- How far an item has come. -/
def index : Stage → Nat
  | absent => 0
  | waiting => 1
  | inFlight => 2
  | done => 3

/-- An item that is waiting or in flight. -/
def active (p : Stage) : Prop := p = waiting ∨ p = inFlight

theorem active_of_index_le {p p' : Stage} (h : p.index ≤ p'.index) (hp : p ≠ absent)
    (h' : p'.active) : p.active := by
  cases p <;> cases p' <;> simp_all [index, active]

end Stage

/-- Items with a stage and a rank of their own. -/
structure Line (ι α : Type) where
  stage : ι → Stage
  rank : ι → α
  rank_injective : Function.Injective rank

namespace Line

variable {ι α : Type} [LinearOrder α]

/-- No active item is ahead of `i`. -/
def First (q : Line ι α) (i : ι) : Prop := ∀ j, (q.stage j).active → q.rank i ≤ q.rank j

/-- An item in flight is ahead of every other active item. -/
def Ordered (q : Line ι α) : Prop :=
  ∀ i j, q.stage i = .inFlight → (q.stage j).active → j ≠ i → q.rank i < q.rank j

/-- One step: an item is served, or a new one arrives. -/
inductive Step (q q' : Line ι α) : Prop where
  /-- Item `i` moves forward; it is launched only from the front of the line. -/
  | serve (i : ι) (hothers : ∀ j, j ≠ i → q'.stage j = q.stage j)
      (hrank : ∀ j, (q.stage j).active → q'.rank j = q.rank j)
      (hpresent : q.stage i ≠ .absent) (hforward : (q.stage i).index ≤ (q'.stage i).index)
      (hfirst : q.stage i = .waiting → q'.stage i = .inFlight → q.First i)
  /-- Item `i` arrives behind every other item. -/
  | arrive (i : ι) (hothers : ∀ j, j ≠ i → q'.stage j = q.stage j)
      (hrank : ∀ j, (q.stage j).active → q'.rank j = q.rank j)
      (hnew : q.stage i = .absent) (hwaiting : q'.stage i = .waiting)
      (hlast : ∀ j, (q.stage j).active → q'.rank j < q'.rank i)

/-- Every step keeps the order. -/
theorem Ordered.step {q q' : Line ι α} (h : q.Ordered) (hs : Step q q') : q'.Ordered := by
  intro a b ha hb hne
  cases hs with
  | serve i hothers hrank hpresent hforward hfirst =>
    -- Both items were active before the step: no stage goes back.
    have active : ∀ j, (q'.stage j).active → (q.stage j).active := by
      intro j hj
      by_cases hji : j = i
      · subst hji; exact Stage.active_of_index_le hforward hpresent hj
      · rwa [hothers j hji] at hj
    have hb' := active b hb
    have ha' := active a (.inr ha)
    rw [hrank a ha', hrank b hb']
    by_cases hai : a = i
    · subst hai
      rcases ha' with hw | hf
      · have hle := hfirst hw ha b hb'
        exact lt_of_le_of_ne hle fun he => hne (q.rank_injective he).symm
      · exact h a b hf hb' hne
    · rw [hothers a hai] at ha
      exact h a b ha hb' hne
  | arrive i hothers hrank hnew hwaiting hlast =>
    have hai : a ≠ i := by
      rintro rfl
      rw [hwaiting] at ha
      cases ha
    rw [hothers a hai] at ha
    by_cases hbi : b = i
    · subst hbi
      exact hlast a (.inr ha)
    · rw [hothers b hbi] at hb
      rw [hrank a (.inr ha), hrank b hb]
      exact h a b ha hb hne

/-- At most one item is in flight. -/
theorem Ordered.atMostOne {q : Line ι α} (h : q.Ordered) {i j : ι} (hi : q.stage i = .inFlight)
    (hj : q.stage j = .inFlight) : i = j := by
  by_contra hne
  have h1 := h i j hi (.inr hj) (Ne.symm hne)
  have h2 := h j i hj (.inr hi) hne
  exact lt_asymm h1 h2

end Line

end SignalPlane
