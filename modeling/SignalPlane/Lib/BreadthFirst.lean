/-
SignalPlane.Lib.BreadthFirst — what a breadth-first search with a depth bound
has covered.

The search takes an item from the front of its queue and appends what follows
from it, one level deeper, unless that is there already or the item is at the
bound. `Frontier` relates the items that were taken (`done`) to those that are
left: depths grow along the two lists, the queue spans at most two levels, and
what follows from an item above the bound is there at most one level below it.

That the level is right is what a bound needs: an item that was first found
deeper than necessary would be cut off too early (`Frontier.take` is where the
order of the queue rules this out). What was taken, and what is taken next, is at
its distance from the start (`Frontier.least`), and when the queue is empty,
everything within the bound was taken (`Frontier.complete`).
-/
import Mathlib

namespace SignalPlane

namespace BreadthFirst

variable {ι α : Type}

/-- `n` steps lead from `v` to `w`. -/
inductive Steps (next : α → List α) : Nat → α → α → Prop
  | zero (v : α) : Steps next 0 v v
  | succ {n : Nat} {v u w : α} (h : Steps next n v u) (hw : w ∈ next u) : Steps next (n + 1) v w

/-- `done` was taken from the queue, and `queue` is left. -/
structure Frontier (value : ι → α) (depth : ι → Nat) (next : α → List α) (bound : Nat)
    (start : List α) (done queue : List ι) : Prop where
  sorted : (done ++ queue).Pairwise fun x y => depth x ≤ depth y
  near : ∀ c ∈ queue.head?, ∀ x ∈ queue, depth x ≤ depth c + 1
  closed : ∀ x ∈ done, depth x < bound → ∀ w ∈ next (value x),
    ∃ y ∈ done ++ queue, value y = w ∧ depth y ≤ depth x + 1
  distinct : ((done ++ queue).map value).Nodup
  started : ∀ v ∈ start, ∃ y ∈ done ++ queue, value y = v ∧ depth y = 0
  reached : ∀ x ∈ done ++ queue, ∃ v ∈ start, Steps next (depth x) v (value x)
  shallow : ∀ x ∈ done ++ queue, depth x ≤ bound

section Frontier

variable {value : ι → α} {depth : ι → Nat} {next : α → List α} {bound : Nat} {start : List α}
  {done queue : List ι}

/-- A search starts with items of one level. -/
theorem Frontier.initial (hdepth : ∀ x ∈ queue, depth x = 0) (hdistinct : (queue.map value).Nodup)
    (hstarted : ∀ v ∈ start, v ∈ queue.map value) (hreached : ∀ x ∈ queue, value x ∈ start) :
    Frontier value depth next bound start [] queue where
  sorted := by
    rw [List.nil_append]
    exact List.pairwise_of_forall_mem_list fun x hx y _ => by rw [hdepth x hx]; exact Nat.zero_le _
  near := fun _ _ x hx => by rw [hdepth x hx]; exact Nat.zero_le _
  closed := fun _ hx => (by cases hx)
  distinct := hdistinct
  started := fun v hv => by
    obtain ⟨x, hx, hvalue⟩ := List.mem_map.mp (hstarted v hv)
    exact ⟨x, hx, hvalue, hdepth x hx⟩
  reached := fun x hx => ⟨value x, hreached x hx, by rw [hdepth x hx]; exact .zero _⟩
  shallow := fun x hx => by rw [hdepth x hx]; exact Nat.zero_le _

/-- The first item is taken, and what is new goes to the end. -/
theorem Frontier.take {c : ι} {new : List ι}
    (h : Frontier value depth next bound start done (c :: queue))
    (hnew : ∀ x ∈ new, depth x = depth c + 1 ∧ depth c < bound ∧ value x ∈ next (value c))
    (hdistinct : ((done ++ c :: queue ++ new).map value).Nodup)
    (hcover : depth c < bound → ∀ w ∈ next (value c),
      ∃ y ∈ done ++ c :: queue ++ new, value y = w) :
    Frontier value depth next bound start (done ++ [c]) (queue ++ new) := by
  have hall : done ++ [c] ++ (queue ++ new) = done ++ c :: queue ++ new := by simp
  have hsorted := List.pairwise_append.mp h.sorted
  have hqueue := List.pairwise_cons.mp hsorted.2.1
  -- Nothing that is there so far is deeper than what is new.
  have hdepth : ∀ x ∈ done ++ c :: queue, depth x ≤ depth c + 1 := by
    intro x hx
    rcases List.mem_append.mp hx with hx | hx
    · exact (hsorted.2.2 x hx c List.mem_cons_self).trans (Nat.le_succ _)
    · exact h.near c rfl x hx
  constructor
  case sorted =>
    rw [hall]
    refine List.pairwise_append.mpr ⟨h.sorted, ?_, fun x hx y hy => ?_⟩
    · exact List.pairwise_of_forall_mem_list fun x hx y hy => by
        rw [(hnew x hx).1, (hnew y hy).1]
    · rw [(hnew y hy).1]
      exact hdepth x hx
  case near =>
    intro c' hc' x hx
    have hc : depth c ≤ depth c' := by
      rcases List.mem_append.mp (List.mem_of_mem_head? hc') with hmem | hmem
      · exact hqueue.1 c' hmem
      · rw [(hnew c' hmem).1]
        exact Nat.le_succ _
    rcases List.mem_append.mp hx with hx | hx
    · have := hdepth x (List.mem_append_right _ (List.mem_cons_of_mem _ hx))
      omega
    · rw [(hnew x hx).1]
      omega
  case closed =>
    intro x hx hbound w hw
    rw [hall]
    rcases List.mem_append.mp hx with hx | hx
    · obtain ⟨y, hy, hvalue, hlevel⟩ := h.closed x hx hbound w hw
      exact ⟨y, List.mem_append_left _ hy, hvalue, hlevel⟩
    · obtain rfl := List.mem_singleton.mp hx
      obtain ⟨y, hy, hvalue⟩ := hcover hbound w hw
      refine ⟨y, hy, hvalue, ?_⟩
      rcases List.mem_append.mp hy with hy | hy
      · exact hdepth y hy
      · rw [(hnew y hy).1]
  case distinct => rwa [hall]
  case started =>
    intro v hv
    obtain ⟨y, hy, hvalue⟩ := h.started v hv
    exact ⟨y, by rw [hall]; exact List.mem_append_left _ hy, hvalue⟩
  case reached =>
    intro x hx
    rw [hall] at hx
    rcases List.mem_append.mp hx with hx | hx
    · exact h.reached x hx
    · obtain ⟨v, hv, hsteps⟩ := h.reached c (by simp)
      rw [(hnew x hx).1]
      exact ⟨v, hv, hsteps.succ (hnew x hx).2.2⟩
  case shallow =>
    intro x hx
    rw [hall] at hx
    rcases List.mem_append.mp hx with hx | hx
    · exact h.shallow x hx
    · rw [(hnew x hx).1]
      exact (hnew x hx).2.1

/-- What is no further away than anything in the queue is there, and not too deep. -/
theorem Frontier.found (h : Frontier value depth next bound start done queue) {n : Nat} {v w : α}
    (hsteps : Steps next n v w) (hv : v ∈ start) (hbound : n ≤ bound)
    (hqueue : ∀ y ∈ queue, n ≤ depth y) : ∃ y ∈ done ++ queue, value y = w ∧ depth y ≤ n := by
  induction hsteps with
  | zero v =>
    obtain ⟨y, hy, hvalue, hdepth⟩ := h.started v hv
    exact ⟨y, hy, hvalue, hdepth.le⟩
  | succ hsteps hw ih =>
    obtain ⟨y, hy, rfl, hdepth⟩ := ih hv (by omega) fun y hy => (Nat.le_succ _).trans (hqueue y hy)
    rcases List.mem_append.mp hy with hy | hy
    · obtain ⟨z, hz, hvalue, hlevel⟩ := h.closed y hy (by omega) _ hw
      exact ⟨z, hz, hvalue, by omega⟩
    · have := hqueue y hy
      omega

/-- What nothing in the queue is nearer than is there at its distance from the start. -/
theorem Frontier.least (h : Frontier value depth next bound start done queue) {x : ι}
    (hx : x ∈ done ++ queue) (hqueue : ∀ y ∈ queue, depth x ≤ depth y) :
    IsLeast {n | ∃ v ∈ start, Steps next n v (value x)} (depth x) := by
  refine ⟨h.reached x hx, ?_⟩
  rintro n ⟨v, hv, hsteps⟩
  by_contra hlt
  have hle : n ≤ depth x := by omega
  obtain ⟨y, hy, hvalue, hdepth⟩ := h.found hsteps hv (hle.trans (h.shallow x hx))
    fun y hy => hle.trans (hqueue y hy)
  obtain rfl := List.inj_on_of_nodup_map h.distinct hy hx hvalue
  exact hlt hdepth

/-- When the queue is empty, what is within the bound was taken. -/
theorem Frontier.complete (h : Frontier value depth next bound start done []) {n : Nat} {v w : α}
    (hsteps : Steps next n v w) (hv : v ∈ start) (hbound : n ≤ bound) :
    ∃ y ∈ done, value y = w := by
  obtain ⟨y, hy, hvalue, -⟩ := h.found hsteps hv hbound fun _ hy => (by cases hy)
  rw [List.append_nil] at hy
  exact ⟨y, hy, hvalue⟩

end Frontier

end BreadthFirst

end SignalPlane
