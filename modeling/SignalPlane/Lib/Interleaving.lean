/-
SignalPlane.Lib.Interleaving — a workflow that others interrupt and that may
crash.

The transactions of a workflow are atomic, but the workflow is not: between
two of them other parties commit their own, and it may stop for good at any
point. `Interleaved R p s s'` says that the store is `s'` at some moment of
such an execution of `p` from `s`, where `R` is a transaction of the others.
Answers are arbitrary, and two equal questions may be answered differently.
`Asked` is a question with the store at the moment it is put.

The program logic is `Honours`. `Honours.interleaved` and `Honours.asked` lead
from a contract to every moment and every question of every execution,
`Honours.post` to an uninterrupted run.

`Conforms A T F` says what can be read off a program without knowing the
store: it asks questions in `A`, and its transactions are in `T`, except that
the last one may be in `F`. The walk through the program is then made once;
`Conforms.honours` adds what is known when it starts, as long as `T` and the
others keep it.
-/
import SignalPlane.Lib.Contract

namespace SignalPlane

namespace Workflow

open Relation (ReflTransGen)

variable {σ κ : Type} {ρ : κ → Type} {α β ε : Type}

/-! ## Executions -/

/-- Started in `s`, at some moment of an execution of `p` the store is `s'`. -/
inductive Interleaved (R : σ → σ → Prop) : Workflow σ κ ρ α → σ → σ → Prop
  | stop {p : Workflow σ κ ρ α} {s : σ} : Interleaved R p s s
  | other {p : Workflow σ κ ρ α} {s s₁ s' : σ} : R s s₁ → Interleaved R p s₁ s' →
      Interleaved R p s s'
  | tx {f : σ → σ} {k : σ → Workflow σ κ ρ α} {s s' : σ} : Interleaved R (k s) (f s) s' →
      Interleaved R (.tx f k) s s'
  | ask {q : κ} {k : ρ q → Workflow σ κ ρ α} {s s' : σ} (a : ρ q) : Interleaved R (k a) s s' →
      Interleaved R (.ask q k) s s'

/-- An uninterrupted run is such an execution. -/
theorem interleaved_exec {R : σ → σ → Prop} (o : (q : κ) → ρ q) (p : Workflow σ κ ρ α) (s : σ) :
    Interleaved R p s (exec o p s).store := by
  induction p generalizing s with
  | ret a => exact .stop
  | tx f k ih => exact .tx (ih s (f s))
  | ask q k ih => exact .ask (o q) (ih (o q) s)

/-- Started in `s`, some execution of `p` puts the question `q` while the store is `s'`. -/
inductive Asked (R : σ → σ → Prop) : Workflow σ κ ρ α → σ → κ → σ → Prop
  | here {q : κ} {k : ρ q → Workflow σ κ ρ α} {s : σ} : Asked R (.ask q k) s q s
  | other {p : Workflow σ κ ρ α} {s s₁ s' : σ} {q : κ} : R s s₁ → Asked R p s₁ q s' →
      Asked R p s q s'
  | tx {f : σ → σ} {k : σ → Workflow σ κ ρ α} {s s' : σ} {q : κ} : Asked R (k s) (f s) q s' →
      Asked R (.tx f k) s q s'
  | ask {q₀ q : κ} {k : ρ q₀ → Workflow σ κ ρ α} {s s' : σ} (a : ρ q₀) : Asked R (k a) s q s' →
      Asked R (.ask q₀ k) s q s'

section Contract

variable {C : Contract σ κ ρ} {p : Workflow σ κ ρ α} {s s' : σ} {Q : α → σ → Prop}

/-- A program that honours a contract keeps it at every moment. -/
theorem Honours.interleaved (h : Honours C p s Q) (hinv : C.inv s)
    (hanswers : ∀ q a, C.answers q a) (hp : Interleaved C.rely p s s') :
    C.inv s' ∧ ReflTransGen C.change s s' := by
  induction hp with
  | stop => exact ⟨hinv, .refl⟩
  | other hstep _ ih =>
    obtain ⟨hinv', hs⟩ := ih (h.of_others (.single hstep)) (C.kept hinv hstep)
    exact ⟨hinv', .head (.inl hstep) hs⟩
  | tx _ ih =>
    obtain ⟨hinv1, hguarantee, h1⟩ := h _ .refl hinv
    obtain ⟨hinv', hs⟩ := ih h1 hinv1
    exact ⟨hinv', .head (.inr hguarantee) hs⟩
  | ask a _ ih => exact ih (h.2 a (hanswers _ a)) hinv

/-- It asks what the contract allows at that moment. -/
theorem Honours.asked {q : κ} (h : Honours C p s Q) (hinv : C.inv s)
    (hanswers : ∀ q a, C.answers q a) (hp : Asked C.rely p s q s') : C.asks q s' := by
  induction hp with
  | here => exact h.1 _ .refl hinv
  | other hstep _ ih => exact ih (h.of_others (.single hstep)) (C.kept hinv hstep)
  | tx _ ih =>
    obtain ⟨hinv1, -, h1⟩ := h _ .refl hinv
    exact ih h1 hinv1
  | ask a _ ih => exact ih (h.2 a (hanswers _ a)) hinv

/-- An uninterrupted run with answers the contract assumes. -/
theorem Honours.post (h : Honours C p s Q) (hinv : C.inv s) {o : (q : κ) → ρ q}
    (hanswers : ∀ q, C.answers q (o q)) :
    Post C.asks o p s fun _ s' => ReflTransGen C.guarantee s s' := by
  induction p generalizing s with
  | ret a => exact ⟨fun x hx => absurd hx List.not_mem_nil, .refl⟩
  | tx f k ih =>
    obtain ⟨hinv', hguarantee, h'⟩ := h s .refl hinv
    obtain ⟨hasked, hs⟩ := ih s h' hinv'
    exact ⟨hasked, .head hguarantee hs⟩
  | ask q k ih =>
    obtain ⟨hasked, hs⟩ := ih (o q) (h.2 _ (hanswers q)) hinv
    refine ⟨fun x hx => ?_, hs⟩
    rcases List.mem_cons.mp hx with rfl | hx
    · exact h.1 s .refl hinv
    · exact hasked x hx

end Contract

/-! ## What a program does, whatever the store -/

/-- Every question of `p` is in `A` and every transaction in `T`; the last one may be in `F`. -/
def Conforms (A : κ → Prop) (T F : σ → σ → Prop) : Workflow σ κ ρ α → Prop
  | ret _ => True
  | tx f k => ∀ s, T s (f s) ∧ Conforms A T F (k s) ∨ F s (f s) ∧ ∃ a, k s = ret a
  | ask q k => A q ∧ ∀ a, Conforms A T F (k a)

section Conforms

variable {A : κ → Prop} {T F : σ → σ → Prop}

theorem conforms_pure {a : α} : Conforms A T F (pure a : Workflow σ κ ρ α) := trivial

/-- The result of a program may be rewritten at its end. -/
theorem conforms_map {p : Workflow σ κ ρ β} {f : β → α} (hp : Conforms A T F p) :
    Conforms A T F (p >>= fun b => pure (f b)) := by
  induction p with
  | ret b => trivial
  | tx g k ih =>
    intro s
    rcases hp s with ⟨hT, hk⟩ | ⟨hF, a, ha⟩
    · exact .inl ⟨hT, ih s hk⟩
    · exact .inr ⟨hF, f a, by dsimp only; rw [ha]; rfl⟩
  | ask q k ih => exact ⟨hp.1, fun a => ih a (hp.2 a)⟩

/-- Without transactions that only the last one may be, another program can follow. -/
theorem conforms_bind {p : Workflow σ κ ρ β} {g : β → Workflow σ κ ρ α} (hp : Conforms A T T p)
    (hg : ∀ b, Conforms A T T (g b)) : Conforms A T T (p >>= g) := by
  induction p with
  | ret b => exact hg b
  | tx f k ih =>
    intro s
    rcases hp s with ⟨hT, hk⟩ | ⟨hT, b, hb⟩
    · exact .inl ⟨hT, ih s hk⟩
    · refine .inl ⟨hT, ?_⟩
      dsimp only
      rw [hb]
      exact hg b
  | ask q k ih => exact ⟨hp.1, fun a => ih a (hp.2 a)⟩

theorem conforms_request {q : κ} {g : ρ q → Workflow σ κ ρ α} (hq : A q)
    (hg : ∀ a, Conforms A T F (g a)) : Conforms A T F (request q >>= g) := ⟨hq, hg⟩

theorem conforms_perform {op : σ → β × σ} {g : β → Workflow σ κ ρ α} (h : ∀ s, T s (op s).2)
    (hg : ∀ b, Conforms A T F (g b)) : Conforms A T F (perform op >>= g) :=
  fun s => .inl ⟨h s, hg _⟩

theorem conforms_atomic {op : σ → Except ε (β × σ)} {g : Except ε β → Workflow σ κ ρ α}
    (hrefl : ∀ s, T s s)
    (hok : ∀ s b s', op s = .ok (b, s') → T s s' ∧ Conforms A T F (g (.ok b)))
    (herr : ∀ e, Conforms A T F (g (.error e))) : Conforms A T F (atomic op >>= g) := by
  intro s
  left
  cases hop : op s with
  | ok r =>
    simp only [hop]
    exact hok s r.1 r.2 hop
  | error e =>
    simp only [hop]
    exact ⟨hrefl s, herr e⟩

theorem conforms_commit {op : σ → Except ε σ} {g : Except ε Unit → Workflow σ κ ρ α}
    (hrefl : ∀ s, T s s) (hok : ∀ s s', op s = .ok s' → T s s')
    (hg : ∀ r, Conforms A T F (g r)) : Conforms A T F (commit op >>= g) := by
  intro s
  refine .inl ⟨?_, hg _⟩
  cases hop : op s with
  | ok s' =>
    simp only [hop]
    exact hok s s' hop
  | error e =>
    simp only [hop]
    exact hrefl s

/-- The last transaction. -/
theorem conforms_last {op : σ → Except ε σ} {g : Except ε Unit → Workflow σ κ ρ α}
    (hrefl : ∀ s, F s s) (hok : ∀ s s', op s = .ok s' → F s s') (hg : ∀ r, ∃ a, g r = pure a) :
    Conforms A T F (commit op >>= g) := by
  intro s
  refine .inr ⟨?_, hg _⟩
  cases hop : op s with
  | ok s' =>
    simp only [hop]
    exact hok s s' hop
  | error e =>
    simp only [hop]
    exact hrefl s

theorem Conforms.mono {A' : κ → Prop} {T' F' : σ → σ → Prop} {p : Workflow σ κ ρ α}
    (h : Conforms A T F p) (hA : ∀ q, A q → A' q) (hT : ∀ s s', T s s' → T' s s')
    (hF : ∀ s s', F s s' → F' s s') : Conforms A' T' F' p := by
  induction p with
  | ret a => trivial
  | tx f k ih =>
    intro s
    rcases h s with ⟨h1, hk⟩ | ⟨h1, hk⟩
    · exact .inl ⟨hT _ _ h1, ih s hk⟩
    · exact .inr ⟨hF _ _ h1, hk⟩
  | ask q k ih => exact ⟨hA q h.1, fun a => ih a (h.2 a)⟩

variable {K L : σ → Prop} {p : Workflow σ κ ρ α} {s : σ}

/-- By what is known when it starts, the program honours a contract; `L` is what is left to know
after the last transaction. -/
theorem Conforms.honours {C : Contract σ κ ρ} (h : Conforms A T F p) (hK : K s)
    (hA : ∀ q s, A q → C.asks q s)
    (hothers : ∀ s s', C.rely s s' → (K s → K s') ∧ (L s → L s')) (hL : ∀ s, K s → L s)
    (hT : ∀ s s', C.inv s → K s → T s s' → C.inv s' ∧ C.guarantee s s' ∧ K s')
    (hF : ∀ s s', C.inv s → K s → F s s' → C.inv s' ∧ C.guarantee s s' ∧ L s') :
    Honours C p s fun _ => L := by
  have hothersK := fun s s' h => (hothers s s' h).1
  have hothersL := fun s s' h => (hothers s s' h).2
  induction p generalizing s with
  | ret a => exact fun s1 hs1 _ => hL s1 (stable hothersK hK hs1)
  | tx f k ih =>
    intro s1 hs1 hinv
    have hK1 := stable hothersK hK hs1
    rcases h s1 with ⟨h1, hk⟩ | ⟨h1, a, ha⟩
    · obtain ⟨hinv', hguarantee, hK'⟩ := hT _ _ hinv hK1 h1
      exact ⟨hinv', hguarantee, ih s1 hk hK'⟩
    · obtain ⟨hinv', hguarantee, hL'⟩ := hF _ _ hinv hK1 h1
      refine ⟨hinv', hguarantee, ?_⟩
      rw [ha]
      exact fun s2 hs2 _ => stable hothersL hL' hs2
  | ask q k ih => exact ⟨fun s1 _ _ => hA q s1 h.1, fun a _ => ih a (h.2 a) hK⟩

/-- The same for an uninterrupted run. -/
theorem Conforms.post {T' : σ → σ → Prop} (h : Conforms A T F p) (o : (q : κ) → ρ q) (hK : K s)
    (hT : ∀ s s', K s → T s s' → ReflTransGen T' s s' ∧ K s')
    (hF : ∀ s s', K s → F s s' → ReflTransGen T' s s') :
    Post (fun q _ => A q) o p s fun _ s' => ReflTransGen T' s s' := by
  induction p generalizing s with
  | ret a => exact ⟨fun x hx => absurd hx List.not_mem_nil, .refl⟩
  | tx f k ih =>
    rcases h s with ⟨h1, hk⟩ | ⟨h1, a, ha⟩
    · obtain ⟨h1', hK'⟩ := hT _ _ hK h1
      obtain ⟨hasked, hs⟩ := ih s hk hK'
      exact ⟨hasked, h1'.trans hs⟩
    · simp only [Post, exec, ha]
      exact ⟨fun x hx => absurd hx List.not_mem_nil, hF _ _ hK h1⟩
  | ask q k ih =>
    obtain ⟨hasked, hs⟩ := ih (o q) (h.2 (o q)) hK
    refine ⟨fun x hx => ?_, hs⟩
    rcases List.mem_cons.mp hx with rfl | hx
    · exact h.1
    · exact hasked x hx

end Conforms

end Workflow

end SignalPlane
