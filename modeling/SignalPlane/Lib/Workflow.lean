/-
SignalPlane.Lib.Workflow — programs that alternate database transactions with
questions to an outside party.

A `Workflow` is a tree: it returns, or runs a transaction on the store, or
asks a question and continues with the answer. Transactions are functions on
the store, so each is atomic by construction; `atomic` rolls back when the
operation fails. The party that answers is not modelled: `exec` takes an
arbitrary function from questions to answers, and a result about every such
function is a result about every behaviour of the other side.

`exec` also lists every question with the store at the moment it was asked.
`Post` is the program logic over it: `Post A o p s Q` says that, run from `s`
with answers `o`, `p` asks only what `A` allows and ends in `Q`. Its rules
(`post_pure`, `post_bind`, `post_atomic`, `post_commit`, `post_request`) follow
the shape of a `do` block, so a proof walks through a program the way the
program runs.
-/
import Mathlib

namespace SignalPlane

/-- A program over a store `σ` that asks questions `q : κ` answered in `ρ q`. -/
inductive Workflow (σ κ : Type) (ρ : κ → Type) (α : Type) : Type where
  | ret (a : α)
  | tx (f : σ → σ) (k : σ → Workflow σ κ ρ α)
  | ask (q : κ) (k : ρ q → Workflow σ κ ρ α)

namespace Workflow

variable {σ κ : Type} {ρ : κ → Type} {α β γ ε : Type}

/-! ## Programs -/

/-- Run `p`, then the program its result selects. -/
def andThen : Workflow σ κ ρ α → (α → Workflow σ κ ρ β) → Workflow σ κ ρ β
  | ret a, g => g a
  | tx f k, g => tx f (fun s => (k s).andThen g)
  | ask q k, g => ask q (fun a => (k a).andThen g)

instance : Monad (Workflow σ κ ρ) where
  pure := ret
  bind := andThen

/-- One transaction: commit the new store, or report the error and change nothing. -/
def atomic (op : σ → Except ε (α × σ)) : Workflow σ κ ρ (Except ε α) :=
  tx (fun s => match op s with
      | .ok (_, s') => s'
      | .error _ => s)
    (fun s => ret (match op s with
      | .ok (a, _) => .ok a
      | .error e => .error e))

/-- One transaction that returns nothing but its error. -/
def commit (op : σ → Except ε σ) : Workflow σ κ ρ (Except ε Unit) :=
  tx (fun s => match op s with
      | .ok s' => s'
      | .error _ => s)
    (fun s => ret (match op s with
      | .ok _ => .ok ()
      | .error e => .error e))

/-- A transaction that keeps what it wrote whatever it returns. -/
def perform (op : σ → α × σ) : Workflow σ κ ρ α :=
  tx (fun s => (op s).2) (fun s => ret (op s).1)

/-- Ask one question. -/
def request (q : κ) : Workflow σ κ ρ (ρ q) := ask q ret

theorem bind_assoc (p : Workflow σ κ ρ α) (f : α → Workflow σ κ ρ β) (g : β → Workflow σ κ ρ γ) :
    (p >>= f >>= g) = (p >>= fun a => f a >>= g) := by
  induction p with
  | ret a => rfl
  | tx t k ih => exact congrArg (tx t) (funext ih)
  | ask q k ih => exact congrArg (ask q) (funext ih)

/-- `p` may return `a`: some stores that its transactions find and some answers to its questions
lead there. -/
inductive Returns : Workflow σ κ ρ α → α → Prop
  | ret (a : α) : Returns (ret a) a
  | tx {f : σ → σ} {k : σ → Workflow σ κ ρ α} {a : α} (s : σ) (h : Returns (k s) a) :
    Returns (tx f k) a
  | ask {q : κ} {k : ρ q → Workflow σ κ ρ α} {a : α} (x : ρ q) (h : Returns (k x) a) :
    Returns (ask q k) a

theorem returns_bind {p : Workflow σ κ ρ α} {g : α → Workflow σ κ ρ β} {b : β}
    (h : Returns (p >>= g) b) : ∃ a, Returns p a ∧ Returns (g a) b := by
  induction p with
  | ret a => exact ⟨a, .ret a, h⟩
  | tx f k ih =>
    cases h with
    | tx s h =>
      obtain ⟨a, ha, hb⟩ := ih s h
      exact ⟨a, .tx s ha, hb⟩
  | ask q k ih =>
    cases h with
    | ask x h =>
      obtain ⟨a, ha, hb⟩ := ih x h
      exact ⟨a, .ask x ha, hb⟩

/-! ## Runs -/

/-- What a run leaves: its result, the store, and the questions with the store they saw. -/
structure Outcome (σ κ α : Type) where
  value : α
  store : σ
  asked : List (κ × σ)

/-- Run `p` from store `s` against a party that answers `o`. -/
def exec (o : (q : κ) → ρ q) : Workflow σ κ ρ α → σ → Outcome σ κ α
  | ret a, s => ⟨a, s, []⟩
  | tx f k, s => exec o (k s) (f s)
  | ask q k, s =>
    let r := exec o (k (o q)) s
    ⟨r.value, r.store, (q, s) :: r.asked⟩

section Exec

variable (o : (q : κ) → ρ q)

@[simp] theorem exec_pure (a : α) (s : σ) :
    exec o (pure a : Workflow σ κ ρ α) s = ⟨a, s, []⟩ := rfl

@[simp] theorem exec_request (q : κ) (s : σ) :
    exec o (request q : Workflow σ κ ρ (ρ q)) s = ⟨o q, s, [(q, s)]⟩ := rfl

@[simp] theorem exec_perform (op : σ → α × σ) (s : σ) :
    exec o (perform op : Workflow σ κ ρ α) s = ⟨(op s).1, (op s).2, []⟩ := rfl

theorem exec_andThen (p : Workflow σ κ ρ α) (g : α → Workflow σ κ ρ β) (s : σ) :
    exec o (p.andThen g) s =
      let r := exec o p s
      let r' := exec o (g r.value) r.store
      ⟨r'.value, r'.store, r.asked ++ r'.asked⟩ := by
  induction p generalizing s with
  | ret a => rfl
  | tx f k ih => exact ih s (f s)
  | ask q k ih => simp only [andThen, exec, ih, List.cons_append]

theorem exec_bind (p : Workflow σ κ ρ α) (g : α → Workflow σ κ ρ β) (s : σ) :
    exec o (p >>= g) s =
      let r := exec o p s
      let r' := exec o (g r.value) r.store
      ⟨r'.value, r'.store, r.asked ++ r'.asked⟩ :=
  exec_andThen o p g s

end Exec

/-! ## The program logic -/

/-- Run from `s` with answers `o`, `p` asks only what `A` allows and ends in `Q`. -/
def Post (A : κ → σ → Prop) (o : (q : κ) → ρ q) (p : Workflow σ κ ρ α) (s : σ)
    (Q : α → σ → Prop) : Prop :=
  (∀ x ∈ (exec o p s).asked, A x.1 x.2) ∧ Q (exec o p s).value (exec o p s).store

section Post

variable {A : κ → σ → Prop} {o : (q : κ) → ρ q} {s : σ} {Q : α → σ → Prop}

theorem post_mono {p : Workflow σ κ ρ α} {Q' : α → σ → Prop} (h : Post A o p s Q')
    (hQ : ∀ a s', Q' a s' → Q a s') : Post A o p s Q :=
  ⟨h.1, hQ _ _ h.2⟩

@[simp] theorem post_pure {a : α} : Post A o (pure a) s Q ↔ Q a s := by
  simp [Post]

@[simp] theorem post_bind {p : Workflow σ κ ρ β} {g : β → Workflow σ κ ρ α} :
    Post A o (p >>= g) s Q ↔ Post A o p s (fun b s' => Post A o (g b) s' Q) := by
  simp only [Post, exec_bind, List.mem_append]
  constructor
  · rintro ⟨hA, hQ⟩
    exact ⟨fun x hx => hA x (.inl hx), fun x hx => hA x (.inr hx), hQ⟩
  · rintro ⟨hA, hA', hQ⟩
    exact ⟨fun x hx => hx.elim (hA x) (hA' x), hQ⟩

@[simp] theorem post_request {q : κ} {R : ρ q → σ → Prop} :
    Post A o (request q : Workflow σ κ ρ (ρ q)) s R ↔ A q s ∧ R (o q) s := by
  simp [Post]

theorem post_atomic {op : σ → Except ε (α × σ)} {R : Except ε α → σ → Prop}
    (hok : ∀ a s', op s = .ok (a, s') → R (.ok a) s')
    (herr : ∀ e, op s = .error e → R (.error e) s) :
    Post A o (atomic op : Workflow σ κ ρ (Except ε α)) s R := by
  refine ⟨by simp [atomic, exec], ?_⟩
  simp only [atomic, exec]
  cases h : op s with
  | ok r => exact hok r.1 r.2 h
  | error e => exact herr e h

theorem post_commit {op : σ → Except ε σ} {R : Except ε Unit → σ → Prop}
    (hok : ∀ s', op s = .ok s' → R (.ok ()) s')
    (herr : ∀ e, op s = .error e → R (.error e) s) :
    Post A o (commit op : Workflow σ κ ρ (Except ε Unit)) s R := by
  refine ⟨by simp [commit, exec], ?_⟩
  simp only [commit, exec]
  cases h : op s with
  | ok s' => exact hok s' h
  | error e => exact herr e h

/-- A transaction whose outcome is known. -/
theorem post_atomic_ok {op : σ → Except ε (β × σ)} {k : Except ε β → Workflow σ κ ρ α} {b : β}
    {s' : σ} (h : op s = .ok (b, s')) (hk : Post A o (k (.ok b)) s' Q) :
    Post A o (atomic op >>= k) s Q := by
  refine post_bind.mpr (post_atomic (fun b' s'' h' => ?_) fun e h' => ?_)
  · cases h.symm.trans h'
    exact hk
  · cases h.symm.trans h'

theorem post_atomic_error {op : σ → Except ε (β × σ)} {k : Except ε β → Workflow σ κ ρ α} {e : ε}
    (h : op s = .error e) (hk : Post A o (k (.error e)) s Q) : Post A o (atomic op >>= k) s Q := by
  refine post_bind.mpr (post_atomic (fun b' s'' h' => ?_) fun e h' => ?_)
  · cases h.symm.trans h'
  · cases h.symm.trans h'
    exact hk

theorem post_commit_ok {op : σ → Except ε σ} {k : Except ε Unit → Workflow σ κ ρ α} {s' : σ}
    (h : op s = .ok s') (hk : Post A o (k (.ok ())) s' Q) : Post A o (commit op >>= k) s Q := by
  refine post_bind.mpr (post_commit (fun s'' h' => ?_) fun e h' => ?_)
  · cases h.symm.trans h'
    exact hk
  · cases h.symm.trans h'

theorem post_perform {f : σ → β × σ} {R : β → σ → Prop} :
    Post A o (perform f : Workflow σ κ ρ β) s R ↔ R (f s).1 (f s).2 := by
  simp [Post, exec_perform]

theorem Post.asked {p : Workflow σ κ ρ α} (h : Post A o p s Q) {x : κ × σ}
    (hx : x ∈ (exec o p s).asked) : A x.1 x.2 :=
  h.1 x hx

theorem Post.final {p : Workflow σ κ ρ α} (h : Post A o p s Q) :
    Q (exec o p s).value (exec o p s).store :=
  h.2

end Post

end Workflow

end SignalPlane
