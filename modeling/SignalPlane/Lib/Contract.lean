/-
SignalPlane.Lib.Contract — rely and guarantee for a process that runs
workflows in a loop.

A `Process` runs one workflow after the other. Between two of its transactions
others commit theirs, and it may crash at any point and start anew; what it
asked stays on record, with the store at the moment it was asked. A `Contract`
says what the process may count on and what it has to keep: what the others do
(`rely`), what an own transaction does (`guarantee`), what holds throughout
(`inv`), what may be asked when (`asks`), and which answers are assumed
(`answers`).

`Honours C p s Q` is the program logic. What a proof knows about the store `s`
it may use later as far as `rely` keeps it, so the rules hand over the earlier
store and the steps of the others since. `Extends.run` leads from there to
every run of the process.
-/
import SignalPlane.Lib.Workflow

namespace SignalPlane

namespace Workflow

open Relation (ReflTransGen)

variable {σ κ : Type} {ρ : κ → Type} {α β ε : Type}

/-! ## Contracts -/

/-- What a process may count on, and what it has to keep. -/
structure Contract (σ κ : Type) (ρ : κ → Type) where
  rely : σ → σ → Prop
  guarantee : σ → σ → Prop
  inv : σ → Prop
  asks : κ → σ → Prop
  answers : (q : κ) → ρ q → Prop
  /-- The others keep what holds throughout. -/
  kept : ∀ {s s'}, inv s → rely s s' → inv s'
  /-- A transaction that fails changes nothing. -/
  unchanged : ∀ s, guarantee s s

/-- A step of the store, by the process or by others. -/
def Contract.change (C : Contract σ κ ρ) (s s' : σ) : Prop := C.rely s s' ∨ C.guarantee s s'

theorem Contract.kept_by_others {C : Contract σ κ ρ} {s s' : σ} (h : C.inv s)
    (hs : ReflTransGen C.rely s s') : C.inv s' := by
  induction hs with
  | refl => exact h
  | tail _ hstep ih => exact C.kept ih hstep

/-- What one step of the others keeps, all their steps keep. -/
theorem stable {R : σ → σ → Prop} {K : σ → Prop} (hK : ∀ s s', R s s' → K s → K s') {s s' : σ}
    (h : K s) (hs : ReflTransGen R s s') : K s' := by
  induction hs with
  | refl => exact h
  | tail _ hstep ih => exact hK _ _ hstep ih

/-- From `s` on, `p` keeps the contract and its result meets `Q`. -/
def Honours (C : Contract σ κ ρ) : Workflow σ κ ρ α → σ → (α → σ → Prop) → Prop
  | ret a, s, Q => ∀ s₁, ReflTransGen C.rely s s₁ → C.inv s₁ → Q a s₁
  | tx f k, s, Q => ∀ s₁, ReflTransGen C.rely s s₁ → C.inv s₁ →
      C.inv (f s₁) ∧ C.guarantee s₁ (f s₁) ∧ Honours C (k s₁) (f s₁) Q
  | ask q k, s, Q => (∀ s₁, ReflTransGen C.rely s s₁ → C.inv s₁ → C.asks q s₁) ∧
      ∀ a, C.answers q a → Honours C (k a) s Q

section Rules

variable {C : Contract σ κ ρ} {s : σ} {Q : α → σ → Prop}

/-- What the others do before the first own step is part of the judgement. -/
theorem Honours.of_others {p : Workflow σ κ ρ α} {s' : σ} (h : Honours C p s Q)
    (hs : ReflTransGen C.rely s s') : Honours C p s' Q := by
  induction p with
  | ret | tx => exact fun s1 hs1 => h s1 (hs.trans hs1)
  | ask q k ih => exact ⟨fun s1 hs1 => h.1 s1 (hs.trans hs1), fun a ha => ih a (h.2 a ha)⟩

/-- What every step keeps may be added to the result. -/
theorem Honours.frame {p : Workflow σ κ ρ α} {K : σ → Prop} (h : Honours C p s Q)
    (hK : ∀ s s', C.inv s → C.change s s' → K s → K s') (hinv : C.inv s) (hs : K s) :
    Honours C p s fun a s => Q a s ∧ K s := by
  have hothers : ∀ {s s1}, C.inv s → K s → ReflTransGen C.rely s s1 → K s1 := by
    intro s s1 hinv hs hs1
    induction hs1 with
    | refl => exact hs
    | tail hbefore hstep ih => exact hK _ _ (C.kept_by_others hinv hbefore) (.inl hstep) ih
  induction p generalizing s with
  | ret a => exact fun s1 hs1 hinv1 => ⟨h s1 hs1 hinv1, hothers hinv hs hs1⟩
  | tx f k ih =>
    intro s1 hs1 hinv1
    obtain ⟨hinv', hguarantee, h'⟩ := h s1 hs1 hinv1
    have hafter := hK _ _ hinv1 (.inr hguarantee) (hothers hinv hs hs1)
    exact ⟨hinv', hguarantee, ih s1 h' hinv' hafter⟩
  | ask q k ih => exact ⟨h.1, fun a ha => ih a (h.2 a ha) hinv hs⟩

theorem honours_pure {a : α} (h : ∀ s1, ReflTransGen C.rely s s1 → C.inv s1 → Q a s1) :
    Honours C (pure a : Workflow σ κ ρ α) s Q := h

/-- A program whose result does not matter any more. -/
theorem honours_done {a : α} : Honours C (pure a : Workflow σ κ ρ α) s fun _ _ => True :=
  fun _ _ _ => trivial

theorem honours_bind {p : Workflow σ κ ρ β} {g : β → Workflow σ κ ρ α} {P : β → σ → Prop}
    (hinv : C.inv s) (hp : Honours C p s P)
    (hg : ∀ b s', C.inv s' → P b s' → Honours C (g b) s' Q) : Honours C (p >>= g) s Q := by
  induction p generalizing s with
  | ret b => exact hg b s hinv (hp s .refl hinv)
  | tx f k ih =>
    intro s1 hs1 hinv1
    obtain ⟨hinv', hguarantee, h'⟩ := hp s1 hs1 hinv1
    exact ⟨hinv', hguarantee, ih s1 hinv' h'⟩
  | ask q k ih => exact ⟨hp.1, fun a ha => ih a hinv (hp.2 a ha)⟩

theorem honours_request {q : κ} {g : ρ q → Workflow σ κ ρ α}
    (hask : ∀ s1, ReflTransGen C.rely s s1 → C.inv s1 → C.asks q s1)
    (hg : ∀ a, C.answers q a → Honours C (g a) s Q) : Honours C (request q >>= g) s Q :=
  ⟨hask, hg⟩

theorem honours_perform {op : σ → β × σ} {g : β → Workflow σ κ ρ α}
    (h : ∀ s1, ReflTransGen C.rely s s1 → C.inv s1 →
      C.inv (op s1).2 ∧ C.guarantee s1 (op s1).2 ∧ Honours C (g (op s1).1) (op s1).2 Q) :
    Honours C (perform op >>= g) s Q := h

/-- A transaction that only reads. -/
theorem honours_read {f : σ → β} {g : β → Workflow σ κ ρ α}
    (h : ∀ s1, ReflTransGen C.rely s s1 → C.inv s1 → Honours C (g (f s1)) s1 Q) :
    Honours C (perform (fun s => (f s, s)) >>= g) s Q :=
  fun s1 hs1 hinv => ⟨hinv, C.unchanged s1, h s1 hs1 hinv⟩

theorem honours_atomic {op : σ → Except ε (β × σ)} {g : Except ε β → Workflow σ κ ρ α}
    (hok : ∀ s1 b s', ReflTransGen C.rely s s1 → C.inv s1 → op s1 = .ok (b, s') →
      C.inv s' ∧ C.guarantee s1 s' ∧ Honours C (g (.ok b)) s' Q)
    (herr : ∀ s1 e, ReflTransGen C.rely s s1 → C.inv s1 → op s1 = .error e →
      Honours C (g (.error e)) s1 Q) : Honours C (atomic op >>= g) s Q := by
  intro s1 hs1 hinv
  cases hop : op s1 with
  | ok r =>
    simp only [hop]
    exact hok s1 r.1 r.2 hs1 hinv hop
  | error e =>
    simp only [hop]
    exact ⟨hinv, C.unchanged s1, herr s1 e hs1 hinv hop⟩

theorem honours_commit {op : σ → Except ε σ} {g : Except ε Unit → Workflow σ κ ρ α}
    (hok : ∀ s1 s', ReflTransGen C.rely s s1 → C.inv s1 → op s1 = .ok s' →
      C.inv s' ∧ C.guarantee s1 s' ∧ Honours C (g (.ok ())) s' Q)
    (herr : ∀ s1 e, ReflTransGen C.rely s s1 → C.inv s1 → op s1 = .error e →
      Honours C (g (.error e)) s1 Q) : Honours C (commit op >>= g) s Q := by
  intro s1 hs1 hinv
  cases hop : op s1 with
  | ok s' =>
    simp only [hop]
    exact hok s1 s' hs1 hinv hop
  | error e =>
    simp only [hop]
    exact ⟨hinv, C.unchanged s1, herr s1 e hs1 hinv hop⟩

end Rules

/-! ## A process -/

/-- The store, the workflow that runs, and the questions so far with the store they saw. -/
structure Process (σ κ : Type) (ρ : κ → Type) where
  store : σ
  running : Option (Workflow σ κ ρ Unit)
  asked : List (κ × σ)

/-- A process that has done nothing yet. -/
def Process.fresh (s : σ) : Process σ κ ρ := ⟨s, none, []⟩

variable {π τ : Type}

/-- The workflows a process runs, and what others do. -/
structure System (σ κ : Type) (ρ : κ → Type) (π τ : Type) where
  program : π → Workflow σ κ ρ Unit
  act : τ → σ → σ

/-- One move: a workflow is started when none runs, the running one makes its next step, the
process dies, or others act. -/
inductive Move (κ : Type) (ρ : κ → Type) (π τ : Type) where
  | start (job : π)
  | advance (answer : (q : κ) → ρ q)
  | crash
  | other (t : τ)

def Move.step (sys : System σ κ ρ π τ) (st : Process σ κ ρ) : Move κ ρ π τ → Process σ κ ρ
  | .start job => match st.running with
    | none => { st with running := some (sys.program job) }
    | some _ => st
  | .advance answer => match st.running with
    | none => st
    | some (.ret _) => { st with running := none }
    | some (.tx f k) => { st with store := f st.store, running := some (k st.store) }
    | some (.ask q k) =>
      { st with running := some (k (answer q)), asked := st.asked ++ [(q, st.store)] }
  | .crash => { st with running := none }
  | .other t => { st with store := sys.act t st.store }

/-- The process after a list of moves. -/
def System.run (sys : System σ κ ρ π τ) (moves : List (Move κ ρ π τ)) (st : Process σ κ ρ) :
    Process σ κ ρ :=
  moves.foldl (Move.step sys) st

/-- The answers are those the contract assumes. -/
def Move.Fair (C : Contract σ κ ρ) : Move κ ρ π τ → Prop
  | .advance answer => ∀ q, C.answers q (answer q)
  | _ => True

/-- Every workflow of the system honours the contract, and the others do what it relies on. -/
structure System.Honours (sys : System σ κ ρ π τ) (C : Contract σ κ ρ) : Prop where
  programs : ∀ job s, C.inv s → Workflow.Honours C (sys.program job) s fun _ _ => True
  others : ∀ t s, C.inv s → C.rely s (sys.act t s)

/-- What holds holds, and the workflow that runs honours the contract. -/
structure Process.Sound (C : Contract σ κ ρ) (st : Process σ κ ρ) : Prop where
  inv : C.inv st.store
  running : ∀ p, st.running = some p → Workflow.Honours C p st.store fun _ _ => True

/-- `st'` comes later than `st`: the store has changed as the contract allows, and every question
since was asked as it allows, at some moment in between. -/
structure Process.Extends (C : Contract σ κ ρ) (st st' : Process σ κ ρ) : Prop where
  sound : st'.Sound C
  store : ReflTransGen C.change st.store st'.store
  asked : ∃ later, st'.asked = st.asked ++ later ∧
    ∀ x ∈ later, C.asks x.1 x.2 ∧ ReflTransGen C.change st.store x.2 ∧
      ReflTransGen C.change x.2 st'.store

section Runs

variable {C : Contract σ κ ρ} {sys : System σ κ ρ π τ} {st st' st'' : Process σ κ ρ}

theorem Process.sound_fresh {s : σ} (h : C.inv s) : (Process.fresh s : Process σ κ ρ).Sound C :=
  ⟨h, fun _ hp => (by cases hp)⟩

theorem Process.Extends.refl (h : st.Sound C) : st.Extends C st :=
  ⟨h, .refl, [], (List.append_nil _).symm, fun _ hx => (by cases hx)⟩

theorem Process.Extends.trans (h : st.Extends C st') (h' : st'.Extends C st'') :
    st.Extends C st'' := by
  obtain ⟨later, hlater, hall⟩ := h.asked
  obtain ⟨later', hlater', hall'⟩ := h'.asked
  refine ⟨h'.sound, h.store.trans h'.store, later ++ later', ?_, fun x hx => ?_⟩
  · rw [hlater', hlater, List.append_assoc]
  · rcases List.mem_append.mp hx with hx | hx
    · obtain ⟨hasks, hbefore, hafter⟩ := hall x hx
      exact ⟨hasks, hbefore, hafter.trans h'.store⟩
    · obtain ⟨hasks, hbefore, hafter⟩ := hall' x hx
      exact ⟨hasks, h.store.trans hbefore, hafter⟩

/-- The store changes, and nothing is asked. -/
theorem Process.Extends.silent {s : σ} {running : Option (Workflow σ κ ρ Unit)}
    (h : (⟨s, running, st.asked⟩ : Process σ κ ρ).Sound C)
    (hs : ReflTransGen C.change st.store s) : st.Extends C ⟨s, running, st.asked⟩ :=
  ⟨h, hs, [], (List.append_nil _).symm, fun _ hx => (by cases hx)⟩

/-- One step of the running workflow. -/
theorem Process.Extends.advance {answer : (q : κ) → ρ q} (h : st.Sound C)
    (hfair : ∀ q, C.answers q (answer q)) :
    st.Extends C (Move.step sys st (.advance answer)) := by
  obtain ⟨s, running, asked⟩ := st
  cases running with
  | none => exact .refl h
  | some p =>
    have hp := h.running p rfl
    cases p with
    | ret a => exact .silent ⟨h.inv, fun _ hp => (by cases hp)⟩ .refl
    | tx f k =>
      obtain ⟨hinv, hguarantee, hrest⟩ := hp s .refl h.inv
      refine .silent ⟨hinv, ?_⟩ (.single (.inr hguarantee))
      rintro _ ⟨⟩
      exact hrest
    | ask q k =>
      refine ⟨⟨h.inv, ?_⟩, .refl, [(q, s)], rfl, ?_⟩
      · rintro _ ⟨⟩
        exact hp.2 _ (hfair q)
      · rintro x hx
        cases List.mem_singleton.mp hx
        exact ⟨hp.1 s .refl h.inv, .refl, .refl⟩

theorem Process.Extends.step (hsys : sys.Honours C) (h : st.Sound C) {move : Move κ ρ π τ}
    (hfair : move.Fair C) : st.Extends C (move.step sys st) := by
  cases move with
  | advance answer => exact .advance h hfair
  | start job =>
    obtain ⟨s, running, asked⟩ := st
    cases running with
    | none =>
      refine .silent ⟨h.inv, ?_⟩ .refl
      rintro _ ⟨⟩
      exact hsys.programs job s h.inv
    | some p => exact .refl h
  | crash => exact .silent ⟨h.inv, fun _ hp => (by cases hp)⟩ .refl
  | other t =>
    have hrely := hsys.others t st.store h.inv
    refine .silent ⟨C.kept h.inv hrely, fun p hp => ?_⟩ (.single (.inl hrely))
    exact (h.running p hp).of_others (.single hrely)

/-- Every run keeps the contract. -/
theorem Process.Extends.run (hsys : sys.Honours C) {moves : List (Move κ ρ π τ)}
    (hfair : ∀ move ∈ moves, move.Fair C) (h : st.Sound C) :
    st.Extends C (sys.run moves st) := by
  induction moves generalizing st with
  | nil => exact .refl h
  | cons move moves ih =>
    have hstep := Process.Extends.step hsys h (hfair move List.mem_cons_self)
    exact hstep.trans (ih (fun m hm => hfair m (List.mem_cons_of_mem _ hm)) hstep.sound)

end Runs

end Workflow

end SignalPlane
