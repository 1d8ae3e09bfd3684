/-
SignalPlane.Lib.Table — a table with a primary key, as SQL statements see it.

A `Table key` is a list of rows, in insertion order, in which no two rows
have the same key: the uniqueness of the primary key is a field of the
structure, so a table that breaks it cannot be built. The statements are the
ones a small SQL client issues:

* `find?` — `SELECT … WHERE pk = k`;
* `insert` — `INSERT … ON CONFLICT(pk) DO NOTHING`;
* `update` / `updateKey` — `UPDATE … WHERE p` and `UPDATE … WHERE pk = k AND p`;
* `delete` — `DELETE … WHERE p`;
* `hits` — whether a keyed update affects its one row;
* `pick` — `SELECT … ORDER BY … LIMIT 1`.

Each statement has one lemma that says what `find?` returns afterwards, so a
proof about a sequence of statements is a pointwise calculation and never
looks at the row list. `pick` takes the tie-breaking choice as an argument:
SQL leaves the order of equal rows open, and a result about every choice is a
result about whichever one the engine makes.
-/
import Mathlib

namespace SignalPlane

/-- Rows in insertion order, no two with the same key. -/
structure Table {ρ κ : Type} (key : ρ → κ) where
  rows : List ρ
  nodup : (rows.map key).Nodup

namespace Table

variable {ρ κ : Type} {key : ρ → κ}

instance [DecidableEq ρ] : DecidableEq (Table key) := fun t t' =>
  decidable_of_iff (t.rows = t'.rows) (by cases t; cases t'; simp)

@[ext] theorem ext {t t' : Table key} (h : t.rows = t'.rows) : t = t' := by
  cases t
  cases t'
  exact (Table.mk.injEq ..).mpr h

/-! ## Statements -/

/-- The table with no rows. -/
def empty : Table key := ⟨[], List.nodup_nil⟩

theorem map_key_ite (p : ρ → Bool) (f : ρ → ρ) (hf : ∀ r, key (f r) = key r) (l : List ρ) :
    (l.map (fun r => if p r then f r else r)).map key = l.map key := by
  rw [List.map_map]
  refine List.map_congr_left fun r _ => ?_
  by_cases hp : p r <;> simp [hp, hf]

/-- `UPDATE … SET f WHERE p`; the columns of the key are never assigned. -/
def update (t : Table key) (p : ρ → Bool) (f : ρ → ρ) (hf : ∀ r, key (f r) = key r) :
    Table key :=
  ⟨t.rows.map (fun r => if p r then f r else r), by rw [map_key_ite p f hf]; exact t.nodup⟩

/-- `DELETE … WHERE p`. -/
def delete (t : Table key) (p : ρ → Bool) : Table key :=
  ⟨t.rows.filter (fun r => !p r),
    t.nodup.sublist ((List.filter_sublist (p := fun r => !p r)).map key)⟩

theorem mem_update (t : Table key) (p : ρ → Bool) (f : ρ → ρ) (hf : ∀ r, key (f r) = key r)
    (r : ρ) : r ∈ (t.update p f hf).rows ↔ ∃ r0 ∈ t.rows, (if p r0 then f r0 else r0) = r := by
  simp [update]

/-- An update that hits no row changes nothing. -/
theorem update_eq_self {t : Table key} {p : ρ → Bool} {f : ρ → ρ} {hf : ∀ r, key (f r) = key r}
    (h : ∀ r ∈ t.rows, p r = false) : t.update p f hf = t := by
  have hrows : t.rows.map (fun r => if p r then f r else r) = t.rows := by
    refine (List.map_congr_left fun r hr => ?_).trans (List.map_id _)
    simp [h r hr]
  exact Table.ext hrows

theorem mem_delete {t : Table key} {p : ρ → Bool} {r : ρ} :
    r ∈ (t.delete p).rows ↔ r ∈ t.rows ∧ p r = false := by
  simp [delete]

variable [DecidableEq κ]

/-- `SELECT … WHERE pk = k`. -/
def find? (t : Table key) (k : κ) : Option ρ :=
  t.rows.find? (fun r => decide (key r = k))

/-- Whether row `k` exists and satisfies `p`: `UPDATE … WHERE pk = k AND p`
reports one affected row exactly then, and none otherwise. -/
def hits (t : Table key) (k : κ) (p : ρ → Bool) : Bool :=
  (t.find? k).any p

/-- `UPDATE … SET f WHERE pk = k AND p`. -/
def updateKey (t : Table key) (k : κ) (p : ρ → Bool) (f : ρ → ρ)
    (hf : ∀ r, key (f r) = key r) : Table key :=
  t.update (fun r => decide (key r = k) && p r) f hf

theorem find?_eq_none {t : Table key} {k : κ} :
    t.find? k = none ↔ ∀ r ∈ t.rows, key r ≠ k := by
  simp [find?, List.find?_eq_none]

/-- `INSERT … ON CONFLICT(pk) DO NOTHING`. -/
def insert (t : Table key) (r : ρ) : Table key :=
  if h : t.find? (key r) = none then
    ⟨t.rows ++ [r], by
      rw [List.map_append, List.map_singleton]
      refine List.Nodup.append t.nodup (List.nodup_singleton _) ?_
      intro k hk hk'
      obtain ⟨r', hr', rfl⟩ := List.mem_map.mp hk
      exact find?_eq_none.mp h r' hr' (List.mem_singleton.mp hk')⟩
  else t

/-! ## What a keyed lookup sees -/

@[simp] theorem find?_empty (k : κ) : (empty : Table key).find? k = none := rfl

theorem key_of_find? {t : Table key} {k : κ} {r : ρ} (h : t.find? k = some r) : key r = k := by
  simpa using List.find?_some h

theorem mem_of_find? {t : Table key} {k : κ} {r : ρ} (h : t.find? k = some r) : r ∈ t.rows :=
  List.mem_of_find?_eq_some h

/-- A row is found under its own key: the key pins the row. -/
theorem find?_key {t : Table key} {r : ρ} (h : r ∈ t.rows) : t.find? (key r) = some r := by
  obtain ⟨l, hn⟩ := t
  simp only [find?] at h ⊢
  induction l with
  | nil => cases h
  | cons a l ih =>
    simp only [List.map_cons, List.nodup_cons] at hn
    rcases List.mem_cons.mp h with rfl | h
    · simp
    · have hne : key a ≠ key r := fun he => hn.1 (he ▸ List.mem_map_of_mem h)
      simp only [List.find?_cons, hne, decide_false]
      exact ih hn.2 h

theorem find?_iff_mem {t : Table key} {k : κ} {r : ρ} :
    t.find? k = some r ↔ r ∈ t.rows ∧ key r = k :=
  ⟨fun h => ⟨mem_of_find? h, key_of_find? h⟩, fun h => h.2 ▸ find?_key h.1⟩

theorem hits_iff {t : Table key} {k : κ} {p : ρ → Bool} :
    t.hits k p = true ↔ ∃ r, t.find? k = some r ∧ p r = true := by
  simp [hits, Option.any_eq_true]

@[simp] theorem find?_update (t : Table key) (p : ρ → Bool) (f : ρ → ρ)
    (hf : ∀ r, key (f r) = key r) (k : κ) :
    (t.update p f hf).find? k = (t.find? k).map (fun r => if p r then f r else r) := by
  simp only [find?, update, List.find?_map]
  congr 1
  refine congrArg (fun q => List.find? q t.rows) (funext fun r => ?_)
  by_cases hp : p r <;> simp [hp, hf]

theorem find?_updateKey (t : Table key) (k : κ) (p : ρ → Bool) (f : ρ → ρ)
    (hf : ∀ r, key (f r) = key r) (j : κ) :
    (t.updateKey k p f hf).find? j =
      if j = k then (t.find? k).map (fun r => if p r then f r else r) else t.find? j := by
  rw [updateKey, find?_update]
  by_cases hj : j = k
  · subst hj
    rw [if_pos rfl]
    cases h : t.find? j with
    | none => rfl
    | some r => simp [key_of_find? h]
  · rw [if_neg hj]
    cases h : t.find? j with
    | none => rfl
    | some r => simp [key_of_find? h, hj]

@[simp] theorem find?_updateKey_self (t : Table key) (k : κ) (p : ρ → Bool) (f : ρ → ρ)
    (hf : ∀ r, key (f r) = key r) :
    (t.updateKey k p f hf).find? k = (t.find? k).map (fun r => if p r then f r else r) := by
  rw [find?_updateKey, if_pos rfl]

/-- The row an update hit is hit by what its new value satisfies. -/
theorem hits_updateKey_self {t : Table key} {k : κ} {p q : ρ → Bool} {f : ρ → ρ}
    {hf : ∀ r, key (f r) = key r} (h : t.hits k p = true)
    (hq : ∀ r, p r = true → q (f r) = true) : (t.updateKey k p f hf).hits k q = true := by
  obtain ⟨r, hr, hp⟩ := hits_iff.mp h
  refine hits_iff.mpr ⟨f r, ?_, hq r hp⟩
  rw [find?_updateKey_self, hr, Option.map_some, if_pos hp]

@[simp] theorem find?_updateKey_ne (t : Table key) {k j : κ} (p : ρ → Bool) (f : ρ → ρ)
    (hf : ∀ r, key (f r) = key r) (hj : j ≠ k) :
    (t.updateKey k p f hf).find? j = t.find? j := by
  rw [find?_updateKey, if_neg hj]

theorem find?_insert (t : Table key) (r : ρ) (k : κ) :
    (t.insert r).find? k =
      if k = key r then some ((t.find? (key r)).getD r) else t.find? k := by
  unfold insert
  split
  · next h =>
    simp only [find?, List.find?_append]
    by_cases hk : k = key r
    · subst hk
      have hn : List.find? (fun a => decide (key a = key r)) t.rows = none := h
      simp [hn]
    · simp [hk, Ne.symm hk]
  · next h =>
    by_cases hk : k = key r
    · subst hk
      obtain ⟨r', hr'⟩ := Option.ne_none_iff_exists'.mp h
      simp [hr']
    · rw [if_neg hk]

@[simp] theorem find?_insert_self (t : Table key) (r : ρ) :
    (t.insert r).find? (key r) = some ((t.find? (key r)).getD r) := by
  rw [find?_insert, if_pos rfl]

/-- A row that is there stays, whatever is inserted. -/
theorem find?_insert_of_some {t : Table key} {r r' : ρ} {k : κ} (h : t.find? k = some r') :
    (t.insert r).find? k = some r' := by
  rw [find?_insert]
  split
  · next hk => rw [← hk, h, Option.getD_some]
  · exact h

theorem find?_insert_ne (t : Table key) {r : ρ} {k : κ} (hk : k ≠ key r) :
    (t.insert r).find? k = t.find? k := by
  rw [find?_insert, if_neg hk]

theorem rows_insert {t : Table key} {r : ρ} (h : t.find? (key r) = none) :
    (t.insert r).rows = t.rows ++ [r] := by
  simp only [insert, h, dite_true]

/-- Inserting under a key that is taken does nothing. -/
theorem insert_of_find? {t : Table key} {r r' : ρ} (h : t.find? (key r) = some r') :
    t.insert r = t := by
  unfold insert
  rw [dif_neg (by simp [h])]

/-- Rows with `D` are found as before after an update that touches and leaves only rows
without it. -/
theorem find?_map_iff {D : ρ → Prop} {t t' : Table key} {p : ρ → Bool} {f : ρ → ρ}
    (hrows : t'.rows = t.rows.map fun r => if p r then f r else r) (hf : ∀ r, key (f r) = key r)
    (h : ∀ r, p r = true → ¬ D r ∧ ¬ D (f r)) {k : κ} {r : ρ} (hr : D r) :
    t'.find? k = some r ↔ t.find? k = some r := by
  have ht : t' = t.update p f hf := Table.ext hrows
  rw [ht, find?_update]
  cases t.find? k with
  | none => rfl
  | some r0 =>
    simp only [Option.map_some, Option.some.injEq]
    by_cases hp : p r0 = true
    · rw [if_pos hp]
      exact iff_of_false (fun he => (h r0 hp).2 (he ▸ hr)) fun he => (h r0 hp).1 (he ▸ hr)
    · rw [if_neg hp]

theorem find?_insert_iff {D : ρ → Prop} {t : Table key} {r0 : ρ} (h : ¬ D r0) {k : κ} {r : ρ}
    (hr : D r) : (t.insert r0).find? k = some r ↔ t.find? k = some r := by
  rw [find?_insert]
  split
  · next hk =>
    subst hk
    cases t.find? (key r0) with
    | none =>
      refine iff_of_false (fun he => ?_) (by simp)
      cases he
      exact h hr
    | some r1 => simp
  · rfl

/-- New rows with distinct new keys go to the end. -/
theorem rows_foldl_insert {l : List ρ} {t : Table key} (hl : (l.map key).Nodup)
    (hnew : ∀ r ∈ l, t.find? (key r) = none) :
    (l.foldl (fun t r => t.insert r) t).rows = t.rows ++ l := by
  induction l generalizing t with
  | nil => simp
  | cons r l ih =>
    simp only [List.map_cons, List.nodup_cons] at hl
    have hrows : (t.insert r).rows = t.rows ++ [r] := by
      unfold insert
      rw [dif_pos (hnew r List.mem_cons_self)]
    rw [List.foldl_cons, ih hl.2, hrows, List.append_assoc, List.singleton_append]
    intro r' hr'
    have hne : key r' ≠ key r := fun he => hl.1 (he ▸ List.mem_map_of_mem hr')
    rw [find?_insert, if_neg hne]
    exact hnew r' (List.mem_cons_of_mem _ hr')

theorem mem_insert {t : Table key} {r r' : ρ} :
    r' ∈ (t.insert r).rows ↔ r' ∈ t.rows ∨ (t.find? (key r) = none ∧ r' = r) := by
  unfold insert
  split
  · next h => simp [h]
  · next h => simp [h]

/-- What all rows and a new one have, all rows with the new one have. -/
theorem forall_insert {t : Table key} {r : ρ} {P : ρ → Prop} (ht : ∀ r ∈ t.rows, P r) (hr : P r) :
    ∀ r' ∈ (t.insert r).rows, P r' := by
  intro r' hr'
  rcases mem_insert.mp hr' with hr' | ⟨-, rfl⟩
  · exact ht r' hr'
  · exact hr

/-! ## Rows that keep a property -/

/-- Every row of `t` with the property `D` is found under its key in `t'`, and has it there. -/
def Keeps (D : ρ → Prop) (t t' : Table key) : Prop :=
  ∀ k r, t.find? k = some r → D r → ∃ r', t'.find? k = some r' ∧ D r'

section Keeps

variable {D : ρ → Prop} {t t' t'' : Table key}

theorem Keeps.refl : Keeps D t t := fun _ r hr hD => ⟨r, hr, hD⟩

theorem Keeps.trans (h : Keeps D t t') (h' : Keeps D t' t'') : Keeps D t t'' := by
  intro k r hr hD
  obtain ⟨r', hr', hD'⟩ := h k r hr hD
  exact h' k r' hr' hD'

theorem keeps_update {p : ρ → Bool} {f : ρ → ρ} {hf : ∀ r, key (f r) = key r}
    (h : ∀ r, D r → p r = true → D (f r)) : Keeps D t (t.update p f hf) := by
  intro k r hr hD
  refine ⟨if p r then f r else r, by rw [find?_update, hr, Option.map_some], ?_⟩
  by_cases hp : p r
  · rw [if_pos hp]
    exact h r hD hp
  · rwa [if_neg hp]

theorem Keeps.of_map {p : ρ → Bool} {f : ρ → ρ}
    (hrows : t'.rows = t.rows.map fun r => if p r then f r else r) (hf : ∀ r, key (f r) = key r)
    (h : ∀ r, D r → p r = true → D (f r)) : Keeps D t t' := by
  have ht : t' = t.update p f hf := Table.ext hrows
  rw [ht]
  exact keeps_update h

theorem keeps_updateKey {k : κ} {p : ρ → Bool} {f : ρ → ρ} {hf : ∀ r, key (f r) = key r}
    (h : ∀ r, D r → p r = true → D (f r)) : Keeps D t (t.updateKey k p f hf) :=
  keeps_update fun r hD hp => h r hD (Bool.and_eq_true_iff.mp hp).2

/-- The row an update hits is found with its new value. -/
theorem exists_of_update {k : κ} {r : ρ} {p : ρ → Bool} {f : ρ → ρ} (hr : t.find? k = some r)
    (hp : p r = true) (hrows : t'.rows = t.rows.map fun r => if p r then f r else r)
    (hf : ∀ r, key (f r) = key r) (hD : D (f r)) : ∃ r', t'.find? k = some r' ∧ D r' := by
  have ht : t' = t.update p f hf := Table.ext hrows
  refine ⟨f r, ?_, hD⟩
  rw [ht, find?_update, hr, Option.map_some, if_pos hp]

theorem exists_of_hits {k : κ} {p : ρ → Bool} {f : ρ → ρ} (h : t.hits k p = true)
    (hrows : t'.rows = t.rows.map fun r => if decide (key r = k) && p r then f r else r)
    (hf : ∀ r, key (f r) = key r) (hD : ∀ r, p r = true → D (f r)) :
    ∃ r', t'.find? k = some r' ∧ D r' := by
  obtain ⟨r, hr, hp⟩ := hits_iff.mp h
  exact exists_of_update hr (by simp [key_of_find? hr, hp]) hrows hf (hD r hp)

/-- A new row takes no other row's key. -/
theorem keeps_insert {r : ρ} : Keeps D t (t.insert r) := by
  intro k r' hr' hD
  refine ⟨r', ?_, hD⟩
  rw [find?_insert]
  split
  · next hk =>
    subst hk
    rw [hr', Option.getD_some]
  · exact hr'

end Keeps

end Table

/-! ## `ORDER BY … LIMIT 1` -/

section Pick

variable {α : Type}

/-- The rows no other row comes before. -/
def minimal (le : α → α → Bool) (l : List α) : List α :=
  l.filter (fun a => l.all (le a))

/-- `SELECT … ORDER BY le LIMIT 1`: one of the minimal rows, `tie` saying which. -/
def pick (le : α → α → Bool) (l : List α) (tie : Nat) : Option α :=
  (minimal le l)[tie % (minimal le l).length]?

theorem mem_minimal_of_pick {le : α → α → Bool} {l : List α} {tie : Nat} {a : α}
    (h : pick le l tie = some a) : a ∈ minimal le l :=
  List.mem_of_getElem? h

theorem mem_of_pick {le : α → α → Bool} {l : List α} {tie : Nat} {a : α}
    (h : pick le l tie = some a) : a ∈ l :=
  List.mem_of_mem_filter (mem_minimal_of_pick h)

/-- The picked row comes before every row it was picked from. -/
theorem le_of_pick {le : α → α → Bool} {l : List α} {tie : Nat} {a b : α}
    (h : pick le l tie = some a) (hb : b ∈ l) : le a b = true := by
  have hm := (List.mem_filter.mp (mem_minimal_of_pick h)).2
  exact List.all_eq_true.mp hm b hb

/-- Under a total order of the rows something is picked as long as there is a row. -/
theorem pick_ne_none {le : α → α → Bool} {l : List α} {tie : Nat}
    (htotal : ∀ a b, le a b = true ∨ le b a = true)
    (htrans : ∀ a b c, le a b = true → le b c = true → le a c = true) (h : l ≠ []) :
    pick le l tie ≠ none := by
  have hmin : ∃ a ∈ l, ∀ b ∈ l, le a b = true := by
    induction l with
    | nil => exact absurd rfl h
    | cons x l ih =>
      by_cases hl : l = []
      · subst hl
        exact ⟨x, by simp, by simpa using (htotal x x).elim id id⟩
      · obtain ⟨a, ha, hall⟩ := ih hl
        rcases htotal x a with hx | hx
        · refine ⟨x, by simp, fun b hb => ?_⟩
          rcases List.mem_cons.mp hb with rfl | hb
          · exact (htotal b b).elim id id
          · exact htrans x a b hx (hall b hb)
        · refine ⟨a, List.mem_cons_of_mem _ ha, fun b hb => ?_⟩
          rcases List.mem_cons.mp hb with rfl | hb
          · exact hx
          · exact hall b hb
  obtain ⟨a, ha, hall⟩ := hmin
  have hmem : a ∈ minimal le l := List.mem_filter.mpr ⟨ha, List.all_eq_true.mpr hall⟩
  have hlt : tie % (minimal le l).length < (minimal le l).length :=
    Nat.mod_lt _ (List.length_pos_of_mem hmem)
  rw [pick, List.getElem?_eq_getElem hlt]
  exact Option.some_ne_none _

@[simp] theorem pick_nil (le : α → α → Bool) (tie : Nat) : pick le [] tie = none := rfl

end Pick

end SignalPlane
