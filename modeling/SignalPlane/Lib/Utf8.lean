/-
SignalPlane.Lib.Utf8 — what `utf8.ValidString` accepts, and texts made valid.

`Utf8 s` says that `s` is a sequence of whole runes; it is what the loop of
`utf8.ValidString` decides (`validUTF8_iff`). A rune is determined by its own
bytes, so valid texts can be put side by side (`Utf8.append`), which is all
that a proof about a rendered text needs. The second half is about the two
ways a program makes a text valid: `strings.ToValidUTF8`, and cutting bytes off
the end until what is left is valid. Both give a valid text, and neither makes
a text empty that was not.
-/
import SignalPlane.Lib.GoString

namespace SignalPlane

variable {r replacement s : GoString} {n : Nat}

namespace GoString

/-! ## Runes -/

/-- The bytes of one rune. -/
inductive IsRune : GoString → Prop where
  | one {b₀ : UInt8} (h : b₀ < 0x80) : IsRune [b₀]
  | two {b₀ b₁ : UInt8} (h₀ : ¬ b₀ < 0x80) (h : isTwo b₀ b₁ = true) : IsRune [b₀, b₁]
  | three {b₀ b₁ b₂ : UInt8} (h₀ : ¬ b₀ < 0x80) (h₁ : ¬ isTwo b₀ b₁ = true)
      (h : isThree b₀ b₁ b₂ = true) : IsRune [b₀, b₁, b₂]
  | four {b₀ b₁ b₂ b₃ : UInt8} (h₀ : ¬ b₀ < 0x80) (h₁ : ¬ isTwo b₀ b₁ = true)
      (h₂ : ¬ isThree b₀ b₁ b₂ = true) (h : isFour b₀ b₁ b₂ b₃ = true) : IsRune [b₀, b₁, b₂, b₃]

/-- A rune is read from its own bytes, whatever follows. -/
theorem IsRune.runeLen_append (h : IsRune r) (s : GoString) : runeLen (r ++ s) = r.length := by
  cases h with
  | one h => simp [runeLen, h]
  | two h0 h => simp [runeLen, h0, h]
  | three h0 h1 h => simp [runeLen, h0, h1, h]
  | four h0 h1 h2 h => simp [runeLen, h0, h1, h2, h]

theorem IsRune.length_pos (h : IsRune r) : 0 < r.length := by
  cases h <;> simp

theorem IsRune.length_le (h : IsRune r) : r.length ≤ 4 := by
  cases h <;> simp

/-- What `runeLen` finds is a rune. -/
theorem exists_rune (h : runeLen s ≠ 0) : ∃ r t, s = r ++ t ∧ IsRune r := by
  unfold runeLen at h
  split at h
  · exact absurd rfl h
  next b0 s =>
  split at h
  · next h0 => exact ⟨[b0], s, rfl, .one h0⟩
  next h0 =>
  split at h
  · exact absurd rfl h
  next b1 s =>
  split at h
  · next h1 => exact ⟨[b0, b1], s, rfl, .two h0 h1⟩
  next h1 =>
  split at h
  · exact absurd rfl h
  next b2 s =>
  split at h
  · next h2 => exact ⟨[b0, b1, b2], s, rfl, .three h0 h1 h2⟩
  next h2 =>
  split at h
  · exact absurd rfl h
  next b3 s =>
  split at h
  · next h3 => exact ⟨[b0, b1, b2, b3], s, rfl, .four h0 h1 h2 h3⟩
  · exact absurd rfl h

/-! ## Valid texts -/

/-- A sequence of whole runes. -/
inductive Utf8 : GoString → Prop where
  | nil : Utf8 []
  | rune {r s : GoString} (hr : IsRune r) (hs : Utf8 s) : Utf8 (r ++ s)

theorem Utf8.append {t : GoString} (hs : Utf8 s) (ht : Utf8 t) : Utf8 (s ++ t) := by
  induction hs with
  | nil => exact ht
  | rune hr _ ih =>
    rw [List.append_assoc]
    exact .rune hr ih

/-- A text of ASCII bytes. -/
theorem utf8_of_ascii (h : ∀ b ∈ s, b < 0x80) : Utf8 s := by
  induction s with
  | nil => exact .nil
  | cons b s ih =>
    exact .rune (.one (h b List.mem_cons_self)) (ih fun c hc => h c (List.mem_cons_of_mem b hc))

theorem Utf8.join {parts : List GoString} {sep : GoString} (hsep : Utf8 sep)
    (h : ∀ p ∈ parts, Utf8 p) : Utf8 (join parts sep) := by
  unfold GoString.join
  induction parts with
  | nil => exact .nil
  | cons p parts ih =>
    cases parts with
    | nil => simpa [List.intercalate] using h p List.mem_cons_self
    | cons q parts =>
      have hp := h p List.mem_cons_self
      have htail := ih fun r hr => h r (List.mem_cons_of_mem p hr)
      rw [List.intercalate_cons_cons]
      exact (hp.append hsep).append htail

theorem validLoop_iff (hn : s.length ≤ n) : validLoop n s = true ↔ Utf8 s := by
  induction n generalizing s with
  | zero =>
    obtain rfl := List.length_eq_zero_iff.mp (Nat.le_zero.mp hn)
    exact iff_of_true rfl .nil
  | succ n ih =>
    cases s with
    | nil => exact iff_of_true rfl .nil
    | cons b s =>
      have hloop : validLoop (n + 1) (b :: s) = if runeLen (b :: s) = 0 then false
          else validLoop n ((b :: s).drop (runeLen (b :: s))) := rfl
      rw [hloop]
      by_cases hw : runeLen (b :: s) = 0
      · rw [if_pos hw]
        refine iff_of_false (by decide) fun h => ?_
        generalize hbs : b :: s = bs at h hw
        cases h with
        | nil => cases hbs
        | @rune r t hr _ =>
          rw [hr.runeLen_append] at hw
          exact absurd hr.length_pos (by omega)
      · rw [if_neg hw]
        obtain ⟨r, t, hrt, hr⟩ := exists_rune hw
        have hlen := congrArg List.length hrt
        rw [List.length_append, List.length_cons] at hlen
        have hpos := hr.length_pos
        have hdrop : (b :: s).drop (runeLen (b :: s)) = t := by
          rw [hrt, hr.runeLen_append, List.drop_left]
        rw [hdrop, ih (by rw [List.length_cons] at hn; omega)]
        refine ⟨fun ht => hrt ▸ .rune hr ht, fun h => ?_⟩
        -- The first rune is the only one that can be read.
        rw [hrt] at h
        generalize hbs : r ++ t = bs at h
        cases h with
        | nil => exact absurd (List.append_eq_nil_iff.mp hbs).1 (by intro h; simp [h] at hpos)
        | @rune r' t' hr' ht' =>
          have hsame : r.length = r'.length := by
            rw [← hr.runeLen_append t, hbs, hr'.runeLen_append]
          rwa [(List.append_inj hbs hsame).2]

theorem validUTF8_iff : validUTF8 s = true ↔ Utf8 s := validLoop_iff le_rfl

/-! ## Texts made valid -/

/-- `strings.ToValidUTF8` with a valid replacement gives a valid text. -/
theorem utf8_toValidLoop (hr : Utf8 replacement) (n : Nat) (invalid : Bool) (s : GoString) :
    Utf8 (toValidLoop replacement n invalid s) := by
  induction n generalizing invalid s with
  | zero => cases s <;> exact .nil
  | succ n ih =>
    cases s with
    | nil => exact .nil
    | cons b s =>
      simp only [toValidLoop]
      split
      · refine Utf8.append ?_ (ih _ _)
        split
        · exact .nil
        · exact hr
      · next hw =>
        obtain ⟨r, t, hrt, hrune⟩ := exists_rune hw
        have htake : (b :: s).take (runeLen (b :: s)) = r := by
          rw [hrt, hrune.runeLen_append, List.take_left]
        rw [htake]
        exact .rune hrune (ih _ _)

theorem utf8_toValidUTF8 (hr : Utf8 replacement) :
    Utf8 (toValidUTF8 s replacement) := utf8_toValidLoop hr _ _ _

theorem toValidUTF8_ne_nil (hs : s ≠ []) (hr : replacement ≠ []) :
    toValidUTF8 s replacement ≠ [] := by
  cases s with
  | nil => exact absurd rfl hs
  | cons b s =>
    simp only [toValidUTF8, List.length_cons, toValidLoop]
    split
    · exact List.append_ne_nil_of_left_ne_nil (by simpa using hr) _
    · next hw =>
      refine List.append_ne_nil_of_left_ne_nil (fun h => ?_) _
      rcases List.take_eq_nil_iff.mp h with h | h
      · exact hw h
      · cases h

/-- Cutting bytes off the end ends in a valid text. -/
theorem utf8_trimToValid (hn : s.length ≤ n) : Utf8 (trimToValid n s) := by
  induction n generalizing s with
  | zero =>
    obtain rfl := List.length_eq_zero_iff.mp (Nat.le_zero.mp hn)
    exact .nil
  | succ n ih =>
    simp only [trimToValid]
    split
    · next h => exact validUTF8_iff.mp h
    · exact ih (by rw [List.length_dropLast]; omega)

theorem length_trimToValid (n : Nat) (s : GoString) : (trimToValid n s).length ≤ s.length := by
  induction n generalizing s with
  | zero => exact le_rfl
  | succ n ih =>
    simp only [trimToValid]
    split
    · exact le_rfl
    · refine (ih s.dropLast).trans ?_
      rw [List.length_dropLast]
      omega

/-- A valid start is never cut. -/
theorem trimToValid_ne_nil {p : GoString} (hp : p <+: s) (hvalid : Utf8 p) (hne : p ≠ []) :
    trimToValid n s ≠ [] := by
  induction n generalizing s with
  | zero =>
    rintro rfl
    exact hne (List.prefix_nil.mp hp)
  | succ n ih =>
    simp only [trimToValid]
    split
    · rintro rfl
      exact hne (List.prefix_nil.mp hp)
    · next hinvalid =>
      refine ih ?_
      obtain ⟨t, rfl⟩ := hp
      cases t using List.reverseRecOn with
      | nil =>
        rw [List.append_nil] at hinvalid
        exact absurd (validUTF8_iff.mpr hvalid) hinvalid
      | append_singleton t b =>
        rw [← List.append_assoc, List.dropLast_concat]
        exact List.prefix_append p t

/-- A valid text cut to at most `n` bytes still has its first rune. -/
theorem trimToValid_take_ne_nil {m : Nat} (hs : Utf8 s) (hne : s ≠ []) (hm : 4 ≤ m) :
    trimToValid n (s.take m) ≠ [] := by
  cases hs with
  | nil => exact absurd rfl hne
  | @rune r t hr ht =>
    refine trimToValid_ne_nil (p := r) ?_ (by simpa using Utf8.rune hr .nil) ?_
    · rw [List.take_append, List.take_of_length_le (hr.length_le.trans hm)]
      exact List.prefix_append _ _
    · intro h
      simpa [h] using hr.length_pos

end GoString

end SignalPlane
