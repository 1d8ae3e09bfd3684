/-
SignalPlane.Pushscan.DecodingTheorems — hexadecimal text next to another digit.

A run of digits of odd length is matched without its last digit. The loops over
the start and the end of a match make up for one digit in front of an encoded
text together with one behind it, and the match itself leaves out a digit behind
it. A digit in front alone shifts the pairs, and the last digit of the text is
lost (`hex_decoded_iff`). Runs of digits are also read as base64, which never
gives as few bytes.
-/
import SignalPlane.Pushscan.Scanner

namespace SignalPlane.Pushscan

open GoString (Base64 HexText findAll findAll_append hexDecode hexEncode
  hexText_hexEncode hexValue isHexFold pathUnescape pathUnescape_cons)

/-! ## Digits -/

theorem isHexFold_spec : ∀ b : UInt8, isHexFold b = true → b ≠ 37 ∧ b ≠ 10 ∧ b ≠ 13 ∧ b ≠ 61 ∧
    Base64.isAlphabet b = true ∧ (hexValue b).any (· < 16) = true := by
  decide +kernel

section Digits

variable {w : GoString}

theorem pathUnescape_digits (hw : w.all isHexFold = true) : pathUnescape w = some w := by
  induction w with
  | nil => rfl
  | cons b w ih =>
    simp only [List.all_cons, Bool.and_eq_true] at hw
    rw [pathUnescape_cons (isHexFold_spec b hw.1).1, ih hw.2, Option.map_some]

theorem takeWhile_digits (hw : w.all isHexFold = true) : w.takeWhile isHexFold = w :=
  List.takeWhile_eq_self_iff.mpr (List.all_eq_true.mp hw)

theorem findAll_base64Run_digits (hw : w.all isHexFold = true) (hlength : 16 ≤ w.length) :
    findAll base64Run 0 w = [w] := by
  have hrun : base64Run w = w.length := by
    have htake : w.takeWhile Base64.isAlphabet = w :=
      List.takeWhile_eq_self_iff.mpr fun b hb =>
        (isHexFold_spec b (List.all_eq_true.mp hw b hb)).2.2.2.2.1
    simp only [base64Run, htake, List.drop_length, List.takeWhile_nil, List.length_nil]
    rw [if_pos hlength]
    omega
  have hne : w ≠ [] := List.ne_nil_of_length_pos (by omega)
  have hfound : findAll base64Run 0 (w ++ []) = w :: findAll base64Run 0 [] :=
    findAll_append hne (by rw [List.append_nil]; exact hrun)
  rwa [List.append_nil] at hfound

/-- Without padding, four characters are three bytes, and the last bytes take two or three. -/
theorem decodeQuanta_length {e : Base64} {bytes : List UInt8} (hw : 61 ∉ w)
    (h : e.decodeQuanta w = some bytes) : 3 * w.length ≤ 4 * bytes.length + 2 := by
  fun_induction Base64.decodeQuanta e w generalizing bytes with
  | case1 => simp
  | case4 =>
    obtain ⟨x, -, h⟩ := Option.bind_eq_some_iff.mp h
    obtain ⟨y, -, h⟩ := Option.bind_eq_some_iff.mp h
    cases h
    simp
  | case6 =>
    obtain ⟨x, -, h⟩ := Option.bind_eq_some_iff.mp h
    obtain ⟨y, -, h⟩ := Option.bind_eq_some_iff.mp h
    obtain ⟨z, -, h⟩ := Option.bind_eq_some_iff.mp h
    cases h
    simp
  | case7 a b c d rest w x y z hd hc hb ha ih =>
    obtain ⟨bytes', hbytes, rfl⟩ := Option.map_eq_some_iff.mp h
    have hrest := ih (fun h61 => hw (by simp [h61])) hbytes
    simp only [List.length_cons]
    omega
  | case8 _ _ _ _ _ _ _ _ _ _ _ _ hpadding | case10 _ _ _ _ _ _ _ _ _ _ hpadding =>
    simp only [Bool.and_eq_true, decide_eq_true_eq] at hpadding
    exact absurd (by simp [hpadding]) hw
  | _ => cases h

theorem decode_length {e : Base64} {bytes : List UInt8} (hw : w.all isHexFold = true)
    (h : e.decode w = some bytes) : 3 * w.length ≤ 4 * bytes.length + 2 := by
  have hspec := fun b hb => isHexFold_spec b (List.all_eq_true.mp hw b hb)
  have hkept : (w.filter fun b => b ≠ 10 && b ≠ 13) = w := by
    refine List.filter_eq_self.mpr fun b hb => ?_
    simp [(hspec b hb).2.1, (hspec b hb).2.2.1]
  rw [Base64.decode, hkept] at h
  exact decodeQuanta_length (fun hb => (hspec 61 hb).2.2.2.1 rfl) h

end Digits

/-! ## Shifted digits -/

theorem pair_spec : ∀ v : UInt8, v < 16 → ∀ b : UInt8,
    (v * 16 + b / 16 = b ↔ b = v * 16 + v) ∧ (b = v * 16 + v → b % 16 = v) := by
  decide +kernel

/-- Behind another digit the pairs are shifted, and read as the same bytes only if all digits are
equal. -/
theorem hexDecode_shifted {t h : GoString} (hh : HexText t h) (hne : t ≠ []) {c v : UInt8}
    (hc : hexValue c = some v) (hv : v < 16) :
    hexDecode (c :: h.dropLast) = some t ↔ ∀ b ∈ t, b = v * 16 + v := by
  induction hh generalizing c v with
  | nil => exact absurd rfl hne
  | @cons b x y bytes s hx hy hrest ih =>
    have hx' := (hx.spec (GoString.div_lt_sixteen b)).1
    have hy' := (hy.spec (GoString.mod_lt_sixteen b)).1
    have hpair := pair_spec v hv b
    cases hrest with
    | nil => simp [hexDecode, hc, hx', hpair.1]
    | @cons b' x' y' bytes' s' _ _ _ =>
      have ih := ih (List.cons_ne_nil _ _) hy' (GoString.mod_lt_sixteen b)
      have hlast : (x :: y :: x' :: y' :: s').dropLast = x :: y :: (x' :: y' :: s').dropLast := rfl
      rw [hlast, List.forall_mem_cons, ← hpair.1]
      simp only [hexDecode, hc, hx', Option.bind_eq_bind, Option.bind_some]
      constructor
      · intro hdecode
        obtain ⟨bytes, hbytes, hcons⟩ := Option.bind_eq_some_iff.mp hdecode
        obtain ⟨hb, rfl⟩ := List.cons_eq_cons.mp (Option.some.inj hcons)
        rw [hpair.2 (hpair.1.mp hb)] at ih
        exact ⟨hb, ih.mp hbytes⟩
      · rintro ⟨hb, hrest⟩
        rw [hpair.2 (hpair.1.mp hb)] at ih
        rw [ih.mpr hrest, Option.bind_some, hb]
        rfl

theorem hexDecode_length {w bytes : GoString} (h : hexDecode w = some bytes) :
    w.length = 2 * bytes.length := by
  fun_induction hexDecode w generalizing bytes with
  | case1 =>
    cases h
    rfl
  | case2 => cases h
  | case3 a b rest ih =>
    obtain ⟨high, -, h⟩ := Option.bind_eq_some_iff.mp h
    obtain ⟨low, -, h⟩ := Option.bind_eq_some_iff.mp h
    obtain ⟨bytes', hbytes, h⟩ := Option.bind_eq_some_iff.mp h
    cases h
    have hrest := ih hbytes
    simp only [List.length_cons]
    omega

/-! ## The decodings of digits -/

theorem mem_slices {n : Nat} (hn : 0 < n) (s : GoString) : s ∈ slices n s := by
  simp only [slices, List.mem_flatMap, List.mem_map, List.mem_range]
  exact ⟨0, hn, 0, hn, by simp⟩

theorem mem_slices_iff {n : Nat} {s w : GoString} : s ∈ slices n w ↔
    ∃ start cut, start < n ∧ cut < n ∧ s = (w.drop start).take (w.length - start - cut) := by
  simp only [slices, List.mem_flatMap, List.mem_map, List.mem_range]
  exact ⟨fun ⟨start, hstart, cut, hcut, h⟩ => ⟨start, cut, hstart, hcut, h.symm⟩,
    fun ⟨start, cut, hstart, hcut, h⟩ => ⟨start, hstart, cut, hcut, h.symm⟩⟩

theorem hexRun_digits {w v : GoString} (hw : (w ++ v).all isHexFold = true)
    (hlength : 24 ≤ w.length) (heven : w.length % 2 = 0) (hv : v.length ≤ 1) :
    findAll hexRun 0 (w ++ v) = [w] := by
  have hrun : hexRun (w ++ v) = w.length := by
    simp only [hexRun, takeWhile_digits hw, List.length_append]
    rw [if_pos (by omega)]
    omega
  have hrest : findAll hexRun 0 v = [] := by
    cases v with
    | nil => rfl
    | cons d v =>
      obtain rfl : v = [] := List.length_eq_zero_iff.mp (by simpa using hv)
      have hshort : hexRun [d] = 0 := by
        unfold hexRun
        rw [if_neg]
        have hle := (List.takeWhile_sublist (l := [d]) isHexFold).length_le
        simp only [List.length_singleton] at hle
        omega
      rw [findAll, hshort]
      rfl
  rw [findAll_append (List.ne_nil_of_length_pos (by omega)) hrun, hrest]

/-- What is as long as half of the digits comes from the hexadecimal pairs of the match `w`. -/
theorem mem_decodings_digits {t w v : GoString} (hw : (w ++ v).all isHexFold = true)
    (hlength : 24 ≤ w.length) (heven : w.length % 2 = 0) (hv : v.length ≤ 1)
    (ht : 2 * t.length ≤ w.length + v.length) :
    t ∈ reversibleDecodings (w ++ v) ↔
      ∃ s ∈ slices 2 w, 24 ≤ s.length ∧ s.length % 2 = 0 ∧ hexDecode s = some t := by
  have hpath : ((pathUnescape (w ++ v)).filter fun decoded => decoded ≠ w ++ v) = none := by
    simp [pathUnescape_digits hw]
  have hbase64 : findAll base64Run 0 (w ++ v) = [w ++ v] :=
    findAll_base64Run_digits hw (by rw [List.length_append]; omega)
  simp only [reversibleDecodings, hpath, hexRun_digits hw hlength heven hv, hbase64,
    Option.toList_none, List.nil_append, List.flatMap_singleton, List.mem_append,
    List.mem_filterMap, List.mem_flatMap]
  constructor
  · rintro (⟨s, hs, hdecode⟩ | ⟨s, hs, hmem⟩)
    · split at hdecode
      · cases hdecode
      · exact ⟨s, hs, by omega, by omega, hdecode⟩
    · -- As base64 the digits are more bytes than that.
      exfalso
      split at hmem
      · cases hmem
      · obtain ⟨e, -, hdecode⟩ := List.mem_filterMap.mp hmem
        obtain ⟨start, cut, hstart, hcut, rfl⟩ := mem_slices_iff.mp hs
        have hdigits :
            (((w ++ v).drop start).take ((w ++ v).length - start - cut)).all isHexFold = true := by
          rw [List.all_eq_true] at hw ⊢
          exact fun b hb => hw b (List.mem_of_mem_drop (List.mem_of_mem_take hb))
        have hmany := decode_length hdigits hdecode
        simp only [List.length_take, List.length_drop, List.length_append] at hmany
        omega
  · rintro ⟨s, hs, hlong, hpairs, hdecode⟩
    exact .inl ⟨s, hs, by rw [if_neg (by omega)]; exact hdecode⟩

/-- Hexadecimal text of at least twelve bytes is decoded, whatever digit stands behind it. Behind a
single digit it is decoded only with a digit behind it too, or if all digits are equal. -/
theorem hex_decoded_iff {t h p s : GoString} (hh : HexText t h) (ht : 12 ≤ t.length)
    (hp : p.all isHexFold = true) (hp' : p.length ≤ 1) (hs : s.all isHexFold = true)
    (hs' : s.length ≤ 1) :
    t ∈ reversibleDecodings (p ++ h ++ s) ↔
      p = [] ∨ s ≠ [] ∨ ∃ v, (∀ c ∈ p, hexValue c = some v) ∧ ∀ b ∈ t, b = v * 16 + v := by
  have hlength := hh.length
  cases p with
  | nil =>
    have hw : (h ++ s).all isHexFold = true := by simp [List.all_append, hh.all, hs]
    refine iff_of_true ?_ (.inl rfl)
    rw [List.nil_append]
    refine (mem_decodings_digits hw (by omega) (by omega) hs' (by omega)).mpr ?_
    exact ⟨h, mem_slices (by omega) h, by omega, by omega, hh.decode⟩
  | cons c p =>
    obtain rfl : p = [] := List.length_eq_zero_iff.mp (by simpa using hp')
    have hc : isHexFold c = true := by simpa using hp
    cases s with
    | cons d s =>
      obtain rfl : s = [] := List.length_eq_zero_iff.mp (by simpa using hs')
      have hw : (c :: h ++ [d] ++ []).all isHexFold = true := by
        simpa [List.all_append, hh.all, hc] using hs
      refine iff_of_true ?_ (.inr (.inl (List.cons_ne_nil d [])))
      rw [List.singleton_append, ← List.append_nil (c :: h ++ [d])]
      refine (mem_decodings_digits hw ?_ ?_ (Nat.zero_le _) ?_).mpr ⟨h, ?_, by omega, by omega,
        hh.decode⟩
      · simp only [List.length_append, List.length_cons, List.length_nil]
        omega
      · simp only [List.length_append, List.length_cons, List.length_nil]
        omega
      · simp only [List.length_append, List.length_cons, List.length_nil]
        omega
      · refine mem_slices_iff.mpr ⟨1, 1, by omega, by omega, ?_⟩
        simp
    | nil =>
      -- The match ends before the last digit.
      have hne : h ≠ [] := List.ne_nil_of_length_pos (by omega)
      have hsplit : [c] ++ h ++ [] = c :: h.dropLast ++ [h.getLast hne] := by
        rw [List.append_nil, List.singleton_append, List.cons_append,
          List.dropLast_append_getLast hne]
      have hshort : (c :: h.dropLast).length = 2 * t.length := by
        rw [List.length_cons, List.length_dropLast]
        omega
      have hw : (c :: h.dropLast ++ [h.getLast hne]).all isHexFold = true := by
        rw [← hsplit]
        simp [hc, hh.all]
      obtain ⟨v, hv, hlt⟩ := Option.any_eq_true _ _ |>.mp (isHexFold_spec c hc).2.2.2.2.2
      rw [hsplit, mem_decodings_digits hw (by omega) (by omega) (by simp) (by omega)]
      -- Only the whole match has as many pairs as the text.
      have hwhole : (∃ s ∈ slices 2 (c :: h.dropLast), 24 ≤ s.length ∧ s.length % 2 = 0 ∧
          hexDecode s = some t) ↔ hexDecode (c :: h.dropLast) = some t := by
        constructor
        · rintro ⟨s, hmem, -, -, hdecode⟩
          obtain ⟨start, cut, hstart, hcut, rfl⟩ := mem_slices_iff.mp hmem
          have hpairs := hexDecode_length hdecode
          rw [List.length_take, List.length_drop] at hpairs
          obtain rfl : start = 0 := by omega
          obtain rfl : cut = 0 := by omega
          rw [Nat.sub_zero, Nat.sub_zero, List.drop_zero, List.take_length] at hdecode
          exact hdecode
        · exact fun hdecode => ⟨_, mem_slices (by omega) _, by omega, by omega, hdecode⟩
      rw [hwhole, hexDecode_shifted hh (List.ne_nil_of_length_pos (by omega)) hv
        (of_decide_eq_true hlt)]
      constructor
      · exact fun hall => .inr (.inr ⟨v, by simpa using hv, hall⟩)
      · rintro (hnil | hnil | ⟨v', hv', hall⟩)
        · cases hnil
        · exact absurd rfl hnil
        · obtain rfl : v = v' := Option.mem_unique hv (hv' c List.mem_cons_self)
          exact hall

/-- Digits on both sides. -/
theorem hex_decoded_between :
    lit "secret-token" ∈
      reversibleDecodings (lit "a" ++ hexEncode (lit "secret-token") ++ lit "b") :=
  (hex_decoded_iff (hexText_hexEncode _) (by decide) (by decide) (by decide) (by decide)
    (by decide)).mpr (.inr (.inl (by decide)))

/-- One digit in front of the text hides it. -/
theorem shifted_hex_hidden :
    lit "secret-token" ∉ reversibleDecodings (lit "a" ++ hexEncode (lit "secret-token")) := by
  decide +kernel

end SignalPlane.Pushscan
