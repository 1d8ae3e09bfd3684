/-
SignalPlane.Lib.GoString — Go strings as byte sequences.

A Go string is an arbitrary byte sequence; whether it is UTF-8 is a property
a program may or may not check. Keeping the bytes is what makes length
bounds, truncation at a byte index and `utf8.ValidString` mean what they mean
in Go. The standard-library functions modelled here are the ones the
dispatcher and the ledger call on strings: `utf8.ValidString`,
`strings.ToValidUTF8`, `strings.TrimSpace`, `strings.Join` and the `%d` verb.

The one result other modules build on is `decimal_sep_inj`: a decimal number
followed by a separator that is no digit can be read back, so keys of the
form `…%d:%s` are injective.
-/
import Mathlib

namespace SignalPlane

/-- A Go string: any sequence of bytes. -/
abbrev GoString := List UInt8

/-- The bytes of a source literal. -/
def lit (s : String) : GoString := s.toUTF8.data.toList

instance : Coe String GoString := ⟨lit⟩

-- Named here, so that every membership test below uses the same instance.
instance : LawfulBEq GoString := inferInstance

namespace GoString

/-! ## UTF-8 -/

/-- A continuation byte. -/
def isCont (b : UInt8) : Bool := 0x80 ≤ b && b ≤ 0xBF

/-- Whether `b₀ b₁` begins a two-byte rune. -/
def isTwo (b₀ b₁ : UInt8) : Bool := 0xC2 ≤ b₀ && b₀ ≤ 0xDF && isCont b₁

/-- Whether `b₀ b₁ b₂` is a three-byte rune: overlong forms and surrogates are excluded. -/
def isThree (b₀ b₁ b₂ : UInt8) : Bool :=
  isCont b₂ &&
    (if b₀ = 0xE0 then 0xA0 ≤ b₁ && b₁ ≤ 0xBF
     else if b₀ = 0xED then 0x80 ≤ b₁ && b₁ ≤ 0x9F
     else 0xE1 ≤ b₀ && b₀ ≤ 0xEF && isCont b₁)

/-- Whether `b₀ b₁ b₂ b₃` is a four-byte rune, at most U+10FFFF. -/
def isFour (b₀ b₁ b₂ b₃ : UInt8) : Bool :=
  isCont b₂ && isCont b₃ &&
    (if b₀ = 0xF0 then 0x90 ≤ b₁ && b₁ ≤ 0xBF
     else if b₀ = 0xF4 then 0x80 ≤ b₁ && b₁ ≤ 0x8F
     else 0xF1 ≤ b₀ && b₀ ≤ 0xF3 && isCont b₁)

/-- The width in bytes of the valid rune at the head, or 0 when there is none. -/
def runeLen : GoString → Nat
  | [] => 0
  | b₀ :: rest =>
    if b₀ < 0x80 then 1
    else match rest with
      | [] => 0
      | b₁ :: rest =>
        if isTwo b₀ b₁ then 2
        else match rest with
          | [] => 0
          | b₂ :: rest =>
            if isThree b₀ b₁ b₂ then 3
            else match rest with
              | [] => 0
              | b₃ :: _ => if isFour b₀ b₁ b₂ b₃ then 4 else 0

/-- The loop of `utf8.ValidString`; the fuel is the number of bytes left. -/
def validLoop : Nat → GoString → Bool
  | _, [] => true
  | 0, _ :: _ => false
  | n + 1, s => if runeLen s = 0 then false else validLoop n (s.drop (runeLen s))

/-- `utf8.ValidString`. -/
def validUTF8 (s : GoString) : Bool := validLoop s.length s

/-- The loop of `strings.ToValidUTF8`: a run of invalid bytes gives one replacement. -/
def toValidLoop (replacement : GoString) : Nat → Bool → GoString → GoString
  | _, _, [] => []
  | 0, _, _ :: _ => []
  | n + 1, invalid, b :: rest =>
    let w := runeLen (b :: rest)
    if w = 0 then
      (if invalid then [] else replacement) ++ toValidLoop replacement n true rest
    else (b :: rest).take w ++ toValidLoop replacement n false ((b :: rest).drop w)

/-- `strings.ToValidUTF8(s, replacement)`. -/
def toValidUTF8 (s replacement : GoString) : GoString :=
  toValidLoop replacement s.length false s

/-- `for !utf8.ValidString(s) { s = s[:len(s)-1] }`. -/
def trimToValid : Nat → GoString → GoString
  | 0, s => s
  | n + 1, s => if validUTF8 s then s else trimToValid n s.dropLast

/-! ## White space -/

/-- The width of the white-space rune at the head, or 0 when there is none. -/
def spaceLen : GoString → Nat
  | b₀ :: rest =>
    if (9 ≤ b₀ && b₀ ≤ 13) || b₀ = 32 then 1
    else match rest with
      | b₁ :: rest =>
        if b₀ = 0xC2 && (b₁ = 0x85 || b₁ = 0xA0) then 2
        else match rest with
          | b₂ :: _ =>
            if (b₀ = 0xE1 && b₁ = 0x9A && b₂ = 0x80) ||
                (b₀ = 0xE2 && b₁ = 0x80 &&
                  ((0x80 ≤ b₂ && b₂ ≤ 0x8A) || b₂ = 0xA8 || b₂ = 0xA9 || b₂ = 0xAF)) ||
                (b₀ = 0xE2 && b₁ = 0x81 && b₂ = 0x9F) ||
                (b₀ = 0xE3 && b₁ = 0x80 && b₂ = 0x80) then 3
            else 0
          | [] => 0
      | [] => 0
  | [] => 0

/-- The width of the white-space rune at the end, or 0 when there is none. -/
def spaceLenEnd (s : GoString) : Nat :=
  if spaceLen (s.drop (s.length - 1)) = 1 then 1
  else if spaceLen (s.drop (s.length - 2)) = 2 then 2
  else if spaceLen (s.drop (s.length - 3)) = 3 then 3
  else 0

/-- Drop leading white space. -/
def trimLeft : Nat → GoString → GoString
  | 0, s => s
  | n + 1, s => if spaceLen s = 0 then s else trimLeft n (s.drop (spaceLen s))

/-- Drop trailing white space. -/
def trimRight : Nat → GoString → GoString
  | 0, s => s
  | n + 1, s =>
    if spaceLenEnd s = 0 then s else trimRight n (s.take (s.length - spaceLenEnd s))

/-- `strings.TrimSpace`. -/
def trimSpace (s : GoString) : GoString :=
  trimRight s.length (trimLeft s.length s)

/-- `strings.Join(parts, sep)`. -/
def join (parts : List GoString) (sep : GoString) : GoString := sep.intercalate parts

/-! ## Decimal numbers -/

/-- The byte of an ASCII character. -/
def asciiByte (c : Char) : UInt8 := c.toNat.toUInt8

/-- The `%d` verb on a natural number. -/
def decimalNat (n : Nat) : GoString := (Nat.toDigits 10 n).map asciiByte

/-- The `%d` verb. -/
def decimal : Int → GoString
  | .ofNat n => decimalNat n
  | .negSucc n => 45 :: decimalNat (n + 1)

/-- An ASCII digit or the minus sign. -/
def isDecimalByte (b : UInt8) : Bool := b = 45 || (48 ≤ b && b ≤ 57)

theorem asciiByte_digit {c : Char} (h : c.isDigit = true) :
    (asciiByte c).toNat = c.toNat ∧ 48 ≤ c.toNat ∧ c.toNat ≤ 57 := by
  have hc : 48 ≤ c.toNat ∧ c.toNat ≤ 57 := by
    simp only [Char.isDigit, Bool.and_eq_true, decide_eq_true_eq] at h
    exact ⟨h.1, h.2⟩
  refine ⟨?_, hc⟩
  simp only [asciiByte, Nat.toUInt8_eq, UInt8.toNat_ofNat']
  omega

theorem isDecimalByte_of_mem_decimalNat {n : Nat} {b : UInt8} (h : b ∈ decimalNat n) :
    48 ≤ b.toNat ∧ b.toNat ≤ 57 := by
  obtain ⟨c, hc, rfl⟩ := List.mem_map.mp h
  have hd := asciiByte_digit (Nat.isDigit_of_mem_toDigits (by decide) (by decide) hc)
  omega

theorem isDecimalByte_of_mem_decimal {z : Int} {b : UInt8} (h : b ∈ decimal z) :
    isDecimalByte b = true := by
  have digit : ∀ {n : Nat}, b ∈ decimalNat n → isDecimalByte b = true := by
    intro n hb
    have := isDecimalByte_of_mem_decimalNat hb
    simp only [isDecimalByte, Bool.or_eq_true, Bool.and_eq_true, decide_eq_true_eq,
      UInt8.le_iff_toNat_le]
    exact .inr this
  cases z with
  | ofNat n => exact digit h
  | negSucc n =>
    rcases List.mem_cons.mp h with rfl | h
    · rfl
    · exact digit h

theorem map_asciiByte_inj {l1 l2 : List Char} (h1 : ∀ c ∈ l1, c.isDigit = true)
    (h2 : ∀ c ∈ l2, c.isDigit = true) (h : l1.map asciiByte = l2.map asciiByte) : l1 = l2 := by
  induction l1 generalizing l2 with
  | nil => simpa using h.symm
  | cons a l1 ih =>
    cases l2 with
    | nil => simp at h
    | cons b l2 =>
      simp only [List.map_cons, List.cons.injEq] at h
      have ha := asciiByte_digit (h1 a (by simp))
      have hb := asciiByte_digit (h2 b (by simp))
      have hab : a.toNat = b.toNat := by rw [← ha.1, ← hb.1, h.1]
      rw [Char.toNat_inj.mp hab, ih (fun c hc => h1 c (by simp [hc]))
        (fun c hc => h2 c (by simp [hc])) h.2]

theorem decimalNat_injective {m n : Nat} (h : decimalNat m = decimalNat n) : m = n := by
  have hd : Nat.toDigits 10 m = Nat.toDigits 10 n :=
    map_asciiByte_inj (fun _ hc => Nat.isDigit_of_mem_toDigits (by decide) (by decide) hc)
      (fun _ hc => Nat.isDigit_of_mem_toDigits (by decide) (by decide) hc) h
  have := congrArg (fun ds => Nat.ofDigitChars 10 ds 0) hd
  simpa using this

theorem decimal_injective {a b : Int} (h : decimal a = decimal b) : a = b := by
  -- A minus sign is no digit, so the two signs agree.
  have sign : ∀ {m n : Nat}, decimalNat m ≠ 45 :: decimalNat n := by
    intro m n he
    have := isDecimalByte_of_mem_decimalNat (n := m) (b := 45) (he ▸ List.mem_cons_self)
    simp at this
  cases a with
  | ofNat m =>
    cases b with
    | ofNat n => rw [decimalNat_injective h]
    | negSucc n => exact absurd h sign
  | negSucc m =>
    cases b with
    | ofNat n => exact absurd h.symm sign
    | negSucc n =>
      have := decimalNat_injective (List.cons.inj h).2
      rw [Nat.succ.inj this]

/-- Two texts that agree up to the first byte outside a class agree before and after it. -/
theorem append_sep_inj {p : UInt8 → Bool} {sep : UInt8} (hsep : p sep = false) :
    ∀ {u v x y : GoString}, (∀ b ∈ u, p b = true) → (∀ b ∈ v, p b = true) →
      u ++ sep :: x = v ++ sep :: y → u = v ∧ x = y
  | [], [], _, _, _, _, h => ⟨rfl, (List.cons.inj h).2⟩
  | [], b :: v, _, _, _, hv, h => by
      have := hv b (by simp)
      rw [← (List.cons.inj h).1, hsep] at this
      exact absurd this (by decide)
  | a :: u, [], _, _, hu, _, h => by
      have := hu a (by simp)
      rw [(List.cons.inj h).1, hsep] at this
      exact absurd this (by decide)
  | a :: u, b :: v, x, y, hu, hv, h => by
      obtain ⟨hab, ht⟩ := List.cons.inj h
      obtain ⟨huv, hxy⟩ := append_sep_inj hsep (fun c hc => hu c (by simp [hc]))
        (fun c hc => hv c (by simp [hc])) ht
      exact ⟨by rw [hab, huv], hxy⟩

/-- `%d` followed by a separator can be read back. -/
theorem decimal_sep_inj {sep : UInt8} (hsep : isDecimalByte sep = false) {a b : Int}
    {x y : GoString} (h : decimal a ++ sep :: x = decimal b ++ sep :: y) : a = b ∧ x = y := by
  obtain ⟨hd, hxy⟩ := append_sep_inj hsep (fun _ => isDecimalByte_of_mem_decimal)
    (fun _ => isDecimalByte_of_mem_decimal) h
  exact ⟨decimal_injective hd, hxy⟩

/-- Two texts that agree from the last byte outside a class on agree before it, too. -/
theorem sep_append_inj {p : UInt8 → Bool} {sep : UInt8} (hsep : p sep = false)
    {u v x y : GoString} (hu : ∀ b ∈ u, p b = true) (hv : ∀ b ∈ v, p b = true)
    (h : x ++ sep :: u = y ++ sep :: v) : x = y ∧ u = v := by
  have hreverse : u.reverse ++ sep :: x.reverse = v.reverse ++ sep :: y.reverse := by
    simpa using congrArg List.reverse h
  obtain ⟨huv, hxy⟩ := append_sep_inj hsep (fun b hb => hu b (List.mem_reverse.mp hb))
    (fun b hb => hv b (List.mem_reverse.mp hb)) hreverse
  exact ⟨List.reverse_injective hxy, List.reverse_injective huv⟩

/-- A separator followed by `%d` at the end can be read back. -/
theorem sep_decimal_inj {sep : UInt8} (hsep : isDecimalByte sep = false) {a b : Int}
    {x y : GoString} (h : x ++ sep :: decimal a = y ++ sep :: decimal b) : x = y ∧ a = b := by
  obtain ⟨hxy, hd⟩ := sep_append_inj hsep (fun _ => isDecimalByte_of_mem_decimal)
    (fun _ => isDecimalByte_of_mem_decimal) h
  exact ⟨hxy, decimal_injective hd⟩

end GoString

end SignalPlane
