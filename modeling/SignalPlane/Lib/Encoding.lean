/-
SignalPlane.Lib.Encoding — base64, hexadecimal and percent-encoding.

The decoders are those of Go's standard library: `Base64.decode` is
`DecodeString` of the four predefined encodings, which skips line breaks and
ignores the bits that are left over, and `pathUnescape` is `url.PathUnescape`.

What counts as a hexadecimal text is said without the decoder, which inverts it
(`HexText`, `HexText.decode`).
-/
import SignalPlane.Lib.GoPattern

namespace SignalPlane

namespace GoString

/-! ## Base64 -/

/-- One of the four encodings: `StdEncoding` and `URLEncoding`, and the `Raw` ones, which write
no padding. -/
structure Base64 where
  url : Bool
  padded : Bool
  deriving DecidableEq, Repr

namespace Base64

def std : Base64 := ⟨false, true⟩
def rawStd : Base64 := ⟨false, false⟩
def urlSafe : Base64 := ⟨true, true⟩
def rawURL : Base64 := ⟨true, false⟩

/-- The number of a character. -/
def value (e : Base64) (b : UInt8) : Option Nat :=
  if isUpper b then some (b.toNat - 65)
  else if isLower b then some (b.toNat - 71)
  else if isDigit b then some (b.toNat + 4)
  else if b = (if e.url then 45 else 43) then some 62
  else if b = (if e.url then 95 else 47) then some 63
  else none

/-- The first, second and third byte of a quantum. -/
def first (w x : Nat) : UInt8 := UInt8.ofNat (w * 4 + x / 16)
def second (x y : Nat) : UInt8 := UInt8.ofNat (x % 16 * 16 + y / 4)
def third (y z : Nat) : UInt8 := UInt8.ofNat (y % 4 * 64 + z)

/-- The quanta of a text without line breaks. Padding ends it. -/
def decodeQuanta (e : Base64) : GoString → Option (List UInt8)
  | [] => some []
  | [_] => none
  | [a, b] => if e.padded then none else do
      let w ← e.value a
      let x ← e.value b
      return [first w x]
  | [a, b, c] => if e.padded then none else do
      let w ← e.value a
      let x ← e.value b
      let y ← e.value c
      return [first w x, second x y]
  | a :: b :: c :: d :: rest =>
    match e.value a, e.value b, e.value c, e.value d with
    | some w, some x, some y, some z =>
      (e.decodeQuanta rest).map fun bytes => first w x :: second x y :: third y z :: bytes
    | some w, some x, some y, none =>
      if e.padded && d = 61 && rest = [] then some [first w x, second x y] else none
    | some w, some x, none, _ =>
      if e.padded && c = 61 && d = 61 && rest = [] then some [first w x] else none
    | _, _, _, _ => none

/-- `DecodeString`. -/
def decode (e : Base64) (s : GoString) : Option (List UInt8) :=
  e.decodeQuanta (s.filter fun b => b ≠ 10 && b ≠ 13)

/-- A character of either alphabet. -/
def isAlphabet (b : UInt8) : Bool := isAlnum b || b = 43 || b = 47 || b = 95 || b = 45

end Base64

/-! ## Hexadecimal -/

/-- A digit for a number below 16, in either case. -/
def IsHexDigit (n : UInt8) (b : UInt8) : Prop :=
  b = hexDigit n ∨ b = (if n < 10 then 48 + n else 55 + n)

/-- A hexadecimal text of some bytes, in any mix of cases. -/
inductive HexText : List UInt8 → GoString → Prop
  | nil : HexText [] []
  | cons {b x y : UInt8} {bytes : List UInt8} {s : GoString} (hx : IsHexDigit (b / 16) x)
      (hy : IsHexDigit (b % 16) y) (h : HexText bytes s) : HexText (b :: bytes) (x :: y :: s)

/-- `(?i)[0-9a-f]`. -/
def isHexFold (b : UInt8) : Bool := isHex b || (65 ≤ b && b ≤ 70)

theorem hexDigit_spec : ∀ n : Fin 16, ∀ b ∈ [hexDigit (UInt8.ofNat n),
      (if UInt8.ofNat n < 10 then 48 + UInt8.ofNat n else 55 + UInt8.ofNat n)],
    hexValue b = some (UInt8.ofNat n) ∧ isHexFold b = true := by
  decide +kernel

theorem IsHexDigit.spec {n b : UInt8} (h : IsHexDigit n b) (hn : n < 16) :
    hexValue b = some n ∧ isHexFold b = true := by
  have hn' : n.toNat < 16 := UInt8.lt_iff_toNat_lt.mp hn
  have := hexDigit_spec ⟨n.toNat, hn'⟩ b (by simpa [IsHexDigit] using h)
  simpa using this

theorem sixteen_mul_add (b : UInt8) : b / 16 * 16 + b % 16 = b := by
  apply UInt8.toNat_inj.mp
  have := b.toNat_lt
  simp [UInt8.toNat_add, UInt8.toNat_mul, UInt8.toNat_div, UInt8.toNat_mod]
  omega

section HexText

variable {bytes : List UInt8} {s : GoString}

theorem hexText_hexEncode (bytes : List UInt8) : HexText bytes (hexEncode bytes) := by
  induction bytes with
  | nil => exact .nil
  | cons b bytes ih => exact .cons (.inl rfl) (.inl rfl) ih

theorem HexText.decode (h : HexText bytes s) : hexDecode s = some bytes := by
  induction h with
  | nil => rfl
  | cons hx hy _ ih =>
    simp [hexDecode, (hx.spec (div_lt_sixteen _)).1, (hy.spec (mod_lt_sixteen _)).1, ih,
      sixteen_mul_add]

theorem HexText.all (h : HexText bytes s) : s.all isHexFold = true := by
  induction h with
  | nil => rfl
  | cons hx hy _ ih =>
    simp [(hx.spec (div_lt_sixteen _)).2, (hy.spec (mod_lt_sixteen _)).2, ih]

theorem HexText.length (h : HexText bytes s) : s.length = 2 * bytes.length := by
  induction h with
  | nil => rfl
  | cons _ _ _ ih =>
    simp only [List.length_cons, ih]
    omega

end HexText

/-! ## Percent-encoding -/

/-- `url.PathUnescape`. -/
def pathUnescape : GoString → Option GoString
  | [] => some []
  | 37 :: a :: b :: rest => do
    let high ← hexValue a
    let low ← hexValue b
    let decoded ← pathUnescape rest
    return (high * 16 + low) :: decoded
  | b :: rest => if b = 37 then none else (pathUnescape rest).map (b :: ·)

theorem pathUnescape_cons {b : UInt8} (hb : b ≠ 37) (rest : GoString) :
    pathUnescape (b :: rest) = (pathUnescape rest).map (b :: ·) := by
  conv_lhs => unfold pathUnescape
  split
  · next h => cases h
  · next h =>
    cases h
    exact absurd rfl hb
  · next h =>
    cases h
    rw [if_neg hb]

end GoString

end SignalPlane
