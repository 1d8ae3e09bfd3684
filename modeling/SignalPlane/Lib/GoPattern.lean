/-
SignalPlane.Lib.GoPattern — byte classes, anchored patterns and hexadecimal.

The regular expressions a Go program anchors at both ends with `^…$` are
mostly of two shapes: a fixed number of bytes, each from its own class
(`matchesEach`), and a first byte from one class followed by bytes of another
(`matchesFrom`). Both are decided on the byte list directly. The classes are
ASCII, so a byte that is no part of a valid rune matches none of them.

`hexEncode` is `hex.EncodeToString` and `hexDecode` is `hex.DecodeString`. What
other modules use of the first is that its bytes are digits or the letters `a`
to `f` (`hexEncode_isHex`), so that a digest never contains a separator.
-/
import SignalPlane.Lib.GoString

namespace SignalPlane

namespace GoString

/-! ## Byte classes -/

def isLower (b : UInt8) : Bool := 97 ≤ b && b ≤ 122
def isUpper (b : UInt8) : Bool := 65 ≤ b && b ≤ 90
def isDigit (b : UInt8) : Bool := 48 ≤ b && b ≤ 57

/-- `[0-9a-f]`. -/
def isHex (b : UInt8) : Bool := isDigit b || (97 ≤ b && b ≤ 102)

/-- `[A-Za-z0-9]`. -/
def isAlnum (b : UInt8) : Bool := isLower b || isUpper b || isDigit b

/-- A single byte. -/
def isByte (c b : UInt8) : Bool := b = c

/-! ## Anchored patterns -/

/-- `^[c₁][c₂]…$`: as many bytes as classes, each in its own. -/
def matchesEach : List (UInt8 → Bool) → GoString → Bool
  | [], [] => true
  | c :: cs, b :: bs => c b && matchesEach cs bs
  | _, _ => false

/-- `^[first][rest]*$`. -/
def matchesFrom (first rest : UInt8 → Bool) : GoString → Bool
  | [] => false
  | b :: bs => first b && bs.all rest

/-! ## Hexadecimal -/

/-- A digit of `hex.EncodeToString`. -/
def hexDigit (n : UInt8) : UInt8 := if n < 10 then 48 + n else 87 + n

/-- `hex.EncodeToString`. -/
def hexEncode (bytes : List UInt8) : GoString :=
  bytes.flatMap fun b => [hexDigit (b / 16), hexDigit (b % 16)]

/-- The value of a hexadecimal digit, in either case. -/
def hexValue (b : UInt8) : Option UInt8 :=
  if isDigit b then some (b - 48)
  else if 97 ≤ b && b ≤ 102 then some (b - 87)
  else if 65 ≤ b && b ≤ 70 then some (b - 55)
  else none

/-- `hex.DecodeString`. -/
def hexDecode : GoString → Option (List UInt8)
  | [] => some []
  | [_] => none
  | a :: b :: rest => do
    let high ← hexValue a
    let low ← hexValue b
    let bytes ← hexDecode rest
    return (high * 16 + low) :: bytes

theorem hexDigit_isHex : ∀ n : UInt8, n < 16 → isHex (hexDigit n) = true := by
  decide +kernel

theorem div_lt_sixteen (b : UInt8) : b / 16 < 16 := by
  rw [UInt8.lt_iff_toNat_lt, UInt8.toNat_div]
  have := b.toNat_lt
  simp
  omega

theorem mod_lt_sixteen (b : UInt8) : b % 16 < 16 := by
  rw [UInt8.lt_iff_toNat_lt, UInt8.toNat_mod]
  simp
  omega

theorem hexEncode_isHex {bytes : List UInt8} {b : UInt8} (h : b ∈ hexEncode bytes) :
    isHex b = true := by
  obtain ⟨a, -, hb⟩ := List.mem_flatMap.mp h
  rcases List.mem_cons.mp hb with rfl | hb
  · exact hexDigit_isHex _ (div_lt_sixteen a)
  · rw [List.mem_singleton.mp hb]
    exact hexDigit_isHex _ (mod_lt_sixteen a)

theorem hexDecode_hexEncode (bytes : List UInt8) : hexDecode (hexEncode bytes) = some bytes := by
  have hbyte : ∀ b : UInt8, hexValue (hexDigit (b / 16)) = some (b / 16) ∧
      hexValue (hexDigit (b % 16)) = some (b % 16) ∧ b / 16 * 16 + b % 16 = b := by
    decide +kernel
  induction bytes with
  | nil => rfl
  | cons b bytes ih =>
    obtain ⟨hhigh, hlow, hb⟩ := hbyte b
    have hcons : hexEncode (b :: bytes) =
        hexDigit (b / 16) :: hexDigit (b % 16) :: hexEncode bytes := rfl
    simp [hcons, hexDecode, hhigh, hlow, ih, hb]

theorem hexEncode_injective : Function.Injective hexEncode := fun a b h => by
  rw [← Option.some.injEq, ← hexDecode_hexEncode a, h, hexDecode_hexEncode]

end GoString

end SignalPlane
