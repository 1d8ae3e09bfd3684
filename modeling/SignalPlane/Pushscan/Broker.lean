/-
SignalPlane.Pushscan.Broker — the size limit of a broker response.

`brokerWireLimit` adds up what a response within the bounds can take: base64 of
the material, and a fixed allowance for every path and commit. It computes in
`int64` and means to refuse bounds whose limit does not fit. The sum of the
allowances is only checked for its sign, after it has wrapped: where the exact
sum has passed 2^64, a small remainder is taken for the limit
(`brokerWireLimit_exact_iff`).
-/
import SignalPlane.Pushscan.Model

namespace SignalPlane.Pushscan

open Dispatcher (GoError newError require require_bind_eq_ok pure_eq_ok)

/-- What an `int64` holds after an operation whose exact result is `n`. -/
def int64 (n : Int) : Int := n.bmod (2 ^ 64)

/-- `brokerWireLimit`. -/
def brokerWireLimit (bounds : Bounds) : Except GoError Int := do
  require (¬ (bounds.maxTotalBytes ≤ 0 ∨ bounds.maxPaths ≤ 0 ∨ bounds.maxCommits ≤ 0 ∨
      bounds.maxTotalBytes > 2 ^ 62))
    (newError "push tripwire broker bounds are invalid")
  let encoded := int64 ((int64 (bounds.maxTotalBytes + 2)).tdiv 3 * 4)
  let metadata := int64 (int64 (2 ^ 20 + int64 (bounds.maxPaths * 2048)) +
    int64 (bounds.maxCommits * 1024))
  require (¬ (metadata < 0 ∨ encoded > int64 (2 ^ 62 - metadata)))
    (newError "push tripwire broker bounds overflow")
  pure (int64 (encoded + metadata))

namespace Bounds

/-- The size of the material in base64. -/
def encodedBytes (b : Bounds) : Int := 4 * ((b.maxTotalBytes + 2) / 3)

/-- The allowance for paths and commits. -/
def metadataBytes (b : Bounds) : Int := 2 ^ 20 + 2048 * b.maxPaths + 1024 * b.maxCommits

/-- The bounds that the first check lets pass. -/
structure Sensible (b : Bounds) : Prop where
  total : 0 < b.maxTotalBytes
  paths : 0 < b.maxPaths
  commits : 0 < b.maxCommits
  totalBounded : b.maxTotalBytes ≤ 2 ^ 62

/-- The allowance fits 64 bits, or its remainder is refused all the same. -/
def Measurable (b : Bounds) : Prop :=
  b.Sensible → b.metadataBytes < 2 ^ 64 ∨ 2 ^ 62 < b.encodedBytes + b.metadataBytes % 2 ^ 64

end Bounds

/-- In terms of the remainder modulo 2^64. -/
theorem int64_eq (n : Int) :
    int64 n = if n % 2 ^ 64 < 2 ^ 63 then n % 2 ^ 64 else n % 2 ^ 64 - 2 ^ 64 := by
  simp [int64, Int.bmod_def]

theorem int64_of_lt {n : Int} (h : 0 ≤ n) (h' : n < 2 ^ 63) : int64 n = n := by
  rw [int64_eq, Int.emod_eq_of_lt h (by omega), if_pos h']

/-- The wrapped sum of the allowances is a wrap of the exact sum. -/
theorem int64_metadata (b : Bounds) :
    int64 (int64 (2 ^ 20 + int64 (b.maxPaths * 2048)) + int64 (b.maxCommits * 1024)) =
      int64 b.metadataBytes := by
  simp only [int64, Int.add_bmod_bmod, Int.bmod_add_bmod, Bounds.metadataBytes, Int.mul_comm]

/-- The limit is the sum with the allowance reduced modulo 2^64, where that stays within 2^62. -/
theorem brokerWireLimit_eq_ok {b : Bounds} {n : Int} :
    brokerWireLimit b = .ok n ↔ b.Sensible ∧ b.encodedBytes + b.metadataBytes % 2 ^ 64 ≤ 2 ^ 62 ∧
      n = b.encodedBytes + b.metadataBytes % 2 ^ 64 := by
  simp only [brokerWireLimit, require_bind_eq_ok, pure_eq_ok, int64_metadata]
  have hbounds : ¬ (b.maxTotalBytes ≤ 0 ∨ b.maxPaths ≤ 0 ∨ b.maxCommits ≤ 0 ∨
      b.maxTotalBytes > 2 ^ 62) ↔ b.Sensible :=
    ⟨fun h => ⟨by omega, by omega, by omega, by omega⟩,
      fun ⟨_, _, _, _⟩ => by omega⟩
  rw [hbounds]
  refine and_congr_right fun ⟨htotal, _, _, hbounded⟩ => ?_
  -- The material takes less than 2^63 bytes in base64.
  have hencoded : int64 ((int64 (b.maxTotalBytes + 2)).tdiv 3 * 4) = b.encodedBytes := by
    rw [int64_of_lt (n := b.maxTotalBytes + 2) (by omega) (by omega),
      Int.tdiv_eq_ediv_of_nonneg (by omega), int64_of_lt (by omega) (by omega), Int.mul_comm]
    rfl
  have hpositive : 0 ≤ b.encodedBytes := by unfold Bounds.encodedBytes; omega
  have hremainder := Int.emod_nonneg b.metadataBytes (show (2 ^ 64 : Int) ≠ 0 by decide)
  rw [hencoded, int64_eq b.metadataBytes]
  split
  · next hsmall =>
    have hrest : int64 (2 ^ 62 - b.metadataBytes % 2 ^ 64) = 2 ^ 62 - b.metadataBytes % 2 ^ 64 := by
      rw [int64_eq]
      split <;> omega
    rw [hrest]
    constructor
    · rintro ⟨hfits, rfl⟩
      exact ⟨by omega, int64_of_lt (by omega) (by omega)⟩
    · rintro ⟨hfits, rfl⟩
      exact ⟨by omega, int64_of_lt (by omega) (by omega)⟩
  · exact ⟨fun h => absurd (.inl (by omega)) h.1, fun h => absurd h.1 (by omega)⟩

/-- A limit is exact, positive and at most 2^62, unless the allowance passes 2^64 and its remainder
is small. -/
theorem brokerWireLimit_exact_iff (b : Bounds) :
    (∀ n, brokerWireLimit b = .ok n →
      n = 4 * ((b.maxTotalBytes + 2) / 3) + 2 ^ 20 + 2048 * b.maxPaths + 1024 * b.maxCommits ∧
        0 < n ∧ n ≤ 2 ^ 62) ↔ b.Measurable := by
  have hexact : 4 * ((b.maxTotalBytes + 2) / 3) + 2 ^ 20 + 2048 * b.maxPaths +
      1024 * b.maxCommits = b.encodedBytes + b.metadataBytes := by
    unfold Bounds.encodedBytes Bounds.metadataBytes
    omega
  rw [hexact]
  constructor
  · intro h hbounds
    by_cases hrefused : 2 ^ 62 < b.encodedBytes + b.metadataBytes % 2 ^ 64
    · exact .inr hrefused
    · obtain ⟨hsame, -⟩ := h _ (brokerWireLimit_eq_ok.mpr ⟨hbounds, by omega, rfl⟩)
      exact .inl (by omega)
  · intro h n hn
    obtain ⟨hbounds, hfits, rfl⟩ := brokerWireLimit_eq_ok.mp hn
    have hsmall : b.metadataBytes < 2 ^ 64 := (h hbounds).resolve_right (by omega)
    obtain ⟨htotal, hpaths, hcommits, -⟩ := hbounds
    have hmetadata : 0 < b.metadataBytes := by unfold Bounds.metadataBytes; omega
    have hencoded : 0 ≤ b.encodedBytes := by unfold Bounds.encodedBytes; omega
    rw [Int.emod_eq_of_lt (by omega) hsmall] at hfits ⊢
    exact ⟨rfl, by omega, hfits⟩

/-- With 2^53 paths the allowance for the paths wraps to nothing. -/
theorem brokerWireLimit_wraps :
    let b : Bounds := ⟨1, 2 ^ 53, 1, 1, 1, 1⟩
    brokerWireLimit b = .ok (4 + 2 ^ 20 + 1024) ∧
      4 * ((b.maxTotalBytes + 2) / 3) + 2 ^ 20 + 2048 * b.maxPaths + 1024 * b.maxCommits =
        4 + 2 ^ 20 + 2 ^ 64 + 1024 :=
  ⟨by decide, by decide⟩

end SignalPlane.Pushscan
