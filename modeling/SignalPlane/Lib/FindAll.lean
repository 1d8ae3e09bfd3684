/-
SignalPlane.Lib.FindAll — `FindAllString` for patterns that never match the
empty text.

A pattern is given by the length of its leftmost-first match at a position, or
zero (`findAll` takes it as a function of what is left of the text). A match is
taken where it starts first, and the search goes on behind it.
-/
import SignalPlane.Lib.GoString

namespace SignalPlane

namespace GoString

/-- `FindAllString(s, -1)`, where the first `skip` bytes belong to the last match. -/
def findAll (pattern : GoString → Nat) : Nat → GoString → List GoString
  | _, [] => []
  | skip + 1, _ :: rest => findAll pattern skip rest
  | 0, b :: rest => match pattern (b :: rest) with
    | 0 => findAll pattern 0 rest
    | n + 1 => (b :: rest.take n) :: findAll pattern n rest

/-- `[p]{low,high}`. -/
def classRun (p : UInt8 → Bool) (low high : Nat) (s : GoString) : Nat :=
  let n := (s.takeWhile p).length
  if low ≤ n then min n high else 0

theorem findAll_skip {pattern : GoString → Nat} (u v : GoString) :
    findAll pattern u.length (u ++ v) = findAll pattern 0 v := by
  induction u with
  | nil => rfl
  | cons b u ih => exact ih

/-- A match at the start is found, and the search goes on behind it. -/
theorem findAll_append {pattern : GoString → Nat} {u v : GoString} (hu : u ≠ [])
    (h : pattern (u ++ v) = u.length) : findAll pattern 0 (u ++ v) = u :: findAll pattern 0 v := by
  cases u with
  | nil => exact absurd rfl hu
  | cons b u =>
    rw [List.cons_append] at h ⊢
    rw [findAll, h, List.length_cons]
    dsimp only
    rw [findAll_skip, List.take_left]

end GoString

end SignalPlane
