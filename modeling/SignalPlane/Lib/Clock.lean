/-
SignalPlane.Lib.Clock — Go instants and the millisecond columns they are stored in.

An instant is a number of nanoseconds since the Unix epoch. A database column
holds `t.UnixMilli()`, which drops the part below a millisecond, and reading
it back gives `time.UnixMilli(ms)`. `ofUnixMilli_unixMilli` is the round trip:
it returns the instant it was given exactly when that instant is a whole
number of milliseconds. `unixMilli_lt` is what makes a due time strictly
later in the column too.
-/
import Mathlib

namespace SignalPlane

/-! ## Durations, in nanoseconds -/

def millisecond : Int := 1000000
def second : Int := 1000 * millisecond
def minute : Int := 60 * second
def hour : Int := 60 * minute

namespace Clock

/-! ## Instants, in nanoseconds since the Unix epoch -/

/-- `time.Time{}`: the first instant of year 1. -/
def zero : Int := -62135596800 * second

/-- `t.IsZero()`. -/
def isZero (t : Int) : Bool := t = zero

/-- `t.UnixMilli()`: nanoseconds below the millisecond are dropped. -/
def unixMilli (t : Int) : Int := t / millisecond

/-- `time.UnixMilli(ms)`. -/
def ofUnixMilli (ms : Int) : Int := ms * millisecond

/-- An instant that a millisecond column can hold exactly. -/
def wholeMilli (t : Int) : Prop := t % millisecond = 0

instance (t : Int) : Decidable (wholeMilli t) := inferInstanceAs (Decidable (_ = _))

/-- Storing an instant and reading it back gives it again iff it is a whole millisecond. -/
theorem ofUnixMilli_unixMilli {t : Int} : ofUnixMilli (unixMilli t) = t ↔ wholeMilli t := by
  simp only [unixMilli, ofUnixMilli, wholeMilli, millisecond]
  omega

theorem wholeMilli_ofUnixMilli (ms : Int) : wholeMilli (ofUnixMilli ms) := by
  simp only [ofUnixMilli, wholeMilli, millisecond]
  omega

theorem unixMilli_mono {t t' : Int} (h : t ≤ t') : unixMilli t ≤ unixMilli t' := by
  simp only [unixMilli, millisecond]
  omega

/-- A delay of at least a millisecond is visible in the column. -/
theorem unixMilli_lt {t : Int} {d : Int} (h : millisecond ≤ d) :
    unixMilli t < unixMilli (t + d) := by
  simp only [unixMilli, millisecond] at h ⊢
  omega

/-- A later whole millisecond is later in the column. -/
theorem unixMilli_lt_of_wholeMilli {t t' : Int} (hw : wholeMilli t') (h : t < t') :
    unixMilli t < unixMilli t' := by
  simp only [unixMilli, wholeMilli, millisecond] at hw ⊢
  omega

theorem wholeMilli_add {t : Int} {d : Int} (ht : wholeMilli t) :
    wholeMilli (t + d) ↔ d % millisecond = 0 := by
  simp only [wholeMilli, millisecond] at ht ⊢
  omega

end Clock

end SignalPlane
