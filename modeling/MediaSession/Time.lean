/-!
Points in session time, in microseconds. Sums stop at the ends of the signed 64-bit range.
-/
namespace MediaSession

/-- A signed 64-bit number of microseconds. -/
structure Time where
  micros : Int
  lower : -0x8000000000000000 ≤ micros := by decide
  upper : micros < 0x8000000000000000 := by decide
deriving DecidableEq

namespace Time

@[ext] theorem ext {a b : Time} (same : a.micros = b.micros) : a = b := by
  cases a; cases b; simp_all

/-- The session origin. -/
def zero : Time := ⟨0, by decide, by decide⟩

instance : Inhabited Time := ⟨zero⟩

/-- The nearest representable time. -/
def clamp (micros : Int) : Time :=
  ⟨max (-0x8000000000000000) (min micros 0x7FFFFFFFFFFFFFFF), by omega, by omega⟩

/-- The time of a microsecond count, if it is representable. -/
def ofMicros? (micros : Int) : Option Time :=
  if fits : -0x8000000000000000 ≤ micros ∧ micros < 0x8000000000000000 then
    some ⟨micros, fits.1, fits.2⟩
  else none

/-- The time of a microsecond count cut to 64 bits. -/
def wrap (micros : Int) : Time :=
  ⟨micros.bmod 0x10000000000000000, Int.le_bmod (by decide), Int.bmod_lt (by decide)⟩

/-- Whole seconds. A product beyond 64 bits wraps around. -/
def ofSeconds (seconds : Int) : Time := wrap (seconds * 1000000)

/-- Sums saturate. -/
def add (a b : Time) : Time := clamp (a.micros + b.micros)

instance : Add Time := ⟨add⟩

/-- Whole seconds toward the past, then the microseconds left over in six digits. -/
def display (time : Time) : String :=
  let seconds := time.micros.ediv 1000000
  let rest := toString (time.micros.emod 1000000)
  let zeros := String.ofList (List.replicate (6 - rest.length) '0')
  s!"{seconds}.{zeros}{rest}s"

theorem micros_clamp_of_fits {micros : Int} (lower : -0x8000000000000000 ≤ micros)
    (upper : micros < 0x8000000000000000) :
    (clamp micros).micros = micros := by
  simp only [clamp]; omega

theorem micros_ofSeconds_of_fits {seconds : Int} (lower : -0x8000000000000000 ≤ seconds * 1000000)
    (upper : seconds * 1000000 < 0x8000000000000000) : (ofSeconds seconds).micros = seconds * 1000000 :=
  Int.bmod_eq_of_le lower upper

end Time

end MediaSession
