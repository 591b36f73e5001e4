import MediaSession.Decimal.Shortest

/-!
Number literals of the interchange text. A literal without fraction and exponent is an integer while
it fits into 64 bits; every other literal is a double, and one beyond the range of doubles has no value.
-/
namespace MediaSession

/-- A literal taken apart; digits are numbers below ten. -/
structure Numeral where
  negative : Bool
  whole : List Nat
  fraction : List Nat := []
  /-- Sign and magnitude of the exponent, if one is written. -/
  exponent : Option (Bool × Nat) := none
deriving DecidableEq

namespace Numeral

def ofDigits (digits : List Nat) : Nat := digits.foldl (fun total digit => 10 * total + digit) 0

/-- The literal an integer is written as. -/
def ofInt (value : Int) : Numeral :=
  { negative := value < 0
    whole := (Nat.toDigits 10 value.natAbs).map fun digit => digit.toNat - 48 }

/-- Value of an integer literal within 64 bits; minus zero is none. -/
def integer? (literal : Numeral) : Option Int :=
  let magnitude := ofDigits literal.whole
  if literal.fraction ≠ [] ∨ literal.exponent ≠ none then none
  else if literal.negative then
    if 0 < magnitude ∧ magnitude ≤ 0x8000000000000000 then some (-(magnitude : Int)) else none
  else if magnitude < 0x10000000000000000 then some magnitude else none

/-- Digits taken into a 64-bit significand, and how many were left out after the first that did not fit. -/
private def gather (significand : Nat) : List Nat → Nat × Nat
  | [] => (significand, 0)
  | digit :: rest =>
    if 10 * significand + digit < 0x10000000000000000 then gather (10 * significand + digit) rest
    else (significand, rest.length + 1)

private def powerOfTen (exponent : Nat) : Float := Float.ofScientific 1 false exponent

/-- Scale by a power of ten with one rounding, beyond `308` in steps; `none` on overflow. -/
private def scale : Nat → Float → Int → Option Float
  | 0, value, _ => some value
  | steps + 1, value, exponent =>
    if exponent.natAbs ≤ 308 then
      if 0 ≤ exponent then
        let scaled := value * powerOfTen exponent.natAbs
        if scaled.isInf then none else some scaled
      else some (value / powerOfTen exponent.natAbs)
    else if value == 0 then some value
    else if 0 ≤ exponent then none
    else scale steps (value / powerOfTen 308) (exponent + 308)

/-- The double a literal stands for; `none` beyond the range of doubles. -/
def double? (literal : Numeral) : Option Float :=
  let (whole, leftOut) := gather 0 literal.whole
  let (significand, unused) := gather whole literal.fraction
  let used := literal.fraction.length - unused
  let start : Int := (leftOut : Int) - used
  let magnitude? : Option Float :=
    match literal.exponent with
    | none => scale 8 significand.toUInt64.toFloat start
    | some (downward, size) =>
      if size < 0x80000000 then
        scale 8 significand.toUInt64.toFloat (if downward then start - size else start + size)
      else if significand ≠ 0 ∧ !downward then none
      else some 0
  magnitude?.map fun value => if literal.negative then -value else value

/-- Shortest text of the double. -/
def doubleText (literal : Numeral) : String :=
  match literal.double? with
  | some value => Decimal.Shortest.text value
  | none => ""

end Numeral

end MediaSession
