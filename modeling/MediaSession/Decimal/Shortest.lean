/-!
The shortest decimal that reads back as a given double, found in exact arithmetic: of the two grid
points next to the value, with one to seventeen digits, the first that rounds to it.
-/
namespace MediaSession.Decimal.Shortest

/-- A positive double is `mantissa * 2 ^ exponent`; `narrow` marks the lower neighbour at half distance. -/
structure Parts where
  mantissa : Nat
  exponent : Int
  narrow : Bool

/-- The leading bit of a mantissa, which is not stored. -/
def hidden : Nat := 0x10000000000000

/-- Parts of a finite double, its sign aside. -/
def parts (value : Float) : Parts :=
  let bits := value.toBits.toNat
  let fraction : Nat := bits % hidden
  let scale : Nat := bits / hidden % 2048
  if scale = 0 then ⟨fraction, -1074, false⟩
  else ⟨hidden + fraction, (scale : Int) - 1075, fraction = 0 ∧ 1 < scale⟩

/-- Decimal digits and the power of ten they are counted in. -/
structure Digits where
  significand : Nat
  exponent : Int

/-- Whether `candidate / scale * unit` lies in the interval of the value `num / den`. -/
private def reads (p : Parts) (num den candidate : Nat) : Bool :=
  let scaled := candidate * den * (4 * p.mantissa)
  let lower := num * (4 * p.mantissa - if p.narrow then 1 else 2)
  let upper := num * (4 * p.mantissa + 2)
  if p.mantissa % 2 = 0 then lower ≤ scaled && scaled ≤ upper else lower < scaled && scaled < upper

/-- The value as a quotient counted in units of `10 ^ place`. -/
private def quotient (p : Parts) (place : Int) : Nat × Nat :=
  (p.mantissa * Nat.pow 2 p.exponent.toNat * Nat.pow 10 (-place).toNat,
    Nat.pow 2 (-p.exponent).toNat * Nat.pow 10 place.toNat)

/-- Neighbour of the value on one grid that reads back, the nearer of two, the even one of a tie. -/
private def onGrid (p : Parts) (place : Int) : Option Nat :=
  let (num, den) := quotient p place
  let low := num / den
  let rest := num % den
  match reads p num den low, reads p num den (low + 1) with
  | true, false => some low
  | false, true => some (low + 1)
  | true, true =>
    if 2 * rest < den ∨ 2 * rest = den ∧ low % 2 = 0 then some low else some (low + 1)
  | false, false => none

/-- Digits before the point: the least `place` with the value below `10 ^ place`. -/
private def places (p : Parts) : Int :=
  let whole := (Nat.toDigits 10 p.mantissa).length
  let guess := (whole : Int) + p.exponent * 30103 / 100000 - 2
  let below (place : Int) : Bool := let (num, den) := quotient p place; num < den
  ((List.range 6).map fun (step : Nat) => guess + step).find? below |>.getD guess

/-- Drop trailing zeros. -/
private def trim : Nat → Digits → Digits
  | 0, digits => digits
  | fuel + 1, digits =>
    if digits.significand % 10 = 0 then trim fuel ⟨digits.significand / 10, digits.exponent + 1⟩
    else digits

/-- Shortest digits of a positive finite double. -/
def digits (value : Float) : Digits :=
  let p := parts value
  let top := places p
  let found := (List.range 17).findSome? fun (count : Nat) =>
    (onGrid p (top - (count + 1))).map fun significand => Digits.mk significand (top - (count + 1))
  trim 18 (found.getD ⟨0, 0⟩)

/-- Positional below `10 ^ 16` and above `10 ^ (-5)`, always with a fraction; else with an exponent. -/
def text (value : Float) : String :=
  let sign := if value.toBits.toNat / 0x8000000000000000 = 1 then "-" else ""
  if value == 0 then sign ++ "0.0"
  else
    let found := digits value
    let shown := (toString found.significand).toList
    let count := shown.length
    let point := (count : Int) + found.exponent
    let body : List Char :=
      if 0 ≤ found.exponent ∧ point ≤ 16 then
        shown ++ List.replicate found.exponent.toNat '0' ++ ['.', '0']
      else if 0 < point ∧ point ≤ 16 then
        shown.take point.toNat ++ '.' :: shown.drop point.toNat
      else if -5 < point ∧ point ≤ 0 then
        ['0', '.'] ++ List.replicate (-point).toNat '0' ++ shown
      else
        let power := (toString (point - 1)).toList
        match shown with
        | [only] => only :: 'e' :: power
        | first :: rest => first :: '.' :: rest ++ 'e' :: power
        | [] => []
    sign ++ String.ofList body

end MediaSession.Decimal.Shortest
