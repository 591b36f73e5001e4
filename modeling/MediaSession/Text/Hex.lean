/-!
Bytes as pairs of hexadecimal digits. Writing is always in lower case; reading takes both cases and
works on the bytes of the text, so a refusal names a byte and its place.
-/
namespace MediaSession.Text.Hex

/-- Lower-case digit of a number below sixteen. -/
def digit (value : Nat) : Char :=
  if value < 10 then Char.ofNat (48 + value) else Char.ofNat (87 + value)

/-- Value of a digit of either case. -/
def value? (byte : Nat) : Option Nat :=
  if 48 ≤ byte ∧ byte ≤ 57 then some (byte - 48)
  else if 97 ≤ byte ∧ byte ≤ 102 then some (byte - 87)
  else if 65 ≤ byte ∧ byte ≤ 70 then some (byte - 55)
  else none

/-- Two digits for every byte, the high half first. -/
def encode : List UInt8 → List Char
  | [] => []
  | byte :: rest => digit (byte.toNat / 16) :: digit (byte.toNat % 16) :: encode rest

inductive Error where
  | oddLength
  | strayByte (byte : UInt8) (position : Nat)
deriving DecidableEq, Repr

/-- Value of a digit, or a refusal that names its place. -/
def digitAt (position : Nat) (byte : UInt8) : Except Error Nat :=
  match value? byte.toNat with
  | some value => .ok value
  | none => .error (.strayByte byte position)

/-- Read digit pairs, counting bytes from `position`. -/
def decodePairs (position : Nat) : List UInt8 → Except Error (List UInt8)
  | high :: low :: rest => do
    let upper ← digitAt position high
    let lower ← digitAt (position + 1) low
    let bytes ← decodePairs (position + 2) rest
    return UInt8.ofNat (16 * upper + lower) :: bytes
  | _ => .ok []

/-- An odd length is refused before any digit is looked at. -/
def decode (text : List UInt8) : Except Error (List UInt8) :=
  if text.length % 2 = 0 then decodePairs 0 text else .error .oddLength

/-- Digits of a number without leading zeros. -/
def ofNat (number : Nat) : String :=
  String.ofList ((Nat.toDigits 16 number))

end MediaSession.Text.Hex
