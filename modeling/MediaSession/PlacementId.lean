import MediaSession.Text.Hex
import MediaSession.Text.Quoted

/-!
Identities of placements: sixteen bytes, ordered bytewise. The full text form is thirty-two lower-case
digits, the short form the first eight, and the binary form carries its length in front.
-/
namespace MediaSession

open Text

structure PlacementId where
  bytes : List UInt8
  length_bytes : bytes.length = 16
deriving DecidableEq

inductive PlacementIdError where
  | wrongLength (actual : Nat)
  | notHex (fault : Hex.Error)
deriving DecidableEq, Repr

namespace PlacementIdError

def message : PlacementIdError → String
  | .wrongLength actual => s!"invalid placement id length: expected 16, got {actual}"
  | .notHex .oddLength => "hex decode error: Odd number of digits"
  | .notHex (.strayByte byte position) =>
    let char := Quoted.character (Char.ofNat byte.toNat)
    s!"hex decode error: Invalid character {char} at position {position}"

end PlacementIdError

namespace PlacementId

@[ext] theorem ext {a b : PlacementId} (same : a.bytes = b.bytes) : a = b := by
  cases a; cases b; simp_all

instance : Ord PlacementId := ⟨fun a b => compare a.bytes b.bytes⟩

instance : Std.TransOrd PlacementId := inferInstanceAs (Std.TransCmp (compareOn PlacementId.bytes))

instance : Std.LawfulEqOrd PlacementId where
  eq_of_compare {_ _} same := ext (Std.LawfulEqOrd.eq_of_compare (α := List UInt8) same)

/-- The identity of a byte string of the right length. -/
def ofBytes (bytes : List UInt8) : Except PlacementIdError PlacementId :=
  if fits : bytes.length = 16 then .ok ⟨bytes, fits⟩ else .error (.wrongLength bytes.length)

/-- The identity whose bytes are the digits of a number to base 256, lowest first. -/
def ofNat (number : Nat) : PlacementId :=
  ⟨(List.range 16).map fun place => UInt8.ofNat (number / Nat.pow 256 place), by simp⟩

def toHex (id : PlacementId) : String := String.ofList (Hex.encode id.bytes)

/-- The first four bytes. -/
def short (id : PlacementId) : String := String.ofList (Hex.encode (id.bytes.take 4))

instance : ToString PlacementId := ⟨toHex⟩

/-- Bytes of a text. -/
def textBytes (text : String) : List UInt8 := text.toList.flatMap String.utf8EncodeChar

/-- Read the full text form, in either case. -/
def parse (text : String) : Except PlacementIdError PlacementId :=
  match Hex.decode (textBytes text) with
  | .ok bytes => ofBytes bytes
  | .error fault => .error (.notHex fault)

/-- Structural form: the bytes as numbers. -/
def debug (id : PlacementId) : String :=
  let numbers := ", ".intercalate (id.bytes.map fun byte => toString byte.toNat)
  s!"PlacementId([{numbers}])"

/-- A length in eight bytes, lowest first. -/
def lengthPrefix (length : Nat) : List UInt8 :=
  (List.range 8).map fun place => UInt8.ofNat (length / Nat.pow 256 place)

/-- The length, then the bytes themselves. -/
def toBinary (id : PlacementId) : List UInt8 := lengthPrefix id.bytes.length ++ id.bytes

/-- Number written in bytes, lowest first. -/
def lengthOf : List UInt8 → Nat
  | [] => 0
  | byte :: rest => byte.toNat + 256 * lengthOf rest

/-- Read a length, then as many bytes as it says; too few bytes give `none`. -/
def ofBinary (data : List UInt8) : Option (Except PlacementIdError PlacementId) :=
  let length := lengthOf (data.take 8)
  let payload := data.drop 8
  if data.length < 8 ∨ payload.length < length then none else some (ofBytes (payload.take length))

end PlacementId

end MediaSession
