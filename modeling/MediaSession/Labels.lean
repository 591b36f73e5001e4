import MediaSession.PlacementId
import Std.Data.TreeMap

/-!
Labels for identities. A label takes the place of its identity wherever one of the forms of the identity
is written: `{label}` for the full form, `{~label}` for the short one.
-/
namespace MediaSession

structure Labels where
  ids : Std.TreeMap String PlacementId := ∅
  names : Std.TreeMap PlacementId String := ∅
  /-- What is written for each form of each identity. -/
  written : Std.TreeMap String String := ∅

namespace Labels

/-- The identity that goes with a number; the short forms of the first `2 ^ 24` all differ. -/
def mint (number : Nat) : PlacementId :=
  let scattered := (number + 1) * 0x9E3779 % 0x1000000
  .ofNat (0xD7 + 256 * scattered + 0xC3A5E1F2 * 0x10000000000000000 +
    (number + 1) * 0x1000000000000000000000000)

/-- The number of the next identity. -/
def count (labels : Labels) : Nat := labels.ids.size

/-- Give the next identity to a label. -/
def claim (labels : Labels) (label : String) : PlacementId × Labels :=
  let id := mint labels.count
  (id, {
    ids := labels.ids.insert label id
    names := labels.names.insert id label
    written := ((labels.written.insert id.toHex s!"\x7b{label}\x7d").insert id.short
      s!"\x7b~{label}\x7d").insert id.debug s!"PlacementId(\x7b{label}\x7d)" })

def id? (labels : Labels) (label : String) : Option PlacementId := labels.ids[label]?

def labelOf (labels : Labels) (id : PlacementId) : String := labels.names.getD id ""

/-- Identities in the order of their labels. -/
def sort (labels : Labels) (ids : List PlacementId) : List PlacementId :=
  ids.mergeSort fun a b => labels.labelOf a ≤ labels.labelOf b

def isHexDigit (char : Char) : Bool := char.isDigit || ('a' ≤ char && char ≤ 'f')

/-- A text cut into runs of hexadecimal digits and single other characters. -/
def runs (text : String) : List String :=
  (text.toList.splitBy fun a b => isHexDigit a && isHexDigit b).map String.ofList

def structuralStart : String := "PlacementId(["

/-- Change what follows `structuralStart`, up to the bracket that closes it. -/
def replaceStructural (written : String → Option String) (rest : String) : String :=
  let bytes := rest.toList.takeWhile (· ≠ ')')
  let form := structuralStart ++ String.ofList bytes ++ ")"
  match written form with
  | some shown => shown ++ String.ofList (rest.toList.drop (bytes.length + 1))
  | none => structuralStart ++ rest

/-- Change all forms of identities in a text. -/
def replace (written : String → Option String) (text : String) : String :=
  let text := String.join ((runs text).map fun run => (written run).getD run)
  match text.splitOn structuralStart with
  | first :: rest => first ++ String.join (rest.map (replaceStructural written))
  | [] => text

/-- Write labels for identities. -/
def relabel (labels : Labels) (text : String) : String := replace (labels.written[·]?) text

/-- Write one mark for all identities. -/
def mask (labels : Labels) (mark text : String) : String :=
  replace (fun form => if labels.written.contains form then some mark else none) text

end Labels

/-- Put a mark in place of every thirty-two hexadecimal digits. -/
def maskDigits (mark text : String) : String :=
  String.join ((Labels.runs text).map fun run =>
    String.join (List.replicate (run.length / 32) mark) ++
      String.ofList (run.toList.drop (run.length / 32 * 32)))

end MediaSession
