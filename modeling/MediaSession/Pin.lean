import MediaSession.Time

/-!
Locating pins. A placement carries a chain of positioning constraints, and resolving the chain from
its first pin to its last gives an explicit position.
-/
namespace MediaSession

inductive Pin where
  /-- Start at an absolute time. -/
  | fixed (start : Time)
  /-- Shift the start by an offset. -/
  | relative (offset : Time)
  /-- Route the output to a named pipe. -/
  | wiring (pipe : String)
deriving DecidableEq

/-- A fully resolved position. -/
structure Position where
  start : Time := Time.zero
  pipe : Option String := none
deriving DecidableEq

/-- What one pin makes of the position found so far. -/
def Pin.refine (position : Position) : Pin → Position
  | .fixed start => { position with start }
  | .relative offset => { position with start := position.start + offset }
  | .wiring pipe => { position with pipe := some pipe }

/-- Constraints in order of application. -/
structure PinChain where
  pins : List Pin := []
deriving DecidableEq

namespace PinChain

def empty : PinChain := {}

def push (chain : PinChain) (pin : Pin) : PinChain := ⟨chain.pins ++ [pin]⟩

def resolve (chain : PinChain) : Position := chain.pins.foldl Pin.refine {}

end PinChain

/-- One edit of a pin chain. -/
inductive PinEdit where
  | push (pin : Pin)
  | reset
deriving DecidableEq

def PinEdit.apply (chain : PinChain) : PinEdit → PinChain
  | .push pin => chain.push pin
  | .reset => .empty

/-- Edits in order. -/
def PinChain.edit (chain : PinChain) (edits : List PinEdit) : PinChain :=
  edits.foldl PinEdit.apply chain

end MediaSession
