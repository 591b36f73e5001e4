import MediaSession.MediaObject
import Std.Data.TreeMap

/-!
Ownership of objects. The ledger counts the owners of every object: placements, active references and
held shares. An object without owners is gone.
-/
namespace MediaSession

structure Ledger where
  counts : Std.TreeMap Nat Nat := ∅
  /-- Identity of the next object. -/
  next : Nat := 0

namespace Ledger

/-- Number of owners of an object. -/
def owners (ledger : Ledger) (object : SharedObject) : Nat := ledger.counts.getD object.identity 0

/-- Record one more owner. -/
def retain (ledger : Ledger) (object : SharedObject) : Ledger :=
  { ledger with counts := ledger.counts.insert object.identity (ledger.owners object + 1) }

/-- Record one owner less. -/
def release (ledger : Ledger) (object : SharedObject) : Ledger :=
  if ledger.owners object ≤ 1 then { ledger with counts := ledger.counts.erase object.identity }
  else { ledger with counts := ledger.counts.insert object.identity (ledger.owners object - 1) }

/-- Record one owner less for each of some objects. -/
def releaseAll (ledger : Ledger) (objects : List SharedObject) : Ledger := objects.foldl release ledger

/-- Count the first owner of the object whose identity is next. -/
def advance (ledger : Ledger) : Ledger :=
  { counts := ledger.counts.insert ledger.next 1, next := ledger.next + 1 }

/-- A new object, with its first owner. -/
def create (ledger : Ledger) (content : MediaObject) : SharedObject × Ledger :=
  (⟨ledger.next, content⟩, ledger.advance)

/-- Count the first owners of the next objects. -/
def advanceBy (count : Nat) (ledger : Ledger) : Ledger := count.repeat advance ledger

end Ledger

end MediaSession
