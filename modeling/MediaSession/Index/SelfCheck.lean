import MediaSession.Index

/-!
Self-check of an index. The checks run in a fixed order and the first that fails is reported: basics,
then every entry with its chain of scopes, then every member list, then the totals.
-/
namespace MediaSession

/-- A failed check, by what was found. -/
inductive SelfCheckFault where
  | rootMissing
  | rootInvalid (root : Placement)
  | rootMisplaced
  | wrongIdentity (id held : PlacementId)
  | scopeMissing (id scope : PlacementId)
  | notListed (id scope : PlacementId)
  | chainBroken (start id : PlacementId)
  | chainTooLong (start : PlacementId) (steps : Nat)
  | strayMembers (scope : PlacementId)
  | emptyMembers (scope : PlacementId)
  | memberMissing (member scope : PlacementId)
  | memberMisplaced (member listed scope : PlacementId)
  | rootListed
  | wrongTotals (entries memberships : Nat)
deriving DecidableEq

namespace SelfCheckFault

/-- Number of the check, grouped into basics, entries, member lists and totals. -/
def code : SelfCheckFault → String
  | rootMissing => "0.1"
  | rootInvalid _ => "0.2"
  | rootMisplaced => "0.3"
  | wrongIdentity _ _ => "1.1"
  | scopeMissing _ _ => "1.2"
  | notListed _ _ => "1.3"
  | chainBroken _ _ => "1.4"
  | chainTooLong _ _ => "1.5"
  | strayMembers _ => "2.1"
  | emptyMembers _ => "2.2"
  | memberMissing _ _ => "2.3"
  | memberMisplaced _ _ _ => "2.4"
  | rootListed => "2.5"
  | wrongTotals _ _ => "4.1"

def detail : SelfCheckFault → String
  | rootMissing => "model root not registered"
  | rootInvalid root => let shown := root.display; s!"model root {shown} fails its self-check"
  | rootMisplaced => "model root is not its own scope"
  | wrongIdentity id held => s!"entry {id} holds placement {held}"
  | scopeMissing id scope => s!"scope {scope} of {id} is not registered"
  | notListed id scope => s!"{id} missing from the members of its scope {scope}"
  | chainBroken start id => s!"scope chain of {start} breaks at {id}"
  | chainTooLong start steps =>
    s!"scope chain of {start} does not reach the root within {steps} steps"
  | strayMembers scope => s!"scope {scope} has members but is not registered"
  | emptyMembers scope => s!"empty member list recorded for {scope}"
  | memberMissing member scope => s!"member {member} of {scope} is not registered"
  | memberMisplaced member listed scope => s!"member {member} listed in {listed} but placed into {scope}"
  | rootListed => "model root listed as a scope member"
  | wrongTotals entries memberships =>
    s!"{entries} entries registered, but {memberships} scope memberships recorded"

def message (fault : SelfCheckFault) : String :=
  let code := fault.code
  let detail := fault.detail
  s!"self-check ({code}) failed: {detail}"

end SelfCheckFault

namespace Table

/-- Refuse unless a condition holds. -/
def ensure (holds : Bool) (fault : SelfCheckFault) : Except SelfCheckFault Unit :=
  if holds then .ok () else .error fault

def checkBasics (table : Table) : Except SelfCheckFault Unit :=
  match table.entry? table.root with
  | none => .error .rootMissing
  | some entry => do
    ensure entry.placement.isValid (.rootInvalid entry.placement)
    ensure (entry.scope = table.root) .rootMisplaced

/-- Look for the root on at most `steps` elements of the chain from `current` on. -/
def checkChain (table : Table) (start : PlacementId) (limit : Nat) :
    Nat → PlacementId → Except SelfCheckFault Unit
  | 0, _ => .error (.chainTooLong start limit)
  | steps + 1, current =>
    if current = table.root then .ok ()
    else match table.entry? current with
      | none => .error (.chainBroken start current)
      | some entry => checkChain table start limit steps entry.scope

def checkEntry (table : Table) (limit : Nat) (id : PlacementId) (entry : Entry) :
    Except SelfCheckFault Unit := do
  ensure (entry.placement.id = id) (.wrongIdentity id entry.placement.id)
  if id = table.root then return
  ensure (table.contains entry.scope) (.scopeMissing id entry.scope)
  ensure ((table.members entry.scope).contains id) (.notListed id entry.scope)
  table.checkChain id limit limit id

def checkMember (table : Table) (scope member : PlacementId) : Except SelfCheckFault Unit :=
  match table.entry? member with
  | none => .error (.memberMissing member scope)
  | some entry => do
    ensure (entry.scope = scope) (.memberMisplaced member scope entry.scope)
    ensure (member ≠ table.root) .rootListed

def checkScope (table : Table) (scope : PlacementId) (members : List PlacementId) :
    Except SelfCheckFault Unit := do
  ensure (table.contains scope) (.strayMembers scope)
  ensure (!members.isEmpty) (.emptyMembers scope)
  members.forM (table.checkMember scope)

/-- Run all checks up to the first that fails. -/
def verify (table : Table) (limit : Nat) : Except SelfCheckFault Unit := do
  table.checkBasics
  table.entries.toList.forM fun entry => table.checkEntry limit entry.1 entry.2
  table.contents.toList.forM fun scope => table.checkScope scope.1 scope.2.toList
  ensure (table.size = table.memberships + 1) (.wrongTotals table.size table.memberships)

end Table

def Index.verify (index : Index) : Except SelfCheckFault Unit := index.table.verify index.maxPathDepth

end MediaSession
