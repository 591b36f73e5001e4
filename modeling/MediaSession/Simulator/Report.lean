import MediaSession.Config
import MediaSession.SessionError

/-!
What a simulation is configured with, what it does, and what it reports: operations with the outcome
expected and the one observed, violations, statistics, and the report as text.
-/
namespace MediaSession.Simulator

open Text

structure Config where
  seed : UInt64 := 42
  /-- Number of operations to run. -/
  operations : UInt64 := 1000
  stopOnFirstViolation : Bool := false
  session : SessionConfig := {}
deriving DecidableEq

/-- Kind of object an insertion places. -/
inductive PlacedKind where
  | fork
  | clip
  | effect
  | binding
deriving DecidableEq, Repr

/-- Slots count through the identities handed out so far, removed ones included. -/
inductive Operation where
  | insert (parent : Nat) (kind : PlacedKind)
  | remove (target : Nat)
  | clearScope (target : Nat)
  | activate (target : Nat)
  | resolve (reference : Nat)
  | navigate (target : Nat)
  | pushFocus (target : Nat)
  | popFocus
deriving DecidableEq, Repr

inductive Outcome where
  | success
  | failure (error : ErrorClass)
  | skipped
deriving DecidableEq, Repr

def Outcome.ofResult : Except SessionError α → Outcome
  | .ok _ => .success
  | .error error => .failure error.errorClass

inductive Violation where
  /-- The index fails its self-check. -/
  | selfCheck (step : Nat) (failure : String)
  /-- The outcome is not the one expected. -/
  | unexpectedOutcome (step : Nat) (operation : Operation) (expected actual : Outcome)
      (detail : Option String)
  /-- The operation succeeded with a wrong result. -/
  | wrongResult (step : Nat) (operation : Operation) (detail : String)
deriving DecidableEq, Repr

/-- Step at which a violation was found. -/
def Violation.step : Violation → Nat
  | selfCheck step _ => step
  | unexpectedOutcome step _ _ _ _ => step
  | wrongResult step _ _ => step

structure Stats where
  operations : Nat := 0
  succeeded : Nat := 0
  skipped : Nat := 0
  nonEmptyScope : Nat := 0
  rootRefused : Nat := 0
  dangling : Nat := 0
  navigation : Nat := 0
  typeErrors : Nat := 0
  placementsInserted : Nat := 0
  placementsRemoved : Nat := 0
  maxFocusDepth : Nat := 0
deriving DecidableEq, Repr

/-- Count one operation by its outcome. -/
def Stats.record (stats : Stats) (outcome : Outcome) : Stats :=
  let stats := { stats with operations := stats.operations + 1 }
  match outcome with
  | .success => { stats with succeeded := stats.succeeded + 1 }
  | .skipped => { stats with skipped := stats.skipped + 1 }
  | .failure .nonEmptyScope => { stats with nonEmptyScope := stats.nonEmptyScope + 1 }
  | .failure .rootRefused => { stats with rootRefused := stats.rootRefused + 1 }
  | .failure .dangling => { stats with dangling := stats.dangling + 1 }
  | .failure .navigation => { stats with navigation := stats.navigation + 1 }
  | .failure .type => { stats with typeErrors := stats.typeErrors + 1 }

structure Report where
  config : Config
  stats : Stats
  violations : List Violation
  /-- Placements left in the index, the root excluded. -/
  finalSize : Nat
deriving DecidableEq

def PlacedKind.debug : PlacedKind → String
  | fork => "Fork"
  | clip => "Clip"
  | effect => "Effect"
  | binding => "Binding"

def Operation.debug : Operation → String
  | insert parent kind =>
    let shown := kind.debug
    s!"Insert \x7b parent: {parent}, kind: {shown} \x7d"
  | remove target => s!"Remove \x7b target: {target} \x7d"
  | clearScope target => s!"ClearScope \x7b target: {target} \x7d"
  | activate target => s!"Activate \x7b target: {target} \x7d"
  | resolve reference => s!"Resolve \x7b reference: {reference} \x7d"
  | navigate target => s!"Navigate \x7b target: {target} \x7d"
  | pushFocus target => s!"PushFocus \x7b target: {target} \x7d"
  | popFocus => "PopFocus"

def debugClass : ErrorClass → String
  | .nonEmptyScope => "NonEmptyScope"
  | .rootRefused => "RootRefused"
  | .dangling => "Dangling"
  | .navigation => "Navigation"
  | .type => "Type"

def Outcome.debug : Outcome → String
  | success => "Success"
  | failure error => let shown := debugClass error; s!"Failure({shown})"
  | skipped => "Skipped"

private def debugDetail : Option String → String
  | some detail => let shown := Quoted.string detail; s!"Some({shown})"
  | none => "None"

def Violation.debug : Violation → String
  | selfCheck step failure =>
    let shown := Quoted.string failure
    s!"SelfCheck \x7b step: {step}, failure: {shown} \x7d"
  | unexpectedOutcome step operation expected actual detail =>
    let operation := operation.debug
    let expected := expected.debug
    let actual := actual.debug
    let detail := debugDetail detail
    s!"UnexpectedOutcome \x7b step: {step}, operation: {operation}, " ++
      s!"expected: {expected}, actual: {actual}, detail: {detail} \x7d"
  | wrongResult step operation detail =>
    let operation := operation.debug
    let shown := Quoted.string detail
    s!"WrongResult \x7b step: {step}, operation: {operation}, detail: {shown} \x7d"

namespace Report

/-- Whether no violation was found. -/
def passed (report : Report) : Bool := report.violations.isEmpty

/-- Labelled numbers in the order they are printed. -/
def figures (report : Report) : List (String × Nat) :=
  let stats := report.stats
  [("Seed", report.config.seed.toNat), ("Operations", stats.operations),
   ("Succeeded", stats.succeeded), ("Skipped", stats.skipped),
   ("Rejected (non-empty scope)", stats.nonEmptyScope), ("Rejected (model root)", stats.rootRefused),
   ("Dangling references", stats.dangling), ("Navigation failures", stats.navigation),
   ("Type mismatches", stats.typeErrors), ("Placements inserted", stats.placementsInserted),
   ("Placements removed", stats.placementsRemoved), ("Max focus depth", stats.maxFocusDepth),
   ("Final index size", report.finalSize), ("Violations", report.violations.length)]

/-- Violations, numbered from one. -/
def violationLines (report : Report) : List String :=
  if report.violations.isEmpty then []
  else "" :: "=== Violations ===" :: report.violations.mapIdx fun place violation =>
    let number := place + 1
    let shown := violation.debug
    s!"{number}. {shown}"

def lines (report : Report) : List String :=
  let result := if report.passed then "PASS" else "FAIL"
  ["=== MOS Session Simulator Report ===", ""] ++
    report.figures.map (fun figure => let (label, number) := figure; s!"{label}: {number}") ++
    report.violationLines ++ ["", s!"=== Result: {result} ==="]

def text (report : Report) : String := String.join (report.lines.map fun line => line ++ "\n")

end Report

end MediaSession.Simulator
