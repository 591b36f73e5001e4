import MediaSession.Index.SelfCheck
import MediaSession.RandomStream.ChaCha
import MediaSession.Simulator.World

/-!
Simulation runs. Every step draws an operation, predicts its outcome, carries it out, compares, and
verifies the index; nothing but the steps before enters into a step.
-/
namespace MediaSession.Simulator

open RandomStream

variable {σ : Type} [WordSource σ]

/-- State between two steps. -/
structure Progress (σ : Type) where
  world : World
  source : σ
  stats : Stats := {}
  violations : List Violation := []

/-- What the comparison with the prediction finds. -/
def compareOutcomes (step : Nat) (operation : Operation) (expected : Outcome) (effect : Effect) :
    List Violation :=
  if effect.outcome ≠ expected ∧ expected ≠ .skipped then
    [.unexpectedOutcome step operation expected effect.outcome effect.complaint]
  else match effect.outcome, effect.complaint with
    | .success, some detail => [.wrongResult step operation detail]
    | _, _ => []

/-- What the self-check of an index finds. -/
def selfCheckViolations (step : Nat) (index : Index) : List Violation :=
  match index.verify with
  | .ok _ => []
  | .error fault => [.selfCheck step fault.message]

/-- Count an operation with what it inserted and removed, and the depth of the focus behind it. -/
def Stats.after (stats : Stats) (effect : Effect) (focusDepth : Nat) : Stats :=
  let stats := stats.record effect.outcome
  { stats with
    placementsInserted := stats.placementsInserted + effect.inserted
    placementsRemoved := stats.placementsRemoved + effect.removed
    maxFocusDepth := max stats.maxFocusDepth focusDepth }

variable (supply : Nat → PlacementId)

/-- One step; also the violations it found. -/
def advance (step : Nat) (progress : Progress σ) : Progress σ × List Violation :=
  let (operation, source) := drawOperation progress.world progress.source
  let expected := predict progress.world operation
  let (effect, world, source) := execute supply progress.world operation source
  let found := compareOutcomes step operation expected effect ++ selfCheckViolations step world.index
  let stats := progress.stats.after effect world.session.focusDepth
  ({ world, source, stats, violations := progress.violations ++ found }, found)

/-- Steps from number `step` on; with `stopEarly` none follows one that found a violation. -/
def runFrom (stopEarly : Bool) : Nat → Nat → Progress σ → Progress σ
  | 0, _, progress => progress
  | left + 1, step, progress =>
    let (progress, found) := advance supply step progress
    if stopEarly && !found.isEmpty then progress else runFrom stopEarly left (step + 1) progress

/-- Run a configuration with any supply of identities, on any source of words. -/
def runOn (source : σ) (config : Config) : Report :=
  let start : Progress σ := { world := .start supply config.session, source }
  let progress := runFrom supply config.stopOnFirstViolation config.operations.toNat 0 start
  { config
    stats := progress.stats
    violations := progress.violations
    finalSize := progress.world.index.size }

/-- Run a configuration on the stream of its seed; identities go by number. -/
def run (config : Config) : Report := runOn .ofNat (ChaCha.ofSeed config.seed) config

end MediaSession.Simulator
