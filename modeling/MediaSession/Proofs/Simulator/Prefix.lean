import Mathlib.Order.Basic
import MediaSession.Proofs.Simulator.Likeness

/-!
Runs of the same draws and different lengths. A shorter run is where a longer one is after as many steps, and a run that
a violation ends is the run cut right behind the step which found it, whatever the identities of either are.
-/
namespace MediaSession.Simulator

open RandomStream

variable {σ : Type} [WordSource σ] {supply : Nat → PlacementId} {source : σ} {config other : Config} {step : Nat}

/-- What is reported if a run ends in this state. -/
def Progress.report (progress : Progress σ) (config : Config) : Report :=
  { config
    stats := progress.stats
    violations := progress.violations
    finalSize := progress.world.index.size }

theorem runOn_eq_report (supply : Nat → PlacementId) (source : σ) (config : Config) :
    runOn supply source config = (runFrom supply config.stopOnFirstViolation config.operations.toNat 0
      (progressAfter supply source config 0)).report config := rfl

/-- Of the configuration, nothing but that of the session enters into the steps. -/
theorem progressAfter_congr (same : config.session = other.session) (steps : Nat) :
    progressAfter supply source config steps = progressAfter supply source other steps := by
  induction steps with
  | zero => rw [progressAfter, progressAfter, same]
  | succ steps ih => rw [progressAfter, progressAfter, ih]

/-- The violations found in the first steps, among those found later. -/
theorem filter_violations_progressAfter (supply : Nat → PlacementId) (source : σ) (config : Config)
    {fewer steps : Nat} (within : fewer ≤ steps) :
    (progressAfter supply source config steps).violations.filter (·.step < fewer) =
      (progressAfter supply source config fewer).violations := by
  induction steps, within using Nat.le_induction with
  | base =>
    refine List.filter_eq_self.mpr fun violation member => decide_eq_true ?_
    obtain ⟨step, before, found⟩ := (mem_violations_progressAfter supply source config fewer violation).mp member
    exact step_of_mem_foundAt found ▸ before
  | succ steps within ih =>
    have late : (foundAt supply source config steps).filter (·.step < fewer) = [] := by
      refine List.filter_eq_nil_iff.mpr fun violation found => ?_
      rw [step_of_mem_foundAt found, decide_eq_true_iff]
      exact Nat.not_lt_of_le within
    have listed : (progressAfter supply source config (steps + 1)).violations =
        (progressAfter supply source config steps).violations ++ foundAt supply source config steps := rfl
    rw [listed, List.filter_append, late, List.append_nil, ih]

/-- Without an early end, all steps are run. -/
theorem runFrom_false (supply : Nat → PlacementId) (source : σ) (config : Config) (left start : Nat) :
    runFrom supply false left start (progressAfter supply source config start) =
      progressAfter supply source config (start + left) := by
  obtain ⟨executed, same, steps⟩ := runFrom_eq supply source config false left start nofun
  have all : executed = start + left := eq_of_forall_lt_iff fun step => (steps step).trans (and_iff_left nofun)
  rw [same, all]

theorem runOn_full (supply : Nat → PlacementId) (source : σ) (goesOn : config.stopOnFirstViolation = false)
    (same : config.session = other.session) :
    runOn supply source config = (progressAfter supply source other config.operations.toNat).report config := by
  rw [runOn_eq_report, goesOn, runFrom_false, Nat.zero_add, progressAfter_congr same]

/-- A violation ends the run; none was found before its last step. -/
theorem runOn_stopped (supply : Nat → PlacementId) (source : σ) (config : Config)
    (stops : config.stopOnFirstViolation = true) {executed : Nat}
    (steps : ∀ step, step < executed ↔
      step < config.operations.toNat ∧ ∀ earlier < step, foundAt supply source config earlier = []) :
    runOn supply source config = (progressAfter supply source config executed).report config := by
  obtain ⟨last, gets, ends⟩ := runOn_ends supply source config
  have same : last = executed := eq_of_forall_lt_iff fun step =>
    (gets step).trans ((and_congr_right' (forall_prop_of_true stops)).trans (steps step).symm)
  rw [ends, same]
  rfl

theorem foundAt_eq_nil {steps : Nat} (before : step < steps)
    (unreported : ∀ violation ∈ (progressAfter supply source config steps).violations, violation.step ≠ step) :
    foundAt supply source config step = [] := by
  rw [List.eq_nil_iff_forall_not_mem]
  intro violation found
  have reported := (mem_violations_progressAfter supply source config steps violation).mpr ⟨step, before, found⟩
  exact unreported violation reported (step_of_mem_foundAt found)

/-- The first step of a run that finds a violation. -/
theorem first_found {steps : Nat}
    (first : IsLeast {step | ∃ violation ∈ (progressAfter supply source config steps).violations, violation.step = step}
      step) : step < steps ∧ foundAt supply source config step ≠ [] ∧
        ∀ earlier < step, foundAt supply source config earlier = [] := by
  obtain ⟨⟨violation, member, rfl⟩, least⟩ := first
  obtain ⟨step, before, found⟩ := (mem_violations_progressAfter supply source config steps violation).mp member
  rw [step_of_mem_foundAt found] at least ⊢
  refine ⟨before, List.ne_nil_of_mem found, fun earlier less => foundAt_eq_nil (Nat.lt_trans less before) ?_⟩
  exact fun other reported same => Nat.not_lt_of_le (least ⟨other, reported, same⟩) less

/-- A run whose steps find nothing comes to its end. -/
theorem runOn_clean (supply : Nat → PlacementId) (source : σ) (config : Config)
    (stops : config.stopOnFirstViolation = true)
    (clean : (progressAfter supply source config config.operations.toNat).violations = []) :
    runOn supply source config = (progressAfter supply source config config.operations.toNat).report config := by
  refine runOn_stopped supply source config stops fun step => (and_iff_left_of_imp fun before earlier less => ?_).symm
  refine foundAt_eq_nil (Nat.lt_trans less before) fun violation reported => ?_
  rw [clean] at reported
  cases reported

/-- A run ends right behind the first step that finds a violation. -/
theorem runOn_violated (supply : Nat → PlacementId) (source : σ) (config : Config)
    (stops : config.stopOnFirstViolation = true) (before : step < config.operations.toNat)
    (found : foundAt supply source config step ≠ [])
    (clean : ∀ earlier < step, foundAt supply source config earlier = []) :
    runOn supply source config = (progressAfter supply source config (step + 1)).report config := by
  refine runOn_stopped supply source config stops fun other => ⟨fun early => ?_, fun gets => ?_⟩
  · have none := Nat.le_of_lt_succ early
    exact ⟨Nat.lt_of_le_of_lt none before, fun earlier less => clean earlier (Nat.lt_of_lt_of_le less none)⟩
  · by_contra late
    exact found (gets.2 step (Nat.lt_of_not_le fun early => late (Nat.lt_succ_of_le early)))

/-- A run that is not ended early lists what shorter ones list. -/
theorem runOn_shorter (supply : Nat → PlacementId) (source : σ) (goesOn : config.stopOnFirstViolation = false)
    {fewer : UInt64} (within : fewer ≤ config.operations) :
    runOn supply source { config with operations := fewer } =
        (progressAfter supply source config fewer.toNat).report { config with operations := fewer } ∧
      runOn supply source config = (runFrom supply false (config.operations.toNat - fewer.toNat) fewer.toNat
        (progressAfter supply source config fewer.toNat)).report config ∧
      (runOn supply source { config with operations := fewer }).violations =
        (runOn supply source config).violations.filter (·.step < fewer.toNat) := by
  have fewerSteps : fewer.toNat ≤ config.operations.toNat := UInt64.le_iff_toNat_le.mp within
  have short : runOn supply source { config with operations := fewer } =
      (progressAfter supply source config fewer.toNat).report { config with operations := fewer } :=
    runOn_full supply source goesOn rfl
  refine ⟨short, ?_, ?_⟩
  · rw [runFrom_false, Nat.add_sub_cancel' fewerSteps]
    exact runOn_full supply source goesOn rfl
  · rw [short, runOn_full supply source goesOn rfl]
    exact (filter_violations_progressAfter supply source config fewerSteps).symm

/-- A run that a violation ends, beside the one that goes on to the end. -/
theorem runOn_cut (supply : Nat → PlacementId) (source : σ) (stops : config.stopOnFirstViolation = true) :
    let full := runOn supply source { config with stopOnFirstViolation := false }
    (full.violations = [] → runOn supply source config = { full with config }) ∧
      ∀ first, IsLeast {step | ∃ violation ∈ full.violations, violation.step = step} first →
        first < config.operations.toNat ∧ runOn supply source config =
          { runOn supply source { config with stopOnFirstViolation := false, operations := .ofNat (first + 1) } with
            config } := by
  intro full
  have whole : full = (progressAfter supply source config config.operations.toNat).report
      { config with stopOnFirstViolation := false } := runOn_full supply source rfl rfl
  have listed : full.violations = (progressAfter supply source config config.operations.toNat).violations :=
    congrArg Report.violations whole
  rw [listed]
  refine ⟨fun clean => ?_, fun first least => ?_⟩
  · rw [whole]
    exact runOn_clean supply source config stops clean
  · obtain ⟨before, found, clean⟩ := first_found least
    have fits : (UInt64.ofNat (first + 1)).toNat = first + 1 :=
      UInt64.toNat_ofNat_of_lt' (Nat.lt_of_le_of_lt before config.operations.toNat_lt)
    let cut := { config with stopOnFirstViolation := false, operations := .ofNat (first + 1) }
    have short : runOn supply source cut = (progressAfter supply source config cut.operations.toNat).report cut :=
      runOn_full supply source rfl rfl
    rw [short, fits]
    exact ⟨before, runOn_violated supply source config stops before found clean⟩

section Renamed
variable {one two : Nat → PlacementId} {bound : Nat} (first : Set.InjOn one (Set.Iic bound))
  (second : Set.InjOn two (Set.Iic bound))
include first second

theorem report_masked (mark : String) (source : σ) (config : Config) {steps : Nat} (few : steps ≤ bound)
    (reported : Config) : ((progressAfter one source config steps).report reported).masked mark =
      ((progressAfter two source config steps).report reported).masked mark := by
  have alike := progressAfter_alike first second mark source config steps few
  have sound := (worldAt_sound first source config steps few).1
  have sane := (worldAt_sound second source config steps few).1
  have sizes : (progressAfter one source config steps).world.index.size =
      (progressAfter two source config steps).world.index.size :=
    congrArg (· - 1)
      (alike.world.table.size_eq (paired_biUnique first second) sound.indexed.consistent sane.indexed.consistent)
  simp only [Progress.report, Report.masked, alike.violations_eq, alike.stats_eq, sizes]

theorem foundAt_masked (mark : String) (source : σ) (config : Config) {step : Nat} (before : step < bound) :
    (foundAt one source config step).map (Violation.masked mark) =
      (foundAt two source config step).map (Violation.masked mark) := by
  have now := (progressAfter_alike first second mark source config step (Nat.le_of_lt before)).violations_eq
  have later := (progressAfter_alike first second mark source config (step + 1) before).violations_eq
  have listed (supply : Nat → PlacementId) : (progressAfter supply source config (step + 1)).violations =
      (progressAfter supply source config step).violations ++ foundAt supply source config step := rfl
  rw [listed, listed, List.map_append, List.map_append, now] at later
  exact List.append_cancel_left later

theorem executed_iff (source : σ) (few : config.operations.toNat ≤ bound) (step : Nat) :
    Executed one source config step ↔ Executed two source config step := by
  refine and_congr_right fun before => imp_congr_right fun _ => forall₂_congr fun earlier less => ?_
  have within : earlier < bound := Nat.lt_of_lt_of_le (Nat.lt_trans less before) few
  rw [← List.map_eq_nil_iff, foundAt_masked first second "" source config within, List.map_eq_nil_iff]

/-- A run shows nothing of its identities but where it names them. -/
theorem runOn_masked (mark : String) (source : σ) (config : Config) (few : config.operations.toNat ≤ bound) :
    (runOn one source config).masked mark = (runOn two source config).masked mark := by
  obtain ⟨executed, gets, ends⟩ := runOn_ends one source config
  obtain ⟨last, steps, also⟩ := runOn_ends two source config
  have same : last = executed := eq_of_forall_lt_iff fun step =>
    (steps step).trans ((executed_iff first second source few step).symm.trans (gets step).symm)
  have within : executed ≤ bound := le_of_forall_lt fun step less => Nat.lt_of_lt_of_le ((gets step).mp less).1 few
  rw [ends, also, same]
  exact report_masked first second mark source config within config

end Renamed

section Reports
variable {mark : String} {report twin : Report}

theorem Report.filter_masked (mark : String) (report : Report) (steps : Nat) :
    (report.masked mark).violations.filter (·.step < steps) =
      (report.violations.filter (·.step < steps)).map (Violation.masked mark) := by
  have early : (fun violation : Violation => decide (violation.step < steps)) ∘ Violation.masked mark =
      fun violation => decide (violation.step < steps) := by
    funext violation
    exact congrArg (fun step => decide (step < steps)) (violation.step_masked mark)
  rw [masked, List.filter_map, early]

theorem Report.steps_masked (mark : String) (report : Report) (step : Nat) :
    (∃ violation ∈ (report.masked mark).violations, violation.step = step) ↔
      ∃ violation ∈ report.violations, violation.step = step := by
  simp only [Report.masked, List.mem_map, exists_exists_and_eq_and, Violation.step_masked]

/-- Reports that read alike list violations of the same steps. -/
theorem Report.steps_eq (same : report.masked mark = twin.masked mark) :
    {step | ∃ violation ∈ report.violations, violation.step = step} =
      {step | ∃ violation ∈ twin.violations, violation.step = step} := by
  ext step
  exact (report.steps_masked mark step).symm.trans (same ▸ twin.steps_masked mark step)

theorem Report.violations_eq_nil (same : report.masked mark = twin.masked mark) (clean : report.violations = []) :
    twin.violations = [] := by
  have listed : report.violations.map (Violation.masked mark) = twin.violations.map (Violation.masked mark) :=
    congrArg Report.violations same
  rw [clean] at listed
  exact List.map_eq_nil_iff.mp listed.symm

end Reports

/-- Runs of the same draws, each with a supply of distinct identities of its own; compared with the identities masked,
since a self-check that fails names the first placement that it finds too deep, in the order of identities. A run that
is not ended early is a prefix of every longer one: the longer one is in the same state after as many steps, goes on
from there, and lists the same violations up to there. A run that a violation ends is the run, not to be ended early, of
just the steps up to the first that finds a violation, or of all steps if none does. -/
theorem runOn_prefix_of_longer (config : Config) {one two three : Nat → PlacementId}
    (first : Set.InjOn one (Set.Iic config.operations.toNat)) (second : Set.InjOn two (Set.Iic config.operations.toNat))
    (third : Set.InjOn three (Set.Iic config.operations.toNat)) (mark : String) (source : σ) :
    (config.stopOnFirstViolation = false → ∀ fewer ≤ config.operations,
      let shorter := { config with operations := fewer }
      let middle := progressAfter two source config fewer.toNat
      (runOn one source shorter).masked mark = (middle.report shorter).masked mark ∧
      runOn two source config =
        (runFrom two false (config.operations.toNat - fewer.toNat) fewer.toNat middle).report config ∧
      ((runOn one source shorter).masked mark).violations =
        ((runOn two source config).masked mark).violations.filter (·.step < fewer.toNat)) ∧
    (config.stopOnFirstViolation = true →
      let full := runOn one source { config with stopOnFirstViolation := false }
      (full.violations = [] → (runOn two source config).masked mark = { full.masked mark with config }) ∧
      ∀ step, IsLeast {step | ∃ violation ∈ full.violations, violation.step = step} step →
        let cut := { config with stopOnFirstViolation := false, operations := .ofNat (step + 1) }
        (runOn two source config).masked mark = { (runOn three source cut).masked mark with config }) := by
  refine ⟨fun goesOn fewer within => ?_, fun stops => ?_⟩
  · intro shorter middle
    obtain ⟨short, goes, listed⟩ := runOn_shorter two source goesOn within
    have same : (runOn one source shorter).masked mark = (runOn two source shorter).masked mark :=
      runOn_masked first second mark source shorter (UInt64.le_iff_toNat_le.mp within)
    refine ⟨same.trans (congrArg (Report.masked mark) short), goes, ?_⟩
    rw [same, Report.filter_masked, ← listed]
    rfl
  · intro full
    let own := runOn two source { config with stopOnFirstViolation := false }
    have renamed : full.masked mark = own.masked mark := runOn_masked first second mark source _ (Nat.le_refl _)
    obtain ⟨clean, violated⟩ := runOn_cut two source stops
    refine ⟨fun none => ?_, fun step least => ?_⟩
    · rw [clean (Report.violations_eq_nil renamed none), renamed]
      rfl
    · intro cut
      obtain ⟨before, short⟩ := violated step (Report.steps_eq renamed ▸ least)
      have fits : cut.operations.toNat ≤ config.operations.toNat := by
        have same : cut.operations.toNat = step + 1 :=
          UInt64.toNat_ofNat_of_lt' (Nat.lt_of_le_of_lt before config.operations.toNat_lt)
        exact same ▸ before
      have cuts : (runOn two source cut).masked mark = (runOn three source cut).masked mark :=
        runOn_masked second third mark source cut fits
      rw [short, ← cuts]
      rfl

namespace Trial

/-- A supply that counts down. -/
def descending (top number : Nat) : PlacementId := .ofNat (top - number)

theorem descending_injOn {bound top : Nat} (low : bound ≤ top) (few : top < 2 ^ 64) :
    Set.InjOn (descending top) (Set.Iic bound) := by
  intro one early other late same
  have first : one ≤ bound := early
  have second : other ≤ bound := late
  have equal : top - one = top - other := PlacementId.ofNat_injective (by omega) (by omega) same
  omega

end Trial

/-- With a limit of one the first of two steps finds a violation, with a limit of three none does; identities that count
up and such that count down show in the reports, but for a mask. -/
theorem runOn_prefix_of_longer_trial :
    let config := Trial.twoSteps 1
    let stopped := { config with stopOnFirstViolation := true }
    let clean := { Trial.twoSteps 3 with stopOnFirstViolation := true }
    let up := PlacementId.ofNat
    let down := Trial.descending 9
    (Set.InjOn up (Set.Iic 2) ∧ Set.InjOn down (Set.Iic 2)) ∧
    ((1 : UInt64) ≤ config.operations ∧ (runOn down Trial.words config).violations.length = 3 ∧
      (runOn up Trial.words { config with operations := 1 }).violations ≠
        (runOn down Trial.words config).violations.filter (·.step < 1) ∧
      ((runOn up Trial.words { config with operations := 1 }).masked "#").violations =
        ((runOn down Trial.words config).masked "#").violations.filter (·.step < 1)) ∧
    (IsLeast {step | ∃ violation ∈ (runOn up Trial.words config).violations, violation.step = step} 0 ∧
      (runOn down Trial.words stopped).masked "#" =
        { (runOn up Trial.words { config with operations := 1 }).masked "#" with config := stopped }) ∧
    ((runOn up Trial.words (Trial.twoSteps 3)).violations = [] ∧ (runOn down Trial.words clean).masked "#" =
      { (runOn up Trial.words (Trial.twoSteps 3)).masked "#" with config := clean }) := by
  intro config stopped clean up down
  have counted : Set.InjOn up (Set.Iic 2) := Trial.ofNat_injOn (by decide)
  have descended : Set.InjOn down (Set.Iic 2) := Trial.descending_injOn (by decide) (by decide)
  have within : (1 : UInt64) ≤ config.operations := by decide
  have reported : ∃ violation ∈ (runOn up Trial.words config).violations, violation.step = 0 := by decide +kernel
  have least : IsLeast {step | ∃ violation ∈ (runOn up Trial.words config).violations, violation.step = step} 0 :=
    ⟨reported, fun step _ => Nat.zero_le step⟩
  have passed : (runOn up Trial.words (Trial.twoSteps 3)).violations = [] := by decide +kernel
  refine ⟨⟨counted, descended⟩, ⟨within, by decide +kernel, by decide +kernel, ?_⟩, ⟨least, ?_⟩, passed, ?_⟩
  · exact ((runOn_prefix_of_longer config counted descended counted "#" Trial.words).1 rfl 1 within).2.2
  · exact ((runOn_prefix_of_longer stopped counted descended counted "#" Trial.words).2 rfl).2 0 least
  · exact ((runOn_prefix_of_longer clean counted descended counted "#" Trial.words).2 rfl).1 passed

end MediaSession.Simulator
