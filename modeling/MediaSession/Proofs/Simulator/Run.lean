import MediaSession.Proofs.Index.SelfCheck
import MediaSession.Proofs.PlacementId.Forms
import MediaSession.Proofs.Simulator.World
import MediaSession.Simulator.Run

/-!
Simulation runs of any configuration on any source of words. A run reports what goes beyond the depth limit, step by
step, and nothing else.
-/
namespace MediaSession.Simulator

open RandomStream

variable {σ : Type} [WordSource σ]

section Steps
variable (supply : Nat → PlacementId) (source : σ) (config : Config)

/-- The state after a number of steps, none of which is the last. -/
def progressAfter : Nat → Progress σ
  | 0 => { world := .start supply config.session, source }
  | steps + 1 => (advance supply steps (progressAfter steps)).1

/-- The world that a step starts from. -/
def worldAt (step : Nat) : World := (progressAfter supply source config step).world

/-- The operation drawn at a step. -/
def operationAt (step : Nat) : Operation :=
  (drawOperation (worldAt supply source config step) (progressAfter supply source config step).source).1

/-- What the operation of a step comes to. -/
def effectAt (step : Nat) : Effect :=
  (execute supply (worldAt supply source config step) (operationAt supply source config step)
    (drawOperation (worldAt supply source config step) (progressAfter supply source config step).source).2).1

/-- The violations found at a step. -/
def foundAt (step : Nat) : List Violation := (advance supply step (progressAfter supply source config step)).2

end Steps

variable {supply : Nat → PlacementId} {source : σ} {config : Config}

section Step
variable {world next : World} {operation : Operation} {effect : Effect} {session : SessionConfig} {step : Nat}

theorem Carried.compare_within (carried : Carried supply session world operation effect next)
    (within : ¬ world.LeadsBeyond session.maxPathDepth operation) :
    compareOutcomes step operation (predict world operation) effect = [] := by
  simp only [compareOutcomes, carried.within within, carried.faultless]
  simp

/-- What leads beyond the limit is predicted to succeed. -/
theorem predict_of_leadsBeyond {limit : Nat} (beyond : world.LeadsBeyond limit operation) :
    predict world operation = .success := by
  cases operation with
  | navigate target | pushFocus target => exact if_pos beyond.1
  | insert | remove | clearScope | activate | resolve | popFocus => exact beyond.elim

theorem Carried.compare_beyond (carried : Carried supply session world operation effect next)
    (beyond : world.LeadsBeyond session.maxPathDepth operation) :
    compareOutcomes step operation (predict world operation) effect =
      [.unexpectedOutcome step operation .success (.failure .navigation) none] := by
  simp only [compareOutcomes, carried.beyond beyond, carried.faultless, predict_of_leadsBeyond beyond]
  simp

theorem World.LeadsBeyond.lies {limit : Nat} (beyond : world.LeadsBeyond limit operation) :
    ∃ id, world.index.table.LiesBeyond limit id := by
  cases operation with
  | navigate target | pushFocus target => exact ⟨_, beyond⟩
  | insert | remove | clearScope | activate | resolve | popFocus => exact beyond.elim

/-- The self-check of a world fails just in case something lies beyond the limit. -/
theorem World.Sound.verify_error_iff (sound : world.Sound supply session) :
    (∃ fault, world.index.verify = .error fault) ↔
      ∃ id, world.index.table.LiesBeyond session.maxPathDepth id := by
  obtain ⟨entry, found⟩ := (Table.contains_iff ..).mp sound.indexed.consistent.contains_root
  have verdict : world.index.table.verify session.maxPathDepth = .ok () ↔ _ :=
    Table.verify_ok_iff sound.indexed.consistent found
  rw [and_iff_right (sound.rooted found)] at verdict
  rw [Index.verify, sound.limit]
  constructor
  · rintro ⟨fault, failed⟩
    by_contra within
    rw [verdict.mpr (not_exists.mp within)] at failed
    cases failed
  · rintro ⟨id, beyond⟩
    cases checked : world.index.table.verify session.maxPathDepth with
    | ok => exact absurd beyond (verdict.mp checked id)
    | error fault => exact ⟨fault, rfl⟩

/-- What the comparison finds names the step. -/
theorem step_of_mem_compareOutcomes {expected : Outcome} {violation : Violation}
    (found : violation ∈ compareOutcomes step operation expected effect) : violation.step = step := by
  unfold compareOutcomes at found
  split at found
  · obtain rfl := List.mem_singleton.mp found
    rfl
  · split at found
    · obtain rfl := List.mem_singleton.mp found
      rfl
    · cases found

theorem step_of_mem_selfCheckViolations {index : Index} {violation : Violation}
    (found : violation ∈ selfCheckViolations step index) : violation.step = step := by
  unfold selfCheckViolations at found
  split at found
  · cases found
  · obtain rfl := List.mem_singleton.mp found
    rfl

end Step

/-- A step carries its operation out as long as new identities are supplied. -/
theorem World.Sound.carried {bound step : Nat} (sound : (worldAt supply source config step).Sound supply config.session)
    (next : (worldAt supply source config step).ledger.next ≤ step + 1)
    (supplied : Set.InjOn supply (Set.Iic bound)) (few : step < bound) :
    Carried supply config.session (worldAt supply source config step) (operationAt supply source config step)
      (effectAt supply source config step) (worldAt supply source config (step + 1)) := by
  have left := supplied.mono (Set.Iic_subset_Iic.mpr (Nat.le_trans next few))
  exact sound.execute left (operationAt supply source config step)
    (drawOperation (worldAt supply source config step) (progressAfter supply source config step).source).2

theorem worldAt_sound {bound : Nat} (supplied : Set.InjOn supply (Set.Iic bound)) (source : σ) (config : Config)
    (steps : Nat) (few : steps ≤ bound) : (worldAt supply source config steps).Sound supply config.session ∧
      (worldAt supply source config steps).ledger.next ≤ steps + 1 := by
  induction steps with
  | zero => exact ⟨World.start_sound supply config.session, Nat.le_refl _⟩
  | succ steps ih =>
    obtain ⟨sound, next⟩ := ih (Nat.le_of_succ_le few)
    have carried := sound.carried next supplied few
    exact ⟨carried.sound, Nat.le_trans carried.next_le (Nat.succ_le_succ next)⟩

/-- What a step finds: a focus led beyond the limit, and an index that fails its self-check behind it. -/
theorem mem_foundAt_iff {bound : Nat} (supplied : Set.InjOn supply (Set.Iic bound)) (source : σ) (config : Config)
    {step : Nat} (few : step < bound) (violation : Violation) :
    violation ∈ foundAt supply source config step ↔
      ((worldAt supply source config step).LeadsBeyond config.session.maxPathDepth
            (operationAt supply source config step) ∧
          violation = .unexpectedOutcome step (operationAt supply source config step) .success (.failure .navigation)
            none) ∨
      ∃ fault, (worldAt supply source config (step + 1)).index.verify = .error fault ∧
        violation = .selfCheck step fault.message := by
  obtain ⟨sound, next⟩ := worldAt_sound supplied source config step (Nat.le_of_lt few)
  have carried := sound.carried next supplied few
  have checked : violation ∈ selfCheckViolations step (worldAt supply source config (step + 1)).index ↔
      ∃ fault, (worldAt supply source config (step + 1)).index.verify = .error fault ∧
        violation = .selfCheck step fault.message := by
    unfold selfCheckViolations
    cases (worldAt supply source config (step + 1)).index.verify <;> simp
  rw [← checked]
  refine List.mem_append.trans (or_congr_left ?_)
  by_cases beyond : (worldAt supply source config step).LeadsBeyond config.session.maxPathDepth
      (operationAt supply source config step)
  · rw [and_iff_right beyond]
    exact (congrArg (violation ∈ ·) (carried.compare_beyond beyond)).to_iff.trans List.mem_singleton
  · refine (congrArg (violation ∈ ·) (carried.compare_within beyond)).to_iff.trans ?_
    simp [beyond]

theorem Stats.operations_after (stats : Stats) (effect : Effect) (focusDepth : Nat) :
    (stats.after effect focusDepth).operations = stats.operations + 1 := by
  unfold Stats.after Stats.record
  split <;> rfl

theorem operations_progressAfter (supply : Nat → PlacementId) (source : σ) (config : Config) (steps : Nat) :
    (progressAfter supply source config steps).stats.operations = steps := by
  induction steps with
  | zero => rfl
  | succ steps ih => exact (Stats.operations_after ..).trans (congrArg (· + 1) ih)

theorem mem_violations_progressAfter (supply : Nat → PlacementId) (source : σ) (config : Config) (steps : Nat)
    (violation : Violation) :
    violation ∈ (progressAfter supply source config steps).violations ↔
      ∃ step < steps, violation ∈ foundAt supply source config step := by
  induction steps with
  | zero => simp [progressAfter]
  | succ steps ih =>
    rw [Nat.exists_lt_succ_right, ← ih]
    exact List.mem_append

/-- A violation names the step that found it. -/
theorem step_of_mem_foundAt {step : Nat} {violation : Violation}
    (found : violation ∈ foundAt supply source config step) : violation.step = step :=
  (List.mem_append.mp found).elim step_of_mem_compareOutcomes step_of_mem_selfCheckViolations

/-- The run gets to this step: no step before it is the last. -/
def Executed (supply : Nat → PlacementId) (source : σ) (config : Config) (step : Nat) : Prop :=
  step < config.operations.toNat ∧
    (config.stopOnFirstViolation = true → ∀ earlier < step, foundAt supply source config earlier = [])

/-- Induction over the steps left; so far nothing was found, or it does not matter. -/
theorem runFrom_eq (supply : Nat → PlacementId) (source : σ) (config : Config) (stopEarly : Bool) (left start : Nat)
    (clean : stopEarly = true → ∀ earlier < start, foundAt supply source config earlier = []) :
    ∃ executed,
      runFrom supply stopEarly left start (progressAfter supply source config start) =
          progressAfter supply source config executed ∧
        ∀ step, step < executed ↔
          step < start + left ∧ (stopEarly = true → ∀ earlier < step, foundAt supply source config earlier = []) := by
  induction left generalizing start with
  | zero =>
    refine ⟨start, rfl, fun step => ⟨fun before => ⟨before, fun stops earlier less => ?_⟩, fun within => within.1⟩⟩
    exact clean stops earlier (Nat.lt_trans less before)
  | succ left ih =>
    change ∃ executed, (if stopEarly && !(foundAt supply source config start).isEmpty
      then progressAfter supply source config (start + 1)
      else runFrom supply stopEarly left (start + 1) (progressAfter supply source config (start + 1))) = _ ∧ _
    split
    · rename_i stops
      obtain ⟨stopped, found⟩ := Bool.and_eq_true_iff.mp stops
      refine ⟨start + 1, rfl, fun step => ⟨fun before => ⟨by omega, fun _ earlier less => ?_⟩, fun within => ?_⟩⟩
      · exact clean stopped earlier (by omega)
      · by_contra late
        have nothing := within.2 stopped start (by omega)
        rw [nothing] at found
        cases found
    · rename_i goes
      obtain ⟨executed, same, steps⟩ := ih (start + 1) fun stops earlier less => by
        rcases Nat.lt_succ_iff_lt_or_eq.mp less with before | rfl
        · exact clean stops earlier before
        · simpa [stops] using goes
      exact ⟨executed, same, fun step => (steps step).trans (by rw [Nat.add_right_comm, Nat.add_assoc])⟩

/-- The report is that of the state after the last step. -/
theorem runOn_ends (supply : Nat → PlacementId) (source : σ) (config : Config) :
    ∃ executed, (∀ step, step < executed ↔ Executed supply source config step) ∧
      runOn supply source config =
        { config
          stats := (progressAfter supply source config executed).stats
          violations := (progressAfter supply source config executed).violations
          finalSize := (worldAt supply source config executed).index.size } := by
  obtain ⟨executed, same, steps⟩ := runFrom_eq supply source config config.stopOnFirstViolation
    config.operations.toNat 0 fun _ earlier less => absurd less (Nat.not_lt_zero earlier)
  refine ⟨executed, fun step => (steps step).trans (by rw [Nat.zero_add, Executed]), ?_⟩
  exact congrArg (fun last => Report.mk config last.stats last.violations last.world.index.size) same

/-- The report counts all steps, and it lists what was found at every one. -/
theorem runOn_eq (supply : Nat → PlacementId) (source : σ) (config : Config) :
    ∃ executed, (∀ step, step < executed ↔ Executed supply source config step) ∧
      (runOn supply source config).stats.operations = executed ∧
      (runOn supply source config).violations = (progressAfter supply source config executed).violations := by
  obtain ⟨executed, steps, ends⟩ := runOn_ends supply source config
  refine ⟨executed, steps, ?_, by rw [ends]⟩
  rw [ends]
  exact operations_progressAfter supply source config executed

section Reports
variable (supplied : Set.InjOn supply (Set.Iic config.operations.toNat))
include supplied

/-- All that a run reports. -/
theorem mem_violations_runOn (source : σ) (violation : Violation) :
    violation ∈ (runOn supply source config).violations ↔ ∃ step, Executed supply source config step ∧
      ((worldAt supply source config step).LeadsBeyond config.session.maxPathDepth
            (operationAt supply source config step) ∧
          violation = .unexpectedOutcome step (operationAt supply source config step) .success (.failure .navigation)
            none ∨
        ∃ fault, (worldAt supply source config (step + 1)).index.verify = .error fault ∧
          violation = .selfCheck step fault.message) := by
  obtain ⟨executed, steps, _, violations⟩ := runOn_eq supply source config
  rw [violations, mem_violations_progressAfter]
  refine exists_congr fun step => (and_congr_left' (steps step)).trans (and_congr_right fun gets => ?_)
  exact mem_foundAt_iff supplied source config gets.1 violation

theorem wrongResult_notMem (source : σ) (step : Nat) (operation : Operation) (detail : String) :
    .wrongResult step operation detail ∉ (runOn supply source config).violations := by
  rw [mem_violations_runOn supplied]
  rintro ⟨_, _, ⟨_, same⟩ | ⟨_, _, same⟩⟩ <;> cases same

theorem unexpectedOutcome_mem_iff (source : σ) {step : Nat} {operation : Operation} {expected actual : Outcome}
    {detail : Option String} :
    .unexpectedOutcome step operation expected actual detail ∈ (runOn supply source config).violations ↔
      Executed supply source config step ∧ operation = operationAt supply source config step ∧
        (worldAt supply source config step).LeadsBeyond config.session.maxPathDepth operation ∧
        expected = .success ∧ actual = .failure .navigation ∧ detail = none := by
  rw [mem_violations_runOn supplied]
  constructor
  · rintro ⟨_, executed, ⟨beyond, same⟩ | ⟨_, _, same⟩⟩
    · cases same
      exact ⟨executed, rfl, beyond, rfl, rfl, rfl⟩
    · cases same
  · rintro ⟨executed, rfl, beyond, rfl, rfl, rfl⟩
    exact ⟨step, executed, .inl ⟨beyond, rfl⟩⟩

theorem selfCheck_mem_iff (source : σ) {step : Nat} :
    (∃ failure, .selfCheck step failure ∈ (runOn supply source config).violations) ↔
      Executed supply source config step ∧
        ∃ id, (worldAt supply source config (step + 1)).index.table.LiesBeyond config.session.maxPathDepth id := by
  constructor
  · rintro ⟨failure, member⟩
    obtain ⟨_, executed, ⟨_, same⟩ | ⟨fault, failed, same⟩⟩ := (mem_violations_runOn supplied ..).mp member
    · cases same
    · cases same
      exact ⟨executed, (worldAt_sound supplied source config _ executed.1).1.verify_error_iff.mp ⟨fault, failed⟩⟩
  · rintro ⟨executed, beyond⟩
    obtain ⟨fault, failed⟩ := (worldAt_sound supplied source config _ executed.1).1.verify_error_iff.mpr beyond
    exact ⟨fault.message, (mem_violations_runOn supplied ..).mpr ⟨step, executed, .inr ⟨fault, failed, rfl⟩⟩⟩

/-- It takes as many steps as the limit to get beyond it. -/
theorem not_liesBeyond_of_few (source : σ) {steps limit : Nat} (few : steps ≤ config.operations.toNat)
    (short : steps < limit) (id : PlacementId) :
    ¬ (worldAt supply source config steps).index.table.LiesBeyond limit id := by
  intro beyond
  obtain ⟨sound, next⟩ := worldAt_sound supplied source config steps few
  have deep := sound.lt_next beyond
  omega

theorem passed_of_few (source : σ) (few : config.operations.toNat < config.session.maxPathDepth) :
    (runOn supply source config).passed = true := by
  refine List.isEmpty_iff.mpr (List.eq_nil_iff_forall_not_mem.mpr fun violation member => ?_)
  obtain ⟨step, executed, ⟨beyond, _⟩ | ⟨fault, failed, _⟩⟩ := (mem_violations_runOn supplied ..).mp member
  · obtain ⟨id, deep⟩ := beyond.lies
    exact not_liesBeyond_of_few supplied source (Nat.le_of_lt executed.1) (Nat.lt_trans executed.1 few) id deep
  · have sound := (worldAt_sound supplied source config (step + 1) executed.1).1
    obtain ⟨id, deep⟩ := sound.verify_error_iff.mp ⟨fault, failed⟩
    exact not_liesBeyond_of_few supplied source executed.1 (Nat.lt_of_le_of_lt executed.1 few) id deep

/-- A run on any source of words, with a supply of distinct identities for all that it may place, reports no wrong
result. What it reports is, for each step that it gets to, whether the focus was to be led to a placement beyond the
depth limit, and whether anything lies there behind the step. -/
theorem runOn_reports_depth (source : σ) :
    (∀ step, step < (runOn supply source config).stats.operations ↔ Executed supply source config step) ∧
    (∀ step operation detail, .wrongResult step operation detail ∉ (runOn supply source config).violations) ∧
    (∀ step operation expected actual detail,
      .unexpectedOutcome step operation expected actual detail ∈ (runOn supply source config).violations ↔
        Executed supply source config step ∧ operation = operationAt supply source config step ∧
          (worldAt supply source config step).LeadsBeyond config.session.maxPathDepth operation ∧
          expected = .success ∧ actual = .failure .navigation ∧ detail = none) ∧
    (∀ step, (∃ failure, .selfCheck step failure ∈ (runOn supply source config).violations) ↔
      Executed supply source config step ∧
        ∃ id, (worldAt supply source config (step + 1)).index.table.LiesBeyond config.session.maxPathDepth id) ∧
    (config.operations.toNat < config.session.maxPathDepth → (runOn supply source config).passed = true) := by
  refine ⟨?_, wrongResult_notMem supplied source, ?_, ?_, passed_of_few supplied source⟩
  · obtain ⟨executed, steps, operations, _⟩ := runOn_eq supply source config
    rw [operations]
    exact steps
  · intro step operation expected actual detail
    exact unexpectedOutcome_mem_iff supplied source
  · intro step
    exact selfCheck_mem_iff supplied source

end Reports

/-- Words in a row, and zeros behind them. -/
instance : WordSource (List UInt32) where
  next
    | [] => (0, [])
    | word :: rest => (word, rest)

namespace Trial

/-- Drawn from these words, an insertion below the root and a navigation to what was inserted. -/
def words : List UInt32 := [0, 0, 0, 0, 0, 0x40000000, 0xC0000000]

def twoSteps (maxPathDepth : Nat) : Config := { operations := 2, session := { maxPathDepth } }

theorem ofNat_injOn {bound : Nat} (few : bound < 2 ^ 64) : Set.InjOn PlacementId.ofNat (Set.Iic bound) := by
  intro one early other late same
  have first : one ≤ bound := early
  have second : other ≤ bound := late
  exact PlacementId.ofNat_injective (by omega) (by omega) same

end Trial

/-- The same two steps pass with a limit of three and lead beyond a limit of one. -/
theorem runOn_reports_depth_trial :
    Set.InjOn PlacementId.ofNat (Set.Iic (Trial.twoSteps 3).operations.toNat) ∧
    (Trial.twoSteps 3).operations.toNat < 3 ∧ (runOn .ofNat Trial.words (Trial.twoSteps 3)).passed = true ∧
      .unexpectedOutcome 1 (.navigate 1) .success (.failure .navigation) none ∈
        (runOn .ofNat Trial.words (Trial.twoSteps 1)).violations ∧
      (worldAt .ofNat Trial.words (Trial.twoSteps 1) 1).LeadsBeyond 1 (.navigate 1) := by
  have three : Set.InjOn PlacementId.ofNat (Set.Iic (Trial.twoSteps 3).operations.toNat) :=
    Trial.ofNat_injOn (by decide)
  have one : Set.InjOn PlacementId.ofNat (Set.Iic (Trial.twoSteps 1).operations.toNat) :=
    Trial.ofNat_injOn (by decide)
  have few : (Trial.twoSteps 3).operations.toNat < 3 := by decide
  have reported : .unexpectedOutcome 1 (.navigate 1) .success (.failure .navigation) none ∈
      (runOn .ofNat Trial.words (Trial.twoSteps 1)).violations := by decide +kernel
  refine ⟨three, few, (runOn_reports_depth three Trial.words).2.2.2.2 few, reported, ?_⟩
  exact (((runOn_reports_depth one Trial.words).2.2.1 _ _ _ _ _).mp reported).2.2.1

end MediaSession.Simulator
