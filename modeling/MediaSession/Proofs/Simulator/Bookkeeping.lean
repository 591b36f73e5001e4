import Mathlib.Order.Bounds.Defs
import MediaSession.Proofs.Simulator.Run

/-!
What the figures of a report count. Each of them equals a quantity of the index or of the focus, whatever the
operations were and however they failed.
-/
namespace MediaSession

namespace Table
variable {table : Table}

theorem size_add {placement : Placement} (fresh : table.contains placement.id ≠ true) (scope : PlacementId) :
    (table.add placement scope).size = table.size + 1 := by
  rw [← length_placements, ← length_placements]
  exact (placements_add fresh scope).length_eq

end Table

theorem Index.size_eq {index : Index} (valid : index.table.Consistent) : index.size + 1 = index.table.size := by
  have positive : 0 < index.table.size := by
    rw [Table.size_eq_length_keys]
    exact List.length_pos_of_mem ((Table.mem_keys_iff ..).mpr valid.contains_root)
  exact Nat.sub_add_cancel positive

namespace Simulator

open RandomStream

variable {σ : Type} [WordSource σ] {supply : Nat → PlacementId} {config : SessionConfig} {world next : World}
  {effect : Effect}

/-- What was inserted and removed is what the index has gained and lost. -/
def Balanced (world : World) (effect : Effect) (next : World) : Prop :=
  next.index.table.size + effect.removed = world.index.table.size + effect.inserted

theorem executeInsert_balanced (sound : world.Sound supply config)
    (supplied : Set.InjOn supply (Set.Iic world.ledger.next)) (parent : Nat) (kind : PlacedKind) (source : σ) :
    Balanced world (executeInsert supply world parent kind source).1
      (executeInsert supply world parent kind source).2.1 := by
  have distinct := (sound.executeInsert supplied parent kind source).sound.distinct
  obtain ⟨placement, rest, _, _, done⟩ := executeInsert_eq supply world parent kind source
  rw [done] at distinct ⊢
  by_cases registered : world.index.contains (world.pick parent) = true
  · rw [if_pos registered] at distinct ⊢
    rw [Array.toList_push] at distinct
    have new : world.index.table.contains placement.id ≠ true := fun registered =>
      (List.nodup_append.mp distinct).2.2 _ (sound.indexed.known registered) _ (List.mem_singleton_self _) rfl
    exact Table.size_add new _
  · rw [if_neg registered]
    rfl

theorem executeRemove_balanced (sound : world.Sound supply config) (target : Nat) :
    Balanced world (executeRemove world target).1 (executeRemove world target).2 := by
  unfold executeRemove
  dsimp only
  split
  · rfl
  · rename_i after removed success
    obtain ⟨_, _, told⟩ := World.Sound.removed_of_ok sound.indexed.consistent success
    rw [if_pos told]
    have handed := (Index.placements_remove success).length_eq
    rw [List.length_append, Table.length_placements, Table.length_placements] at handed
    exact (Nat.add_comm ..).trans handed

theorem executeClear_balanced (sound : world.Sound supply config) (target : Nat) :
    Balanced world (executeClear world target).1 (executeClear world target).2 := by
  unfold executeClear
  dsimp only
  split
  · rfl
  · rename_i after removed count success
    have handed := (Index.placements_clearScope success).length_eq
    rw [List.length_append, Table.length_placements, Table.length_placements,
      ← (Index.length_clearScope sound.indexed.consistent success).2] at handed
    exact (Nat.add_comm ..).trans handed

theorem holdRef_index (world : World) (reference : ObjectRef) (source : σ) :
    (holdRef world reference source).1.index = world.index := by
  unfold holdRef
  split <;> rfl

theorem executeActivate_balanced (world : World) (target : Nat) (source : σ) :
    Balanced world (executeActivate world target source).1 (executeActivate world target source).2.1 := by
  unfold executeActivate
  dsimp only
  split
  · rfl
  · rename_i reference _
    unfold Balanced
    dsimp only
    split
    · rw [holdRef_index]
      rfl
    · rfl

/-- Whatever the operation is. -/
theorem execute_balanced (sound : world.Sound supply config) (supplied : Set.InjOn supply (Set.Iic world.ledger.next))
    (operation : Operation) (source : σ) :
    Balanced world (execute supply world operation source).1 (execute supply world operation source).2.1 := by
  cases operation with
  | insert parent kind => exact executeInsert_balanced sound supplied parent kind source
  | remove target => exact executeRemove_balanced sound target
  | clearScope target => exact executeClear_balanced sound target
  | activate target => exact executeActivate_balanced world target source
  | resolve reference =>
    simp only [execute, executeResolve]
    split <;> rfl
  | navigate target =>
    simp only [execute, executeNavigate]
    split <;> rfl
  | pushFocus target =>
    simp only [execute, executePush]
    split
    · rfl
    · split
      all_goals
        rename_i pushed
        exact congrArg (fun outcome => outcome.2.1.index.table.size) pushed.symm
  | popFocus =>
    simp only [execute, executePop]
    split <;> rfl

/-- No operation is expected to fail a check of types. -/
theorem predict_ne_type (world : World) (operation : Operation) : predict world operation ≠ .failure .type := by
  unfold predict
  cases operation <;> dsimp only <;> repeat' split <;> simp

theorem Carried.outcome_ne_type {operation : Operation} (carried : Carried supply config world operation effect next) :
    effect.outcome ≠ .failure .type := by
  by_cases beyond : world.LeadsBeyond config.maxPathDepth operation
  · rw [carried.beyond beyond]
    simp
  · rw [carried.within beyond]
    exact predict_ne_type world operation

/-- Operations, summed up over all that can come of one. -/
def Stats.counted (stats : Stats) : Nat :=
  stats.succeeded + stats.skipped + stats.nonEmptyScope + stats.rootRefused + stats.dangling + stats.navigation +
    stats.typeErrors

theorem Stats.counted_after (stats : Stats) (effect : Effect) (focusDepth : Nat) :
    (stats.after effect focusDepth).counted = stats.counted + 1 := by
  unfold Stats.after Stats.record Stats.counted
  split <;> dsimp only <;> omega

theorem Stats.typeErrors_after (stats : Stats) (focusDepth : Nat) (fits : effect.outcome ≠ .failure .type) :
    (stats.after effect focusDepth).typeErrors = stats.typeErrors := by
  unfold Stats.after Stats.record
  split <;> first | rfl | contradiction

theorem Stats.placements_after (stats : Stats) (effect : Effect) (focusDepth : Nat) :
    (stats.after effect focusDepth).placementsInserted = stats.placementsInserted + effect.inserted ∧
      (stats.after effect focusDepth).placementsRemoved = stats.placementsRemoved + effect.removed := by
  unfold Stats.after Stats.record
  split <;> exact ⟨rfl, rfl⟩

theorem Stats.maxFocusDepth_after (stats : Stats) (effect : Effect) (focusDepth : Nat) :
    (stats.after effect focusDepth).maxFocusDepth = max stats.maxFocusDepth focusDepth := by
  unfold Stats.after Stats.record
  split <;> rfl

/-- The figures between two steps. -/
structure Booked (stats : Stats) (index : Index) : Prop where
  balance : stats.placementsInserted = stats.placementsRemoved + index.size
  operations_eq : stats.operations = stats.counted
  typeErrors_eq : stats.typeErrors = 0

theorem Booked.after {stats : Stats} (booked : Booked stats world.index) (sound : world.Sound supply config)
    {operation : Operation} (carried : Carried supply config world operation effect next)
    (balanced : Balanced world effect next) (focusDepth : Nat) :
    Booked (stats.after effect focusDepth) next.index := by
  obtain ⟨inserted, removed⟩ := stats.placements_after effect focusDepth
  have before := Index.size_eq sound.indexed.consistent
  have behind := Index.size_eq carried.sound.indexed.consistent
  refine ⟨?_, ?_, ?_⟩
  · have balance := booked.balance
    unfold Balanced at balanced
    omega
  · rw [stats.operations_after, stats.counted_after, booked.operations_eq]
  · rw [stats.typeErrors_after focusDepth carried.outcome_ne_type, booked.typeErrors_eq]

section Runs
variable {bound : Nat} (supplied : Set.InjOn supply (Set.Iic bound)) (source : σ) (config : Config)
include supplied

theorem progressAfter_booked (steps : Nat) (few : steps ≤ bound) :
    Booked (progressAfter supply source config steps).stats (worldAt supply source config steps).index := by
  induction steps with
  | zero => exact ⟨rfl, rfl, rfl⟩
  | succ steps ih =>
    obtain ⟨sound, next⟩ := worldAt_sound supplied source config steps (Nat.le_of_succ_le few)
    have left := supplied.mono (Set.Iic_subset_Iic.mpr (Nat.le_trans next few))
    exact (ih (Nat.le_of_succ_le few)).after sound (sound.carried next supplied few) (execute_balanced sound left _ _) _

/-- The depth of the focus behind a step. -/
theorem focusDepth_worldAt (steps : Nat) (few : steps ≤ bound) :
    (worldAt supply source config steps).session.focusDepth =
      (worldAt supply source config steps).pushed.length + 1 := by
  have depth := (worldAt_sound supplied source config steps few).1.manned.depth_eq
  rw [List.length_append] at depth
  exact depth

theorem maxFocusDepth_le_iff (steps : Nat) (few : steps ≤ bound) (bound : Nat) :
    (progressAfter supply source config steps).stats.maxFocusDepth ≤ bound ↔
      ∀ step < steps, (worldAt supply source config (step + 1)).pushed.length + 1 ≤ bound := by
  induction steps with
  | zero => exact iff_of_true (Nat.zero_le bound) nofun
  | succ steps ih =>
    have deeper : (progressAfter supply source config (steps + 1)).stats.maxFocusDepth =
        max (progressAfter supply source config steps).stats.maxFocusDepth
          ((worldAt supply source config (steps + 1)).pushed.length + 1) := by
      rw [← focusDepth_worldAt supplied source config _ few]
      exact Stats.maxFocusDepth_after ..
    rw [deeper, Nat.max_le, ih (Nat.le_of_succ_le few), Nat.forall_lt_succ_right]

/-- With any step run, the depth is one more than the most handles pushed behind a step. -/
theorem maxFocusDepth_isGreatest (steps : Nat) (few : steps ≤ bound) (some : 0 < steps) :
    ∃ most, (progressAfter supply source config steps).stats.maxFocusDepth = most + 1 ∧
      IsGreatest {held | ∃ step < steps, held = (worldAt supply source config (step + 1)).pushed.length} most := by
  have bounded := maxFocusDepth_le_iff supplied source config steps few
  generalize (progressAfter supply source config steps).stats.maxFocusDepth = depth at bounded ⊢
  have within := (bounded depth).mp (Nat.le_refl depth)
  have positive : 0 < depth := Nat.lt_of_lt_of_le (Nat.succ_pos _) (within 0 some)
  refine ⟨depth - 1, by omega, ?_, ?_⟩
  · by_contra unreached
    have lower : depth ≤ depth - 1 := (bounded _).mpr fun step less => by
      have different : depth - 1 ≠ (worldAt supply source config (step + 1)).pushed.length :=
        fun same => unreached ⟨step, less, same⟩
      have below := within step less
      omega
    omega
  · rintro _ ⟨step, less, rfl⟩
    exact Nat.le_sub_one_of_lt (within step less)

end Runs

section Ends
variable {source : σ} {config : Config} {executed step : Nat} {violation : Violation}

/-- All operations are run, unless a violation ends the run. -/
theorem executed_eq_of_clean (steps : ∀ step, step < executed ↔ Executed supply source config step)
    (clean : ¬ (config.stopOnFirstViolation = true ∧ (progressAfter supply source config executed).violations ≠ [])) :
    executed = config.operations.toNat := by
  refine Nat.le_antisymm (Nat.le_of_not_lt fun more => ?_) (Nat.le_of_not_lt fun fewer => ?_)
  · exact Nat.lt_irrefl _ ((steps _).mp more).1
  · refine Nat.lt_irrefl executed ((steps executed).mpr ⟨fewer, fun stops earlier less => ?_⟩)
    rw [List.eq_nil_iff_forall_not_mem]
    intro violation found
    have reported := (mem_violations_progressAfter supply source config executed violation).mpr ⟨earlier, less, found⟩
    exact clean ⟨stops, List.ne_nil_of_mem reported⟩

/-- A run that a violation ends finds violations in its last step only. -/
theorem step_of_stopped (steps : ∀ step, step < executed ↔ Executed supply source config step)
    (stops : config.stopOnFirstViolation = true)
    (reported : violation ∈ (progressAfter supply source config executed).violations) :
    violation.step + 1 = executed := by
  obtain ⟨step, less, found⟩ := (mem_violations_progressAfter supply source config executed violation).mp reported
  rw [step_of_mem_foundAt found]
  refine Nat.le_antisymm less (Nat.le_of_not_lt fun more => ?_)
  rw [((steps (step + 1)).mp more).2 stops step (Nat.lt_succ_self step)] at found
  cases found

end Ends

/-- A run on any source of words, with a supply of distinct identities for all that it may place, keeps its books.
Insertions and removals make up what is left, every operation is counted once and none fails a check of types; all
operations are run unless a violation is to end the run, and then all violations are of the last step; and the depth of
the focus is that of the most handles pushed at once. -/
theorem runOn_keeps_books {config : Config} (supplied : Set.InjOn supply (Set.Iic config.operations.toNat))
    (source : σ) :
    let report := runOn supply source config
    let stats := report.stats
    stats.placementsInserted = stats.placementsRemoved + report.finalSize ∧
    stats.operations = stats.succeeded + stats.skipped + stats.nonEmptyScope + stats.rootRefused + stats.dangling +
      stats.navigation + stats.typeErrors ∧
    stats.typeErrors = 0 ∧
    (¬ (config.stopOnFirstViolation = true ∧ report.violations ≠ []) → stats.operations = config.operations.toNat) ∧
    (config.stopOnFirstViolation = true → ∀ violation ∈ report.violations, violation.step + 1 = stats.operations) ∧
    (stats.operations = 0 → stats.maxFocusDepth = 0) ∧
    (0 < stats.operations → ∃ most, stats.maxFocusDepth = most + 1 ∧
      IsGreatest {held | ∃ step < stats.operations,
        held = (worldAt supply source config (step + 1)).pushed.length} most) := by
  intro report stats
  obtain ⟨executed, steps, ends⟩ := runOn_ends supply source config
  have few : executed ≤ config.operations.toNat := by
    refine Nat.le_of_not_lt fun more => ?_
    exact Nat.lt_irrefl _ ((steps _).mp more).1
  have booked := progressAfter_booked supplied source config executed few
  have counted : stats.operations = executed :=
    (congrArg (·.stats.operations) ends).trans (operations_progressAfter supply source config executed)
  have same : stats = (progressAfter supply source config executed).stats := congrArg Report.stats ends
  have left : report.finalSize = (worldAt supply source config executed).index.size := congrArg Report.finalSize ends
  have listed : report.violations = (progressAfter supply source config executed).violations :=
    congrArg Report.violations ends
  rw [← same] at booked
  refine ⟨left ▸ booked.balance, booked.operations_eq, booked.typeErrors_eq, fun clean => ?_,
    fun stops violation found => ?_, fun none => ?_, fun some => ?_⟩
  · rw [listed] at clean
    exact counted.trans (executed_eq_of_clean steps clean)
  · rw [listed] at found
    exact (step_of_stopped steps stops found).trans counted.symm
  · have bounded := maxFocusDepth_le_iff supplied source config executed few 0
    rw [← same, ← counted, none] at bounded
    exact Nat.le_zero.mp (bounded.mpr nofun)
  · rw [counted] at some ⊢
    rw [same]
    exact maxFocusDepth_isGreatest supplied source config executed few some

namespace Trial

/-- The words of two steps for a run that a violation ends. -/
def stoppedSteps (operations : UInt64) : Config := { twoSteps 1 with operations, stopOnFirstViolation := true }

end Trial

/-- Two steps within the limit are both run; with a limit of one, what the first of three inserts ends the run. -/
theorem runOn_keeps_books_trial :
    Set.InjOn PlacementId.ofNat (Set.Iic (Trial.twoSteps 3).operations.toNat) ∧
    (runOn .ofNat Trial.words (Trial.twoSteps 3)).stats.operations = 2 ∧
    (∃ most, (runOn .ofNat Trial.words (Trial.twoSteps 3)).stats.maxFocusDepth = most + 1) ∧
    (∃ violation ∈ (runOn .ofNat Trial.words (Trial.stoppedSteps 3)).violations, violation.step = 0) ∧
    (runOn .ofNat Trial.words (Trial.stoppedSteps 3)).stats.operations = 1 ∧
    (runOn .ofNat Trial.words (Trial.stoppedSteps 0)).stats.maxFocusDepth = 0 := by
  have supplied : Set.InjOn PlacementId.ofNat (Set.Iic (Trial.twoSteps 3).operations.toNat) :=
    Trial.ofNat_injOn (by decide)
  have three : Set.InjOn PlacementId.ofNat (Set.Iic (Trial.stoppedSteps 3).operations.toNat) :=
    Trial.ofNat_injOn (by decide)
  have zero : Set.InjOn PlacementId.ofNat (Set.Iic (Trial.stoppedSteps 0).operations.toNat) :=
    Trial.ofNat_injOn (by decide)
  obtain ⟨_, _, _, all, _, _, deepest⟩ := runOn_keeps_books supplied Trial.words
  have both := all fun ended => absurd ended.1 (by decide)
  obtain ⟨most, depth, _⟩ := deepest (both ▸ by decide)
  have reported : ∃ violation ∈ (runOn .ofNat Trial.words (Trial.stoppedSteps 3)).violations, violation.step = 0 := by
    decide +kernel
  obtain ⟨violation, found, first⟩ := reported
  obtain ⟨_, _, _, _, last, _, _⟩ := runOn_keeps_books three Trial.words
  obtain ⟨_, _, _, _, _, idle, _⟩ := runOn_keeps_books zero Trial.words
  have ended := last rfl violation found
  rw [first] at ended
  exact ⟨supplied, both, ⟨most, depth⟩, ⟨violation, found, first⟩, ended.symm, idle rfl⟩

end Simulator

end MediaSession
