import MediaSession.Proofs.Simulator.Renaming

/-!
Runs with identities of two supplies. After as many steps of the same draws both have drawn and counted the same, and
their reports read the same once the identities are masked.
-/
namespace MediaSession.Simulator

open RandomStream

variable {σ : Type} [WordSource σ] {one two : Nat → PlacementId} {bound : Nat}

section Worlds
variable {world other : World} {config : SessionConfig} {link : PlacementId → PlacementId → Prop}

/-- What a self-check finds: the depth limit is all that a world can break. -/
theorem World.Sound.selfCheck_eq (sound : world.Sound one config) (step : Nat) :
    (¬ ∃ id, world.index.table.LiesBeyond config.maxPathDepth id) ∧ selfCheckViolations step world.index = [] ∨
      ∃ id, world.index.table.LiesBeyond config.maxPathDepth id ∧ selfCheckViolations step world.index =
        [.selfCheck step (SelfCheckFault.chainTooLong id config.maxPathDepth).message] := by
  obtain ⟨entry, found⟩ := (Table.contains_iff ..).mp sound.indexed.consistent.contains_root
  cases checked : world.index.verify with
  | ok =>
    have fine : ¬ ∃ fault, world.index.verify = .error fault := by simp [checked]
    exact .inl ⟨mt sound.verify_error_iff.mpr fine, by simp only [selfCheckViolations, checked]⟩
  | error fault =>
    rw [Index.verify, sound.limit] at checked
    rcases Table.verify_error sound.indexed.consistent found checked with ⟨unsound, _⟩ | ⟨_, id, beyond, rfl⟩
    · rw [sound.rooted found] at unsound
      cases unsound
    · refine .inr ⟨id, beyond, ?_⟩
      simp only [selfCheckViolations, Index.verify, sound.limit, checked]

section Partners
variable (mirrors : world.Mirrors link other) (unique : Relator.BiUnique link) (sound : world.Sound one config)
  (sane : other.Sound two config)
include mirrors sound sane

theorem World.Mirrors.focusDepth_eq : world.session.focusDepth = other.session.focusDepth := by
  have here : world.session.focusDepth = (world.pushed ++ [world.focus]).length := sound.manned.depth_eq
  have there : other.session.focusDepth = (other.pushed ++ [other.focus]).length := sane.manned.depth_eq
  rw [here, there, List.length_append, List.length_append, mirrors.pushed_eq]
  rfl

include unique

/-- Self-checks fail in both worlds or in none, and read the same but for the placement they name. -/
theorem World.Mirrors.selfCheck_masked (mark : String) (step : Nat) :
    (selfCheckViolations step world.index).map (Violation.masked mark) =
      (selfCheckViolations step other.index).map (Violation.masked mark) := by
  have valid := sound.indexed.consistent
  have twin := sane.indexed.consistent
  rcases sound.selfCheck_eq step with ⟨within, none⟩ | ⟨id, beyond, found⟩ <;>
    rcases sane.selfCheck_eq step with ⟨inside, nothing⟩ | ⟨copy, deep, also⟩
  · rw [none, nothing]
  · obtain ⟨id, pair⟩ := mirrors.table.pairing deep.1
    exact absurd ⟨id, mirrors.table.symm.liesBeyond (Table.unique_flip unique) twin pair deep⟩ within
  · obtain ⟨copy, pair⟩ := mirrors.table.paired beyond.1
    exact absurd ⟨copy, mirrors.table.liesBeyond unique valid pair beyond⟩ inside
  · rw [found, also, List.map_singleton, List.map_singleton, Violation.masked, Violation.masked,
      SelfCheckFault.mask_chainTooLong mark id copy]

end Partners

end Worlds

theorem World.start_mirrors (unique : Relator.BiUnique (Paired one two bound)) (config : SessionConfig) :
    (start one config).Mirrors (Paired one two bound) (start two config) where
  table := Table.ofRoot_mirrors unique ⟨0, Nat.zero_le bound, rfl, rfl⟩
  known := Slotwise.empty.push ⟨0, Nat.zero_le bound, rfl, rfl⟩
  refs := .empty
  next_eq := rfl
  pushed_eq := rfl

/-- States of two runs between steps that differ in nothing but identities. -/
structure Progress.Alike (mark : String) (link : PlacementId → PlacementId → Prop) (progress twin : Progress σ) :
    Prop where
  world : progress.world.Mirrors link twin.world
  source_eq : progress.source = twin.source
  stats_eq : progress.stats = twin.stats
  violations_eq : progress.violations.map (Violation.masked mark) = twin.violations.map (Violation.masked mark)

/-- A step finds the same from states that are alike, and leaves them alike. -/
theorem Progress.Alike.advance {mark : String} {progress twin : Progress σ} {config : SessionConfig}
    (alike : Alike mark (Paired one two bound) progress twin) (first : Set.InjOn one (Set.Iic bound))
    (second : Set.InjOn two (Set.Iic bound)) (sound : progress.world.Sound one config)
    (sane : twin.world.Sound two config) (few : progress.world.ledger.next ≤ bound) (step : Nat) :
    Alike mark (Paired one two bound) (advance one step progress).1 (advance two step twin).1 := by
  have unique := paired_biUnique first second
  have left := first.mono (Set.Iic_subset_Iic.mpr few)
  have room := second.mono (Set.Iic_subset_Iic.mpr (alike.world.next_eq ▸ few))
  have drawn : drawOperation progress.world progress.source = drawOperation twin.world twin.source := by
    rw [alike.source_eq, alike.world.drawOperation_eq]
  rcases op : drawOperation twin.world twin.source with ⟨operation, source⟩
  have carried := sound.execute left operation source
  have also := sane.execute room operation source
  obtain ⟨mirrors, rests⟩ := alike.world.execute first second sound sane few operation source
  have effects := alike.world.effect_execute first second sound sane few operation source
  have expected := alike.world.predict_eq sound sane unique operation
  have depths := mirrors.focusDepth_eq carried.sound also.sound
  have checks := mirrors.selfCheck_masked unique carried.sound also.sound mark step
  refine ⟨?_, ?_, ?_, ?_⟩ <;> simp only [Simulator.advance, drawn, op]
  · exact mirrors
  · exact rests
  · rw [alike.stats_eq, effects, depths]
  · rw [List.map_append, List.map_append, List.map_append, List.map_append, alike.violations_eq, checks, effects,
      expected]

theorem progressAfter_alike (first : Set.InjOn one (Set.Iic bound)) (second : Set.InjOn two (Set.Iic bound))
    (mark : String) (source : σ) (config : Config) (steps : Nat) (few : steps ≤ bound) :
    (progressAfter one source config steps).Alike mark (Paired one two bound)
      (progressAfter two source config steps) := by
  induction steps with
  | zero => exact ⟨World.start_mirrors (paired_biUnique first second) config.session, rfl, rfl, rfl⟩
  | succ steps ih =>
    obtain ⟨sound, next⟩ := worldAt_sound first source config steps (Nat.le_of_succ_le few)
    obtain ⟨sane, _⟩ := worldAt_sound second source config steps (Nat.le_of_succ_le few)
    exact (ih (Nat.le_of_succ_le few)).advance first second sound sane (Nat.le_trans next few) steps

end MediaSession.Simulator
