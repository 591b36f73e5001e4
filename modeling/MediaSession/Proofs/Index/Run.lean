import MediaSession.Proofs.Index.Calls

/-!
Runs of calls on an index, of any length and in any order. A call that fails leaves the index as it is.
-/
namespace MediaSession

/-- An index with the log of what was done to it, the earliest event first. -/
structure Recorded where
  index : Index
  log : List Event := []

namespace Recorded

def step (state : Recorded) (mutation : Mutation) : Recorded :=
  match mutation.apply state.index with
  | .ok (index, event) => ⟨index, state.log ++ event.toList⟩
  | .error _ => state

/-- The outcome of some calls on an index with nothing but its root. -/
def run (root : Placement) (maxPathDepth : Nat) (mutations : List Mutation) : Recorded :=
  mutations.foldl step ⟨.ofRoot root maxPathDepth, []⟩

end Recorded

/-- No identity is used twice by the placements handed over, nor is that of the root. -/
def FreshIds (root : PlacementId) (mutations : List Mutation) : Prop :=
  (root :: mutations.flatMap Mutation.offered).Nodup

instance (root : PlacementId) (mutations : List Mutation) : Decidable (FreshIds root mutations) :=
  inferInstanceAs (Decidable (List.Nodup _))

/-- What one call keeps, knowing the identities used so far, holds after every run that uses none twice. -/
theorem foldl_fresh_induction (step : State → Call → State) (offered : Call → List PlacementId)
    (holds : List PlacementId → State → Prop)
    (keep : ∀ {used state} (call : Call), holds used state → (used ++ offered call).Nodup →
      holds (used ++ offered call) (step state call))
    (used : List PlacementId) (start : State) (initial : holds used start) (calls : List Call)
    (fresh : (used ++ calls.flatMap offered).Nodup) :
    holds (used ++ calls.flatMap offered) (calls.foldl step start) := by
  induction calls generalizing used start with
  | nil => simpa using initial
  | cons call rest ih =>
    rw [List.flatMap_cons, ← List.append_assoc] at fresh ⊢
    exact ih _ _ (keep call initial (List.nodup_append.mp fresh).1) fresh

/-- What a call inserts has an identity that was not used before. -/
theorem Mutation.inserted_unused {used : List PlacementId} {index after : Index} {mutation : Mutation}
    (fresh : (used ++ mutation.offered).Nodup) {placement : Placement} {scope : PlacementId}
    (success : mutation.apply index = .ok (after, some (.inserted placement scope))) : placement.id ∉ used := by
  intro known
  exact (List.nodup_append.mp fresh).2.2 _ known _ (inserted_offered success) rfl

namespace Index

/-- The tables describe one tree, and nothing is registered under an identity that was not used. -/
structure Sound (used : List PlacementId) (index : Index) : Prop where
  consistent : index.table.Consistent
  known : ∀ {id}, index.table.contains id = true → id ∈ used

theorem ofRoot_sound (root : Placement) (maxPathDepth : Nat) : (ofRoot root maxPathDepth).Sound [root.id] where
  consistent := Table.ofRoot_consistent root
  known {id} registered := List.mem_singleton.mpr ((Table.contains_ofRoot_iff root id).mp registered).symm

/-- What is registered after an event was registered before, or is what was inserted. -/
theorem contains_of_effect {table rest : Table} {event : Option Event} (effect : Table.Effect table event rest)
    {id : PlacementId} (registered : rest.contains id = true) :
    table.contains id = true ∨
      ∃ placement scope, event = some (.inserted placement scope) ∧ placement.id = id := by
  by_cases new : ∃ placement scope, event = some (.inserted placement scope) ∧ placement.id = id
  · exact .inr new
  · obtain ⟨entry, found⟩ := (Table.contains_iff _ id).mp registered
    obtain ⟨before, earlier, _⟩ := effect.entry_kept (fun same here => new ⟨_, _, same, here⟩) found
    exact .inl ((Table.contains_iff _ id).mpr ⟨before, earlier⟩)

theorem Sound.apply {used : List PlacementId} {index after : Index} (sound : index.Sound used)
    {mutation : Mutation} {event : Option Event} (fresh : (used ++ mutation.offered).Nodup)
    (success : mutation.apply index = .ok (after, event)) : after.Sound (used ++ mutation.offered) where
  consistent := by
    refine (Mutation.apply_effect sound.consistent success).2.consistent sound.consistent ?_
    intro placement scope same
    subst same
    exact fun registered => Mutation.inserted_unused fresh success (sound.known registered)
  known {id} registered := by
    rcases contains_of_effect (Mutation.apply_effect sound.consistent success).2 registered with
      before | ⟨placement, scope, same, here⟩
    · exact List.mem_append_left _ (sound.known before)
    · subst same here
      exact List.mem_append_right _ (Mutation.inserted_offered success)

theorem Sound.mono {used more : List PlacementId} {index : Index} (sound : index.Sound used) :
    index.Sound (used ++ more) :=
  ⟨sound.consistent, fun registered => List.mem_append_left _ (sound.known registered)⟩

end Index

theorem Recorded.run_sound (root : Placement) (maxPathDepth : Nat) (mutations : List Mutation)
    (fresh : FreshIds root.id mutations) :
    (run root maxPathDepth mutations).index.Sound (root.id :: mutations.flatMap Mutation.offered) := by
  refine foldl_fresh_induction step Mutation.offered (fun used state => state.index.Sound used)
    ?_ [root.id] _ (Index.ofRoot_sound root maxPathDepth) mutations fresh
  intro used state mutation sound fresh
  unfold step
  split
  · rename_i success
    exact sound.apply fresh success
  · exact sound.mono

namespace Trial

/-- A placement whose object has the number of the identity. -/
def placement (number : Nat) (content : MediaObject) : Placement :=
  { id := .ofNat number, object := ⟨number, content⟩ }

def root : Placement := placement 0 (.root "trial")
def track : Placement := placement 1 (.fork "track")
def part : Placement := placement 2 (.fork "part")
def blur : Placement := placement 3 (.effect "blur")
def echo : Placement := placement 4 (.effect "echo")

/-- A reference that has been led to a placement. -/
def led (placement : Placement) : ObjectRef := .active .any placement.id placement.object

/-- Insertions at three depths, edits through two ways, failing calls, and a subtree removed as a whole. -/
def mutations : List Mutation :=
  [.insert track root.id, .attach (led track) .fork part, .insertAs .clip blur part.id, .insert echo part.id,
    .editPin track.id [.push (.wiring "left"), .push (.relative .zero)], .remove track.id, .remove echo.id,
    .purge (led part), .editPinThrough ⟨.fork, some track.id⟩ [.reset, .push (.wiring "right")]]

end Trial

end MediaSession
