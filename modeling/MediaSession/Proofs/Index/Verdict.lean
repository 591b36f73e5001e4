import MediaSession.Proofs.Index.History
import MediaSession.Proofs.Index.SelfCheck

/-!
The verdict of the self-check beside what navigation can reach. Both walk upwards under the depth limit, and they
agree on it: the check objects to a placement just in case no path leads to it from the root.
-/
namespace MediaSession

namespace ScopePath
variable {index : Index} {id : PlacementId} {up chain : List PlacementId}

/-- The path at the root is led to a target along the plain chain. -/
theorem splice_root (descends : Descends index id chain) : (splice index chain (root index)).getD chain = chain := by
  cases spliced : splice index chain (root index) with
  | none => rfl
  | some route =>
    obtain ⟨kept, some, start, _, joins⟩ := splice_some spliced
    have alone : kept = [index.rootId] := by
      rcases List.prefix_cons_iff.mp start with nothing | ⟨rest, whole, short⟩
      · exact absurd nothing some
      · rw [whole, List.prefix_nil.mp short]
    obtain ⟨last, rest, ends, grafted, _, _, rfl⟩ := joined_some_iff.mp joins
    rw [alone] at ends ⊢
    cases ends
    obtain ⟨others, rooted⟩ := List.head?_eq_some_iff.mp descends.head
    rcases graft_some grafted with ⟨before, whole⟩ | ⟨off, _⟩
    · -- the root comes first and once, so nothing lies before it
      cases before with
      | nil => exact whole.symm
      | cons first more =>
        have unrepeated := descends.nodup
        rw [whole, List.cons_append, List.nodup_cons] at unrepeated
        rw [whole] at rooted
        have same : first = index.rootId := (List.cons.inj rooted).1
        exact absurd (List.mem_append_right _ List.mem_cons_self) (same ▸ unrepeated.1)
    · rw [rooted] at off
      exact absurd List.mem_cons_self off

/-- A path leads from the root to what lies within the depth limit, and it is the plain chain. -/
theorem toLeaf_eq (valid : index.table.Consistent) (ascent : index.table.Ascent id up) (inner : id ≠ index.rootId) :
    toLeaf index (.anchored id) =
      if up.length ≤ index.maxPathDepth then .ok ⟨up.reverse⟩ else .error (.invalidScope (.disconnected id)) := by
  have started : (root index).anchors ≠ [] := List.cons_ne_nil _ _
  have elsewhere : (root index).anchors.getLast? ≠ some id := fun same => inner (Option.some.inj same).symm
  rw [toLeaf, if_neg (by simp [Scope.anchored, Scope.invalid]), navigate_eq valid ascent started, if_neg elsewhere]
  split
  · rename_i near
    have discovered := (discover_ok_iff valid ascent).mpr ⟨rfl, near⟩
    rw [splice_root (descends_of_discover valid (valid.contains_of_ascent ascent) discovered)]
  · rfl

theorem toLeaf_root (index : Index) (registered : index.contains index.rootId = true) :
    toLeaf index (.anchored index.rootId) = .ok (root index) := by
  simp [toLeaf, Scope.anchored, Scope.invalid, navigate, root, isEmpty, registered]

/-- Paths from the root reach everything just in case nothing lies beyond the depth limit. -/
theorem reaches_all_iff (valid : index.table.Consistent) :
    (∀ id, index.contains id = true → ∃ path, toLeaf index (.anchored id) = .ok path) ↔
      ∀ id, ¬ index.table.LiesBeyond index.maxPathDepth id := by
  constructor
  · intro reaches id beyond
    obtain ⟨up, ascent⟩ := valid.ascent beyond.1
    obtain ⟨path, led⟩ := reaches id beyond.1
    have far := ((Table.liesBeyond_iff valid ascent).mp beyond).2
    rw [toLeaf_eq valid ascent beyond.2.1, if_neg (Nat.not_le_of_lt far)] at led
    cases led
  · intro within id registered
    by_cases inner : id = index.rootId
    · subst inner
      exact ⟨_, toLeaf_root index registered⟩
    · obtain ⟨up, ascent⟩ := valid.ascent registered
      rw [toLeaf_eq valid ascent inner]
      split
      · exact ⟨_, rfl⟩
      · rename_i far
        exact absurd ((Table.liesBeyond_iff valid ascent).mpr ⟨inner, Nat.lt_of_not_le far⟩) (within id)

end ScopePath

theorem Recorded.run_maxPathDepth (root : Placement) (maxPathDepth : Nat) (mutations : List Mutation)
    (fresh : FreshIds root.id mutations) : (run root maxPathDepth mutations).index.maxPathDepth = maxPathDepth := by
  refine (foldl_fresh_induction step Mutation.offered
    (fun used state => state.index.Sound used ∧ state.index.maxPathDepth = maxPathDepth) ?_ [root.id] _
    ⟨Index.ofRoot_sound root maxPathDepth, rfl⟩ mutations fresh).2
  rintro used state mutation ⟨sound, limit⟩ fresh
  unfold step
  split
  · rename_i success
    exact ⟨sound.apply fresh success, (Mutation.apply_effect sound.consistent success).1.trans limit⟩
  · exact ⟨sound.mono, limit⟩

/-- After every run the self-check passes just in case the root object is valid and a path leads from the root to every
registered placement. It can object to nothing else, and walks upwards end where paths from the root do. -/
theorem run_verdict_agrees_with_navigation (root : Placement) (maxPathDepth : Nat) (mutations : List Mutation)
    (fresh : FreshIds root.id mutations) :
    let index := (Recorded.run root maxPathDepth mutations).index
    (index.verify = .ok () ↔ root.isValid = true ∧
      ∀ id, index.contains id = true → ∃ path, ScopePath.toLeaf index (.anchored id) = .ok path) ∧
    (∀ fault, index.verify = .error fault →
      (root.isValid = false ∧ fault.code = "0.2") ∨ (root.isValid = true ∧ fault.code = "1.5")) ∧
    ∀ id, index.contains id = true → id ≠ index.rootId →
      ∃ chain depth, index.table.Ascent id chain ∧ chain.length = depth + 1 ∧
        (Scope.anchored id).ascend index = chain.take (min (depth + 1) maxPathDepth) ∧
        ((∃ path, ScopePath.toLeaf index (.anchored id) = .ok path) ↔ depth < maxPathDepth) ∧
        (depth < maxPathDepth → ScopePath.toLeaf index (.anchored id) = .ok ⟨chain.reverse⟩) := by
  intro index
  have refines := Recorded.run_refines root maxPathDepth mutations fresh
  have limit : index.maxPathDepth = maxPathDepth := Recorded.run_maxPathDepth root maxPathDepth mutations fresh
  have valid : index.table.Consistent := refines.sound.consistent
  have rooted : index.table.root = root.id := refines.rooted
  have found := (refines.entry_iff root.id _).mpr .root
  rw [← rooted] at found
  refine ⟨?_, ?_, ?_⟩
  · rw [ScopePath.reaches_all_iff valid]
    exact Table.verify_ok_iff valid found
  · intro fault failed
    rcases Table.verify_error valid found failed with ⟨unsound, rfl⟩ | ⟨sound, id, _, rfl⟩
    · exact .inl ⟨unsound, rfl⟩
    · exact .inr ⟨sound, rfl⟩
  · intro id registered inner
    obtain ⟨chain, ascent⟩ := valid.ascent registered
    have positive : 0 < chain.length := List.length_pos_of_mem (List.mem_of_mem_head? ascent.head)
    have led := ScopePath.toLeaf_eq valid ascent inner
    rw [limit] at led
    refine ⟨chain, chain.length - 1, ascent, by omega, ?_, ?_, fun near => ?_⟩
    · rw [Scope.ascend, limit]
      refine (Scope.ascendFrom_eq valid ascent maxPathDepth).trans ?_
      rw [Nat.sub_add_cancel positive, List.take_eq_take_iff]
      omega
    · rw [led]
      split
      · exact ⟨fun _ => by omega, fun _ => ⟨_, rfl⟩⟩
      · exact ⟨fun ⟨_, same⟩ => (nomatch same), fun near => by omega⟩
    · rw [led, if_pos (by omega)]

/-- Two placements, one in the other. -/
def Trial.deepening : List Mutation := [.insert track root.id, .insert part track.id]

/-- With a limit of two the inner placement is refused, and no path leads to it. -/
theorem run_verdict_agrees_with_navigation_trial :
    let index := (Recorded.run Trial.root 2 Trial.deepening).index
    FreshIds Trial.root.id Trial.deepening ∧ (∃ fault, index.verify = .error fault ∧ fault.code = "1.5") ∧
      ¬ ∀ id, index.contains id = true → ∃ path, ScopePath.toLeaf index (.anchored id) = .ok path := by
  intro index
  have fresh : FreshIds Trial.root.id Trial.deepening := by decide
  obtain ⟨verdict, codes, _⟩ := run_verdict_agrees_with_navigation Trial.root 2 Trial.deepening fresh
  have sound : Trial.root.isValid = true := by decide
  have refused : index.verify.isOk = false := by decide +kernel
  refine ⟨fresh, ?_, fun reaches => ?_⟩
  · cases failed : index.verify with
    | ok => rw [failed] at refused; cases refused
    | error fault =>
      obtain ⟨unsound, _⟩ | ⟨_, code⟩ := codes fault failed
      · rw [sound] at unsound; cases unsound
      · exact ⟨fault, rfl, code⟩
  · have passed : index.verify = .ok () := verdict.mpr ⟨sound, reaches⟩
    rw [passed] at refused
    cases refused

end MediaSession
