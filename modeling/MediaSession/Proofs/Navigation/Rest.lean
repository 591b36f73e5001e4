import MediaSession.Proofs.Focus.Desk
import MediaSession.Proofs.Index.Depth

/-!
Where paths come to rest: at the root, or within the depth limit. A path at rest can be led to a registered placement
just in case that does not lie beyond the limit, and it rests there as long as no identity is used twice.
-/
namespace MediaSession.ScopePath
variable {used more : List PlacementId} {index after : Index} {path moved : ScopePath}
  {target : PlacementId}

/-- The path ends at an identity in use that does not lie beyond the limit. A limit of zero leaves the root alone. -/
def Rests (used : List PlacementId) (index : Index) (path : ScopePath) : Prop :=
  ∃ last, path.anchors.getLast? = some last ∧ last ∈ used ∧
    ¬ index.table.LiesBeyond index.maxPathDepth last ∧ (last = index.rootId ∨ 0 < index.maxPathDepth)

theorem Rests.nonempty (rests : path.Rests used index) : path.anchors ≠ [] := by
  obtain ⟨last, ends, _⟩ := rests
  intro empty
  rw [empty] at ends
  cases ends

theorem root_rests (sound : index.Sound used) : (root index).Rests used index :=
  ⟨index.rootId, rfl, sound.known sound.consistent.contains_root, fun beyond => beyond.2.1 rfl, .inl rfl⟩

/-- Whether a path at rest can be led to a registered placement. -/
theorem Rests.navigate_cases (rests : path.Rests used index) (valid : index.table.Consistent)
    (registered : index.contains target = true) :
    (¬ index.table.LiesBeyond index.maxPathDepth target ∧
        ∃ moved, path.navigate index (.anchored target) = .ok moved) ∨
      (index.table.LiesBeyond index.maxPathDepth target ∧
        path.navigate index (.anchored target) = .error (.invalidScope (.disconnected target))) := by
  obtain ⟨up, ascent⟩ := valid.ascent registered
  rw [navigate_eq valid ascent rests.nonempty]
  obtain ⟨last, ends, _, within, rooted⟩ := rests
  by_cases here : path.anchors.getLast? = some target
  · cases ends.symm.trans here
    exact .inl ⟨within, path, if_pos here⟩
  · rw [if_neg here, Table.liesBeyond_iff valid ascent]
    by_cases near : up.length ≤ index.maxPathDepth
    · exact .inl ⟨fun far => Nat.not_lt_of_le near far.2, _, if_pos near⟩
    · refine .inr ⟨⟨?_, Nat.lt_of_not_le near⟩, if_neg near⟩
      -- the root itself is too deep for a limit of zero alone, and there the path ends at it
      rintro rfl
      rw [ascent.unique .root] at near
      rcases rooted with same | positive
      · exact here (ends.trans (congrArg some same))
      · exact near positive

theorem Rests.navigate (rests : path.Rests used index) (sound : index.Sound used) {scope : Scope}
    (success : path.navigate index scope = .ok moved) : moved.Rests used index := by
  obtain ⟨target, rfl, registered, _, ⟨_, rfl⟩ | ⟨elsewhere, chain, discovered, _⟩⟩ := navigate_ok success
  · exact rests
  · obtain ⟨up, ascent⟩ := sound.consistent.ascent registered
    obtain ⟨_, near⟩ := (discover_ok_iff sound.consistent ascent).mp discovered
    refine ⟨target, navigate_leaf sound.consistent success, sound.known registered, fun beyond => ?_, .inr ?_⟩
    · exact Nat.not_lt_of_le near ((Table.liesBeyond_iff sound.consistent ascent).mp beyond).2
    · exact Nat.lt_of_lt_of_le ascent.length_pos near

/-- A change of the index that inserts nothing under an identity in use. -/
theorem Rests.effect (rests : path.Rests used index) (sound : index.Sound used) {event : Option Event}
    (limit : after.maxPathDepth = index.maxPathDepth) (effect : Table.Effect index.table event after.table)
    (fresh : ∀ {placement scope}, event = some (.inserted placement scope) → placement.id ∉ used) :
    path.Rests (used ++ more) after := by
  obtain ⟨last, ends, known, within, rooted⟩ := rests
  refine ⟨last, ends, List.mem_append_left _ known, fun beyond => within ?_, ?_⟩
  · rw [limit] at beyond
    refine effect.liesBeyond_before sound.consistent (fun same here => ?_) (fun same here => ?_) beyond
    · exact fresh same (sound.known here)
    · exact fresh same (here ▸ known)
  · rw [limit, Index.rootId, effect.root_eq]
    exact rooted

end MediaSession.ScopePath
