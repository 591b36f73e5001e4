import Mathlib.Data.List.Chain
import Mathlib.Data.List.Nodup
import MediaSession.Proofs.Table.Tree
import MediaSession.ScopePath

/-!
The plain chain of scopes from the root down to a target. It is found whenever the target is registered
within the depth limit, and it is the ascent of the target turned round.
-/
namespace MediaSession
namespace Table.Ascent
variable {table : Table} {id : PlacementId} {up : List PlacementId}

/-- Each identity of an ascent is followed by its scope. -/
theorem linked (ascent : table.Ascent id up) :
    up.IsChain fun lower upper => table.scope? lower = some upper := by
  induction ascent with
  | root => exact List.isChain_singleton _
  | scope inside _ rest ih =>
    refine List.isChain_cons.mpr ⟨?_, ih⟩
    intro next first
    rw [rest.head] at first
    cases first
    exact inside

/-- A part of an ascent from below ends with the root only if it is the whole ascent. -/
theorem length_le_of_getLast_take (ascent : table.Ascent id up) {steps : Nat}
    (last : (up.take steps).getLast? = some table.root) : up.length ≤ steps := by
  by_contra short
  have split := List.take_append_drop steps up
  have above : table.root ∈ up.drop steps := by
    apply List.mem_of_getLast?
    rw [← ascent.getLast]
    conv_rhs => rw [← split]
    refine (List.getLast?_append_of_ne_nil _ ?_).symm
    rw [Ne, List.drop_eq_nil_iff]
    exact short
  have unrepeated := ascent.nodup
  rw [← split] at unrepeated
  exact (List.nodup_append.mp unrepeated).2.2 _ (List.mem_of_getLast? last) _ above rfl

end Table.Ascent

variable {index : Index} {target : PlacementId} {up chain : List PlacementId}

/-- The walk upwards is the ascent, as far as the depth limit allows. -/
theorem Scope.ascendFrom_eq (valid : index.table.Consistent) (ascent : index.table.Ascent target up)
    (steps : Nat) : Scope.ascendFrom index steps target = up.take steps := by
  induction ascent generalizing steps with
  | root =>
    cases steps with
    | zero => rfl
    | succ steps =>
      obtain ⟨entry, found⟩ := (index.table.contains_iff _).mp valid.contains_root
      simp [Scope.ascendFrom, found, Index.rootId]
  | scope inside inner rest ih =>
    cases steps with
    | zero => rfl
    | succ steps =>
      obtain ⟨entry, found, within⟩ := Option.map_eq_some_iff.mp inside
      subst within
      simp [Scope.ascendFrom, found, Index.rootId, inner, ih]

/-- A walk upwards meets nothing but what is registered. -/
theorem Scope.ascendFrom_registered {steps : Nat} {id other : PlacementId}
    (member : other ∈ Scope.ascendFrom index steps id) : index.contains other = true := by
  induction steps generalizing id with
  | zero => cases member
  | succ steps ih =>
    unfold Scope.ascendFrom at member
    split at member
    · cases member
    · rename_i entry found
      have here : index.contains id = true := (index.table.contains_iff id).mpr ⟨entry, found⟩
      split at member
      · rw [List.mem_singleton.mp member]
        exact here
      · rcases List.mem_cons.mp member with same | higher
        · rw [same]
          exact here
        · exact ih higher

namespace ScopePath

theorem registered_of_discover (success : discover index target = .ok chain) {id : PlacementId}
    (member : id ∈ chain) : index.contains id = true := by
  simp only [discover] at success
  split at success
  · cases success
    exact Scope.ascendFrom_registered (List.mem_reverse.mp member)
  · cases success

theorem discover_ok_iff (valid : index.table.Consistent) (ascent : index.table.Ascent target up) :
    discover index target = .ok chain ↔ chain = up.reverse ∧ up.length ≤ index.maxPathDepth := by
  have walk : (Scope.anchored target).ascend index = up.take index.maxPathDepth :=
    Scope.ascendFrom_eq valid ascent _
  simp only [discover, walk, List.head?_reverse]
  constructor
  · intro success
    split at success
    · rename_i last
      have whole := ascent.length_le_of_getLast_take last
      rw [List.take_of_length_le whole] at success
      exact ⟨(Except.ok.inj success).symm, whole⟩
    · cases success
  · rintro ⟨rfl, whole⟩
    rw [List.take_of_length_le whole]
    exact if_pos ascent.getLast

/-- What is true of the chain to a target: it leads from the root, each scope holds the next one, and
nothing occurs on it twice. -/
structure Descends (index : Index) (target : PlacementId) (chain : List PlacementId) : Prop where
  head : chain.head? = some index.rootId
  getLast : chain.getLast? = some target
  nodup : chain.Nodup
  bounded : chain.length ≤ index.maxPathDepth
  linked : chain.IsChain fun upper lower => index.table.scope? lower = some upper

theorem descends_of_discover (valid : index.table.Consistent) (registered : index.contains target = true)
    (success : discover index target = .ok chain) : Descends index target chain := by
  obtain ⟨up, ascent⟩ := valid.ascent registered
  obtain ⟨rfl, bounded⟩ := (discover_ok_iff valid ascent).mp success
  exact
    { head := by rw [List.head?_reverse, ascent.getLast]; rfl
      getLast := by rw [List.getLast?_reverse, ascent.head]
      nodup := List.nodup_reverse.mpr ascent.nodup
      bounded := by rw [List.length_reverse]; exact bounded
      linked := List.isChain_reverse.mpr ascent.linked }

end ScopePath

end MediaSession
