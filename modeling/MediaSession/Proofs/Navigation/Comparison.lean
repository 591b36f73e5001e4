import Mathlib.Data.List.Infix
import Mathlib.Order.Lattice
import MediaSession.Proofs.Navigation.Path

/-!
Comparison of scope paths. A path lies below every longer one it is a start of; in this order the common start of two
paths is their meet, and the paths are disjoint where that meet ends too early.
-/
namespace MediaSession
namespace ScopePath

theorem containsPath_iff {path other : ScopePath} :
    path.containsPath other = true ↔ other.anchors <+: path.anchors := List.isPrefixOf_iff_prefix

/-- Whatever both lists start with is a start of what they share. -/
theorem isPrefix_sharedStart_iff (start first second : List PlacementId) :
    start <+: sharedStart first second ↔ start <+: first ∧ start <+: second := by
  induction first generalizing start second with
  | nil => cases second <;> simp +contextual [sharedStart]
  | cons id first ih =>
    cases second with
    | nil => simp +contextual [sharedStart]
    | cons other second =>
      cases start with
      | nil => simp
      | cons head start =>
        rw [sharedStart, List.cons_prefix_cons, List.cons_prefix_cons]
        by_cases same : id = other
        · subst same
          rw [if_pos rfl, List.cons_prefix_cons, ih, and_and_left]
        · rw [if_neg same]
          simp only [List.prefix_nil, reduceCtorEq, false_iff]
          rintro ⟨⟨rfl, _⟩, here, _⟩
          exact same here

/-- Paths ordered by how far they lead along one route. -/
instance : SemilatticeInf ScopePath where
  le path longer := longer.containsPath path = true
  le_refl _ := containsPath_iff.mpr List.prefix_rfl
  le_trans _ _ _ short long := containsPath_iff.mpr ((containsPath_iff.mp short).trans (containsPath_iff.mp long))
  le_antisymm _ _ forth back :=
    congrArg mk (antisymm_of (· <+: ·) (containsPath_iff.mp forth) (containsPath_iff.mp back))
  inf := commonStart
  inf_le_left _ _ := containsPath_iff.mpr ((isPrefix_sharedStart_iff ..).mp List.prefix_rfl).1
  inf_le_right _ _ := containsPath_iff.mpr ((isPrefix_sharedStart_iff ..).mp List.prefix_rfl).2
  le_inf _ _ _ first second :=
    containsPath_iff.mpr ((isPrefix_sharedStart_iff ..).mpr ⟨containsPath_iff.mp first, containsPath_iff.mp second⟩)

theorem le_iff {path longer : ScopePath} : path ≤ longer ↔ longer.containsPath path = true := .rfl

theorem inf_eq (first second : ScopePath) : first ⊓ second = first.commonStart second := rfl

/-- Disjoint paths part at the root or right below it, unless one of them has no root to start from. -/
theorem disjoint_iff (first second : ScopePath) :
    first.disjoint second = true ↔
      first.isEmpty = true ∨ second.isEmpty = true ∨ (first.commonStart second).isEmpty = true ∨
        ((first.commonStart second).length = 1 ∧ 2 ≤ first.length ∧ 2 ≤ second.length) := by
  obtain ⟨first⟩ := first
  obtain ⟨second⟩ := second
  match first, second with
  | [], _ => simp [disjoint, isEmpty]
  | _ :: _, [] => simp [disjoint, isEmpty]
  | id :: first, other :: second =>
    by_cases same : id = other
    · subst same
      match first, second with
      | [], _ => simp [disjoint, isEmpty, commonStart, sharedStart, length]
      | _ :: _, [] => simp [disjoint, isEmpty, commonStart, sharedStart, length]
      | below :: first, beside :: second =>
        by_cases onward : below = beside <;>
          simp [disjoint, isEmpty, commonStart, sharedStart, length, onward]
    · simp [disjoint, isEmpty, commonStart, sharedStart, same]

end ScopePath

/-- Containment is an order, the common start its meet, and disjointness is told by how far that reaches. -/
theorem paths_ordered (first second third : ScopePath) :
    first.containsPath first = true ∧
    (first.containsPath second = true → second.containsPath third = true → first.containsPath third = true) ∧
    (first.containsPath second = true → second.containsPath first = true → first = second) ∧
    (first.containsPath third = true ∧ second.containsPath third = true ↔
      (first.commonStart second).containsPath third = true) ∧
    first.commonStart second = second.commonStart first ∧
    (first.commonStart second).commonStart third = first.commonStart (second.commonStart third) ∧
    first.commonStart first = first ∧
    (first.disjoint second = true ↔
      first.isEmpty = true ∨ second.isEmpty = true ∨ (first.commonStart second).isEmpty = true ∨
        ((first.commonStart second).length = 1 ∧ 2 ≤ first.length ∧ 2 ≤ second.length)) := by
  simp only [← ScopePath.le_iff, ← ScopePath.inf_eq]
  refine ⟨le_rfl, fun upper lower => lower.trans upper, fun back forth => le_antisymm forth back, ?_, inf_comm .., ?_,
    inf_idem _, ScopePath.disjoint_iff first second⟩
  · exact le_inf_iff.symm
  · exact inf_assoc ..

namespace Trial

/-- Two routes that part below the track, and the route to the track. -/
def toBlur : ScopePath := ⟨[root.id, track.id, part.id, blur.id]⟩
def toEcho : ScopePath := ⟨[root.id, track.id, echo.id]⟩
def toTrack : ScopePath := ⟨[root.id, track.id]⟩

end Trial

/-- What both routes start with is the route to the track, and so is below both of them with the root. -/
theorem paths_ordered_trial :
    Trial.toBlur.commonStart Trial.toEcho = Trial.toTrack ∧ Trial.toBlur.containsPath ⟨[Trial.root.id]⟩ = true ∧
      Trial.toBlur.disjoint Trial.toEcho = false := by
  have meet := (paths_ordered (Trial.toBlur.commonStart Trial.toEcho) Trial.toTrack Trial.toTrack).2.2.1
    (by decide) (by decide)
  have below := (paths_ordered Trial.toBlur Trial.toTrack ⟨[Trial.root.id]⟩).2.1 (by decide) (by decide)
  exact ⟨meet, below, by decide⟩

end MediaSession
