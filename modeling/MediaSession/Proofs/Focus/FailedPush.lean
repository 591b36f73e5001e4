import MediaSession.Proofs.Focus.Manned

/-!
Pushes that fail. The frames left unused at the top are dropped before the navigation that fails, so that such a push
is not without effect; what is lost, and when nothing is.
-/
namespace MediaSession
namespace FocusStack
open FocusDesk
variable {stack after : FocusStack} {desk next : FocusDesk} {index : Index}

/-- The handle is attached to the frame at a level, counted from the bottom. -/
def HandleAt (stack : FocusStack) (desk : FocusDesk) (level : Nat) (handle : HandleId) : Prop :=
  ∃ frame, stack.frames.reverse[level]? = some frame ∧ desk.frameOf? handle = some frame

/-- As deep as before, with the same path in every frame and the same handles at every level. -/
structure Alike (stack : FocusStack) (desk : FocusDesk) (after : FocusStack) (next : FocusDesk) : Prop where
  depth : after.depth = stack.depth
  paths : after.frames.map next.path = stack.frames.map desk.path
  handles : ∀ level handle, after.HandleAt next level handle ↔ stack.HandleAt desk level handle

/-- The topmost frame is in use, or it is the only one and at the root. -/
def Settled (stack : FocusStack) (index : Index) (desk : FocusDesk) : Prop :=
  ∃ top rest, stack.frames = top :: rest ∧ (desk.IsAttached top ∨ rest = [] ∧ desk.path top = .root index)

theorem dropUnused_split (desk : FocusDesk) (frames : List FrameId) :
    ∃ lost, frames = lost ++ dropUnused desk frames ∧ ∀ frame ∈ lost, ¬ desk.IsAttached frame := by
  fun_induction dropUnused desk frames with
  | case1 top below rest unused ih =>
    obtain ⟨lost, split, free⟩ := ih
    exact ⟨top :: lost, congrArg (top :: ·) split, List.forall_mem_cons.mpr ⟨(desk.isUnused_iff top).mp unused, free⟩⟩
  | case2 | case3 => exact ⟨[], rfl, fun _ member => absurd member List.not_mem_nil⟩

/-- No path changes but that of a single frame left unused. -/
theorem path_popUnused (stack : FocusStack) (index : Index) (desk : FocusDesk) (frame : FrameId) :
    (stack.popUnused index desk).2.path frame =
      if (stack.popUnused index desk).1.frames = [frame] ∧ desk.isUnused frame = true then .root index
      else desk.path frame := by
  rw [frames_popUnused]
  unfold popUnused
  dsimp only
  split
  · rename_i bottom alone
    rw [alone]
    by_cases same : bottom = frame
    · subst same
      by_cases unused : desk.isUnused bottom = true
      · simp [unused, path_setPath]
      · simp [unused]
    · by_cases unused : desk.isUnused bottom = true
      · simp [unused, path_setPath, same]
      · simp [unused, same]
  · rename_i several
    exact (if_neg fun single => several frame single.1).symm

theorem alike_of_paths (same : desk.SameHandles next)
    (paths : ∀ frame ∈ stack.frames, next.path frame = desk.path frame) : stack.Alike desk stack next where
  depth := rfl
  paths := List.map_congr_left paths
  handles level handle := by simp only [HandleAt, same.frameOf?]

/-- Nothing changes just in case there is nothing to drop and no path to take back. -/
theorem popUnused_alike_iff (nonempty : stack.frames ≠ []) :
    stack.Alike desk (stack.popUnused index desk).1 (stack.popUnused index desk).2 ↔ stack.Settled index desk := by
  obtain ⟨top, rest, frames⟩ := List.exists_cons_of_ne_nil nonempty
  have sameHandles := stack.popUnused_sameHandles index desk
  constructor
  · intro alike
    have kept : (stack.popUnused index desk).1.frames = stack.frames := by
      rw [frames_popUnused]
      exact (dropUnused_suffix ..).eq_of_length (frames_popUnused stack index desk ▸ alike.depth)
    refine ⟨top, rest, frames, ?_⟩
    by_cases attached : desk.IsAttached top
    · exact .inl attached
    · cases rest with
      | nil =>
        have paths := alike.paths
        rw [kept, frames, List.map_singleton, List.map_singleton, path_popUnused, kept, frames,
          if_pos ⟨rfl, (desk.isUnused_iff top).mpr attached⟩] at paths
        exact .inr ⟨rfl, (List.singleton_inj.mp paths).symm⟩
      | cons below others =>
        have used := topUsed_popUnused stack index desk top below others (kept.trans frames)
        exact absurd ((sameHandles.isAttached top).mp used) attached
  · rintro ⟨_, _, same, attached | ⟨rfl, rooted⟩⟩
    · rw [popUnused_of_attached same attached]
      exact alike_of_paths (.refl desk) fun _ _ => rfl
    · have kept : (stack.popUnused index desk).1 = stack :=
        congrArg FocusStack.mk ((stack.frames_popUnused index desk).trans (same ▸ rfl))
      rw [kept]
      refine alike_of_paths sameHandles fun frame member => ?_
      rw [path_popUnused]
      split
      · rw [same] at member
        rw [List.mem_singleton.mp member, rooted]
      · rfl

end FocusStack

/-- A failed push is a failed navigation, with unused frames dropped before it. -/
theorem Session.pushFocus_error {session after : Session} {desk next : FocusDesk} {scope : Scope} {error : SessionError}
    (failure : session.pushFocus desk scope = (.error error, after, next)) :
    (session.stack.pushStart session.index desk).navigate session.index scope = .error error ∧
      (after, next) = session.pruneFocus desk := by
  have failed : (session.stack.push session.index desk scope).1 = .error error := congrArg Prod.fst failure
  obtain ⟨led, result⟩ := FocusStack.push_error failed
  have rest : (after, next) = (session.pushFocus desk scope).2 := congrArg Prod.snd failure.symm
  refine ⟨led, rest.trans ?_⟩
  simp only [pushFocus, pruneFocus, result]

namespace LiveSession

/-- A push fails as its navigation does. The handles stay where they are, but the frames above the highest one in use
are gone, and a single frame left unused is back at the root: the focus stays as it was just in case its topmost frame
is in use, or is the only one and at the root anyway. -/
theorem run_failed_push (config : SessionConfig) (root : Placement) (calls : List SessionCall) :
    let live := run config root calls
    ∀ scope error after next, live.session.pushFocus live.desk scope = (.error error, after, next) →
      (live.stack.pushStart live.index live.desk).navigate live.index scope = .error error ∧
      after.index = live.index ∧ (∀ handle, next.frameOf? handle = live.desk.frameOf? handle) ∧
      (∃ lost, live.stack.frames = lost ++ after.stack.frames ∧ (∀ frame ∈ lost, ¬ live.desk.IsAttached frame) ∧
        after.stack.TopUsed next) ∧
      (∀ frame, next.path frame =
        if after.stack.frames = [frame] ∧ live.desk.isUnused frame = true then .root live.index
        else live.desk.path frame) ∧
      (live.stack.Alike live.desk after.stack next ↔ live.stack.Settled live.index live.desk) := by
  intro live scope error after next failure
  obtain ⟨led, pruned⟩ := Session.pushFocus_error failure
  cases pruned
  obtain ⟨lost, split, free⟩ := FocusStack.dropUnused_split live.desk live.stack.frames
  rw [← live.stack.frames_popUnused live.index] at split
  have used := live.stack.topUsed_popUnused live.index live.desk
  have sameHandles := live.stack.popUnused_sameHandles live.index live.desk
  exact ⟨led, rfl, sameHandles.frameOf?, ⟨lost, split, free, used⟩, live.stack.path_popUnused live.index live.desk,
    FocusStack.popUnused_alike_iff (run_formed config root calls).nonempty⟩

/-- Two nested levels in use, and a target that is anchored nowhere. -/
theorem run_failed_push_trial :
    let live := run {} Trial.root [.query, .push (.anchored Trial.root.id)]
    ∃ error after next, live.session.pushFocus live.desk .invalid = (.error error, after, next) ∧
      live.session.focusDepth = 2 ∧ live.stack.Alike live.desk after.stack next := by
  intro live
  have failure : live.session.pushFocus live.desk .invalid =
      (.error (.invalidScope (.noSuchTarget none)), live.session.pruneFocus live.desk) := rfl
  have settled : live.stack.Settled live.index live.desk := ⟨1, [0], rfl, .inl ⟨1, rfl⟩⟩
  obtain ⟨_, _, _, _, _, alike⟩ :=
    run_failed_push {} Trial.root [.query, .push (.anchored Trial.root.id)] .invalid _ _ _ failure
  exact ⟨_, _, _, failure, rfl, alike.mpr settled⟩

/-- Once its handle is dropped, the upper one of two levels is lost to a push that fails. -/
theorem failed_push_drops_level :
    let live := run {} Trial.root [.query, .push (.anchored Trial.root.id), .drop 1]
    ∃ error after next, live.session.pushFocus live.desk .invalid = (.error error, after, next) ∧
      live.session.focusDepth = 2 ∧ after.focusDepth = 1 ∧ ¬ live.stack.Alike live.desk after.stack next := by
  intro live
  have failure : live.session.pushFocus live.desk .invalid =
      (.error (.invalidScope (.noSuchTarget none)), live.session.pruneFocus live.desk) := rfl
  have shallower : (live.session.pruneFocus live.desk).1.focusDepth = 1 := rfl
  exact ⟨_, _, _, failure, rfl, shallower, fun alike => absurd alike.depth (by decide +kernel)⟩

end LiveSession

end MediaSession
