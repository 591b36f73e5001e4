import MediaSession.Proofs.Focus.Levels

/-!
Stacks with one handle on every frame, as when handles are dropped in the reverse order of their pushes. No frame is
unused there, so that nothing is cleared away but a frame whose handle has just been dropped.
-/
namespace MediaSession
namespace FocusStack
open FocusDesk
variable {stack : FocusStack} {desk next : FocusDesk} {index : Index} {handle : HandleId} {handles : List HandleId}
  {top : FrameId} {rest : List FrameId}

/-- The handles are attached to the frames one by one, and there are no others. -/
structure Manned (stack : FocusStack) (desk : FocusDesk) (handles : List HandleId) : Prop where
  formed : stack.Formed desk
  attached : handles.map desk.frameOf? = stack.frames.map some
  only : ∀ {handle frame}, desk.frameOf? handle = some frame → handle ∈ handles

theorem dropUnused_of_attached (attached : desk.IsAttached top) : dropUnused desk (top :: rest) = top :: rest := by
  cases rest with
  | nil => rfl
  | cons below rest => rw [dropUnused, if_neg fun unused => (desk.isUnused_iff top).mp unused attached]

theorem popUnused_of_attached (frames : stack.frames = top :: rest) (attached : desk.IsAttached top) :
    stack.popUnused index desk = (stack, desk) := by
  have used : desk.isUnused top ≠ true := fun unused => (desk.isUnused_iff top).mp unused attached
  have kept : dropUnused desk stack.frames = stack.frames := by rw [frames, dropUnused_of_attached attached]
  unfold popUnused
  rw [kept]
  dsimp only
  split
  · rename_i bottom alone
    cases frames.symm.trans alone
    rw [if_neg used]
  · rfl

theorem popUnused_of_unused {below : FrameId} (frames : stack.frames = top :: below :: rest)
    (unused : desk.isUnused top = true) :
    stack.popUnused index desk = popUnused ⟨below :: rest⟩ index desk := by
  rw [popUnused, popUnused, frames, dropUnused, if_pos unused]

theorem pushStart_of_attached (frames : stack.frames = top :: rest) (attached : desk.IsAttached top)
    (nonempty : (desk.path top).anchors ≠ []) : stack.pushStart index desk = desk.path top := by
  have started : (desk.path top).isEmpty ≠ true := by simpa [ScopePath.isEmpty] using nonempty
  simp only [pushStart, popUnused_of_attached frames attached, topPath, frames]
  rw [if_neg started]

/-- A push fails as the navigation does, and unused frames are all it clears away. -/
theorem push_error {scope : Scope} {error : SessionError} (failure : (stack.push index desk scope).1 = .error error) :
    (stack.pushStart index desk).navigate index scope = .error error ∧
      (stack.push index desk scope).2 = stack.popUnused index desk := by
  unfold push at failure ⊢
  dsimp only at failure ⊢
  split at failure
  · rename_i led
    cases failure
    exact ⟨led, rfl⟩
  · cases failure

theorem live_of_map {frames : List FrameId} (attached : handles.map desk.frameOf? = frames.map some)
    (member : handle ∈ handles) : ∃ frame ∈ frames, desk.frameOf? handle = some frame := by
  have live : desk.frameOf? handle ∈ frames.map some := attached ▸ List.mem_map_of_mem member
  obtain ⟨frame, present, same⟩ := List.mem_map.mp live
  exact ⟨frame, present, same.symm⟩

namespace Manned

theorem depth_eq (manned : stack.Manned desk handles) : stack.depth = handles.length := by
  simpa [depth] using (congrArg List.length manned.attached).symm

/-- The latest handle is on the topmost frame, the others on the frames below. -/
theorem frames_cons (manned : stack.Manned desk (handle :: handles)) :
    ∃ top rest, stack.frames = top :: rest ∧ desk.frameOf? handle = some top ∧
      handles.map desk.frameOf? = rest.map some := by
  obtain ⟨top, rest, frames, here, others⟩ := List.map_eq_cons_iff.mp manned.attached.symm
  exact ⟨top, rest, frames, here.symm, others.symm⟩

theorem top_attached (manned : stack.Manned desk handles) :
    ∃ top rest, stack.frames = top :: rest ∧ desk.IsAttached top := by
  cases handles with
  | nil => exact absurd (List.map_eq_nil_iff.mp manned.attached.symm) manned.formed.nonempty
  | cons handle handles =>
    obtain ⟨top, rest, frames, here, _⟩ := manned.frames_cons
    exact ⟨top, rest, frames, handle, here⟩

/-- Paths may change. -/
theorem sameHandles (manned : stack.Manned desk handles) (same : desk.SameHandles next) :
    stack.Manned next handles where
  formed := (manned.formed.sameHandles same : Evolves (fun _ => False) ..).formed
  attached := (List.map_congr_left fun handle _ => same.frameOf? handle).trans manned.attached
  only live := manned.only (same.frameOf? _ ▸ live)

/-- The topmost frame, still without a handle, is given one. -/
theorem attach (formed : Formed ⟨top :: rest⟩ desk) (attached : handles.map desk.frameOf? = rest.map some)
    (only : ∀ {handle frame}, desk.frameOf? handle = some frame → handle ∈ handles) :
    Manned ⟨top :: rest⟩ (desk.attach top).2 (desk.nextHandle :: handles) := by
  have look (other : HandleId) : (desk.attach top).2.frameOf? other =
      if desk.nextHandle = other then some top else desk.frameOf? other :=
    desk.frameOf?_reattach desk.nextHandle top other
  refine ⟨(formed.attach (.inl List.mem_cons_self) : Evolves (fun _ => False) ..).formed, ?_, ?_⟩
  · refine congrArg₂ List.cons ((look _).trans (if_pos rfl)) (Eq.trans ?_ attached)
    refine List.map_congr_left fun other member => (look other).trans (if_neg ?_)
    obtain ⟨frame, _, live⟩ := live_of_map attached member
    exact Nat.ne_of_gt (formed.attached_lt live).1
  · intro other frame live
    rw [look] at live
    split at live
    · rename_i same
      exact same ▸ List.mem_cons_self
    · exact List.mem_cons_of_mem _ (only live)

theorem push (manned : stack.Manned desk handles) {scope : Scope}
    (success : (stack.push index desk scope).1 = .ok handle) :
    (stack.push index desk scope).2.1.Manned (stack.push index desk scope).2.2 (handle :: handles) := by
  obtain ⟨top, rest, frames, attached⟩ := manned.top_attached
  unfold FocusStack.push at success ⊢
  rw [popUnused_of_attached frames attached] at success ⊢
  dsimp only at success ⊢
  split at success
  · cases success
  · rename_i path _
    cases success
    have opened : Evolves (fun _ => False) .. := manned.formed.openFrame path
    exact .attach opened.formed manned.attached manned.only

/-- With its handle the topmost frame goes, and no other one. -/
theorem drop (manned : stack.Manned desk (handle :: handles)) (nonempty : handles ≠ []) (index : Index) :
    (stack.popUnused index (desk.drop handle)).1.Manned (stack.popUnused index (desk.drop handle)).2 handles := by
  obtain ⟨top, rest, frames, here, others⟩ := manned.frames_cons
  have apart := (List.nodup_cons.mp (frames ▸ manned.formed.distinct)).1
  have once : handle ∉ handles := by
    intro again
    obtain ⟨frame, lower, live⟩ := live_of_map others again
    cases live.symm.trans here
    exact apart lower
  have attached : handles.map (desk.drop handle).frameOf? = rest.map some :=
    (List.map_congr_left fun other member => (desk.frameOf?_drop handle other).trans
      (if_neg fun same : handle = other => once (same ▸ member))).trans others
  have only {other : HandleId} {frame : FrameId} (live : (desk.drop handle).frameOf? other = some frame) :
      other ∈ handles ∧ desk.frameOf? other = some frame := by
    rw [frameOf?_drop] at live
    split at live
    · cases live
    · rename_i different
      exact ⟨(List.mem_cons.mp (manned.only live)).resolve_left (Ne.symm different), live⟩
  have dropped : Evolves (· = handle) stack desk stack (desk.drop handle) := manned.formed.drop rfl
  have popped : Evolves (· = handle) .. := dropped.formed.popUnused index
  have unused : (desk.drop handle).isUnused top = true := by
    rw [isUnused_iff]
    rintro ⟨other, live⟩
    obtain ⟨frame, lower, there⟩ := live_of_map others (only live).1
    cases there.symm.trans (only live).2
    exact apart lower
  obtain ⟨second, handles, rfl⟩ := List.exists_cons_of_ne_nil nonempty
  obtain ⟨below, lower, rfl, there, _⟩ := List.map_eq_cons_iff.mp attached.symm
  rw [popUnused_of_unused frames unused, popUnused_of_attached rfl ⟨second, there.symm⟩] at popped ⊢
  exact ⟨popped.formed, attached, fun live => (only live).1⟩

end Manned

/-- The first handle on a stack of one frame. -/
theorem Formed.attachTop_manned {bottom : FrameId} (formed : stack.Formed desk) (alone : stack.frames = [bottom])
    (free : ∀ handle, desk.frameOf? handle = none) (index : Index) :
    (stack.attachTop index desk).2.1.Manned (stack.attachTop index desk).2.2 [(stack.attachTop index desk).1] := by
  have frames : (stack.popUnused index desk).1.frames = [bottom] := by
    rw [frames_popUnused, alone]
    rfl
  have popped : Evolves (fun _ => False) .. := formed.popUnused index
  unfold FocusStack.attachTop
  dsimp only
  rw [frames]
  have whole : (stack.popUnused index desk).1 = ⟨[bottom]⟩ := congrArg FocusStack.mk frames
  rw [whole] at popped ⊢
  refine .attach popped.formed rfl fun live => ?_
  rw [(stack.popUnused_sameHandles index desk).frameOf?, free] at live
  cases live

end FocusStack

end MediaSession
