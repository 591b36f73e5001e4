import MediaSession.Proofs.Focus.Desk
import MediaSession.Proofs.Index.Calls

/-!
Frames of a stack and the handles attached to them, whatever their paths. Frames come and go at the top, none
goes while a handle is attached to it, and a handle that is off the stack stays where it is.
-/
namespace MediaSession
namespace FocusDesk
variable {desk next : FocusDesk} {frame : FrameId} {handle : HandleId}

/-- Some live handle is attached to the frame. -/
def IsAttached (desk : FocusDesk) (frame : FrameId) : Prop := ∃ handle, desk.frameOf? handle = some frame

theorem isUnused_iff (desk : FocusDesk) (frame : FrameId) :
    desk.isUnused frame = true ↔ ¬ desk.IsAttached frame := by
  rw [isUnused, decide_eq_true_iff, attached, List.countP_eq_zero]
  constructor
  · rintro unused ⟨handle, live⟩
    have listed := Std.TreeMap.mem_toList_iff_getElem?_eq_some.mpr live
    exact absurd (decide_eq_true rfl) (unused _ listed)
  · rintro unused ⟨handle, other⟩ listed attached
    have live := Std.TreeMap.mem_toList_iff_getElem?_eq_some.mp listed
    have here : other = frame := of_decide_eq_true attached
    exact unused ⟨handle, here ▸ live⟩

/-- The desks differ in paths at most. -/
structure SameHandles (desk next : FocusDesk) : Prop where
  handles : next.handles = desk.handles
  nextFrame : next.nextFrame = desk.nextFrame
  nextHandle : next.nextHandle = desk.nextHandle

theorem SameHandles.refl (desk : FocusDesk) : desk.SameHandles desk := ⟨rfl, rfl, rfl⟩

theorem SameHandles.frameOf? (same : desk.SameHandles next) (handle : HandleId) :
    next.frameOf? handle = desk.frameOf? handle := by
  rw [FocusDesk.frameOf?, same.handles]
  rfl

theorem SameHandles.isAttached (same : desk.SameHandles next) (frame : FrameId) :
    next.IsAttached frame ↔ desk.IsAttached frame := by
  simp only [IsAttached, same.frameOf?]

theorem setPathOf_sameHandles (desk : FocusDesk) (handle : HandleId) (path : ScopePath) :
    desk.SameHandles (desk.setPathOf handle path) := by
  unfold setPathOf
  split
  · exact ⟨rfl, rfl, rfl⟩
  · exact .refl desk

theorem shift_sameHandles {index : Index} {target : Scope}
    (success : desk.shift index handle target = .ok next) : desk.SameHandles next := by
  obtain ⟨path, _, same⟩ := bind_ok_iff.mp success
  cases same
  exact desk.setPathOf_sameHandles handle path

theorem ascend_sameHandles {index : Index} {scope : Scope}
    (success : desk.ascend index handle = .ok (scope, next)) : desk.SameHandles next := by
  simp only [ascend] at success
  split at success
  · cases success
  · obtain ⟨⟨upper, path⟩, _, same⟩ := bind_ok_iff.mp success
    cases same
    exact desk.setPathOf_sameHandles handle path

end FocusDesk

namespace FocusStack
open FocusDesk
variable {stack after final : FocusStack} {desk next last : FocusDesk} {index : Index} {frame : FrameId}
  {handle : HandleId}

theorem isUnused_of_dropped {frames : List FrameId} (present : frame ∈ frames)
    (gone : frame ∉ dropUnused desk frames) : desk.isUnused frame = true := by
  fun_induction dropUnused desk frames with
  | case1 top below rest unused ih =>
    rcases List.mem_cons.mp present with same | lower
    · rw [same]
      exact unused
    · exact ih lower gone
  | case2 | case3 => exact absurd present gone

theorem dropUnused_ne_nil {frames : List FrameId} (nonempty : frames ≠ []) : dropUnused desk frames ≠ [] := by
  fun_induction dropUnused desk frames with
  | case1 top below rest unused ih => exact ih (List.cons_ne_nil _ _)
  | case2 | case3 => exact nonempty

/-- The topmost frame is in use, or it is the only one. -/
def TopUsed (stack : FocusStack) (desk : FocusDesk) : Prop :=
  ∀ top below rest, stack.frames = top :: below :: rest → desk.IsAttached top

theorem topUsed_dropUnused (desk : FocusDesk) (frames : List FrameId) :
    TopUsed ⟨dropUnused desk frames⟩ desk := by
  fun_induction dropUnused desk frames with
  | case1 top below rest unused ih => exact ih
  | case2 top below rest used =>
    rintro _ _ _ same
    cases same
    exact Classical.not_not.mp fun unattached => used ((desk.isUnused_iff top).mpr unattached)
  | case3 frames short =>
    rintro top below rest same
    exact absurd same (short top below rest)

theorem frames_popUnused (stack : FocusStack) (index : Index) (desk : FocusDesk) :
    (stack.popUnused index desk).1.frames = dropUnused desk stack.frames := by
  unfold popUnused
  dsimp only
  split <;> rfl

theorem popUnused_sameHandles (stack : FocusStack) (index : Index) (desk : FocusDesk) :
    desk.SameHandles (stack.popUnused index desk).2 := by
  unfold popUnused
  dsimp only
  split
  · split
    · exact ⟨rfl, rfl, rfl⟩
    · exact .refl desk
  · exact .refl desk

theorem topUsed_popUnused (stack : FocusStack) (index : Index) (desk : FocusDesk) :
    TopUsed (stack.popUnused index desk).1 (stack.popUnused index desk).2 := by
  intro top below rest same
  rw [frames_popUnused] at same
  rw [(stack.popUnused_sameHandles index desk).isAttached]
  exact topUsed_dropUnused desk stack.frames top below rest same

/-- Frames and handles as they are numbered: no frame is twice on the stack, and numbers in use are below the
next ones. -/
structure Formed (stack : FocusStack) (desk : FocusDesk) : Prop where
  nonempty : stack.frames ≠ []
  distinct : stack.frames.Nodup
  framed_lt : ∀ {frame}, frame ∈ stack.frames → frame < desk.nextFrame
  attached_lt : ∀ {handle frame}, desk.frameOf? handle = some frame →
    handle < desk.nextHandle ∧ frame < desk.nextFrame

/-- The stack loses no frame that a handle is attached to afterwards and gains new frames only. Handles stay where
they are but for those that are touched, and of these only handles on the stack move. -/
structure Evolves (touched : HandleId → Prop) (stack : FocusStack) (desk : FocusDesk) (after : FocusStack)
    (next : FocusDesk) : Prop where
  formed : after.Formed next
  frame_kept : ∀ {frame}, frame ∈ stack.frames → next.IsAttached frame → frame ∈ after.frames
  frame_new : ∀ {frame}, frame ∈ after.frames → frame ∈ stack.frames ∨ desk.nextFrame ≤ frame
  attached_from : ∀ {frame}, next.IsAttached frame → frame ∈ after.frames ∨ desk.IsAttached frame
  handle_from : ∀ {handle frame}, next.frameOf? handle = some frame → handle < desk.nextHandle →
    desk.frameOf? handle = some frame ∨ ∃ old, desk.frameOf? handle = some old ∧ old ∈ stack.frames
  handle_kept : ∀ {handle frame}, ¬ touched handle → desk.frameOf? handle = some frame →
    next.frameOf? handle = some frame
  nextFrame_le : desk.nextFrame ≤ next.nextFrame
  nextHandle_le : desk.nextHandle ≤ next.nextHandle

variable {touched : HandleId → Prop}

theorem Evolves.trans (first : Evolves touched stack desk after next) (second : Evolves touched after next final last)
    (formed : stack.Formed desk) : Evolves touched stack desk final last where
  formed := second.formed
  frame_kept present attached := by
    rcases second.attached_from attached with here | between
    · exact here
    · exact second.frame_kept (first.frame_kept present between) attached
  frame_new present := by
    rcases second.frame_new present with between | new
    · exact first.frame_new between
    · exact .inr (Nat.le_trans first.nextFrame_le new)
  attached_from attached := by
    rcases second.attached_from attached with here | between
    · exact .inl here
    · exact (first.attached_from between).imp (second.frame_kept · attached) id
  handle_from {handle frame} live known := by
    have still := Nat.lt_of_lt_of_le known first.nextHandle_le
    rcases second.handle_from live still with between | ⟨old, between, stacked⟩
    · exact first.handle_from between known
    · rcases first.handle_from between known with before | moved
      · have bounded := (formed.attached_lt before).2
        exact .inr ⟨old, before, (first.frame_new stacked).resolve_right (Nat.not_le_of_lt bounded)⟩
      · exact .inr moved
  handle_kept apart live := second.handle_kept apart (first.handle_kept apart live)
  nextFrame_le := Nat.le_trans first.nextFrame_le second.nextFrame_le
  nextHandle_le := Nat.le_trans first.nextHandle_le second.nextHandle_le

namespace Formed

/-- Paths change, or nothing does. -/
theorem sameHandles (formed : stack.Formed desk) (same : desk.SameHandles next) :
    Evolves touched stack desk stack next where
  formed := by
    refine ⟨formed.nonempty, formed.distinct, ?_, ?_⟩
    · rw [same.nextFrame]
      exact formed.framed_lt
    · intro handle frame live
      rw [same.frameOf?] at live
      rw [same.nextFrame, same.nextHandle]
      exact formed.attached_lt live
  frame_kept present _ := present
  frame_new present := .inl present
  attached_from attached := .inr ((same.isAttached _).mp attached)
  handle_from live _ := .inl (same.frameOf? _ ▸ live)
  handle_kept _ live := (same.frameOf? _).trans live
  nextFrame_le := Nat.le_of_eq same.nextFrame.symm
  nextHandle_le := Nat.le_of_eq same.nextHandle.symm

theorem dropUnused (formed : stack.Formed desk) :
    Evolves touched stack desk ⟨dropUnused desk stack.frames⟩ desk where
  formed :=
    { nonempty := dropUnused_ne_nil formed.nonempty
      distinct := formed.distinct.sublist (dropUnused_suffix ..).sublist
      framed_lt := fun present => formed.framed_lt ((dropUnused_suffix ..).subset present)
      attached_lt := formed.attached_lt }
  frame_kept {frame} present attached :=
    Decidable.byContradiction fun gone =>
      (desk.isUnused_iff frame).mp (isUnused_of_dropped present gone) attached
  frame_new present := .inl ((dropUnused_suffix ..).subset present)
  attached_from attached := .inr attached
  handle_from live _ := .inl live
  handle_kept _ live := live
  nextFrame_le := Nat.le_refl _
  nextHandle_le := Nat.le_refl _

theorem popUnused (formed : stack.Formed desk) (index : Index) :
    Evolves touched stack desk (stack.popUnused index desk).1 (stack.popUnused index desk).2 := by
  have dropped : Evolves touched stack desk _ _ := formed.dropUnused
  have frames : (stack.popUnused index desk).1 = ⟨FocusStack.dropUnused desk stack.frames⟩ :=
    congrArg FocusStack.mk (stack.frames_popUnused index desk)
  rw [frames]
  exact dropped.trans (dropped.formed.sameHandles (stack.popUnused_sameHandles index desk)) formed

/-- A handle more on a frame in use or on the stack. -/
theorem attach (formed : stack.Formed desk) (known : frame ∈ stack.frames ∨ desk.IsAttached frame) :
    Evolves touched stack desk stack (desk.attach frame).2 := by
  have look (handle : HandleId) : (desk.attach frame).2.frameOf? handle =
      if desk.nextHandle = handle then some frame else desk.frameOf? handle :=
    desk.frameOf?_reattach desk.nextHandle frame handle
  refine ⟨⟨formed.nonempty, formed.distinct, formed.framed_lt, ?_⟩, fun present _ => present, .inl, ?_, ?_, ?_,
    Nat.le_refl _, Nat.le_succ _⟩
  · intro handle other live
    rw [look] at live
    split at live
    · rename_i same
      cases live
      refine ⟨Nat.lt_succ_of_le (Nat.le_of_eq same.symm), ?_⟩
      rcases known with present | ⟨older, attached⟩
      · exact formed.framed_lt present
      · exact (formed.attached_lt attached).2
    · exact ⟨Nat.lt_succ_of_lt (formed.attached_lt live).1, (formed.attached_lt live).2⟩
  · rintro other ⟨handle, live⟩
    rw [look] at live
    split at live
    · cases live
      exact known
    · exact .inr ⟨handle, live⟩
  · intro handle other live bounded
    rw [look, if_neg (Nat.ne_of_gt bounded)] at live
    exact .inl live
  · intro handle other _ live
    rw [look, if_neg (Nat.ne_of_gt (formed.attached_lt live).1)]
    exact live

theorem openFrame (formed : stack.Formed desk) (path : ScopePath) :
    Evolves touched stack desk ⟨desk.nextFrame :: stack.frames⟩ (desk.openFrame path).2 where
  formed :=
    { nonempty := List.cons_ne_nil _ _
      distinct :=
        List.nodup_cons.mpr ⟨fun present => Nat.lt_irrefl _ (formed.framed_lt present), formed.distinct⟩
      framed_lt := fun present => by
        rcases List.mem_cons.mp present with new | old
        · exact Nat.lt_succ_of_le (Nat.le_of_eq new)
        · exact Nat.lt_succ_of_lt (formed.framed_lt old)
      attached_lt := fun live => ⟨(formed.attached_lt live).1, Nat.lt_succ_of_lt (formed.attached_lt live).2⟩ }
  frame_kept present _ := List.mem_cons_of_mem _ present
  frame_new present := (List.mem_cons.mp present).symm.imp id fun new => Nat.le_of_eq new.symm
  attached_from attached := .inr attached
  handle_from live _ := .inl live
  handle_kept _ live := live
  nextFrame_le := Nat.le_succ _
  nextHandle_le := Nat.le_refl _

theorem drop (formed : stack.Formed desk) {dropped : HandleId} (taken : touched dropped) :
    Evolves touched stack desk stack (desk.drop dropped) := by
  have before {handle : HandleId} {frame : FrameId} (live : (desk.drop dropped).frameOf? handle = some frame) :
      desk.frameOf? handle = some frame := by
    rw [frameOf?_drop] at live
    split at live
    · cases live
    · exact live
  exact
    { formed := ⟨formed.nonempty, formed.distinct, formed.framed_lt, fun live => formed.attached_lt (before live)⟩
      frame_kept := fun present _ => present
      frame_new := .inl
      attached_from := fun ⟨handle, live⟩ => .inr ⟨handle, before live⟩
      handle_from := fun live _ => .inl (before live)
      handle_kept := fun {handle _} apart live => by
        rw [frameOf?_drop, if_neg fun same : dropped = handle => apart (same ▸ taken)]
        exact live
      nextFrame_le := Nat.le_refl _
      nextHandle_le := Nat.le_refl _ }

/-- A handle on the stack moves to another frame of it. -/
theorem reattach (formed : stack.Formed desk) {moved : HandleId} {old : FrameId}
    (live : desk.frameOf? moved = some old) (stacked : old ∈ stack.frames) (present : frame ∈ stack.frames)
    (taken : touched moved) : Evolves touched stack desk stack (desk.reattach moved frame) := by
  refine ⟨⟨formed.nonempty, formed.distinct, formed.framed_lt, ?_⟩, fun present _ => present, .inl, ?_, ?_, ?_,
    Nat.le_refl _, Nat.le_refl _⟩
  · intro handle other now
    rw [frameOf?_reattach] at now
    split at now
    · rename_i same
      cases now
      exact ⟨same ▸ (formed.attached_lt live).1, formed.framed_lt present⟩
    · exact formed.attached_lt now
  · rintro other ⟨handle, now⟩
    rw [frameOf?_reattach] at now
    split at now
    · cases now
      exact .inl present
    · exact .inr ⟨handle, now⟩
  · intro handle other now _
    rw [frameOf?_reattach] at now
    split at now
    · rename_i same
      exact .inr ⟨old, same ▸ live, stacked⟩
    · exact .inl now
  · intro handle other apart now
    rw [frameOf?_reattach, if_neg fun same : moved = handle => apart (same ▸ taken)]
    exact now

end Formed

theorem below?_stacked {below : FrameId} {frames : List FrameId} (found : below? frame frames = some below) :
    frame ∈ frames := by
  fun_induction below? frame frames with
  | case1 => exact List.mem_cons_self
  | case2 top under rest other ih => exact List.mem_cons_of_mem _ (ih found)
  | case3 => cases found

/-- With frames left after unused ones are dropped, a new handle is attached to the topmost. -/
theorem attachTop_eq {top : FrameId} {rest : List FrameId}
    (frames : (stack.popUnused index desk).1.frames = top :: rest) :
    (stack.attachTop index desk).2 =
      ((stack.popUnused index desk).1, ((stack.popUnused index desk).2.attach top).2) := by
  unfold attachTop
  dsimp only
  rw [frames]

theorem Formed.attachTop (formed : stack.Formed desk) (index : Index) (touched : HandleId → Prop) :
    Evolves touched stack desk (stack.attachTop index desk).2.1 (stack.attachTop index desk).2.2 ∧
      TopUsed (stack.attachTop index desk).2.1 (stack.attachTop index desk).2.2 := by
  have popped : Evolves touched stack desk _ _ := formed.popUnused index
  obtain ⟨top, rest, frames⟩ := List.exists_cons_of_ne_nil popped.formed.nonempty
  rw [attachTop_eq frames]
  refine ⟨popped.trans (popped.formed.attach (.inl (frames ▸ List.mem_cons_self))) formed, ?_⟩
  intro first below others same
  rw [frames] at same
  cases same
  exact ⟨_, frameOf?_attach_self ..⟩

theorem Formed.push (formed : stack.Formed desk) (index : Index) (scope : Scope) (touched : HandleId → Prop) :
    Evolves touched stack desk (stack.push index desk scope).2.1 (stack.push index desk scope).2.2 ∧
      TopUsed (stack.push index desk scope).2.1 (stack.push index desk scope).2.2 := by
  have popped : Evolves touched stack desk _ _ := formed.popUnused index
  unfold FocusStack.push
  dsimp only
  split
  · refine ⟨popped, ?_⟩
    exact topUsed_popUnused stack index desk
  · rename_i path _
    have opened : Evolves touched _ _ _ _ := popped.formed.openFrame path
    refine ⟨(popped.trans opened formed).trans (opened.formed.attach (.inl List.mem_cons_self)) formed, ?_⟩
    intro first below others same
    rw [← (List.cons.inj same).1]
    exact ⟨_, frameOf?_attach_self ..⟩

theorem Formed.popHandle (formed : stack.Formed desk)
    (success : stack.popHandle index desk handle = .ok (after, next)) (taken : touched handle) :
    Evolves touched stack desk after next ∧ TopUsed after next := by
  unfold FocusStack.popHandle at success
  split at success
  · rename_i below found
    obtain ⟨frame, live, under⟩ := Option.bind_eq_some_iff.mp found
    have moved := formed.reattach live (below?_stacked under) (below?_mem under) taken
    have popped := moved.trans (moved.formed.popUnused index) formed
    have used := topUsed_popUnused stack index (desk.reattach handle below)
    rw [Except.ok.inj success] at popped used
    exact ⟨popped, used⟩
  · cases success

end FocusStack

end MediaSession
