import MediaSession.Session
import Std.Data.TreeMap.Lemmas

/-!
Which paths the frames of a stack and the handles on a desk look at. A property of paths that new paths
have is kept by everything that happens to frames and handles.
-/
namespace MediaSession
namespace FocusDesk

/-- The frames of a stack, and those that handles are attached to, have paths with a property. -/
structure Holds (good : ScopePath → Prop) (stack : FocusStack) (desk : FocusDesk) : Prop where
  framed : ∀ {frame}, frame ∈ stack.frames → good (desk.path frame)
  attached : ∀ {handle frame}, desk.frameOf? handle = some frame → good (desk.path frame)

variable {good : ScopePath → Prop} {stack : FocusStack} {desk : FocusDesk}

theorem path_setPath (desk : FocusDesk) (frame : FrameId) (path : ScopePath) (other : FrameId) :
    (desk.setPath frame path).path other = if frame = other then path else desk.path other := by
  simp [setPath, FocusDesk.path, Std.TreeMap.getD_insert]

theorem path_openFrame_self (desk : FocusDesk) (path : ScopePath) :
    (desk.openFrame path).2.path (desk.openFrame path).1 = path :=
  (desk.path_setPath desk.nextFrame path _).trans (if_pos rfl)

theorem frameOf?_reattach (desk : FocusDesk) (moved : HandleId) (frame : FrameId) (handle : HandleId) :
    (desk.reattach moved frame).frameOf? handle =
      if moved = handle then some frame else desk.frameOf? handle := by
  simp [reattach, frameOf?, Std.TreeMap.getElem?_insert]

theorem frameOf?_attach_self (desk : FocusDesk) (frame : FrameId) :
    (desk.attach frame).2.frameOf? (desk.attach frame).1 = some frame :=
  (desk.frameOf?_reattach desk.nextHandle frame _).trans (if_pos rfl)

theorem frameOf?_drop (desk : FocusDesk) (dropped handle : HandleId) :
    (desk.drop dropped).frameOf? handle = if dropped = handle then none else desk.frameOf? handle := by
  simp [drop, frameOf?, Std.TreeMap.getElem?_erase]

theorem pathOf_of_frameOf? {handle : HandleId} {frame : FrameId} (live : desk.frameOf? handle = some frame) :
    desk.pathOf handle = desk.path frame := by
  simp [pathOf, live]

theorem pathOf_setPathOf {handle : HandleId} {frame : FrameId} (live : desk.frameOf? handle = some frame)
    (path : ScopePath) : (desk.setPathOf handle path).pathOf handle = path := by
  have still : (desk.setPathOf handle path).frameOf? handle = some frame := by
    rw [setPathOf, live]
    exact live
  rw [pathOf_of_frameOf? still, setPathOf, live, path_setPath, if_pos rfl]

namespace Holds

theorem mono {other : ScopePath → Prop} (holds : desk.Holds good stack)
    (weaken : ∀ {path}, good path → other path) : desk.Holds other stack :=
  ⟨fun member => weaken (holds.framed member), fun live => weaken (holds.attached live)⟩

theorem sub {fewer : FocusStack} (holds : desk.Holds good stack) (within : fewer.frames ⊆ stack.frames) :
    desk.Holds good fewer := ⟨fun member => holds.framed (within member), holds.attached⟩

theorem setPath (holds : desk.Holds good stack) (frame : FrameId) {path : ScopePath} (new : good path) :
    (desk.setPath frame path).Holds good stack := by
  have each {other : FrameId} (before : good (desk.path other)) :
      good ((desk.setPath frame path).path other) := by
    rw [path_setPath]
    split
    · exact new
    · exact before
  exact ⟨fun member => each (holds.framed member), fun live => each (holds.attached live)⟩

theorem setPathOf (holds : desk.Holds good stack) (handle : HandleId) {path : ScopePath} (new : good path) :
    (desk.setPathOf handle path).Holds good stack := by
  unfold FocusDesk.setPathOf
  split
  · exact holds.setPath _ new
  · exact holds

/-- A handle moves the path it looks at, or looks at none. -/
theorem movePathOf (holds : desk.Holds good stack) (handle : HandleId) {path : ScopePath}
    (moved : good (desk.pathOf handle) → good path) : (desk.setPathOf handle path).Holds good stack := by
  cases live : desk.frameOf? handle with
  | some frame => exact holds.setPathOf handle (moved (pathOf_of_frameOf? live ▸ holds.attached live))
  | none =>
    rw [FocusDesk.setPathOf, live]
    exact holds

/-- To open a frame is to set the path of the next one. -/
theorem openFrame (holds : desk.Holds good stack) {path : ScopePath} (new : good path) :
    (desk.openFrame path).2.Holds good ⟨(desk.openFrame path).1 :: stack.frames⟩ := by
  have old := holds.setPath desk.nextFrame new
  refine ⟨?_, old.attached⟩
  intro frame member
  rcases List.mem_cons.mp member with top | below
  · rw [top, path_openFrame_self]
    exact new
  · exact old.framed below

theorem reattach (holds : desk.Holds good stack) (moved : HandleId) {frame : FrameId}
    (here : good (desk.path frame)) : (desk.reattach moved frame).Holds good stack := by
  refine ⟨holds.framed, ?_⟩
  intro handle other live
  rw [frameOf?_reattach] at live
  split at live
  · cases live
    exact here
  · exact holds.attached live

theorem attach (holds : desk.Holds good stack) {frame : FrameId} (here : good (desk.path frame)) :
    (desk.attach frame).2.Holds good stack :=
  ⟨holds.framed, (holds.reattach desk.nextHandle here).attached⟩

theorem drop (holds : desk.Holds good stack) (dropped : HandleId) : (desk.drop dropped).Holds good stack := by
  refine ⟨holds.framed, ?_⟩
  intro handle frame live
  rw [frameOf?_drop] at live
  split at live
  · cases live
  · exact holds.attached live

theorem clone (holds : desk.Holds good stack) {handle copy : HandleId} {after : FocusDesk}
    (cloned : desk.clone handle = some (copy, after)) : after.Holds good stack := by
  obtain ⟨frame, live, same⟩ := Option.map_eq_some_iff.mp cloned
  have result : after = (desk.attach frame).2 := by rw [same]
  rw [result]
  exact holds.attach (holds.attached live)

end Holds

end FocusDesk

namespace FocusStack
open FocusDesk
variable {good : ScopePath → Prop} {stack after : FocusStack} {desk next : FocusDesk} {index : Index}

theorem dropUnused_suffix (desk : FocusDesk) (frames : List FrameId) : dropUnused desk frames <:+ frames := by
  fun_induction dropUnused desk frames with
  | case1 top below rest unused ih => exact ih.trans (List.suffix_cons ..)
  | case2 | case3 => exact List.suffix_rfl

theorem below?_mem {frame below : FrameId} {frames : List FrameId} (found : below? frame frames = some below) :
    below ∈ frames := by
  fun_induction below? frame frames with
  | case1 =>
    cases found
    simp
  | case2 top under rest other ih => exact List.mem_cons_of_mem _ (ih found)
  | case3 => cases found

theorem atRoot_holds (holds : desk.Holds good stack) (root : good (.root index)) :
    (atRoot index desk).2.Holds good (atRoot index desk).1 := by
  refine (holds.openFrame root).sub ?_
  intro frame member
  rw [List.mem_singleton.mp member]
  exact List.mem_cons_self

theorem popUnused_holds (holds : desk.Holds good stack) (root : good (.root index)) :
    (stack.popUnused index desk).2.Holds good (stack.popUnused index desk).1 := by
  have fewer : desk.Holds good ⟨dropUnused desk stack.frames⟩ := holds.sub (dropUnused_suffix ..).subset
  unfold popUnused
  dsimp only
  split
  · split
    · exact fewer.setPath _ root
    · exact fewer
  · exact fewer

theorem attachTop_holds (holds : desk.Holds good stack) (root : good (.root index)) :
    (stack.attachTop index desk).2.2.Holds good (stack.attachTop index desk).2.1 := by
  have popped := popUnused_holds holds root
  unfold attachTop
  dsimp only
  split
  · rename_i top rest frames
    exact popped.attach (popped.framed (by rw [frames]; exact List.mem_cons_self))
  · have fresh := atRoot_holds popped root
    refine fresh.attach (fresh.framed ?_)
    simp [atRoot, FocusDesk.openFrame]

/-- The path that a push leads on from: that of the topmost frame in use, or the root. -/
def pushStart (stack : FocusStack) (index : Index) (desk : FocusDesk) : ScopePath :=
  let (stack, desk) := stack.popUnused index desk
  let top := stack.topPath desk
  if top.isEmpty then .root index else top

/-- A push that succeeds leaves its handle on a new frame with the path it was led to. -/
theorem push_ok {scope : Scope} {handle : HandleId} (success : (stack.push index desk scope).1 = .ok handle) :
    ∃ path, (stack.pushStart index desk).navigate index scope = .ok path ∧
      (stack.push index desk scope).2.2.pathOf handle = path := by
  unfold push at success ⊢
  dsimp only at success ⊢
  split at success
  · cases success
  · rename_i path led
    cases success
    refine ⟨path, led, ?_⟩
    rw [pathOf_of_frameOf? (frameOf?_attach_self ..)]
    exact path_openFrame_self ..

theorem push_holds (holds : desk.Holds good stack) (root : good (.root index)) (scope : Scope)
    (navigate : ∀ {path moved : ScopePath}, good path → path.navigate index scope = .ok moved → good moved) :
    (stack.push index desk scope).2.2.Holds good (stack.push index desk scope).2.1 := by
  have popped := popUnused_holds holds root
  unfold push
  dsimp only
  split
  · exact popped
  · rename_i path led
    have start : good path := by
      refine navigate ?_ led
      split
      · exact root
      · rename_i nonempty
        unfold topPath at nonempty ⊢
        split
        · rename_i top rest frames
          exact popped.framed (by rw [frames]; exact List.mem_cons_self)
        · rename_i empty
          rw [empty] at nonempty
          exact absurd rfl nonempty
    have opened := popped.openFrame start
    exact opened.attach (opened.framed List.mem_cons_self)

theorem popHandle_holds (holds : desk.Holds good stack) (root : good (.root index)) {handle : HandleId}
    (success : stack.popHandle index desk handle = .ok (after, next)) : next.Holds good after := by
  unfold popHandle at success
  split at success
  · rename_i below found
    obtain ⟨frame, _, under⟩ := Option.bind_eq_some_iff.mp found
    have moved := popUnused_holds (holds.reattach handle (holds.framed (below?_mem under))) root
    rw [Except.ok.inj success] at moved
    exact moved
  · cases success

end FocusStack

end MediaSession
