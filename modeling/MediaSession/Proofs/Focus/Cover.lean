import MediaSession.Proofs.Focus.Manned

/-!
Nested focus. While a handle is on a frame, calls through handles above it leave that frame and all below it as they
are, and once no handle is above, the next one to look for the focus is led to that frame again.
-/
namespace MediaSession
namespace FocusStack
open FocusDesk
variable {stack : FocusStack} {desk : FocusDesk} {index : Index} {top frame : FrameId} {rest covered : List FrameId}
  {holder handle : HandleId}

/-- Unused frames are dropped down to a frame in use, and no further. -/
theorem suffix_dropUnused {frames : List FrameId} (attached : desk.IsAttached top) (lies : top :: rest <:+ frames) :
    top :: rest <:+ dropUnused desk frames := by
  fun_induction dropUnused desk frames with
  | case1 first below others unused ih =>
    rcases List.suffix_cons_iff.mp lies with whole | deeper
    · cases whole
      exact absurd attached ((desk.isUnused_iff top).mp unused)
    · exact ih deeper
  | case2 | case3 => exact lies

/-- With a frame in use on the stack, no path changes when unused frames are dropped. -/
theorem popUnused_of_suffix (attached : desk.IsAttached top) (lies : top :: rest <:+ stack.frames) :
    stack.popUnused index desk = (⟨dropUnused desk stack.frames⟩, desk) := by
  have kept := suffix_dropUnused attached lies
  unfold popUnused
  dsimp only
  split
  · rename_i bottom alone
    rw [alone] at kept
    have same : bottom = top := (List.mem_singleton.mp (kept.subset List.mem_cons_self)).symm
    rw [if_neg fun unused => (desk.isUnused_iff bottom).mp unused (same ▸ attached)]
  · rfl

/-- The stack ends in frames that are covered: their paths are those of an earlier desk, and a handle holds the
topmost of them. -/
structure Covers (earlier : FocusDesk) (holder : HandleId) (top : FrameId) (rest : List FrameId) (stack : FocusStack)
    (desk : FocusDesk) : Prop where
  lies : top :: rest <:+ stack.frames
  held : desk.frameOf? holder = some top
  path_eq : ∀ frame ∈ top :: rest, desk.path frame = earlier.path frame

namespace Covers
variable {earlier next : FocusDesk}

theorem attached (covers : Covers earlier holder top rest stack desk) : desk.IsAttached top := ⟨holder, covers.held⟩

theorem popUnused (covers : Covers earlier holder top rest stack desk) (index : Index) :
    Covers earlier holder top rest (stack.popUnused index desk).1 (stack.popUnused index desk).2 := by
  rw [popUnused_of_suffix covers.attached covers.lies]
  exact ⟨suffix_dropUnused covers.attached covers.lies, covers.held, covers.path_eq⟩

/-- Handles come, move and go. -/
theorem rehandle (covers : Covers earlier holder top rest stack desk) (held : next.frameOf? holder = some top)
    (paths : next.paths = desk.paths) : Covers earlier holder top rest stack next := by
  refine ⟨covers.lies, held, fun frame member => ?_⟩
  rw [FocusDesk.path, paths]
  exact covers.path_eq frame member

/-- The path of another frame is set. -/
theorem setPath (covers : Covers earlier holder top rest stack desk) (other : frame ∉ top :: rest) (path : ScopePath) :
    Covers earlier holder top rest stack (desk.setPath frame path) := by
  refine ⟨covers.lies, covers.held, fun lower member => ?_⟩
  rw [path_setPath, if_neg fun same : frame = lower => other (same ▸ member)]
  exact covers.path_eq lower member

theorem setPathOf (covers : Covers earlier holder top rest stack desk) (live : desk.frameOf? handle = some frame)
    (other : frame ∉ top :: rest) (path : ScopePath) :
    Covers earlier holder top rest stack (desk.setPathOf handle path) := by
  rw [FocusDesk.setPathOf, live]
  exact covers.setPath other path

/-- A new handle is not the one that holds the covered frames. -/
theorem attach (covers : Covers earlier holder top rest stack desk) (formed : stack.Formed desk) (frame : FrameId) :
    Covers earlier holder top rest stack (desk.attach frame).2 := by
  refine covers.rehandle ((desk.frameOf?_reattach desk.nextHandle frame holder).trans ?_) rfl
  rw [if_neg (Nat.ne_of_gt (formed.attached_lt covers.held).1)]
  exact covers.held

theorem reattach (covers : Covers earlier holder top rest stack desk) (apart : handle ≠ holder) (frame : FrameId) :
    Covers earlier holder top rest stack (desk.reattach handle frame) := by
  refine covers.rehandle ?_ rfl
  rw [frameOf?_reattach, if_neg apart]
  exact covers.held

theorem drop (covers : Covers earlier holder top rest stack desk) (apart : handle ≠ holder) :
    Covers earlier holder top rest stack (desk.drop handle) := by
  refine covers.rehandle ?_ rfl
  rw [frameOf?_drop, if_neg apart]
  exact covers.held

/-- A frame is opened above the covered ones. -/
theorem openFrame (covers : Covers earlier holder top rest stack desk) (formed : stack.Formed desk)
    (path : ScopePath) : Covers earlier holder top rest ⟨desk.nextFrame :: stack.frames⟩ (desk.openFrame path).2 := by
  have new : desk.nextFrame ∉ top :: rest := fun present =>
    Nat.lt_irrefl _ (formed.framed_lt (covers.lies.subset present))
  have opened := covers.setPath new path
  exact ⟨covers.lies.trans (List.suffix_cons ..), opened.held, opened.path_eq⟩

theorem attachTop (covers : Covers earlier holder top rest stack desk) (formed : stack.Formed desk) (index : Index) :
    Covers earlier holder top rest (stack.attachTop index desk).2.1 (stack.attachTop index desk).2.2 := by
  have popped : Evolves (fun _ => False) .. := formed.popUnused index
  obtain ⟨first, others, frames⟩ := List.exists_cons_of_ne_nil popped.formed.nonempty
  rw [attachTop_eq frames]
  exact (covers.popUnused index).attach popped.formed first

theorem push (covers : Covers earlier holder top rest stack desk) (formed : stack.Formed desk) (index : Index)
    (scope : Scope) :
    Covers earlier holder top rest (stack.push index desk scope).2.1 (stack.push index desk scope).2.2 := by
  have popped : Evolves (fun _ => False) .. := formed.popUnused index
  unfold FocusStack.push
  dsimp only
  split
  · exact covers.popUnused index
  · rename_i path _
    have opened : Evolves (fun _ => False) .. := popped.formed.openFrame path
    exact ((covers.popUnused index).openFrame popped.formed path).attach opened.formed _

theorem popHandle (covers : Covers earlier holder top rest stack desk) (apart : handle ≠ holder) {after : FocusStack}
    (success : stack.popHandle index desk handle = .ok (after, next)) :
    Covers earlier holder top rest after next := by
  unfold FocusStack.popHandle at success
  split at success
  · rename_i below _
    have moved := (covers.reattach apart below).popUnused index
    rw [Except.ok.inj success] at moved
    exact moved
  · cases success

/-- With nothing in use above, a new handle is led to the topmost covered frame. -/
theorem attachTop_uncovered (covers : Covers earlier holder top rest stack desk) (formed : stack.Formed desk)
    (free : ∀ frame ∈ stack.frames, frame ∉ top :: rest → ¬ desk.IsAttached frame) (index : Index) :
    (stack.attachTop index desk).2.1.frames = top :: rest ∧
      (stack.attachTop index desk).2.2.frameOf? (stack.attachTop index desk).1 = some top := by
  have lies := suffix_dropUnused covers.attached covers.lies
  have uncovered : dropUnused desk stack.frames = top :: rest := by
    obtain ⟨upper, whole⟩ := lies
    cases upper with
    | nil => exact whole.symm
    | cons first others =>
      have left : first ∈ dropUnused desk stack.frames := by
        rw [← whole]
        exact List.mem_cons_self
      have member : first ∈ stack.frames := (dropUnused_suffix ..).subset left
      have unrepeated := formed.distinct.sublist (dropUnused_suffix desk stack.frames).sublist
      rw [← whole, List.cons_append, List.nodup_cons] at unrepeated
      have second : ∃ below more, others ++ top :: rest = below :: more :=
        List.exists_cons_of_ne_nil (List.append_ne_nil_of_right_ne_nil _ (List.cons_ne_nil _ _))
      obtain ⟨below, more, deeper⟩ := second
      have used := topUsed_dropUnused desk stack.frames first below more (by rw [← whole, List.cons_append, deeper])
      exact absurd used (free first member fun covered => unrepeated.1 (List.mem_append_right _ covered))
  unfold FocusStack.attachTop
  rw [popUnused_of_suffix covers.attached covers.lies]
  dsimp only
  rw [uncovered]
  exact ⟨rfl, frameOf?_attach_self ..⟩

end Covers

end FocusStack

namespace LiveSession
open FocusStack
variable {live : LiveSession} {call : SessionCall} {covered rest : List FrameId} {holder handle : HandleId}
  {top : FrameId} {earlier : FocusDesk}

/-- The handle is on a frame of the stack above the covered ones. -/
def IsAbove (covered : List FrameId) (live : LiveSession) (handle : HandleId) : Prop :=
  ∃ frame ∈ live.desk.frameOf? handle, frame ∈ live.stack.frames ∧ frame ∉ covered

instance : Decidable (live.IsAbove covered handle) := inferInstanceAs (Decidable (∃ _ ∈ _, _))

/-- The call goes through no handle but one above the covered frames, and does not take it down to them. Locating a
target only looks, and is no call of a run. -/
def StaysAbove (covered : List FrameId) (live : LiveSession) : SessionCall → Prop
  | .mutate _ | .query | .push _ | .prune => True
  | .clone handle | .drop handle | .shift handle _ | .ascend handle | .reset handle => live.IsAbove covered handle
  | .pop handle => live.IsAbove covered handle ∧ (live.step (.pop handle)).IsAbove covered handle
  | .clear => False

instance : Decidable (live.StaysAbove covered call) := by
  cases call <;> unfold StaysAbove <;> infer_instance

/-- Each of the calls stays above the covered frames when its turn comes. -/
def AllAbove (covered : List FrameId) (live : LiveSession) : List SessionCall → Prop
  | [] => True
  | call :: later => live.StaysAbove covered call ∧ AllAbove covered (live.step call) later

def decideAllAbove (covered : List FrameId) (live : LiveSession) :
    (calls : List SessionCall) → Decidable (live.AllAbove covered calls)
  | [] => isTrue trivial
  | call :: later =>
    have := decideAllAbove covered (live.step call) later
    inferInstanceAs (Decidable (_ ∧ _))

instance (calls : List SessionCall) : Decidable (live.AllAbove covered calls) := decideAllAbove covered live calls

theorem IsAbove.ne_holder (above : live.IsAbove (top :: rest) handle) (held : live.desk.frameOf? holder = some top) :
    handle ≠ holder := by
  rintro rfl
  obtain ⟨frame, here, _, apart⟩ := above
  cases here.symm.trans held
  exact apart List.mem_cons_self

/-- A path is set through a handle above. -/
theorem IsAbove.setPathOf (above : live.IsAbove (top :: rest) handle)
    (covers : Covers earlier holder top rest live.stack live.desk) (path : ScopePath) :
    Covers earlier holder top rest live.stack (live.desk.setPathOf handle path) := by
  obtain ⟨frame, here, _, apart⟩ := above
  exact covers.setPathOf here apart path

theorem step_covers (covers : Covers earlier holder top rest live.stack live.desk) (formed : live.Formed)
    (stays : live.StaysAbove (top :: rest) call) :
    Covers earlier holder top rest (live.step call).stack (live.step call).desk := by
  cases call with
  | mutate mutation =>
    unfold step
    dsimp only
    split <;> exact covers
  | clear => exact stays.elim
  | query => exact covers.attachTop formed live.index
  | push scope => exact covers.push formed live.index scope
  | prune => exact covers.popUnused live.index
  | clone handle =>
    unfold step
    dsimp only
    split
    · rename_i cloned
      obtain ⟨frame, _, same⟩ := Option.map_eq_some_iff.mp cloned
      cases same
      exact covers.attach formed frame
    · exact covers
  | drop handle => exact covers.drop (stays.ne_holder covers.held)
  | shift handle target =>
    unfold step
    dsimp only
    split
    · rename_i success
      obtain ⟨path, _, same⟩ := bind_ok_iff.mp success
      cases same
      exact IsAbove.setPathOf stays covers path
    · exact covers
  | ascend handle =>
    unfold step
    dsimp only
    split
    · rename_i scope desk success
      simp only [FocusDesk.ascend] at success
      split at success
      · cases success
      · obtain ⟨⟨upper, path⟩, _, same⟩ := bind_ok_iff.mp success
        cases same
        exact IsAbove.setPathOf stays covers path
    · exact covers
  | reset handle => exact IsAbove.setPathOf stays covers _
  | pop handle =>
    unfold step
    dsimp only
    split
    · rename_i success
      obtain ⟨⟨stack, next⟩, popped, same⟩ := bind_ok_iff.mp success
      cases same
      exact covers.popHandle (stays.1.ne_holder covers.held) popped
    · exact covers

theorem foldl_covers (covers : Covers earlier holder top rest live.stack live.desk) (formed : live.Formed)
    {calls : List SessionCall} (above : live.AllAbove (top :: rest) calls) :
    Covers earlier holder top rest (calls.foldl step live).stack (calls.foldl step live).desk ∧
      (calls.foldl step live).Formed := by
  induction calls generalizing live with
  | nil => exact ⟨covers, formed⟩
  | cons call later ih => exact ih (step_covers covers formed above.1) (step_formed formed call) above.2

/-- A focus that is pushed, and used through handles above the frame which had it, gives it back: as soon as no handle
is above, the focus is on that frame again, the stack is as it was, and so is the path of each of its frames. -/
theorem run_restores_covered (config : SessionConfig) (root : Placement) (earlier : List SessionCall) {top : FrameId}
    {holder : HandleId} (topmost : (run config root earlier).stack.frames.head? = some top)
    (held : (run config root earlier).desk.frameOf? holder = some top) (scope : Scope) (calls : List SessionCall)
    (above : (run config root earlier).AllAbove (run config root earlier).stack.frames (.push scope :: calls))
    (dropped : ∀ handle, ¬ (run config root (earlier ++ .push scope :: calls)).IsAbove
      (run config root earlier).stack.frames handle) :
    let before := run config root earlier
    let last := run config root (earlier ++ .push scope :: calls)
    let (handle, session, desk) := last.session.queryFocus last.desk
    desk.frameOf? handle = some top ∧ session.focusDepth = before.session.focusDepth ∧
      session.stack.frames = before.stack.frames ∧
      ∀ frame ∈ before.stack.frames, desk.path frame = before.desk.path frame := by
  intro before last
  obtain ⟨rest, frames⟩ := List.head?_eq_some_iff.mp topmost
  rw [frames] at above dropped
  have start : Covers before.desk holder top rest before.stack before.desk :=
    ⟨frames ▸ List.suffix_rfl, held, fun _ _ => rfl⟩
  obtain ⟨covers, formed⟩ := foldl_covers start (run_formed config root earlier) above
  rw [← run_append] at covers formed
  have free (frame : FrameId) (present : frame ∈ last.stack.frames) (apart : frame ∉ top :: rest) :
      ¬ last.desk.IsAttached frame := fun ⟨handle, here⟩ => dropped handle ⟨frame, here, present, apart⟩
  obtain ⟨whole, led⟩ := covers.attachTop_uncovered formed free last.index
  have after := covers.attachTop formed last.index
  rw [← frames] at whole
  refine ⟨led, congrArg List.length whole, whole, fun frame member => ?_⟩
  exact after.path_eq frame (frames ▸ member)

end LiveSession

namespace Trial

/-- Two frames with handles, the upper one led to a track. -/
def coveredCalls : List SessionCall :=
  [.mutate (.insert track root.id), .mutate (.insert part track.id), .query, .push (.anchored track.id)]

/-- Frames and handles that come and go above, among changes of the index, until no handle is left there. -/
def nestedCalls : List SessionCall :=
  [.push (.anchored part.id), .clone 2, .push (.anchored root.id), .shift 4 (.anchored track.id), .pop 4,
    .mutate (.remove part.id), .ascend 2, .drop 2, .drop 4, .push (.anchored track.id), .reset 5, .drop 3, .drop 5]

end Trial

/-- After the nested calls two unused frames lie on the two covered ones. -/
theorem LiveSession.run_restores_covered_trial :
    let before := run {} Trial.root Trial.coveredCalls
    let last := run {} Trial.root (Trial.coveredCalls ++ Trial.nestedCalls)
    before.stack.frames = [1, 0] ∧ before.desk.frameOf? 1 = some 1 ∧ before.AllAbove [1, 0] Trial.nestedCalls ∧
      last.stack.frames = [4, 2, 1, 0] ∧
      let (handle, session, desk) := last.session.queryFocus last.desk
      desk.frameOf? handle = some 1 ∧ session.stack.frames = [1, 0] ∧ desk.path 1 = before.desk.path 1 := by
  intro before last
  have frames : before.stack.frames = [1, 0] := by decide +kernel
  have held : before.desk.frameOf? 1 = some 1 := by decide +kernel
  have above : before.AllAbove [1, 0] Trial.nestedCalls := by decide +kernel
  have dropped (handle : HandleId) : ¬ last.IsAbove before.stack.frames handle := by
    have issued : ∀ handle < last.desk.nextHandle, ¬ last.IsAbove before.stack.frames handle := by decide +kernel
    intro here
    have ⟨frame, attached, _⟩ := here
    exact issued handle ((run_formed ..).attached_lt attached).1 here
  obtain ⟨led, _, whole, paths⟩ := run_restores_covered {} Trial.root Trial.coveredCalls (congrArg List.head? frames)
    held (.anchored Trial.part.id) Trial.nestedCalls.tail (frames ▸ above) dropped
  exact ⟨frames, held, above, by decide +kernel, led, whole.trans frames, paths 1 (by rw [frames]; decide)⟩

end MediaSession
