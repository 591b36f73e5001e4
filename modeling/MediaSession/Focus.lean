import MediaSession.ScopePath

/-!
Focus frames and the handles attached to them. Several handles may share one frame, and a frame outlives
its place on a stack as long as a handle is attached to it, so frames and handles are kept in one desk
and a stack only names its frames.
-/
namespace MediaSession

abbrev FrameId := Nat
abbrev HandleId := Nat

/-- Paths by frame, and the frame every live handle is attached to. -/
structure FocusDesk where
  paths : Std.TreeMap FrameId ScopePath := ∅
  handles : Std.TreeMap HandleId FrameId := ∅
  nextFrame : FrameId := 0
  nextHandle : HandleId := 0

namespace FocusDesk

/-- Number of handles attached to a frame. -/
def attached (desk : FocusDesk) (frame : FrameId) : Nat :=
  desk.handles.toList.countP fun handle => handle.2 = frame

def isUnused (desk : FocusDesk) (frame : FrameId) : Bool := desk.attached frame = 0

def path (desk : FocusDesk) (frame : FrameId) : ScopePath := desk.paths.getD frame .invalid

def setPath (desk : FocusDesk) (frame : FrameId) (path : ScopePath) : FocusDesk :=
  { desk with paths := desk.paths.insert frame path }

/-- A new frame with the given path. -/
def openFrame (desk : FocusDesk) (path : ScopePath) : FrameId × FocusDesk :=
  (desk.nextFrame,
    { desk with paths := desk.paths.insert desk.nextFrame path, nextFrame := desk.nextFrame + 1 })

/-- A new handle on a frame. -/
def attach (desk : FocusDesk) (frame : FrameId) : HandleId × FocusDesk :=
  (desk.nextHandle,
    { desk with handles := desk.handles.insert desk.nextHandle frame, nextHandle := desk.nextHandle + 1 })

/-- Move a handle to another frame. -/
def reattach (desk : FocusDesk) (handle : HandleId) (frame : FrameId) : FocusDesk :=
  { desk with handles := desk.handles.insert handle frame }

/-- Release a handle. -/
def drop (desk : FocusDesk) (handle : HandleId) : FocusDesk :=
  { desk with handles := desk.handles.erase handle }

def frameOf? (desk : FocusDesk) (handle : HandleId) : Option FrameId := desk.handles[handle]?

/-- The path a handle looks at. -/
def pathOf (desk : FocusDesk) (handle : HandleId) : ScopePath :=
  match desk.frameOf? handle with
  | some frame => desk.path frame
  | none => .invalid

/-- A second handle on the frame of a handle. -/
def clone (desk : FocusDesk) (handle : HandleId) : Option (HandleId × FocusDesk) :=
  (desk.frameOf? handle).map desk.attach

/-- Change the path a handle looks at. -/
def setPathOf (desk : FocusDesk) (handle : HandleId) (path : ScopePath) : FocusDesk :=
  match desk.frameOf? handle with
  | some frame => desk.setPath frame path
  | none => desk

/-- Lead the focus to a target; on failure it stays. -/
def shift (desk : FocusDesk) (index : Index) (handle : HandleId) (target : Scope) :
    Except SessionError FocusDesk := do
  let path ← (desk.pathOf handle).navigate index target
  return desk.setPathOf handle path

/-- The route from a target up to the root as the focus would take it. -/
def locate (desk : FocusDesk) (index : Index) (handle : HandleId) (target : Scope) :
    Except SessionError (List PlacementId) := do
  let path ← (desk.pathOf handle).navigate index target
  return path.upward

/-- Move the focus one scope up; also the new scope. -/
def ascend (desk : FocusDesk) (index : Index) (handle : HandleId) :
    Except SessionError (Scope × FocusDesk) :=
  let path := desk.pathOf handle
  if path.isRoot then .error (.noParentScope index.rootId)
  else do
    let (scope, path) ← path.moveUp
    return (scope, desk.setPathOf handle path)

/-- Move the focus back to the root. -/
def reset (desk : FocusDesk) (index : Index) (handle : HandleId) : FocusDesk :=
  desk.setPathOf handle (.root index)

end FocusDesk

/-- Frames of a stack, the topmost first. -/
structure FocusStack where
  frames : List FrameId := []

namespace FocusStack

/-- A stack with a single frame at the root. -/
def atRoot (index : Index) (desk : FocusDesk) : FocusStack × FocusDesk :=
  let (frame, desk) := desk.openFrame (.root index)
  (⟨[frame]⟩, desk)

def depth (stack : FocusStack) : Nat := stack.frames.length

def isEmpty (stack : FocusStack) : Bool := stack.frames.isEmpty

/-- Handles attached to the frame at a level, counted from the bottom. -/
def attachedAt? (stack : FocusStack) (desk : FocusDesk) (level : Nat) : Option Nat :=
  (stack.frames.reverse[level]?).map desk.attached

/-- Path of the topmost frame. -/
def topPath (stack : FocusStack) (desk : FocusDesk) : ScopePath :=
  match stack.frames with
  | top :: _ => desk.path top
  | [] => .invalid

/-- Drop unused frames from the top, but not the bottom frame. -/
def dropUnused (desk : FocusDesk) : List FrameId → List FrameId
  | top :: below :: rest =>
    if desk.isUnused top then dropUnused desk (below :: rest) else top :: below :: rest
  | frames => frames

/-- Drop unused frames from the top; a bottom frame left alone and unused goes back to the root. -/
def popUnused (stack : FocusStack) (index : Index) (desk : FocusDesk) : FocusStack × FocusDesk :=
  let frames := dropUnused desk stack.frames
  match frames with
  | [bottom] => (⟨frames⟩, if desk.isUnused bottom then desk.setPath bottom (.root index) else desk)
  | _ => (⟨frames⟩, desk)

/-- Drop the topmost frame, but not the bottom frame. -/
def pop (stack : FocusStack) : Except SessionError FocusStack :=
  match stack.frames with
  | _ :: below :: rest => .ok ⟨below :: rest⟩
  | _ => .error (.emptyPath .popping)

/-- Drop all frames and start again with one at the root. -/
def clear (_ : FocusStack) (index : Index) (desk : FocusDesk) : FocusStack × FocusDesk :=
  atRoot index desk

/-- A new handle on the topmost frame, after unused ones are dropped. -/
def attachTop (stack : FocusStack) (index : Index) (desk : FocusDesk) :
    HandleId × FocusStack × FocusDesk :=
  let (stack, desk) := stack.popUnused index desk
  match stack.frames with
  | top :: _ =>
    let (handle, desk) := desk.attach top
    (handle, stack, desk)
  | [] =>
    let (stack, desk) := atRoot index desk
    let (handle, desk) := desk.attach (desk.nextFrame - 1)
    (handle, stack, desk)

/-- A new handle on a new frame that leads on from the topmost one to `scope`; unused frames are dropped
first, also if the path then can not be led there. -/
def push (stack : FocusStack) (index : Index) (desk : FocusDesk) (scope : Scope) :
    Except SessionError HandleId × FocusStack × FocusDesk :=
  let (stack, desk) := stack.popUnused index desk
  let top := stack.topPath desk
  let start := if top.isEmpty then .root index else top
  match start.navigate index scope with
  | .error error => (.error error, stack, desk)
  | .ok path =>
    let (frame, desk) := desk.openFrame path
    let (handle, desk) := desk.attach frame
    (.ok handle, ⟨frame :: stack.frames⟩, desk)

/-- The frame right below a frame. -/
def below? (frame : FrameId) : List FrameId → Option FrameId
  | top :: below :: rest => if top = frame then some below else below? frame (below :: rest)
  | _ => none

/-- Move a handle to the frame below its own, and drop the frames that are unused then. -/
def popHandle (stack : FocusStack) (index : Index) (desk : FocusDesk) (handle : HandleId) :
    Except SessionError (FocusStack × FocusDesk) :=
  match (desk.frameOf? handle).bind fun frame => below? frame stack.frames with
  | some below => .ok (stack.popUnused index (desk.reattach handle below))
  | none => .error (.emptyPath .popping)

end FocusStack

end MediaSession
