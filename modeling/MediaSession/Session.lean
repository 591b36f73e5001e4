import MediaSession.Config
import MediaSession.Focus

/-!
Editing sessions: an index around a root object, and a stack of focus frames. The frames themselves lie
on a desk that sessions share.
-/
namespace MediaSession

structure Session where
  config : SessionConfig
  index : Index
  stack : FocusStack

namespace Session

/-- A session with an empty model around `root`. -/
def start (config : SessionConfig) (root : Placement) (desk : FocusDesk) : Session × FocusDesk :=
  let index := Index.ofRoot root config.maxPathDepth
  let (stack, desk) := FocusStack.atRoot index desk
  ({ config, index, stack }, desk)

def rootScope (session : Session) : Scope := .root session.index

def focusDepth (session : Session) : Nat := session.stack.depth

/-- A handle on the present focus. -/
def queryFocus (session : Session) (desk : FocusDesk) : HandleId × Session × FocusDesk :=
  let (handle, stack, desk) := session.stack.attachTop session.index desk
  (handle, { session with stack }, desk)

/-- A handle on a new focus frame that leads to `scope`. -/
def pushFocus (session : Session) (desk : FocusDesk) (scope : Scope) :
    Except SessionError HandleId × Session × FocusDesk :=
  let (result, stack, desk) := session.stack.push session.index desk scope
  (result, { session with stack }, desk)

/-- Return a handle to the frame below its own. -/
def popFocus (session : Session) (desk : FocusDesk) (handle : HandleId) :
    Except SessionError (Session × FocusDesk) := do
  let (stack, desk) ← session.stack.popHandle session.index desk handle
  return ({ session with stack }, desk)

/-- Drop the focus frames no handle is attached to. -/
def pruneFocus (session : Session) (desk : FocusDesk) : Session × FocusDesk :=
  let (stack, desk) := session.stack.popUnused session.index desk
  ({ session with stack }, desk)

/-- Remove everything but the root and start the focus again; also what was removed. -/
def clear (session : Session) (desk : FocusDesk) : Session × FocusDesk × List Placement :=
  let (index, removed) := session.index.clear
  let (stack, desk) := session.stack.clear index desk
  ({ session with index, stack }, desk, removed)

end Session

end MediaSession
