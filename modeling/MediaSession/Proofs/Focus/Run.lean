import MediaSession.Proofs.Focus.Desk
import MediaSession.Proofs.Navigation.Path

/-!
Runs of calls on one session: changes of its index, and everything that moves its focus. Calls that only
look are left out.
-/
namespace MediaSession

/-- A session in use, with the desk its frames and handles lie on. -/
structure LiveSession where
  session : Session
  desk : FocusDesk

/-- One call on a session or on a focus handle. -/
inductive SessionCall where
  | mutate (mutation : Mutation)
  | clear
  | query
  | push (scope : Scope)
  | prune
  | clone (handle : HandleId)
  | drop (handle : HandleId)
  | shift (handle : HandleId) (target : Scope)
  | ascend (handle : HandleId)
  | reset (handle : HandleId)
  | pop (handle : HandleId)

/-- Identities of the placements handed over for insertion. -/
def SessionCall.offered : SessionCall → List PlacementId
  | mutate mutation => mutation.offered
  | _ => []

namespace LiveSession

def index (live : LiveSession) : Index := live.session.index

def stack (live : LiveSession) : FocusStack := live.session.stack

/-- A session with nothing but its root, and the focus on it. -/
def start (config : SessionConfig) (root : Placement) : LiveSession :=
  let (session, desk) := Session.start config root {}
  ⟨session, desk⟩

/-- The session after a call, whether or not the call succeeds. -/
def step (live : LiveSession) : SessionCall → LiveSession
  | .mutate mutation =>
    match mutation.apply live.index with
    | .ok (index, _) => { live with session := { live.session with index } }
    | .error _ => live
  | .clear =>
    let (session, desk, _) := live.session.clear live.desk
    ⟨session, desk⟩
  | .query =>
    let (_, session, desk) := live.session.queryFocus live.desk
    ⟨session, desk⟩
  | .push scope =>
    let (_, session, desk) := live.session.pushFocus live.desk scope
    ⟨session, desk⟩
  | .prune =>
    let (session, desk) := live.session.pruneFocus live.desk
    ⟨session, desk⟩
  | .clone handle =>
    match live.desk.clone handle with
    | some (_, desk) => { live with desk }
    | none => live
  | .drop handle => { live with desk := live.desk.drop handle }
  | .shift handle target =>
    match live.desk.shift live.index handle target with
    | .ok desk => { live with desk }
    | .error _ => live
  | .ascend handle =>
    match live.desk.ascend live.index handle with
    | .ok (_, desk) => { live with desk }
    | .error _ => live
  | .reset handle => { live with desk := live.desk.reset live.index handle }
  | .pop handle =>
    match live.session.popFocus live.desk handle with
    | .ok (session, desk) => ⟨session, desk⟩
    | .error _ => live

/-- A path the focus may look at. -/
def Focused (used : List PlacementId) (index : Index) (path : ScopePath) : Prop :=
  path.Tracked used index ∧ path.anchors ≠ []

/-- The index describes a tree, and the focus looks at tracked paths that are not empty. -/
structure Sound (used : List PlacementId) (live : LiveSession) : Prop where
  index_sound : live.index.Sound used
  focus : live.desk.Holds (Focused used live.index) live.stack

section Law
variable {index : Index} {good : ScopePath → Prop} {path moved : ScopePath}

/-- The focus is never left with an empty path. -/
theorem nonempty_of_moveUp (inner : path.isRoot ≠ true) {scope : Scope}
    (success : path.moveUp = .ok (scope, moved)) : moved.anchors ≠ [] := by
  obtain ⟨nonempty, rest⟩ := ScopePath.moveUp_ok success
  have positive := List.length_pos_of_ne_nil nonempty
  have longer : path.anchors.length ≠ 1 := by simpa [ScopePath.isRoot] using inner
  rw [rest, ← List.length_pos_iff_ne_nil, List.length_dropLast]
  omega

theorem nonempty_of_navigate (valid : index.table.Consistent) {target : Scope}
    (success : path.navigate index target = .ok moved) : moved.anchors ≠ [] := by
  obtain ⟨_, rfl, _⟩ := ScopePath.navigate_ok success
  intro empty
  have ends := ScopePath.navigate_leaf valid success
  rw [empty] at ends
  cases ends

/-- Whatever a call does, and whether or not it succeeds, the focus looks at paths that obey the law, none of them
empty. -/
theorem step_holds {live : LiveSession} (valid : live.index.table.Consistent) (law : PathLaw live.index good)
    (holds : live.desk.Holds (fun path => good path ∧ path.anchors ≠ []) live.stack) (call : SessionCall) :
    (live.step call).desk.Holds (fun path => good path ∧ path.anchors ≠ []) (live.step call).stack := by
  have root : good (.root live.index) ∧ (ScopePath.root live.index).anchors ≠ [] :=
    ⟨law.root, List.cons_ne_nil _ _⟩
  cases call with
  | mutate mutation =>
    unfold step
    dsimp only
    split <;> exact holds
  | clear =>
    obtain ⟨_, _, _, sameRoot, swept⟩ := Table.removeBelow_swept live.index.table live.index.rootId
    have same : ScopePath.root live.index.clear.1 = .root live.index :=
      congrArg (fun id => ScopePath.mk [id]) (swept.root_eq.trans sameRoot)
    exact FocusStack.atRoot_holds holds (same ▸ root)
  | query => exact FocusStack.attachTop_holds holds root
  | push scope =>
    exact FocusStack.push_holds holds root scope fun shown led =>
      ⟨law.navigate shown.1 led, nonempty_of_navigate valid led⟩
  | prune => exact FocusStack.popUnused_holds holds root
  | clone handle =>
    unfold step
    dsimp only
    split
    · rename_i cloned
      exact holds.clone cloned
    · exact holds
  | drop handle => exact holds.drop handle
  | shift handle target =>
    unfold step
    dsimp only
    split
    · rename_i desk success
      obtain ⟨path, led, same⟩ := bind_ok_iff.mp success
      cases same
      exact holds.movePathOf handle fun shown => ⟨law.navigate shown.1 led, nonempty_of_navigate valid led⟩
    · exact holds
  | ascend handle =>
    unfold step
    dsimp only
    split
    · rename_i scope desk success
      simp only [FocusDesk.ascend] at success
      split at success
      · cases success
      · rename_i inner
        obtain ⟨⟨upper, path⟩, moved, same⟩ := bind_ok_iff.mp success
        cases same
        exact holds.movePathOf handle fun shown => ⟨law.moveUp shown.1 moved, nonempty_of_moveUp inner moved⟩
    · exact holds
  | reset handle => exact holds.setPathOf handle root
  | pop handle =>
    unfold step
    dsimp only
    split
    · rename_i session desk success
      obtain ⟨⟨stack, next⟩, popped, same⟩ := bind_ok_iff.mp success
      cases same
      exact FocusStack.popHandle_holds holds root popped
    · exact holds

end Law

namespace Sound
variable {used : List PlacementId} {live : LiveSession}

theorem pathOf (sound : live.Sound used) {handle : HandleId} {frame : FrameId}
    (attached : live.desk.frameOf? handle = some frame) :
    Focused used live.index (live.desk.pathOf handle) := by
  rw [FocusDesk.pathOf_of_frameOf? attached]
  exact sound.focus.attached attached

theorem mono {more : List PlacementId} (sound : live.Sound used) : live.Sound (used ++ more) :=
  ⟨sound.index_sound.mono, sound.focus.mono fun focused => ⟨focused.1.mono, focused.2⟩⟩

end Sound

/-- A call leaves the index alone, or changes it as one mutation does. -/
theorem index_step (live : LiveSession) (call : SessionCall) :
    (live.step call).index = live.index ∨
      ∃ (mutation : Mutation) (event : Option Event), mutation.offered = call.offered ∧
        mutation.apply live.index = .ok ((live.step call).index, event) := by
  cases call with
  | mutate mutation =>
    unfold step
    dsimp only
    split
    · rename_i after event success
      exact .inr ⟨mutation, event, rfl, success⟩
    · exact .inl rfl
  | clear => exact .inr ⟨.clear, _, rfl, rfl⟩
  | query | push | prune | drop | reset => exact .inl rfl
  | clone handle | shift handle target | ascend handle =>
    left
    unfold step
    dsimp only
    split <;> rfl
  | pop handle =>
    left
    unfold step
    dsimp only
    split
    · rename_i success
      obtain ⟨_, _, same⟩ := bind_ok_iff.mp success
      cases same
      rfl
    · rfl

/-- At first the focus looks at the root. -/
theorem start_holds {good : ScopePath → Prop} (config : SessionConfig) (root : Placement)
    (rooted : good (.root (start config root).index)) :
    (start config root).desk.Holds (fun path => good path ∧ path.anchors ≠ []) (start config root).stack := by
  have nothing : FocusDesk.Holds (fun path => good path ∧ path.anchors ≠ []) ⟨[]⟩ {} :=
    ⟨fun member => absurd member List.not_mem_nil, fun live => absurd live (by simp [FocusDesk.frameOf?])⟩
  exact FocusStack.atRoot_holds nothing ⟨rooted, List.cons_ne_nil _ _⟩

theorem start_sound (config : SessionConfig) (root : Placement) : (start config root).Sound [root.id] := by
  have sound : (start config root).index.Sound [root.id] := Index.ofRoot_sound root config.maxPathDepth
  exact ⟨sound, start_holds config root (ScopePath.root_tracked sound)⟩

end LiveSession

end MediaSession
