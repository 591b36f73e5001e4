import MediaSession.Proofs.Focus.Run

/-!
Runs of calls on a session and on scope paths that its users keep. The paths outlive the scopes they name,
and every one of them keeps its shape.
-/
namespace MediaSession

/-- A session in use, and the paths at hand. -/
structure Tour where
  live : LiveSession
  paths : List ScopePath := []

/-- One call on the session, or on a path; paths are named by their number. -/
inductive TourCall where
  | session (call : SessionCall)
  | invalid
  | root
  | toLeaf (leaf : Scope)
  | ofFocus (handle : HandleId)
  | copy (number : Nat)
  | commonStart (first second : Nat)
  | navigate (number : Nat) (target : Scope)
  | clear (number : Nat)
  | moveUp (number : Nat)
  | goRoot (number : Nat)

/-- Identities of the placements handed over for insertion. -/
def TourCall.offered : TourCall → List PlacementId
  | session call => call.offered
  | _ => []

namespace Tour

def index (tour : Tour) : Index := tour.live.index

def start (config : SessionConfig) (root : Placement) : Tour := ⟨.start config root, []⟩

/-- Keep one more path. -/
def keep (tour : Tour) (path : ScopePath) : Tour := { tour with paths := tour.paths ++ [path] }

/-- Change a path; on failure it stays. -/
def change (tour : Tour) (number : Nat) (next : ScopePath → Except SessionError ScopePath) : Tour :=
  match tour.paths[number]? with
  | none => tour
  | some path =>
    match next path with
    | .ok path => { tour with paths := tour.paths.set number path }
    | .error _ => tour

/-- The tour after a call, whether or not the call succeeds. -/
def step (tour : Tour) : TourCall → Tour
  | .session call => { tour with live := tour.live.step call }
  | .invalid => tour.keep .invalid
  | .root => tour.keep (.root tour.index)
  | .toLeaf leaf =>
    match ScopePath.toLeaf tour.index leaf with
    | .ok path => tour.keep path
    | .error _ => tour
  | .ofFocus handle => tour.keep (tour.live.desk.pathOf handle)
  | .copy number => tour.keep (tour.paths.getD number .invalid)
  | .commonStart first second =>
    tour.keep (.commonStart (tour.paths.getD first .invalid) (tour.paths.getD second .invalid))
  | .navigate number target => tour.change number (·.navigate tour.index target)
  | .clear number => tour.change number fun path => .ok (path.clear tour.index)
  | .moveUp number => tour.change number fun path => do
    let (_, path) ← path.moveUp
    return path
  | .goRoot number => tour.change number fun path => do
    let (_, path) ← path.goRoot
    return path

/-- The outcome of some calls on a new session. -/
def run (config : SessionConfig) (root : Placement) (calls : List TourCall) : Tour :=
  calls.foldl step (start config root)

/-- The paths at hand and those the focus looks at have a property, and the focus looks at no empty path. -/
structure Holds (good : ScopePath → Prop) (tour : Tour) : Prop where
  focus : tour.live.desk.Holds (fun path => good path ∧ path.anchors ≠ []) tour.live.stack
  paths : ∀ {path}, path ∈ tour.paths → good path

namespace Holds
variable {good other : ScopePath → Prop} {tour : Tour}

theorem mono (holds : tour.Holds good) (weaken : ∀ {path}, good path → other path) : tour.Holds other :=
  ⟨holds.focus.mono fun shown => ⟨weaken shown.1, shown.2⟩, fun member => weaken (holds.paths member)⟩

theorem keep (holds : tour.Holds good) {path : ScopePath} (new : good path) : (tour.keep path).Holds good := by
  refine ⟨holds.focus, ?_⟩
  intro other member
  rcases List.mem_append.mp member with old | last
  · exact holds.paths old
  · rw [List.mem_singleton.mp last]
    exact new

theorem getD (holds : tour.Holds good) (law : PathLaw tour.index good) (number : Nat) :
    good (tour.paths.getD number .invalid) := by
  rw [List.getD_eq_getElem?_getD]
  cases found : tour.paths[number]? with
  | none => exact law.invalid
  | some path => exact holds.paths (List.mem_of_getElem? found)

theorem change (holds : tour.Holds good) (number : Nat) {next : ScopePath → Except SessionError ScopePath}
    (keeps : ∀ {path moved}, good path → next path = .ok moved → good moved) :
    (tour.change number next).Holds good := by
  unfold Tour.change
  split
  · exact holds
  · rename_i path found
    split
    · rename_i moved led
      refine ⟨holds.focus, ?_⟩
      intro other member
      rcases List.mem_or_eq_of_mem_set member with old | new
      · exact holds.paths old
      · rw [new]
        exact keeps (holds.paths (List.mem_of_getElem? found)) led
    · exact holds

theorem pathOf (holds : tour.Holds good) (law : PathLaw tour.index good) (handle : HandleId) :
    good (tour.live.desk.pathOf handle) := by
  cases attached : tour.live.desk.frameOf? handle with
  | some frame =>
    rw [FocusDesk.pathOf_of_frameOf? attached]
    exact (holds.focus.attached attached).1
  | none =>
    rw [FocusDesk.pathOf, attached]
    exact law.invalid

/-- Whatever a call does, and whether or not it succeeds, the paths after it obey the law. -/
theorem step (holds : tour.Holds good) (valid : tour.index.table.Consistent) (law : PathLaw tour.index good)
    (call : TourCall) : (tour.step call).Holds good := by
  cases call with
  | session call => exact ⟨LiveSession.step_holds valid law holds.focus call, holds.paths⟩
  | invalid => exact holds.keep law.invalid
  | root => exact holds.keep law.root
  | toLeaf leaf =>
    unfold Tour.step
    dsimp only
    split
    · rename_i path led
      exact holds.keep (law.toLeaf led)
    · exact holds
  | ofFocus handle => exact holds.keep (holds.pathOf law handle)
  | copy number => exact holds.keep (holds.getD law number)
  | commonStart first second => exact holds.keep (law.commonStart (holds.getD law first) _)
  | navigate number target => exact holds.change number law.navigate
  | clear number =>
    have cleared : (tour.change number fun path => .ok (path.clear tour.index)).Holds good := by
      refine holds.change number fun _ led => ?_
      cases led
      exact law.root
    exact cleared
  | moveUp number =>
    refine holds.change number fun shown led => ?_
    obtain ⟨⟨scope, path⟩, moved, same⟩ := bind_ok_iff.mp led
    cases same
    exact law.moveUp shown moved
  | goRoot number =>
    refine holds.change number fun shown led => ?_
    obtain ⟨⟨scope, path⟩, moved, same⟩ := bind_ok_iff.mp led
    cases same
    exact law.goRoot shown moved

end Holds

/-- A change of paths leaves the index alone. -/
theorem index_change (tour : Tour) (number : Nat) (next : ScopePath → Except SessionError ScopePath) :
    (tour.change number next).index = tour.index := by
  unfold change
  split
  · rfl
  · split <;> rfl

/-- A call leaves the index alone, or changes it as one mutation does. -/
theorem index_step (tour : Tour) (call : TourCall) :
    (tour.step call).index = tour.index ∨
      ∃ (mutation : Mutation) (event : Option Event), mutation.offered = call.offered ∧
        mutation.apply tour.index = .ok ((tour.step call).index, event) := by
  cases call with
  | session call => exact tour.live.index_step call
  | invalid | root | ofFocus | copy | commonStart => exact .inl rfl
  | toLeaf leaf =>
    left
    unfold step
    dsimp only
    split <;> rfl
  | navigate number | clear number | moveUp number | goRoot number => exact .inl (tour.index_change number _)

/-- All paths are tracked, those at hand and those the focus looks at. -/
structure Sound (used : List PlacementId) (tour : Tour) : Prop where
  live_sound : tour.live.Sound used
  tracked : ∀ {path}, path ∈ tour.paths → path.Tracked used tour.index

namespace Sound
variable {used : List PlacementId} {tour : Tour}

theorem holds (sound : tour.Sound used) : tour.Holds (ScopePath.Tracked used tour.index) :=
  ⟨sound.live_sound.focus, sound.tracked⟩

theorem mono {more : List PlacementId} (sound : tour.Sound used) : tour.Sound (used ++ more) :=
  ⟨sound.live_sound.mono, fun member => (sound.tracked member).mono⟩

theorem step (sound : tour.Sound used) (call : TourCall) (fresh : (used ++ call.offered).Nodup) :
    (tour.step call).Sound (used ++ call.offered) := by
  have valid : tour.index.Sound used := sound.live_sound.index_sound
  have holds := sound.holds.step valid.consistent (ScopePath.tracked_law valid) call
  rcases tour.index_step call with same | ⟨mutation, event, offers, success⟩
  · rw [← same] at valid holds
    exact mono ⟨⟨valid, holds.focus⟩, holds.paths⟩
  · rw [← offers] at fresh ⊢
    have later := holds.mono fun tracked => tracked.apply valid fresh success
    exact ⟨⟨valid.apply fresh success, later.focus⟩, later.paths⟩

end Sound

theorem start_sound (config : SessionConfig) (root : Placement) : (start config root).Sound [root.id] :=
  ⟨LiveSession.start_sound config root, fun member => absurd member List.not_mem_nil⟩

/-- No identity is used twice by the placements handed over, nor is that of the root. -/
def FreshIds (root : PlacementId) (calls : List TourCall) : Prop :=
  (root :: calls.flatMap TourCall.offered).Nodup

instance (root : PlacementId) (calls : List TourCall) : Decidable (FreshIds root calls) :=
  inferInstanceAs (Decidable (List.Nodup _))

/-- Neither the root nor the depth limit ever changes. -/
theorem fixed_step {used : List PlacementId} {tour : Tour} (sound : tour.Sound used) (call : TourCall) :
    (tour.step call).index.rootId = tour.index.rootId ∧
      (tour.step call).index.maxPathDepth = tour.index.maxPathDepth := by
  rcases tour.index_step call with same | ⟨mutation, event, _, success⟩
  · rw [same]
    exact ⟨rfl, rfl⟩
  · obtain ⟨sameDepth, effect⟩ := Mutation.apply_effect sound.live_sound.index_sound.consistent success
    exact ⟨effect.root_eq, sameDepth⟩

/-- After every run all paths are tracked, and root and depth limit are those of the start. -/
theorem run_sound (config : SessionConfig) (root : Placement) (calls : List TourCall)
    (fresh : FreshIds root.id calls) :
    (run config root calls).Sound (root.id :: calls.flatMap TourCall.offered) ∧
      (run config root calls).index.rootId = root.id ∧
      (run config root calls).index.maxPathDepth = config.maxPathDepth := by
  refine foldl_fresh_induction step TourCall.offered (fun used tour => tour.Sound used ∧
    tour.index.rootId = root.id ∧ tour.index.maxPathDepth = config.maxPathDepth) ?_
    [root.id] _ ⟨start_sound config root, rfl, rfl⟩ calls fresh
  rintro used tour call ⟨sound, rooted, limited⟩ fresh
  obtain ⟨sameRoot, sameLimit⟩ := fixed_step sound call
  exact ⟨sound.step call fresh, sameRoot.trans rooted, sameLimit.trans limited⟩

end Tour

/-- Whatever happens to the index, every path keeps its shape, and the focus looks at no empty path. -/
theorem run_keeps_paths (config : SessionConfig) (root : Placement) (calls : List TourCall)
    (fresh : Tour.FreshIds root.id calls) :
    let tour := Tour.run config root calls
    tour.index.rootId = root.id ∧ tour.index.maxPathDepth = config.maxPathDepth ∧
      (∀ path ∈ tour.paths, path.Sound tour.index) ∧
      (∀ frame ∈ tour.live.stack.frames,
        (tour.live.desk.path frame).Sound tour.index ∧ (tour.live.desk.path frame).anchors ≠ []) ∧
      ∀ handle frame, tour.live.desk.frameOf? handle = some frame →
        (tour.live.desk.pathOf handle).Sound tour.index ∧ (tour.live.desk.pathOf handle).anchors ≠ [] := by
  intro tour
  obtain ⟨sound, rooted, limited⟩ := Tour.run_sound config root calls fresh
  refine ⟨rooted, limited, fun path member => (sound.tracked member).toSound, ?_, ?_⟩
  · intro frame member
    obtain ⟨tracked, nonempty⟩ := sound.live_sound.focus.framed member
    exact ⟨tracked.toSound, nonempty⟩
  · intro handle frame attached
    obtain ⟨tracked, nonempty⟩ := sound.live_sound.pathOf attached
    exact ⟨tracked.toSound, nonempty⟩

namespace Trial

def timeline : Placement := placement 5 (.fork "timeline")
def sequence : Placement := placement 6 (.fork "sequence")
def bond : Placement := placement 7 (.binding sequence.id)
def scene : Placement := placement 8 (.fork "scene")

/-- A path and the focus are led through a binding to a scene of the bound sequence, and the binding is
removed under them. -/
def calls : List TourCall :=
  [.session (.mutate (.insert timeline root.id)), .session (.mutate (.insert sequence root.id)),
    .session (.mutate (.insert bond timeline.id)), .session (.mutate (.insert scene sequence.id)),
    .root, .navigate 0 (.anchored bond.id), .navigate 0 (.anchored scene.id), .session .query,
    .session (.shift 0 (.anchored bond.id)), .session (.shift 0 (.anchored scene.id)),
    .session (.mutate (.remove bond.id)), .copy 0, .moveUp 1]

end Trial

theorem run_keeps_paths_trial :
    let tour := Tour.run { maxPathDepth := 8 } Trial.root Trial.calls
    Tour.FreshIds Trial.root.id Trial.calls ∧
    tour.paths = [⟨[Trial.root.id, Trial.timeline.id, Trial.bond.id, Trial.sequence.id, Trial.scene.id]⟩,
      ⟨[Trial.root.id, Trial.timeline.id, Trial.bond.id, Trial.sequence.id]⟩] ∧
    ∀ path ∈ tour.paths, path.Sound tour.index := by
  intro tour
  have fresh : Tour.FreshIds Trial.root.id Trial.calls := by decide
  obtain ⟨_, _, sound, _⟩ := run_keeps_paths { maxPathDepth := 8 } Trial.root Trial.calls fresh
  exact ⟨fresh, by decide +kernel, sound⟩

end MediaSession
