import MediaSession.Proofs.Navigation.Run

/-!
Stale routes. Navigation drops what is no longer registered from a path it leads elsewhere, but leaves a
path that ends at the target as it is, even if a binding on the route is gone.
-/
namespace MediaSession

/-- All scopes on a path are registered. -/
def ScopePath.Registered (index : Index) (path : ScopePath) : Prop :=
  ∀ id ∈ path.anchors, index.contains id = true

instance (index : Index) (path : ScopePath) : Decidable (path.Registered index) :=
  inferInstanceAs (Decidable (∀ id ∈ path.anchors, index.contains id = true))

theorem ScopePath.leaf_ok_iff {path : ScopePath} {id : PlacementId} :
    path.leaf = .ok (.anchored id) ↔ path.anchors.getLast? = some id := by
  unfold leaf
  split
  · rename_i last ends
    simp [ends, Scope.anchored]
  · rename_i none
    simp [none]

/-- A led path is registered throughout exactly if it was so before or ended elsewhere. -/
theorem ScopePath.registered_of_navigate_iff {index : Index} {path after : ScopePath} {target : Scope}
    (success : path.navigate index target = .ok after) :
    after.Registered index ↔ path.leaf ≠ .ok target ∨ path.Registered index := by
  obtain ⟨id, same, _, _, ⟨ends, unmoved⟩ | ⟨elsewhere, _⟩⟩ := navigate_ok success
  · subst same unmoved
    simp [leaf_ok_iff, ends]
  · subst same
    have moved : after.Registered index := fun _ member => navigate_registered success elsewhere member
    simp [leaf_ok_iff, elsewhere, moved]

/-- What a successful navigation leads to, by whichever operation, is registered throughout unless the path
it starts from ends at the target and is stale. -/
theorem led_path_registered_iff (session : Session) (desk : FocusDesk) (target : Scope) :
    (∀ path after : ScopePath, path.navigate session.index target = .ok after →
      (after.Registered session.index ↔ path.leaf ≠ .ok target ∨ path.Registered session.index)) ∧
    (∀ handle after, desk.shift session.index handle target = .ok after →
      ((after.pathOf handle).Registered session.index ↔
        (desk.pathOf handle).leaf ≠ .ok target ∨ (desk.pathOf handle).Registered session.index)) ∧
    (∀ handle route, desk.locate session.index handle target = .ok route →
      ((∀ id ∈ route, session.index.contains id = true) ↔
        (desk.pathOf handle).leaf ≠ .ok target ∨ (desk.pathOf handle).Registered session.index)) ∧
    ∀ handle after next, session.pushFocus desk target = (.ok handle, after, next) →
      ((next.pathOf handle).Registered session.index ↔
        (session.stack.pushStart session.index desk).leaf ≠ .ok target ∨
          (session.stack.pushStart session.index desk).Registered session.index) := by
  refine ⟨fun path after => ScopePath.registered_of_navigate_iff, ?_, ?_, ?_⟩
  · intro handle after success
    obtain ⟨path, led, same⟩ := bind_ok_iff.mp success
    cases same
    rw [← ScopePath.registered_of_navigate_iff led]
    cases live : desk.frameOf? handle with
    | some frame => rw [FocusDesk.pathOf_setPathOf live]
    | none =>
      obtain ⟨_, _, _, nonempty, _⟩ := ScopePath.navigate_ok led
      rw [FocusDesk.pathOf, live] at nonempty
      exact absurd rfl nonempty
  · intro handle route success
    obtain ⟨path, led, same⟩ := bind_ok_iff.mp success
    cases same
    rw [← ScopePath.registered_of_navigate_iff led]
    simp [ScopePath.upward, ScopePath.Registered]
  · intro handle after next success
    obtain ⟨path, led, same⟩ := FocusStack.push_ok (congrArg Prod.fst success)
    have desks : (session.stack.push session.index desk target).2.2 = next :=
      congrArg (fun result => result.2.2) success
    rw [← ScopePath.registered_of_navigate_iff led, ← same, desks]

/-- A way back through the bound sequence drops the binding that is gone. -/
theorem led_path_registered_trial :
    let tour := Tour.run { maxPathDepth := 8 } Trial.root Trial.calls
    let target := Scope.anchored Trial.sequence.id
    (∃ after, (tour.paths.getD 0 .invalid).navigate tour.index target = .ok after ∧
      after.Registered tour.index) ∧
    (∃ after, tour.live.desk.shift tour.index 0 target = .ok after ∧
      (after.pathOf 0).Registered tour.index) ∧
    (∃ route, tour.live.desk.locate tour.index 0 target = .ok route ∧
      ∀ id ∈ route, tour.index.contains id = true) ∧
    ∃ handle after next, tour.live.session.pushFocus tour.live.desk target = (.ok handle, after, next) ∧
      (next.pathOf handle).Registered tour.index := by
  intro tour target
  obtain ⟨navigate, shift, locate, push⟩ := led_path_registered_iff tour.live.session tour.live.desk target
  have led {α : Type} (result : Except SessionError α) (fine : result.isOk = true) :
      ∃ value, result = .ok value := by
    cases result with
    | ok value => exact ⟨value, rfl⟩
    | error => cases fine
  have focused : (tour.live.desk.pathOf 0).leaf ≠ .ok target := by decide +kernel
  obtain ⟨path, navigated⟩ := led ((tour.paths.getD 0 .invalid).navigate tour.index target) (by decide +kernel)
  obtain ⟨desk, shifted⟩ := led (tour.live.desk.shift tour.index 0 target) (by decide +kernel)
  obtain ⟨route, located⟩ := led (tour.live.desk.locate tour.index 0 target) (by decide +kernel)
  obtain ⟨handle, opened⟩ := led (tour.live.session.pushFocus tour.live.desk target).1 (by decide +kernel)
  have pushed : tour.live.session.pushFocus tour.live.desk target = (.ok handle, _) := Prod.ext opened rfl
  refine ⟨⟨path, navigated, ?_⟩, ⟨desk, shifted, ?_⟩, ⟨route, located, ?_⟩, handle, _, _, pushed, ?_⟩
  · exact (navigate _ _ navigated).mpr (.inl (by decide +kernel))
  · exact (shift _ _ shifted).mpr (.inl focused)
  · exact (locate _ _ located).mpr (.inl focused)
  · exact (push _ _ _ pushed).mpr (.inl (by decide +kernel))

/-- A run after which a path, led to the scope it ends at, still goes through a binding that is gone. -/
theorem stale_route_survives :
    let tour := Tour.run { maxPathDepth := 8 } Trial.root Trial.calls
    Tour.FreshIds Trial.root.id Trial.calls ∧
    ∃ path ∈ tour.paths, path.navigate tour.index (.anchored Trial.scene.id) = .ok path ∧
      Trial.bond.id ∈ path.anchors ∧ tour.index.contains Trial.bond.id = false := by
  refine ⟨by decide, ?_⟩
  decide +kernel

end MediaSession
