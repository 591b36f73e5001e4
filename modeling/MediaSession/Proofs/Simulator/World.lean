import Mathlib.Order.Interval.Set.Defs
import Mathlib.Data.Set.Function
import MediaSession.Proofs.Focus.Manned
import MediaSession.Proofs.Navigation.Rest
import MediaSession.Proofs.Simulator.Subtree
import MediaSession.Proofs.Workspace.Accounts

/-!
Worlds that a simulation reaches. The prediction and what comes of an operation agree there, unless the focus is to
be led to a placement that lies beyond the depth limit.
-/
namespace MediaSession

namespace Simulator
variable {supply : Nat → PlacementId} {config : SessionConfig} {world next : World} {operation : Operation}
  {effect : Effect} {after : Index} {event : Option Event}

/-- Identities are those supplied so far, the root passes its own check, and every handle is on a frame of its own, with
a path that rests within the depth limit. -/
structure World.Sound (supply : Nat → PlacementId) (config : SessionConfig) (world : World) : Prop where
  indexed : world.index.Sound world.known.toList
  limit : world.index.maxPathDepth = config.maxPathDepth
  distinct : world.known.toList.Nodup
  numbered : ∀ id ∈ world.known.toList, ∃ number < world.ledger.next, id = supply number
  counted : world.known.size ≤ world.ledger.next
  rooted : ∀ {entry}, world.index.table.entry? world.index.rootId = some entry → entry.placement.isValid = true
  rests : world.desk.Holds (ScopePath.Rests world.known.toList world.index) world.session.stack
  manned : world.session.stack.Manned world.desk (world.pushed ++ [world.focus])

/-- The focus is to be led to a placement beyond a depth limit. -/
def World.LeadsBeyond (world : World) (limit : Nat) : Operation → Prop
  | .navigate target | .pushFocus target => world.index.table.LiesBeyond limit (world.pick target)
  | _ => False

/-- An operation was carried out as predicted, except that the focus is not led beyond the limit. -/
structure Carried (supply : Nat → PlacementId) (config : SessionConfig) (world : World) (operation : Operation)
    (effect : Effect) (next : World) : Prop where
  sound : next.Sound supply config
  next_le : next.ledger.next ≤ world.ledger.next + 1
  faultless : effect.complaint = none
  within : ¬ world.LeadsBeyond config.maxPathDepth operation → effect.outcome = predict world operation
  beyond : world.LeadsBeyond config.maxPathDepth operation → effect.outcome = .failure .navigation

theorem World.next_releaseAll (world : World) (removed : List Placement) :
    (world.releaseAll removed).ledger.next = world.ledger.next := Ledger.next_releaseAll ..

namespace World.Sound

/-- Other references, and at least as many objects. -/
theorem holding (sound : world.Sound supply config) (refs : Array ObjectRef) {ledger : Ledger}
    (later : world.ledger.next ≤ ledger.next) : Sound supply config { world with refs, ledger } :=
  { sound with
    numbered := fun id known =>
      have ⟨number, less, same⟩ := sound.numbered id known
      ⟨number, Nat.lt_of_lt_of_le less later, same⟩
    counted := Nat.le_trans sound.counted later }

/-- Another focus on the same index. -/
theorem refocus (sound : world.Sound supply config) {stack : FocusStack} {desk : FocusDesk} {pushed : List HandleId}
    (rests : desk.Holds (ScopePath.Rests world.known.toList world.index) stack)
    (manned : stack.Manned desk (pushed ++ [world.focus])) :
    Sound supply config { world with session := { world.session with stack }, desk, pushed } :=
  { sound with rests, manned }

/-- Another index, after one call on it. -/
theorem mutated (sound : world.Sound supply config) {mutation : Mutation}
    (success : mutation.apply world.index = .ok (after, event)) {known : Array PlacementId} {ledger : Ledger}
    (listed : known.toList = world.known.toList ++ mutation.offered) (distinct : known.toList.Nodup)
    (numbered : ∀ id ∈ known.toList, ∃ number < ledger.next, id = supply number)
    (counted : known.size ≤ ledger.next) : Sound supply config { world.withIndex after with known, ledger } := by
  obtain ⟨sameLimit, effect⟩ := Mutation.apply_effect sound.indexed.consistent success
  have unrepeated : (world.known.toList ++ mutation.offered).Nodup := listed ▸ distinct
  have fresh {placement : Placement} {scope : PlacementId} (same : event = some (.inserted placement scope)) :
      placement.id ∉ world.known.toList := Mutation.inserted_unused unrepeated (same ▸ success)
  refine ⟨listed ▸ sound.indexed.apply unrepeated success, sameLimit.trans sound.limit, distinct, numbered, counted,
    fun {entry} found => ?_, sound.rests.mono fun rests => listed ▸ rests.effect sound.indexed sameLimit effect fresh,
    sound.manned⟩
  have rooted : after.rootId = world.index.rootId := effect.root_eq
  have known := sound.indexed.known sound.indexed.consistent.contains_root
  obtain ⟨before, earlier, _, object⟩ :=
    effect.entry_kept (fun same here => fresh same (here ▸ known)) (rooted ▸ found)
  rw [Placement.isValid, ← object]
  exact sound.rooted earlier

/-- Another index, after a call that inserts nothing. -/
theorem withdrawn (sound : world.Sound supply config) {mutation : Mutation}
    (success : mutation.apply world.index = .ok (after, event)) (none_new : mutation.offered = [])
    (removed : List Placement) : ((world.withIndex after).releaseAll removed).Sound supply config ∧
      ((world.withIndex after).releaseAll removed).ledger.next = world.ledger.next := by
  have changed : Sound supply config { world.withIndex after with known := world.known, ledger := world.ledger } :=
    sound.mutated success (by rw [none_new, List.append_nil]) sound.distinct sound.numbered sound.counted
  have same := (world.withIndex after).next_releaseAll removed
  exact ⟨changed.holding world.refs (Nat.le_of_eq same.symm), same⟩

end World.Sound

variable {σ : Type} [RandomStream.WordSource σ]

/-- What does not lead the focus is carried out as predicted throughout. -/
theorem Carried.plain (still : ¬ world.LeadsBeyond config.maxPathDepth operation) (sound : next.Sound supply config)
    (next_le : next.ledger.next ≤ world.ledger.next + 1) (faultless : effect.complaint = none)
    (agrees : effect.outcome = predict world operation) : Carried supply config world operation effect next :=
  ⟨sound, next_le, faultless, fun _ => agrees, fun beyond => absurd beyond still⟩

/-- A placement that is drawn has the next identity of the supply. -/
theorem drawPlacement_eq (supply : Nat → PlacementId) (world : World) (kind : PlacedKind) (source : σ) :
    ∃ (placement : Placement) (rest : σ), placement.id = supply world.ledger.next ∧
      drawPlacement supply world kind source = (placement, { world with ledger := world.ledger.advance }, rest) :=
  ⟨_, _, rfl, rfl⟩

/-- A new placement is inserted into a registered scope under its own identity, and given up again elsewhere. -/
theorem executeInsert_eq (supply : Nat → PlacementId) (world : World) (parent : Nat) (kind : PlacedKind) (source : σ) :
    ∃ (placement : Placement) (rest : σ), placement.id = supply world.ledger.next ∧
      (drawPlacement supply world kind source).2.2 = rest ∧
      executeInsert supply world parent kind source =
        if world.index.contains (world.pick parent) = true then
          ({ outcome := .success, inserted := 1 },
            { world.withIndex { world.index with table := world.index.table.add placement (world.pick parent) } with
              known := world.known.push placement.id, ledger := world.ledger.advance }, rest)
        else
          ({ outcome := .failure .navigation },
            { world with ledger := world.ledger.advance.releaseAll [placement.object] }, rest) := by
  obtain ⟨placement, rest, minted, drawn⟩ := drawPlacement_eq supply world kind source
  refine ⟨placement, rest, minted, by rw [drawn], ?_⟩
  have same : World.index { world with ledger := world.ledger.advance } = world.index := rfl
  by_cases registered : world.index.contains (world.pick parent) = true
  · simp only [executeInsert, drawn, same, Index.insert, if_pos registered]
    refine congrArg (fun complaint => (({ outcome := .success, complaint, inserted := 1 } : Effect), _, rest)) ?_
    exact if_neg (by simp)
  · simp only [executeInsert, drawn, same, Index.insert, if_neg registered]
    rfl

namespace World.Sound

theorem executeInsert (sound : world.Sound supply config) (supplied : Set.InjOn supply (Set.Iic world.ledger.next))
    (parent : Nat) (kind : PlacedKind) (source : σ) : Carried supply config world (.insert parent kind)
      (executeInsert supply world parent kind source).1 (executeInsert supply world parent kind source).2.1 := by
  obtain ⟨placement, rest, minted, _, done⟩ := executeInsert_eq supply world parent kind source
  rw [done]
  split
  · rename_i registered
    have applied : (Mutation.insert placement (world.pick parent)).apply world.index =
        .ok ({ world.index with table := world.index.table.add placement (world.pick parent) },
          some (.inserted placement (world.pick parent))) := bind_ok_iff.mpr ⟨_, if_pos registered, rfl⟩
    have listed : (world.known.push placement.id).toList = world.known.toList ++ [placement.id] := Array.toList_push
    -- an older placement of the same identity would have been the same one of the supply
    have new : placement.id ∉ world.known.toList := by
      intro known
      obtain ⟨older, less, same⟩ := sound.numbered _ known
      exact Nat.ne_of_lt less (supplied (Nat.le_of_lt less) Set.self_mem_Iic (same.symm.trans minted))
    refine .plain id (sound.mutated applied listed ?_ ?_ ?_) (Nat.le_refl _) rfl (if_pos registered).symm
    · rw [listed]
      exact sound.distinct.append (List.nodup_singleton _) (by simpa using new)
    · intro id member
      rw [listed] at member
      rcases List.mem_append.mp member with old | last
      · obtain ⟨older, less, same⟩ := sound.numbered id old
        exact ⟨older, Nat.lt_succ_of_lt less, same⟩
      · exact ⟨_, Nat.lt_succ_self _, (List.mem_singleton.mp last).trans minted⟩
    · rw [Array.size_push]
      exact Nat.succ_le_succ sound.counted
  · rename_i missing
    have later : (world.ledger.advance.releaseAll [placement.object]).next = world.ledger.next + 1 :=
      Ledger.next_releaseAll ..
    refine .plain id (sound.holding world.refs (later ▸ Nat.le_succ _)) (Nat.le_of_eq later) rfl ?_
    exact (if_neg missing).symm

/-- A refusal that was predicted. -/
theorem refused (sound : world.Sound supply config) (still : ¬ world.LeadsBeyond config.maxPathDepth operation)
    {error : ErrorClass} (predicted : predict world operation = .failure error) :
    Carried supply config world operation { outcome := .failure error } world :=
  .plain still sound (Nat.le_succ _) rfl predicted.symm

/-- A removal that succeeds is not of the root or a scope with members, and tells whether there was something. -/
theorem removed_of_ok {index : Index} (valid : index.table.Consistent) {id : PlacementId} {removed : Option Placement}
    (success : index.remove id = .ok (after, removed)) :
    id ≠ index.rootId ∧ index.members id = [] ∧ removed.isSome = index.contains id := by
  obtain ⟨inner, ⟨rfl, rfl, missing⟩ | ⟨entry, found, leaf, rfl, rfl⟩⟩ := Index.remove_ok success
  · exact ⟨inner, valid.members_eq_nil missing, (Bool.eq_false_iff.mpr missing).symm⟩
  · exact ⟨inner, leaf, ((Table.contains_iff ..).mpr ⟨entry, found⟩).symm⟩

theorem executeRemove (sound : world.Sound supply config) (target : Nat) : Carried supply config world (.remove target)
    (executeRemove world target).1 (executeRemove world target).2 := by
  unfold Simulator.executeRemove
  dsimp only
  split
  · rename_i error failure
    refine sound.refused id ?_
    unfold Index.remove at failure
    split at failure
    · rename_i rooted
      cases failure
      exact if_pos rooted
    · rename_i inner
      split at failure
      · cases failure
      · split at failure
        · rename_i busy
          cases failure
          exact (if_neg inner).trans (if_pos busy)
        · cases failure
  · rename_i after removed success
    have applied : (Mutation.remove (world.pick target)).apply world.index =
        .ok (after, removed.map fun _ => .removed (world.pick target)) := bind_ok_iff.mpr ⟨_, success, rfl⟩
    obtain ⟨inner, leaf, told⟩ := removed_of_ok sound.indexed.consistent success
    rw [if_pos told]
    obtain ⟨kept, same⟩ := sound.withdrawn applied rfl removed.toList
    refine .plain id kept (same ▸ Nat.le_succ _) rfl ?_
    have idle : ¬ 0 < world.index.memberCount (world.pick target) := by simp [Index.memberCount, leaf]
    exact ((if_neg inner).trans (if_neg idle)).symm

theorem executeClear (sound : world.Sound supply config) (target : Nat) :
    Carried supply config world (.clearScope target) (executeClear world target).1 (executeClear world target).2 := by
  unfold Simulator.executeClear
  dsimp only
  split
  · rename_i error failure
    unfold Index.clearScope at failure
    split at failure
    · cases failure
    · split at failure
      · cases failure
      · rename_i missing
        cases failure
        exact sound.refused id (if_neg missing)
  · rename_i after removed count success
    have applied : (Mutation.clearScope (world.pick target)).apply world.index =
        .ok (after, some (.cleared (world.pick target))) := bind_ok_iff.mpr ⟨_, success, rfl⟩
    obtain ⟨kept, same⟩ := sound.withdrawn applied rfl removed
    refine .plain id kept (same ▸ Nat.le_succ _) ?_ ?_
    · rw [complainIf, count_clearScope sound.indexed.consistent success]
      simp
    · exact (if_pos (registered_of_clearScope sound.indexed.consistent success)).symm

end World.Sound

theorem activate_inactive (index : Index) (id : PlacementId) :
    (ObjectRef.inactive .any).activate index id = do
      let placement ← index.find id
      return .active .any id placement.object :=
  if_neg fun both => nomatch both.1

/-- The reference and the placement that it was led to count the same owners. -/
theorem executeActivate_found {target : Nat} {placement : Placement}
    (found : world.index.find (world.pick target) = .ok placement) (source : σ) :
    executeActivate world target source = ({ outcome := .success },
      holdRef { world with ledger := world.ledger.retain placement.object }
        (.active .any (world.pick target) placement.object) source) := by
  have led : (ObjectRef.inactive .any).activate world.index (world.pick target) =
      .ok (.active .any (world.pick target) placement.object) := by
    rw [activate_inactive, found]
    rfl
  have still : World.index { world with ledger := world.ledger.retain placement.object } = world.index := rfl
  simp only [executeActivate, led, still, found, ObjectRef.active, ObjectRef.isActive, Option.isSome_some, if_true]
  refine congrArg (fun complaint => (({ outcome := .success, complaint } : Effect), _)) (if_neg ?_)
  simp [ObjectRef.useCount]

theorem executeActivate_missing {target : Nat} (missing : world.index.contains (world.pick target) ≠ true)
    (source : σ) : executeActivate world target source = ({ outcome := .failure .dangling }, world, source) := by
  have failure : (ObjectRef.inactive .any).activate world.index (world.pick target) =
      .error (.notInSession (world.pick target)) := by
    rw [activate_inactive, Index.find_missing missing]
    rfl
  simp only [executeActivate, failure]
  rfl

namespace World.Sound

theorem holdRef (sound : world.Sound supply config) (reference : ObjectRef) (source : σ) :
    (holdRef world reference source).1.Sound supply config ∧
      (holdRef world reference source).1.ledger.next = world.ledger.next := by
  unfold Simulator.holdRef
  split
  · exact ⟨sound.holding _ (Nat.le_refl _), rfl⟩
  · have same (objects : List SharedObject) : (world.ledger.releaseAll objects).next = world.ledger.next :=
      Ledger.next_releaseAll ..
    exact ⟨sound.holding _ (Nat.le_of_eq (same _).symm), same _⟩

theorem executeActivate (sound : world.Sound supply config) (target : Nat) (source : σ) :
    Carried supply config world (.activate target) (executeActivate world target source).1
      (executeActivate world target source).2.1 := by
  by_cases registered : world.index.contains (world.pick target) = true
  · obtain ⟨placement, found⟩ := Index.find_registered registered
    have retained : Sound supply config { world with ledger := world.ledger.retain placement.object } :=
      sound.holding world.refs (Nat.le_refl _)
    obtain ⟨held, next⟩ := retained.holdRef (.active .any (world.pick target) placement.object) source
    rw [executeActivate_found found]
    exact .plain id held (Nat.le_succ_of_le (Nat.le_of_eq next)) rfl (if_pos registered).symm
  · rw [executeActivate_missing registered]
    exact sound.refused id (if_neg registered)

theorem executeResolve (sound : world.Sound supply config) (reference : Nat) :
    Carried supply config world (.resolve reference) (executeResolve world reference) world := by
  unfold Simulator.executeResolve
  split
  · rename_i held found
    refine .plain id sound (Nat.le_succ _) rfl ?_
    simp only [predict, found]
    rcases held.eq_inactive_or_active with same | ⟨id, object, same⟩
    · rw [same]
      rfl
    · rw [same, ObjectRef.subject_active, ObjectRef.id_active, Option.any_some]
      split <;> rfl
  · rename_i missing
    refine .plain id sound (Nat.le_succ _) rfl ?_
    simp only [predict, missing]

end World.Sound

theorem checkLeaf_eq_none {path : ScopePath} {id : PlacementId} (ends : path.anchors.getLast? = some id) :
    checkLeaf path id = none := by
  simp [checkLeaf, ScopePath.leaf, ends, Scope.anchored, complainIf]

section Shift
variable {index : Index} {id : PlacementId} {desk : FocusDesk} {handle : HandleId}

theorem ofRegistered_registered (registered : index.contains id = true) :
    Scope.ofRegistered index id = .ok (.anchored id) := by
  obtain ⟨placement, found⟩ := Index.find_registered registered
  exact bind_ok_iff.mpr ⟨placement, found, rfl⟩

theorem ofRegistered_missing (missing : index.contains id ≠ true) :
    Scope.ofRegistered index id = .error (.notInSession id) := by
  rw [Scope.ofRegistered, Index.find_missing missing]
  rfl

/-- A focus is led to a registered placement as its path is. -/
theorem shift_registered (registered : index.contains id = true) :
    (Scope.ofRegistered index id >>= desk.shift index handle) =
      ((desk.pathOf handle).navigate index (.anchored id)).map (desk.setPathOf handle) := by
  rw [ofRegistered_registered registered]
  change desk.shift index handle (.anchored id) = _
  rw [FocusDesk.shift]
  cases (desk.pathOf handle).navigate index (.anchored id) <;> rfl

theorem shift_missing (missing : index.contains id ≠ true) :
    (Scope.ofRegistered index id >>= desk.shift index handle) = .error (.notInSession id) := by
  rw [ofRegistered_missing missing]
  rfl

end Shift

namespace World.Sound

theorem executeNavigate (sound : world.Sound supply config) (target : Nat) :
    Carried supply config world (.navigate target) (executeNavigate world target).1
      (executeNavigate world target).2 := by
  have valid := sound.indexed.consistent
  by_cases registered : world.index.contains (world.pick target) = true
  · have bottom : world.focus ∈ world.pushed ++ [world.focus] := by simp
    obtain ⟨frame, present, live⟩ := FocusStack.live_of_map sound.manned.attached bottom
    have rests := sound.rests.framed present
    rw [← FocusDesk.pathOf_of_frameOf? live] at rests
    have cases := rests.navigate_cases valid registered
    rw [sound.limit] at cases
    rcases cases with ⟨within, moved, led⟩ | ⟨beyond, failure⟩
    · simp only [Simulator.executeNavigate, shift_registered registered, led, Except.map]
      have moves : Sound supply config { world with desk := world.desk.setPathOf world.focus moved } :=
        sound.refocus (sound.rests.setPathOf world.focus (rests.navigate sound.indexed led))
          (sound.manned.sameHandles (world.desk.setPathOf_sameHandles world.focus moved))
      refine ⟨moves, Nat.le_succ _, checkLeaf_eq_none ?_, fun _ => (if_pos registered).symm,
        fun beyond => absurd beyond within⟩
      rw [FocusDesk.pathOf_setPathOf live]
      exact ScopePath.navigate_leaf valid led
    · simp only [Simulator.executeNavigate, shift_registered registered, failure, Except.map]
      exact ⟨sound, Nat.le_succ _, rfl, fun within => absurd beyond within, fun _ => rfl⟩
  · have still : ¬ world.LeadsBeyond config.maxPathDepth (.navigate target) := fun beyond => registered beyond.1
    simp only [Simulator.executeNavigate, shift_missing registered]
    exact sound.refused still (if_neg registered)

theorem executePush (sound : world.Sound supply config) (target : Nat) : Carried supply config world (.pushFocus target)
    (executePush world target).1 (executePush world target).2 := by
  have valid := sound.indexed.consistent
  by_cases registered : world.index.contains (world.pick target) = true
  · -- the topmost frame has a handle, so that the push starts from its path
    obtain ⟨top, rest, frames, attached⟩ := sound.manned.top_attached
    have rests := sound.rests.framed (frames ▸ List.mem_cons_self)
    have start : world.session.stack.pushStart world.index world.desk = world.desk.path top :=
      FocusStack.pushStart_of_attached frames attached rests.nonempty
    rw [← start] at rests
    have cases := rests.navigate_cases valid registered
    rw [sound.limit] at cases
    have holds := FocusStack.push_holds sound.rests (ScopePath.root_rests sound.indexed)
      (.anchored (world.pick target)) fun good led => ScopePath.Rests.navigate good sound.indexed led
    simp only [Simulator.executePush, ofRegistered_registered registered, Session.pushFocus]
    rcases pushed : world.session.stack.push world.session.index world.desk (.anchored (world.pick target)) with
      ⟨error | handle, stack, desk⟩
    · obtain ⟨led, cleared⟩ := FocusStack.push_error (congrArg Prod.fst pushed)
      rw [pushed, FocusStack.popUnused_of_attached frames attached] at cleared
      cases cleared
      rcases cases with ⟨_, moved, other⟩ | ⟨beyond, failure⟩
      · cases led.symm.trans other
      · cases led.symm.trans failure
        exact ⟨sound, Nat.le_succ _, rfl, fun within => absurd beyond within, fun _ => rfl⟩
    · have success := congrArg Prod.fst pushed
      obtain ⟨path, led, same⟩ := FocusStack.push_ok success
      have manned := sound.manned.push success
      rw [pushed] at manned same
      have held : desk.Holds (ScopePath.Rests world.known.toList world.index) stack := by
        change world.session.stack.push world.index .. = _ at pushed
        rw [pushed] at holds
        exact holds
      rcases cases with ⟨within, _⟩ | ⟨_, failure⟩
      · have ends : checkLeaf (desk.pathOf handle) (world.pick target) = none :=
          checkLeaf_eq_none (same ▸ ScopePath.navigate_leaf valid led)
        exact ⟨sound.refocus held manned, Nat.le_succ _, ends, fun _ => (if_pos registered).symm,
          fun beyond => absurd beyond within⟩
      · cases led.symm.trans failure
  · have still : ¬ world.LeadsBeyond config.maxPathDepth (.pushFocus target) := fun beyond => registered beyond.1
    simp only [Simulator.executePush, ofRegistered_missing registered]
    exact sound.refused still (if_neg registered)

theorem executePop (sound : world.Sound supply config) : Carried supply config world .popFocus
    (executePop world).1 (executePop world).2 := by
  unfold Simulator.executePop
  split
  · rename_i empty
    refine .plain id sound (Nat.le_succ _) rfl ?_
    simp [predict, empty]
  · -- the handle that is dropped is the latest, and its frame the topmost one
    rename_i handle pushed latest
    have above : world.session.stack.Manned world.desk (handle :: (pushed ++ [world.focus])) := by
      have manned := sound.manned
      rw [latest] at manned
      exact manned
    have left := above.drop (by simp) world.index
    have holds := FocusStack.popUnused_holds (sound.rests.drop handle) (ScopePath.root_rests sound.indexed)
    have before : world.session.focusDepth = pushed.length + 2 :=
      above.depth_eq.trans (by simp)
    have after : (world.session.pruneFocus (world.desk.drop handle)).1.focusDepth = pushed.length + 1 :=
      left.depth_eq.trans (by simp)
    refine .plain id (sound.refocus holds left) (Nat.le_succ _) ?_ ?_
    · simp [complainIf, before, after]
    · simp [predict, latest]

/-- Whatever the operation is, and whatever is drawn for it. -/
theorem execute (sound : world.Sound supply config) (supplied : Set.InjOn supply (Set.Iic world.ledger.next))
    (operation : Operation) (source : σ) : Carried supply config world operation
      (execute supply world operation source).1 (execute supply world operation source).2.1 := by
  cases operation with
  | insert parent kind => exact sound.executeInsert supplied parent kind source
  | remove target => exact sound.executeRemove target
  | clearScope target => exact sound.executeClear target
  | activate target => exact sound.executeActivate target source
  | resolve reference => exact sound.executeResolve reference
  | navigate target => exact sound.executeNavigate target
  | pushFocus target => exact sound.executePush target
  | popFocus => exact sound.executePop

end World.Sound

theorem World.start_sound (supply : Nat → PlacementId) (config : SessionConfig) :
    (start supply config).Sound supply config := by
  let root := placementOf supply ⟨0, .root config.rootName⟩ []
  have indexed := Index.ofRoot_sound root config.maxPathDepth
  have nothing : FocusDesk.Holds (ScopePath.Rests [root.id] (.ofRoot root config.maxPathDepth)) ⟨[]⟩ {} :=
    ⟨fun member => absurd member List.not_mem_nil, fun live => absurd live (by simp [FocusDesk.frameOf?])⟩
  have rests := FocusStack.atRoot_holds nothing (ScopePath.root_rests indexed)
  have free (handle : HandleId) :
      (FocusStack.atRoot (.ofRoot root config.maxPathDepth) {}).2.frameOf? handle = none := by
    simp [FocusStack.atRoot, FocusDesk.openFrame, FocusDesk.frameOf?]
  have formed : (FocusStack.atRoot (.ofRoot root config.maxPathDepth) {}).1.Formed _ :=
    .atRoot (fun live => absurd live (by simp [FocusDesk.frameOf?])) _
  exact
    { indexed
      limit := rfl
      distinct := List.nodup_singleton _
      numbered := fun id known => ⟨0, Nat.one_pos, List.mem_singleton.mp known⟩
      counted := Nat.le_refl _
      rooted := fun {entry} found => by
        change Table.entry? (.ofRoot root) root.id = some entry at found
        rw [Table.entry?_ofRoot, if_pos rfl] at found
        cases found
        rfl
      rests := FocusStack.attachTop_holds rests (ScopePath.root_rests indexed)
      manned := formed.attachTop_manned rfl free _ }

/-- Identities in use bound the depth of what is registered. -/
theorem World.Sound.lt_next (sound : world.Sound supply config) {limit : Nat} {id : PlacementId}
    (beyond : world.index.table.LiesBeyond limit id) : limit < world.ledger.next := by
  have known : world.index.table.entries.keys ⊆ world.known.toList := fun _ member =>
    sound.indexed.known ((Table.mem_keys_iff ..).mp member)
  have fewer := Std.TreeMap.nodup_keys.length_le_of_subset known
  rw [← Table.size_eq_length_keys, Array.length_toList] at fewer
  exact Nat.lt_of_lt_of_le (beyond.lt_size sound.indexed.consistent) (Nat.le_trans fewer sound.counted)

end Simulator

end MediaSession
