import Mathlib.Order.Bounds.Basic
import MediaSession.Proofs.Focus.Frames
import MediaSession.Proofs.Focus.Run

/-!
The focus stack of a session over its runs. Nothing but a clearing takes a frame away from a handle, a handle whose
frame was cleared away never gets back, and the depth of the stack is that of its highest frame in use whenever
unused ones were just dropped.
-/
namespace MediaSession
namespace FocusStack
variable {stack : FocusStack} {desk next : FocusDesk} {frame : FrameId} {handle : HandleId}

/-- The handle is no longer on the stack: gone, or left behind with a frame that is off the stack. -/
structure LeftBehind (stack : FocusStack) (desk : FocusDesk) (handle : HandleId) (frame : FrameId) : Prop where
  issued : handle < desk.nextHandle
  numbered : frame < desk.nextFrame
  off : frame ∉ stack.frames
  stays : ∀ {now}, desk.frameOf? handle = some now → now = frame

theorem LeftBehind.evolves (left : stack.LeftBehind desk handle frame) {after : FocusStack}
    {touched : HandleId → Prop} (evolves : Evolves touched stack desk after next) :
    after.LeftBehind next handle frame where
  issued := Nat.lt_of_lt_of_le left.issued evolves.nextHandle_le
  numbered := Nat.lt_of_lt_of_le left.numbered evolves.nextFrame_le
  off present := (evolves.frame_new present).elim left.off (Nat.not_le_of_lt left.numbered)
  stays live := by
    rcases evolves.handle_from live left.issued with before | ⟨old, before, stacked⟩
    · exact left.stays before
    · exact absurd (left.stays before ▸ stacked) left.off

theorem LeftBehind.atRoot (left : stack.LeftBehind desk handle frame) (index : Index) :
    (FocusStack.atRoot index desk).1.LeftBehind (FocusStack.atRoot index desk).2 handle frame where
  issued := left.issued
  numbered := Nat.lt_succ_of_lt left.numbered
  off present := Nat.ne_of_lt left.numbered (List.mem_singleton.mp present)
  stays := left.stays

theorem LeftBehind.popHandle_eq (left : stack.LeftBehind desk handle frame) (index : Index) :
    stack.popHandle index desk handle = .error (.emptyPath .popping) := by
  unfold FocusStack.popHandle
  split
  · rename_i below found
    obtain ⟨now, live, under⟩ := Option.bind_eq_some_iff.mp found
    exact absurd (left.stays live ▸ below?_stacked under) left.off
  · rfl

/-- Frames of the stack and of the handles, after the stack was started again. -/
theorem Formed.atRoot (attached_lt : ∀ {handle frame}, desk.frameOf? handle = some frame →
    handle < desk.nextHandle ∧ frame < desk.nextFrame) (index : Index) :
    (FocusStack.atRoot index desk).1.Formed (FocusStack.atRoot index desk).2 where
  nonempty := List.cons_ne_nil _ _
  distinct := List.nodup_singleton _
  framed_lt present := Nat.lt_succ_of_le (Nat.le_of_eq (List.mem_singleton.mp present))
  attached_lt live := ⟨(attached_lt live).1, Nat.lt_succ_of_lt (attached_lt live).2⟩

end FocusStack

/-- The call takes the handle off its frame. -/
def SessionCall.Moves : SessionCall → HandleId → Prop
  | drop dropped, handle => dropped = handle
  | pop popped, handle => popped = handle
  | _, _ => False

namespace LiveSession
open FocusStack
variable {live : LiveSession} {call : SessionCall} {frame : FrameId} {handle : HandleId}

def Formed (live : LiveSession) : Prop := live.stack.Formed live.desk

/-- The outcome of some calls on a new session. -/
def run (config : SessionConfig) (root : Placement) (calls : List SessionCall) : LiveSession :=
  calls.foldl step (start config root)

theorem run_append (config : SessionConfig) (root : Placement) (first second : List SessionCall) :
    run config root (first ++ second) = second.foldl step (run config root first) := List.foldl_append

/-- Whatever a call does, and whether or not it succeeds, short of clearing the session. -/
theorem step_evolves (formed : live.Formed) (call : SessionCall) (kept : call ≠ .clear) :
    Evolves call.Moves live.stack live.desk (live.step call).stack (live.step call).desk := by
  have still {touched : HandleId → Prop} : Evolves touched live.stack live.desk live.stack live.desk :=
    FocusStack.Formed.sameHandles formed (.refl live.desk)
  cases call with
  | mutate mutation =>
    unfold step
    dsimp only
    split <;> exact still
  | clear => exact absurd rfl kept
  | query => exact (FocusStack.Formed.attachTop formed live.index _).1
  | push scope => exact (FocusStack.Formed.push formed live.index scope _).1
  | prune => exact FocusStack.Formed.popUnused formed live.index
  | clone handle =>
    unfold step
    dsimp only
    split
    · rename_i cloned
      obtain ⟨frame, attached, same⟩ := Option.map_eq_some_iff.mp cloned
      cases same
      exact FocusStack.Formed.attach formed (.inr ⟨handle, attached⟩)
    · exact still
  | drop handle => exact FocusStack.Formed.drop formed rfl
  | shift handle target =>
    unfold step
    dsimp only
    split
    · rename_i success
      exact FocusStack.Formed.sameHandles formed (FocusDesk.shift_sameHandles success)
    · exact still
  | ascend handle =>
    unfold step
    dsimp only
    split
    · rename_i success
      exact FocusStack.Formed.sameHandles formed (FocusDesk.ascend_sameHandles success)
    · exact still
  | reset handle => exact FocusStack.Formed.sameHandles formed (live.desk.setPathOf_sameHandles handle _)
  | pop handle =>
    unfold step
    dsimp only
    split
    · rename_i success
      obtain ⟨⟨stack, next⟩, popped, same⟩ := bind_ok_iff.mp success
      cases same
      exact (FocusStack.Formed.popHandle formed popped rfl).1
    · exact still

theorem step_formed (formed : live.Formed) (call : SessionCall) : (live.step call).Formed := by
  by_cases cleared : call = .clear
  · subst cleared
    exact FocusStack.Formed.atRoot formed.attached_lt _
  · exact (step_evolves formed call cleared).formed

/-- A frame that a call takes off the stack had no handle attached to it but one that the call moves down. -/
theorem popped_of_removed (formed : live.Formed) (kept : call ≠ .clear) (present : frame ∈ live.stack.frames)
    (gone : frame ∉ (live.step call).stack.frames) :
    ¬ (live.step call).desk.IsAttached frame ∧
      ∀ handle, live.desk.frameOf? handle = some frame → call = .pop handle := by
  have evolves := step_evolves formed call kept
  have unattached : ¬ (live.step call).desk.IsAttached frame := fun attached =>
    gone (evolves.frame_kept present attached)
  refine ⟨unattached, fun handle attached => ?_⟩
  have moves : call.Moves handle := Classical.byContradiction fun apart =>
    unattached ⟨handle, evolves.handle_kept apart attached⟩
  cases call with
  | drop => exact absurd present gone
  | pop popped => exact congrArg SessionCall.pop moves
  | _ => exact absurd moves id

/-- A frame in use is on the stack, was off it before with a handle attached, or has just been cleared away. -/
theorem attached_step (formed : live.Formed) (attached : (live.step call).desk.IsAttached frame) :
    frame ∈ (live.step call).stack.frames ∨ (frame ∉ live.stack.frames ∧ live.desk.IsAttached frame) ∨
      (call = .clear ∧ frame ∈ live.stack.frames) := by
  by_cases present : frame ∈ live.stack.frames
  · by_cases cleared : call = .clear
    · exact .inr (.inr ⟨cleared, present⟩)
    · exact .inl ((step_evolves formed call cleared).frame_kept present attached)
  · by_cases cleared : call = .clear
    · subst cleared
      exact .inr (.inl ⟨present, attached⟩)
    · exact ((step_evolves formed call cleared).attached_from attached).imp id fun before => .inl ⟨present, before⟩

theorem step_leftBehind (left : live.stack.LeftBehind live.desk handle frame) (formed : live.Formed)
    (call : SessionCall) : (live.step call).stack.LeftBehind (live.step call).desk handle frame := by
  by_cases cleared : call = .clear
  · subst cleared
    exact left.atRoot _
  · exact left.evolves (step_evolves formed call cleared)

theorem run_formed (config : SessionConfig) (root : Placement) (calls : List SessionCall) :
    (run config root calls).Formed := by
  induction calls using List.reverseRecOn with
  | nil => exact FocusStack.Formed.atRoot (fun live => absurd live (by simp [FocusDesk.frameOf?])) _
  | append_singleton before call ih =>
    rw [run_append]
    exact step_formed ih call

/-- A frame in use that is not on the stack was cleared away. -/
theorem run_attached (config : SessionConfig) (root : Placement) (calls : List SessionCall)
    (attached : (run config root calls).desk.IsAttached frame) :
    frame ∈ (run config root calls).stack.frames ∨ ∃ before after, calls = before ++ .clear :: after ∧
      frame ∈ (run config root before).stack.frames := by
  induction calls using List.reverseRecOn with
  | nil =>
    obtain ⟨handle, live⟩ := attached
    exact absurd live (by simp [run, start, Session.start, atRoot, FocusDesk.openFrame, FocusDesk.frameOf?])
  | append_singleton earlier call ih =>
    rw [run_append] at attached ⊢
    rcases attached_step (run_formed config root earlier) attached with here | ⟨off, before⟩ | ⟨rfl, present⟩
    · exact .inl here
    · obtain ⟨first, rest, same, present⟩ := (ih before).resolve_left off
      exact .inr ⟨first, rest ++ [call], by simp [same], present⟩
    · exact .inr ⟨earlier, [], rfl, present⟩

theorem foldl_leftBehind (left : live.stack.LeftBehind live.desk handle frame) (formed : live.Formed)
    (later : List SessionCall) :
    (later.foldl step live).stack.LeftBehind (later.foldl step live).desk handle frame := by
  induction later generalizing live with
  | nil => exact left
  | cons call rest ih => exact ih (step_leftBehind left formed call) (step_formed formed call)

/-- Some live handle is attached to the frame at a level, counted from the bottom. -/
def Occupied (live : LiveSession) (level : Nat) : Prop :=
  ∃ frame, live.stack.frames.reverse[level]? = some frame ∧ live.desk.IsAttached frame

/-- The depth is one more than the highest level in use, and one if none is. -/
def Topped (live : LiveSession) : Prop :=
  (∃ level, IsGreatest {level | live.Occupied level} level ∧ live.session.focusDepth = level + 1) ∨
    (∀ level, ¬ live.Occupied level) ∧ live.session.focusDepth = 1

theorem level_lt_of_occupied {level : Nat} (occupied : live.Occupied level) : level < live.session.focusDepth := by
  obtain ⟨frame, found, _⟩ := occupied
  have inside := (List.getElem?_eq_some_iff.mp found).1
  rw [List.length_reverse] at inside
  exact inside

theorem topped_of_topUsed (formed : live.Formed) (used : TopUsed live.stack live.desk) : live.Topped := by
  obtain ⟨top, rest, frames⟩ := List.exists_cons_of_ne_nil formed.nonempty
  have depth : live.session.focusDepth = rest.length + 1 := congrArg List.length frames
  have found : live.stack.frames.reverse[rest.length]? = some top := by simp [frames]
  by_cases attached : live.desk.IsAttached top
  · refine .inl ⟨rest.length, ⟨⟨top, found, attached⟩, fun level occupied => ?_⟩, depth⟩
    exact Nat.le_of_lt_succ ((level_lt_of_occupied occupied).trans_eq depth)
  · -- an unused top is the bottom frame
    have single : rest = [] := by
      cases rest with
      | nil => rfl
      | cons below others => exact absurd (used top below others frames) attached
    subst single
    refine .inr ⟨?_, depth⟩
    rintro level ⟨frame, here, inUse⟩
    have lowest : level = 0 := Nat.lt_one_iff.mp ((level_lt_of_occupied ⟨frame, here, inUse⟩).trans_eq depth)
    subst lowest
    rw [List.length_nil] at found
    exact attached (Option.some.inj (found.symm.trans here) ▸ inUse)

/-- The call drops the frames left unused at the top. -/
def Tidies (live : LiveSession) : SessionCall → Prop
  | .query | .push _ | .prune => True
  | .pop handle => (live.session.popFocus live.desk handle).isOk = true
  | _ => False

theorem step_topped (formed : live.Formed) (tidies : live.Tidies call) : (live.step call).Topped := by
  refine topped_of_topUsed (step_formed formed call) ?_
  cases call with
  | query => exact (FocusStack.Formed.attachTop formed live.index (SessionCall.Moves .query)).2
  | push scope => exact (FocusStack.Formed.push formed live.index scope (SessionCall.Moves (.push scope))).2
  | prune => exact topUsed_popUnused live.stack live.index live.desk
  | pop handle =>
    unfold step
    dsimp only
    split
    · rename_i success
      obtain ⟨⟨stack, next⟩, popped, same⟩ := bind_ok_iff.mp success
      cases same
      have taken : SessionCall.Moves (.pop handle) handle := rfl
      exact (FocusStack.Formed.popHandle formed popped taken).2
    · rename_i failed
      rw [Tidies, failed] at tidies
      cases tidies
  | _ => exact absurd tidies id

/-- The focus stack over every run of calls: which frames it has, which of them handles hold on to, and how deep
it is. -/
theorem run_keeps_focus_stack (config : SessionConfig) (root : Placement) (calls : List SessionCall) :
    let live := run config root calls
    0 < live.session.focusDepth ∧
    (∀ (handle : HandleId) (frame : FrameId), live.desk.frameOf? handle = some frame →
      (∃! level : Nat, live.stack.frames.reverse[level]? = some frame) ∨
        frame ∉ live.stack.frames ∧ ∃ before after, calls = before ++ .clear :: after ∧
          frame ∈ (run config root before).stack.frames) ∧
    (∀ call frame, call ≠ .clear → frame ∈ live.stack.frames → frame ∉ (live.step call).stack.frames →
      (∀ handle, (live.step call).desk.frameOf? handle ≠ some frame) ∧
        ∀ handle, live.desk.frameOf? handle = some frame → call = .pop handle) ∧
    (∀ handle frame, live.desk.frameOf? handle = some frame → frame ∉ live.stack.frames → ∀ later,
      let last := run config root (calls ++ later)
      (∀ now, last.desk.frameOf? handle = some now → now = frame ∧ now ∉ last.stack.frames) ∧
        last.session.popFocus last.desk handle = .error (.emptyPath .popping)) ∧
    ∀ call, live.Tidies call → (live.step call).Topped := by
  intro live
  have formed : live.Formed := run_formed config root calls
  refine ⟨List.length_pos_of_ne_nil formed.nonempty, ?_, ?_, ?_, fun call => step_topped formed⟩
  · intro handle frame attached
    by_cases present : frame ∈ live.stack.frames
    · left
      have unrepeated : live.stack.frames.reverse.Nodup := List.nodup_reverse.mpr formed.distinct
      obtain ⟨level, found⟩ := List.getElem?_of_mem (List.mem_reverse.mpr present)
      refine ⟨level, found, fun other here => ?_⟩
      obtain ⟨inside, _⟩ := List.getElem?_eq_some_iff.mp here
      exact (List.getElem?_inj inside unrepeated).mp (here.trans found.symm)
    · exact .inr ⟨present, (run_attached config root calls ⟨handle, attached⟩).resolve_left present⟩
  · intro call frame kept present gone
    obtain ⟨unattached, popped⟩ := popped_of_removed formed kept present gone
    exact ⟨fun handle attached => unattached ⟨handle, attached⟩, popped⟩
  · intro handle frame attached off later last
    have issued := formed.attached_lt attached
    have left : live.stack.LeftBehind live.desk handle frame :=
      ⟨issued.1, issued.2, off, fun now => Option.some.inj (now.symm.trans attached)⟩
    have still := foldl_leftBehind left formed later
    rw [← run_append] at still
    refine ⟨fun now here => ⟨still.stays here, still.stays here ▸ still.off⟩, ?_⟩
    exact congrArg (· >>= _) (still.popHandle_eq last.index)

end LiveSession

end MediaSession
