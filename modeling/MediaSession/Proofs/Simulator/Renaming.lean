import MediaSession.Proofs.Index.Renaming
import MediaSession.Proofs.Simulator.Bookkeeping
import MediaSession.Proofs.Simulator.Masked

/-!
Simulations with identities of two supplies. Step by step both draw the same operations, with the same outcome, and
their worlds agree up to the identities; a report shows the difference only in the texts that name one.
-/
namespace MediaSession.Simulator

open RandomStream

/-- Identities that have the same place in two supplies. -/
def Paired (one two : Nat → PlacementId) (bound : Nat) (id twin : PlacementId) : Prop :=
  ∃ number ≤ bound, id = one number ∧ twin = two number

theorem paired_biUnique {one two : Nat → PlacementId} {bound : Nat} (first : Set.InjOn one (Set.Iic bound))
    (second : Set.InjOn two (Set.Iic bound)) : Relator.BiUnique (Paired one two bound) := by
  constructor
  · rintro _ _ _ ⟨number, low, rfl, rfl⟩ ⟨other, less, rfl, same⟩
    exact congrArg one (second low less same)
  · rintro _ _ _ ⟨number, low, rfl, rfl⟩ ⟨other, less, same, rfl⟩
    exact congrArg two (first low less same)

/-- Two arrays agree slot by slot. -/
structure Slotwise (agree : α → β → Prop) (slots : Array α) (others : Array β) : Prop where
  size_eq : slots.size = others.size
  agrees : ∀ {slot : Nat} {value other}, slots[slot]? = some value → others[slot]? = some other → agree value other

section Slotwise
variable {agree : α → β → Prop} {slots : Array α} {others : Array β} {value : α} {other : β}

theorem Slotwise.empty : Slotwise agree #[] #[] := ⟨rfl, nofun⟩

theorem Slotwise.push (slotwise : Slotwise agree slots others) (agrees : agree value other) :
    Slotwise agree (slots.push value) (others.push other) where
  size_eq := by rw [Array.size_push, Array.size_push, slotwise.size_eq]
  agrees {slot _ _} here there := by
    rw [Array.getElem?_push] at here there
    rw [slotwise.size_eq] at here
    split at here
    · rename_i last
      rw [if_pos last] at there
      cases here
      cases there
      exact agrees
    · rename_i earlier
      rw [if_neg earlier] at there
      exact slotwise.agrees here there

theorem Slotwise.set (slotwise : Slotwise agree slots others) (place : Nat) (agrees : agree value other) :
    Slotwise agree (slots.setIfInBounds place value) (others.setIfInBounds place other) where
  size_eq := by rw [Array.size_setIfInBounds, Array.size_setIfInBounds, slotwise.size_eq]
  agrees {slot _ _} here there := by
    rw [Array.getElem?_setIfInBounds] at here there
    split at here
    · rename_i same
      rw [if_pos same] at there
      split at here
      · split at there
        · cases here
          cases there
          exact agrees
        · cases there
      · cases here
    · rename_i elsewhere
      rw [if_neg elsewhere] at there
      exact slotwise.agrees here there

end Slotwise

/-- Two references lead to identities that are paired off. -/
def Leads (link : PlacementId → PlacementId → Prop) (held twin : ObjectRef) : Prop :=
  ∃ id copy, held.id = some id ∧ twin.id = some copy ∧ link id copy

/-- Worlds that agree up to their identities. Their foci need not agree beyond the number of handles, which is all that
what follows depends on. -/
structure World.Mirrors (link : PlacementId → PlacementId → Prop) (world other : World) : Prop where
  table : world.index.table.Mirrors link other.index.table
  known : Slotwise link world.known other.known
  refs : Slotwise (Leads link) world.refs other.refs
  next_eq : world.ledger.next = other.ledger.next
  pushed_eq : world.pushed.length = other.pushed.length

variable {σ : Type} [WordSource σ] {one two : Nat → PlacementId} {config : SessionConfig} {world other : World}
  {operation : Operation} {link : PlacementId → PlacementId → Prop}

namespace World.Mirrors

theorem drawOperation_eq (mirrors : world.Mirrors link other) (source : σ) :
    drawOperation world source = drawOperation other source := by
  simp only [drawOperation, mirrors.known.size_eq, mirrors.refs.size_eq]

theorem drawPlacement_rest (mirrors : world.Mirrors link other) (one two : Nat → PlacementId) (kind : PlacedKind)
    (source : σ) :
    (drawPlacement one world kind source).2.2 = (drawPlacement two other kind source).2.2 := by
  cases kind <;> simp [drawPlacement, drawContent, mirrors.known.size_eq]

section Partners
variable (mirrors : world.Mirrors link other) (sound : world.Sound one config) (sane : other.Sound two config)
include mirrors sound

theorem pick (slot : Nat) : link (world.pick slot) (other.pick slot) := by
  have rooted := sound.indexed.known sound.indexed.consistent.contains_root
  have some : 0 < world.known.size := by
    rw [← Array.length_toList]
    exact List.length_pos_of_mem rooted
  have inside : slot % world.known.size < world.known.size := Nat.mod_lt _ some
  rw [World.pick, World.pick, ← mirrors.known.size_eq, Array.getD_eq_getD_getElem?, Array.getD_eq_getD_getElem?,
    Array.getElem?_eq_getElem inside, Array.getElem?_eq_getElem (mirrors.known.size_eq ▸ inside)]
  exact mirrors.known.agrees (Array.getElem?_eq_getElem inside) (Array.getElem?_eq_getElem _)

include sane

theorem contains_iff (slot : Nat) :
    world.index.contains (world.pick slot) = true ↔ other.index.contains (other.pick slot) = true :=
  mirrors.table.contains_iff sound.indexed.consistent sane.indexed.consistent (mirrors.pick sound slot)

variable (unique : Relator.BiUnique link)
include unique

omit sane in
theorem root_iff (slot : Nat) : world.pick slot = world.index.rootId ↔ other.pick slot = other.index.rootId :=
  mirrors.table.root_iff unique (mirrors.pick sound slot)

theorem memberCount_pos_iff (slot : Nat) : 0 < world.index.memberCount (world.pick slot) ↔
    0 < other.index.memberCount (other.pick slot) := by
  have pair := mirrors.pick sound slot
  have valid := sound.indexed.consistent
  have twin := sane.indexed.consistent
  rw [Index.memberCount, Index.memberCount, List.length_pos_iff, List.length_pos_iff]
  refine not_congr ⟨mirrors.table.members_eq_nil unique valid twin pair, ?_⟩
  exact mirrors.table.symm.members_eq_nil (Table.unique_flip unique) twin valid pair

theorem predict_eq (operation : Operation) : predict world operation = predict other operation := by
  have orFail {registered present : Bool} (same : registered = true ↔ present = true) (error : ErrorClass) :
      (if registered then .success else .failure error : Outcome) = if present then .success else .failure error := by
    simp only [same]
  cases operation with
  | insert slot _ | clearScope slot | activate slot | navigate slot | pushFocus slot =>
    exact orFail (mirrors.contains_iff sound sane slot) _
  | remove slot =>
    simp only [predict, mirrors.root_iff sound unique slot, mirrors.memberCount_pos_iff sound sane unique slot]
  | resolve slot =>
    by_cases inside : slot < world.refs.size
    · have within : slot < other.refs.size := mirrors.refs.size_eq ▸ inside
      have held := Array.getElem?_eq_getElem inside
      have twin := Array.getElem?_eq_getElem within
      obtain ⟨id, copy, leads, also, pair⟩ := mirrors.refs.agrees held twin
      have same : world.index.contains id = true ↔ other.index.contains copy = true :=
        mirrors.table.contains_iff sound.indexed.consistent sane.indexed.consistent pair
      simp only [predict, held, twin, leads, also, Option.any_some]
      exact orFail same _
    · have within : ¬ slot < other.refs.size := mirrors.refs.size_eq ▸ inside
      simp only [predict, Array.getElem?_eq_none (Nat.le_of_not_lt inside),
        Array.getElem?_eq_none (Nat.le_of_not_lt within)]
  | popFocus =>
    simp only [predict, List.isEmpty_iff_length_eq_zero, mirrors.pushed_eq]

theorem leadsBeyond_iff (limit : Nat) (operation : Operation) :
    world.LeadsBeyond limit operation ↔ other.LeadsBeyond limit operation := by
  have valid := sound.indexed.consistent
  have twin := sane.indexed.consistent
  cases operation with
  | navigate slot | pushFocus slot =>
    have pair := mirrors.pick sound slot
    exact ⟨mirrors.table.liesBeyond unique valid pair,
      mirrors.table.symm.liesBeyond (Table.unique_flip unique) twin pair⟩
  | insert | remove | clearScope | activate | resolve | popFocus => exact Iff.rfl

end Partners

end World.Mirrors

/-- Only the focus is not what it was before. -/
structure World.Refocuses (world next : World) : Prop where
  index_eq : next.index = world.index
  known_eq : next.known = world.known
  refs_eq : next.refs = world.refs
  ledger_eq : next.ledger = world.ledger

theorem executeNavigate_refocuses (world : World) (target : Nat) :
    world.Refocuses (executeNavigate world target).2 ∧ (executeNavigate world target).2.pushed = world.pushed := by
  simp only [executeNavigate]
  split <;> exact ⟨⟨rfl, rfl, rfl, rfl⟩, rfl⟩

theorem executePush_refocuses (world : World) (target : Nat) :
    world.Refocuses (executePush world target).2 ∧ (executePush world target).2.pushed.length =
      world.pushed.length + if (executePush world target).1.outcome = .success then 1 else 0 := by
  cases found : Scope.ofRegistered world.index (world.pick target) with
  | error error =>
    simp only [executePush, found]
    exact ⟨⟨rfl, rfl, rfl, rfl⟩, rfl⟩
  | ok scope =>
    rcases pushed : world.session.pushFocus world.desk scope with ⟨error | handle, session, desk⟩
    all_goals
      simp only [executePush, found, pushed]
      exact ⟨⟨congrArg (·.2.1.index) pushed.symm, rfl, rfl, rfl⟩, rfl⟩

theorem executePop_refocuses (world : World) : world.Refocuses (executePop world).2 ∧
    (executePop world).2.pushed.length = world.pushed.length - 1 := by
  simp only [executePop]
  split
  · rename_i empty
    exact ⟨⟨rfl, rfl, rfl, rfl⟩, by rw [empty]; rfl⟩
  · rename_i handle pushed latest
    exact ⟨⟨rfl, rfl, rfl, rfl⟩, by rw [latest]; rfl⟩

/-- A call has withdrawn something from the index; only the number of owners has changed besides. -/
structure World.Withdraws (world : World) (call : IndexCall) (next : World) : Prop where
  performs : IndexCall.Performs world.index call next.index
  known_eq : next.known = world.known
  refs_eq : next.refs = world.refs
  pushed_eq : next.pushed = world.pushed
  next_eq : next.ledger.next = world.ledger.next

theorem executeRemove_withdraws (valid : world.index.table.Consistent) (target : Nat) :
    world.Withdraws (.remove (world.pick target)) (executeRemove world target).2 := by
  have performs := IndexCall.performs_remove valid (world.pick target)
  simp only [executeRemove]
  split
  · rename_i failure
    rw [IndexCall.perform_remove_error failure] at performs
    exact ⟨performs, rfl, rfl, rfl, rfl⟩
  · rename_i success
    rw [IndexCall.perform_remove_ok success] at performs
    split <;> exact ⟨performs, rfl, rfl, rfl, World.next_releaseAll ..⟩

theorem executeClear_withdraws (valid : world.index.table.Consistent) (target : Nat) :
    world.Withdraws (.clearScope (world.pick target)) (executeClear world target).2 := by
  have performs := IndexCall.performs_clearScope valid (world.pick target)
  simp only [executeClear]
  split
  · rename_i failure
    rw [IndexCall.perform_clearScope_error failure] at performs
    exact ⟨performs, rfl, rfl, rfl, rfl⟩
  · rename_i success
    rw [IndexCall.perform_clearScope_ok success] at performs
    exact ⟨performs, rfl, rfl, rfl, World.next_releaseAll ..⟩

/-- One placement is inserted by an insertion that succeeds, and none by anything else. -/
theorem inserted_execute (supply : Nat → PlacementId) (world : World) (operation : Operation) (source : σ) :
    (execute supply world operation source).1.inserted =
      match operation with
      | .insert _ _ => if (execute supply world operation source).1.outcome = .success then 1 else 0
      | _ => 0 := by
  cases operation with
  | insert parent kind =>
    obtain ⟨placement, rest, _, _, done⟩ := executeInsert_eq supply world parent kind source
    simp only [execute, done]
    split <;> rfl
  | remove target =>
    simp only [execute, executeRemove]
    split
    · rfl
    · split <;> rfl
  | clearScope target =>
    simp only [execute, executeClear]
    split <;> rfl
  | activate target =>
    simp only [execute, executeActivate]
    split <;> rfl
  | resolve reference =>
    simp only [execute, executeResolve]
    split <;> rfl
  | navigate target =>
    simp only [execute, executeNavigate]
    split <;> rfl
  | pushFocus target =>
    simp only [execute, executePush]
    split
    · rfl
    · split <;> rfl
  | popFocus =>
    simp only [execute, executePop]
    split <;> rfl

theorem World.Mirrors.refocused {next last : World} (mirrors : world.Mirrors link other) (here : world.Refocuses next)
    (there : other.Refocuses last) (pushed : next.pushed.length = last.pushed.length) : next.Mirrors link last where
  table := by
    rw [here.index_eq, there.index_eq]
    exact mirrors.table
  known := by
    rw [here.known_eq, there.known_eq]
    exact mirrors.known
  refs := by
    rw [here.refs_eq, there.refs_eq]
    exact mirrors.refs
  next_eq := by
    rw [here.ledger_eq, there.ledger_eq]
    exact mirrors.next_eq
  pushed_eq := pushed

section Operations
variable {bound : Nat} (mirrors : world.Mirrors (Paired one two bound) other)
  (unique : Relator.BiUnique (Paired one two bound)) (sound : world.Sound one config) (sane : other.Sound two config)

theorem World.Sound.paired (sound : world.Sound one config) (few : world.ledger.next ≤ bound + 1) {id : PlacementId}
    (registered : world.index.table.contains id = true) : ∃ twin, Paired one two bound id twin := by
  obtain ⟨number, less, same⟩ := sound.numbered id (sound.indexed.known registered)
  exact ⟨two number, number, Nat.le_of_lt_succ (Nat.lt_of_lt_of_le less few), same, rfl⟩

theorem World.Sound.pairing (sane : other.Sound two config) (few : other.ledger.next ≤ bound + 1) {twin : PlacementId}
    (registered : other.index.table.contains twin = true) : ∃ id, Paired one two bound id twin := by
  obtain ⟨number, less, same⟩ := sane.numbered twin (sane.indexed.known registered)
  exact ⟨one number, number, Nat.le_of_lt_succ (Nat.lt_of_lt_of_le less few), rfl, same⟩

include mirrors unique sound sane

/-- Worlds with other indexes, after calls about partners. -/
theorem World.Mirrors.performed {call twinCall : IndexCall} {next last : World}
    (calls : call.Mirrors (Paired one two bound) twinCall)
    (performs : IndexCall.Performs world.index call next.index)
    (twins : IndexCall.Performs other.index twinCall last.index) (after : next.Sound one config)
    (still : last.Sound two config) (few : next.ledger.next ≤ bound + 1) (same : next.ledger.next = last.ledger.next) :
    next.index.table.Mirrors (Paired one two bound) last.index.table :=
  calls.performed mirrors.table unique sound.indexed.consistent sane.indexed.consistent performs twins
    (after.paired few) (still.pairing (same ▸ few))

theorem keeps_insert (few : world.ledger.next ≤ bound) (parent : Nat) (kind : PlacedKind) (source : σ)
    (after : (executeInsert one world parent kind source).2.1.Sound one config)
    (still : (executeInsert two other parent kind source).2.1.Sound two config) :
    (executeInsert one world parent kind source).2.1.Mirrors (Paired one two bound)
        (executeInsert two other parent kind source).2.1 ∧
      (executeInsert one world parent kind source).2.2 = (executeInsert two other parent kind source).2.2 := by
  have rests := mirrors.drawPlacement_rest one two kind source
  obtain ⟨placement, rest, minted, drawn, done⟩ := executeInsert_eq one world parent kind source
  obtain ⟨twin, left, coined, also, gone⟩ := executeInsert_eq two other parent kind source
  rw [done] at after ⊢
  rw [gone] at still ⊢
  have pair : Paired one two bound placement.id twin.id := ⟨world.ledger.next, few, minted, mirrors.next_eq ▸ coined⟩
  have outer := mirrors.pick sound parent
  have both := mirrors.contains_iff sound sane parent
  rw [drawn, also] at rests
  by_cases registered : world.index.contains (world.pick parent) = true
  · rw [if_pos registered] at after ⊢
    rw [if_pos (both.mp registered)] at still ⊢
    refine ⟨⟨?_, mirrors.known.push pair, mirrors.refs, congrArg (· + 1) mirrors.next_eq, mirrors.pushed_eq⟩, rests⟩
    have performs := IndexCall.performs_insert world.index placement (world.pick parent)
    have twins := IndexCall.performs_insert other.index twin (other.pick parent)
    rw [IndexCall.perform_insert, if_pos registered] at performs
    rw [IndexCall.perform_insert, if_pos (both.mp registered)] at twins
    exact mirrors.performed unique sound sane (.insert pair outer) performs twins after still
      (Nat.succ_le_succ few) (congrArg (· + 1) mirrors.next_eq)
  · rw [if_neg registered] at after ⊢
    rw [if_neg (mt both.mpr registered)] at still ⊢
    refine ⟨⟨mirrors.table, mirrors.known, mirrors.refs, ?_, mirrors.pushed_eq⟩, rests⟩
    have next (ledger : Ledger) (object : SharedObject) : (ledger.advance.releaseAll [object]).next = ledger.next + 1 :=
      Ledger.next_releaseAll ..
    exact (next _ _).trans ((congrArg (· + 1) mirrors.next_eq).trans (next _ _).symm)

theorem keeps_withdrawal {call twinCall : IndexCall} {next last : World}
    (calls : call.Mirrors (Paired one two bound) twinCall) (here : world.Withdraws call next)
    (there : other.Withdraws twinCall last) (few : world.ledger.next ≤ bound) (after : next.Sound one config)
    (still : last.Sound two config) : next.Mirrors (Paired one two bound) last where
  table := by
    refine mirrors.performed unique sound sane calls here.performs there.performs after still ?_ ?_
    · rw [here.next_eq]
      exact Nat.le_succ_of_le few
    · rw [here.next_eq, there.next_eq, mirrors.next_eq]
  known := by
    rw [here.known_eq, there.known_eq]
    exact mirrors.known
  refs := by
    rw [here.refs_eq, there.refs_eq]
    exact mirrors.refs
  next_eq := by rw [here.next_eq, there.next_eq, mirrors.next_eq]
  pushed_eq := by rw [here.pushed_eq, there.pushed_eq, mirrors.pushed_eq]

end Operations

/-- Both hold on to the reference in the same place. -/
theorem World.Mirrors.holdRef (mirrors : world.Mirrors link other) {held twin : ObjectRef}
    (leads : Leads link held twin) (source : σ) :
    (holdRef world held source).1.Mirrors link (holdRef other twin source).1 ∧
      (holdRef world held source).2 = (holdRef other twin source).2 := by
  have released (ledger : Ledger) (objects : List SharedObject) : (ledger.releaseAll objects).next = ledger.next :=
    Ledger.next_releaseAll ..
  unfold Simulator.holdRef
  rw [← mirrors.refs.size_eq]
  split
  · exact ⟨{ mirrors with refs := mirrors.refs.push leads }, rfl⟩
  · refine ⟨{ mirrors with refs := mirrors.refs.set _ leads, next_eq := ?_ }, rfl⟩
    exact (released _ _).trans (mirrors.next_eq.trans (released _ _).symm)

theorem keeps_activation (mirrors : world.Mirrors link other) (sound : world.Sound one config)
    (sane : other.Sound two config) (target : Nat) (source : σ) :
    (executeActivate world target source).2.1.Mirrors link (executeActivate other target source).2.1 ∧
      (executeActivate world target source).2.2 = (executeActivate other target source).2.2 := by
  have both := mirrors.contains_iff sound sane target
  by_cases registered : world.index.contains (world.pick target) = true
  · obtain ⟨placement, found⟩ := Index.find_registered registered
    obtain ⟨twin, also⟩ := Index.find_registered (both.mp registered)
    rw [executeActivate_found found, executeActivate_found also]
    have retained : World.Mirrors link { world with ledger := world.ledger.retain placement.object }
        { other with ledger := other.ledger.retain twin.object } := { mirrors with next_eq := mirrors.next_eq }
    exact retained.holdRef ⟨_, _, rfl, rfl, mirrors.pick sound target⟩ source
  · rw [executeActivate_missing registered, executeActivate_missing (mt both.mpr registered)]
    exact ⟨mirrors, rfl⟩

section Operation
variable {bound : Nat} (mirrors : world.Mirrors (Paired one two bound) other)
  (first : Set.InjOn one (Set.Iic bound)) (second : Set.InjOn two (Set.Iic bound)) (sound : world.Sound one config)
  (sane : other.Sound two config) {effect twinEffect : Effect} {next last : World}
  (carried : Carried one config world operation effect next)
  (twin : Carried two config other operation twinEffect last)
include mirrors first second sound sane carried twin

theorem World.Mirrors.outcome_eq : effect.outcome = twinEffect.outcome := by
  have unique := paired_biUnique first second
  have beyond := mirrors.leadsBeyond_iff sound sane unique config.maxPathDepth operation
  by_cases leads : world.LeadsBeyond config.maxPathDepth operation
  · rw [carried.beyond leads, twin.beyond (beyond.mp leads)]
  · rw [carried.within leads, twin.within (mt beyond.mpr leads), mirrors.predict_eq sound sane unique operation]

theorem World.Mirrors.effect_eq (after : next.Mirrors (Paired one two bound) last)
    (inserted : effect.inserted = twinEffect.inserted) (balanced : Balanced world effect next)
    (also : Balanced other twinEffect last) : effect = twinEffect := by
  have unique := paired_biUnique first second
  refine Effect.ext (mirrors.outcome_eq first second sound sane carried twin)
    (carried.faultless.trans twin.faultless.symm) inserted ?_
  have before := mirrors.table.size_eq unique sound.indexed.consistent sane.indexed.consistent
  have behind := after.table.size_eq unique carried.sound.indexed.consistent twin.sound.indexed.consistent
  unfold Balanced at balanced also
  omega

end Operation

section Execute
variable {bound : Nat} (mirrors : world.Mirrors (Paired one two bound) other)
  (first : Set.InjOn one (Set.Iic bound)) (second : Set.InjOn two (Set.Iic bound)) (sound : world.Sound one config)
  (sane : other.Sound two config) (few : world.ledger.next ≤ bound)
include mirrors first second sound sane few

/-- The worlds agree after an operation as they did before. -/
theorem World.Mirrors.execute (operation : Operation) (source : σ) :
    (execute one world operation source).2.1.Mirrors (Paired one two bound) (execute two other operation source).2.1 ∧
      (execute one world operation source).2.2 = (execute two other operation source).2.2 := by
  have unique := paired_biUnique first second
  have carried := sound.execute (first.mono (Set.Iic_subset_Iic.mpr few)) operation source
  have twin := sane.execute (second.mono (Set.Iic_subset_Iic.mpr (mirrors.next_eq ▸ few))) operation source
  cases operation with
  | insert parent kind => exact keeps_insert mirrors unique sound sane few parent kind source carried.sound twin.sound
  | remove target =>
    have here := executeRemove_withdraws sound.indexed.consistent target
    have there := executeRemove_withdraws sane.indexed.consistent target
    exact ⟨keeps_withdrawal mirrors unique sound sane (.remove (mirrors.pick sound target)) here there few
      carried.sound twin.sound, rfl⟩
  | clearScope target =>
    have here := executeClear_withdraws sound.indexed.consistent target
    have there := executeClear_withdraws sane.indexed.consistent target
    exact ⟨keeps_withdrawal mirrors unique sound sane (.clearScope (mirrors.pick sound target)) here there few
      carried.sound twin.sound, rfl⟩
  | activate target => exact keeps_activation mirrors sound sane target source
  | resolve reference => exact ⟨mirrors, rfl⟩
  | navigate target =>
    obtain ⟨here, pushed⟩ := executeNavigate_refocuses world target
    obtain ⟨there, also⟩ := executeNavigate_refocuses other target
    have handles : (executeNavigate world target).2.pushed.length = (executeNavigate other target).2.pushed.length := by
      rw [pushed, also, mirrors.pushed_eq]
    exact ⟨mirrors.refocused here there handles, rfl⟩
  | pushFocus target =>
    obtain ⟨here, pushed⟩ := executePush_refocuses world target
    obtain ⟨there, also⟩ := executePush_refocuses other target
    have same : (executePush world target).1.outcome = (executePush other target).1.outcome :=
      mirrors.outcome_eq first second sound sane carried twin
    rw [same, mirrors.pushed_eq] at pushed
    exact ⟨mirrors.refocused here there (pushed.trans also.symm), rfl⟩
  | popFocus =>
    obtain ⟨here, pushed⟩ := executePop_refocuses world
    obtain ⟨there, also⟩ := executePop_refocuses other
    rw [mirrors.pushed_eq] at pushed
    exact ⟨mirrors.refocused here there (pushed.trans also.symm), rfl⟩

/-- An operation comes to the same in both worlds. -/
theorem World.Mirrors.effect_execute (operation : Operation) (source : σ) :
    (Simulator.execute one world operation source).1 = (Simulator.execute two other operation source).1 := by
  have room := first.mono (Set.Iic_subset_Iic.mpr few)
  have left := second.mono (Set.Iic_subset_Iic.mpr (mirrors.next_eq ▸ few))
  have carried := sound.execute room operation source
  have twin := sane.execute left operation source
  refine mirrors.effect_eq first second sound sane carried twin (mirrors.execute first second sound sane few _ _).1 ?_
    (execute_balanced sound room operation source) (execute_balanced sane left operation source)
  rw [inserted_execute, inserted_execute, mirrors.outcome_eq first second sound sane carried twin]

end Execute

end MediaSession.Simulator
