import Mathlib.Data.List.DropRight
import MediaSession.Proofs.Index.TreeShape

/-!
The index as a function of its history. Which placements are registered, with which pins and in which
scopes, can be read off the log of events alone, by what was done since each insertion to the placement and
to the scopes it was inserted below.
-/
namespace MediaSession

/-- The scope is on the chain of scopes that an identity was inserted below. -/
inductive InsertedBelow (log : List Event) (scope : PlacementId) : PlacementId → Prop where
  | direct {placement : Placement} (inserted : .inserted placement scope ∈ log) :
      InsertedBelow log scope placement.id
  | nested {placement : Placement} {within : PlacementId} (inserted : .inserted placement within ∈ log)
      (outer : InsertedBelow log scope within) : InsertedBelow log scope placement.id

/-- The event takes out an identity: removed on its own, or with itself or a scope around it. To clear the
index is to clear the root, which every chain ends with. -/
def Event.Evicts (log : List Event) (id : PlacementId) : Event → Prop
  | .removed other => other = id
  | .cleared scope => scope = id ∨ InsertedBelow log scope id
  | _ => False

/-- The placement was inserted into the scope, and none of the events since has taken it out. -/
def Standing (log : List Event) (placement : Placement) (scope : PlacementId) (since : List Event) : Prop :=
  ∃ before, log = before ++ .inserted placement scope :: since ∧
    ∀ event ∈ since, ¬ event.Evicts log placement.id

/-- Edits made to the pin of an identity, in order. -/
def pinEdits (id : PlacementId) (log : List Event) : List PinEdit :=
  log.flatMap fun
    | .pinned other edits => if other = id then edits else []
    | _ => []

/-- Pins that edits add, whether or not a reset drops them again. -/
def pushes (edits : List PinEdit) : List Pin :=
  edits.filterMap fun
    | .push pin => some pin
    | .reset => none

/-- What edits leave of some pins: the pins pushed since the last reset, behind the ones that were there before if
there was no reset. -/
def pinsAfter (pins : List Pin) (edits : List PinEdit) : List Pin :=
  if .reset ∈ edits then pushes (edits.rtakeWhile fun edit => edit ≠ .reset) else pins ++ pushes edits

/-- A placement with the pins that edits leave of its own. -/
def Placement.repinned (placement : Placement) (edits : List PinEdit) : Placement :=
  { placement with pin.pins := pinsAfter placement.pin.pins edits }

/-- The entries a log tells of, that of the root included. -/
inductive Recalled (root : Placement) (log : List Event) : PlacementId → Entry → Prop where
  | root : Recalled root log root.id ⟨root.edit (pinEdits root.id log), root.id⟩
  | standing {placement : Placement} {scope : PlacementId} {since : List Event}
      (stands : Standing log placement scope since) :
      Recalled root log placement.id ⟨placement.edit (pinEdits placement.id since), scope⟩

theorem pinsAfter_push (pins : List Pin) (edits : List PinEdit) (pin : Pin) :
    pinsAfter pins (edits ++ [.push pin]) = pinsAfter pins edits ++ [pin] := by
  by_cases cut : .reset ∈ edits
  · rw [pinsAfter, if_pos (List.mem_append_left _ cut), pinsAfter, if_pos cut,
      List.rtakeWhile_concat_pos _ _ _ (by simp), pushes, List.filterMap_append]
    rfl
  · rw [pinsAfter, if_neg (by simpa using cut), pinsAfter, if_neg cut, pushes, List.filterMap_append,
      ← List.append_assoc]
    rfl

theorem pinsAfter_reset (pins : List Pin) (edits : List PinEdit) : pinsAfter pins (edits ++ [.reset]) = [] := by
  rw [pinsAfter, if_pos (by simp), List.rtakeWhile_concat_neg _ _ _ (by simp)]
  rfl

theorem PinChain.edit_eq (chain : PinChain) (edits : List PinEdit) :
    chain.edit edits = ⟨pinsAfter chain.pins edits⟩ := by
  induction edits using List.reverseRecOn with
  | nil => simp [edit, pinsAfter, pushes]
  | append_singleton edits last ih =>
    have step : chain.edit (edits ++ [last]) = last.apply (chain.edit edits) := List.foldl_concat ..
    rw [step, ih]
    cases last with
    | push pin => rw [pinsAfter_push]; rfl
    | reset => rw [pinsAfter_reset]; rfl

theorem Placement.edit_eq (placement : Placement) (edits : List PinEdit) :
    placement.edit edits = placement.repinned edits := by
  rw [edit, PinChain.edit_eq, repinned]

theorem pinEdits_append (id : PlacementId) (log since : List Event) :
    pinEdits id (log ++ since) = pinEdits id log ++ pinEdits id since := List.flatMap_append

theorem Placement.edit_append (placement : Placement) (first second : List PinEdit) :
    placement.edit (first ++ second) = (placement.edit first).edit second := by
  simp [Placement.edit, PinChain.edit, List.foldl_append]

theorem Standing.inserted {log since : List Event} {placement : Placement} {scope : PlacementId}
    (stands : Standing log placement scope since) : .inserted placement scope ∈ log := by
  obtain ⟨before, same, _⟩ := stands
  rw [same]
  exact List.mem_append_right _ (List.mem_cons_self ..)

/-- Every identity an insertion names is among those used, and none is inserted twice, nor the root. -/
structure LogSound (root : PlacementId) (used : List PlacementId) (log : List Event) : Prop where
  known : ∀ {placement scope}, .inserted placement scope ∈ log →
    placement.id ∈ used ∧ scope ∈ used ∧ placement.id ≠ root
  once : ∀ {first second scope within}, .inserted first scope ∈ log → .inserted second within ∈ log →
    first.id = second.id → first = second ∧ scope = within

section Append
variable {root : Placement} {used : List PlacementId} {log : List Event} {event : Event} {id : PlacementId}

theorem InsertedBelow.mono {more : List Event} {scope : PlacementId} (below : InsertedBelow log scope id) :
    InsertedBelow (log ++ more) scope id := by
  induction below with
  | direct inserted => exact .direct (List.mem_append_left _ inserted)
  | nested inserted _ ih => exact .nested (List.mem_append_left _ inserted) ih

/-- What is inserted later does not move what was inserted before. -/
theorem insertedBelow_append_iff (sound : LogSound root.id used log)
    (fresh : ∀ {placement scope}, event = .inserted placement scope → placement.id ∉ used)
    (old : id ∈ used) (scope : PlacementId) :
    InsertedBelow (log ++ [event]) scope id ↔ InsertedBelow log scope id := by
  refine ⟨fun below => ?_, .mono⟩
  have earlier {placement : Placement} {within : PlacementId} (old : placement.id ∈ used)
      (inserted : .inserted placement within ∈ log ++ [event]) : .inserted placement within ∈ log := by
    rcases List.mem_append.mp inserted with before | last
    · exact before
    · exact absurd old (fresh (List.mem_singleton.mp last).symm)
  induction below with
  | direct inserted => exact .direct (earlier old inserted)
  | nested inserted _ ih =>
    have before := earlier old inserted
    exact .nested before (ih (sound.known before).2.1)

theorem evicts_append_iff (sound : LogSound root.id used log)
    (fresh : ∀ {placement scope}, event = .inserted placement scope → placement.id ∉ used)
    (old : id ∈ used) (other : Event) : other.Evicts (log ++ [event]) id ↔ other.Evicts log id := by
  cases other with
  | cleared scope => exact or_congr_right (insertedBelow_append_iff sound fresh old scope)
  | inserted _ _ | pinned _ _ | removed _ => exact Iff.rfl

/-- Standing after one more event: inserted by it, or standing before and not taken out by it. -/
theorem standing_append_iff (sound : LogSound root.id used log)
    (fresh : ∀ {placement scope}, event = .inserted placement scope → placement.id ∉ used)
    {placement : Placement} {scope : PlacementId} {since : List Event} :
    Standing (log ++ [event]) placement scope since ↔
      (event = .inserted placement scope ∧ since = []) ∨
        ∃ earlier, since = earlier ++ [event] ∧ Standing log placement scope earlier ∧
          ¬ event.Evicts log placement.id := by
  constructor
  · rintro ⟨before, same, kept⟩
    rcases List.eq_nil_or_concat since with nothing | ⟨earlier, last, whole⟩
    · subst nothing
      exact .inl ⟨List.singleton_inj.mp (List.append_inj' same rfl).2, rfl⟩
    · rw [List.concat_eq_append] at whole
      rw [whole, ← List.cons_append, ← List.append_assoc] at same
      obtain ⟨split, final⟩ := List.append_inj' same rfl
      cases final
      have inserted : .inserted placement scope ∈ log := by rw [split]; simp
      have old : placement.id ∈ used := (sound.known inserted).1
      subst whole
      simp only [evicts_append_iff sound fresh old] at kept
      refine .inr ⟨earlier, rfl, ⟨before, split, fun other member => kept other (by simp [member])⟩, ?_⟩
      exact kept event (by simp)
  · rintro (⟨same, nothing⟩ | ⟨earlier, whole, stands, kept⟩)
    · subst same nothing
      exact ⟨log, rfl, by simp⟩
    · have old : placement.id ∈ used := (sound.known stands.inserted).1
      obtain ⟨before, split, stayed⟩ := stands
      refine ⟨before, by rw [whole, split]; simp, ?_⟩
      intro other member
      rw [evicts_append_iff sound fresh old]
      rw [whole] at member
      rcases List.mem_append.mp member with before | last
      · exact stayed other before
      · exact List.mem_singleton.mp last ▸ kept

/-- What a log tells with one more event. -/
theorem recalled_append_iff (sound : LogSound root.id used log)
    (fresh : ∀ {placement scope}, event = .inserted placement scope → placement.id ∉ used)
    {entry : Entry} :
    Recalled root (log ++ [event]) id entry ↔
      (∃ placement scope, event = .inserted placement scope ∧ placement.id = id ∧ entry = ⟨placement, scope⟩) ∨
        ∃ before, Recalled root log id before ∧ (id ≠ root.id → ¬ event.Evicts log id) ∧
          entry = ⟨before.placement.edit (pinEdits id [event]), before.scope⟩ := by
  constructor
  · intro recalled
    cases recalled with
    | root =>
      refine .inr ⟨_, .root, fun inner => absurd rfl inner, ?_⟩
      rw [pinEdits_append, Placement.edit_append]
    | @standing placement scope since stands =>
      rcases (standing_append_iff sound fresh).mp stands with ⟨same, nothing⟩ | ⟨earlier, whole, before, kept⟩
      · subst nothing
        exact .inl ⟨placement, scope, same, rfl, rfl⟩
      · refine .inr ⟨_, .standing before, fun _ => kept, ?_⟩
        rw [whole, pinEdits_append, Placement.edit_append]
  · rintro (⟨placement, scope, same, here, made⟩ | ⟨before, recalled, kept, made⟩)
    · subst here made
      exact .standing ((standing_append_iff sound fresh).mpr (.inl ⟨same, rfl⟩))
    · subst made
      cases recalled with
      | root =>
        rw [← Placement.edit_append, ← pinEdits_append]
        exact .root
      | @standing placement scope since stands =>
        rw [← Placement.edit_append, ← pinEdits_append]
        have inner := (sound.known stands.inserted).2.2
        exact .standing ((standing_append_iff sound fresh).mpr (.inr ⟨since, rfl, stands, kept inner⟩))

theorem LogSound.mono {more : List PlacementId} (sound : LogSound root.id used log) :
    LogSound root.id (used ++ more) log where
  known inserted :=
    have ⟨known, outer, inner⟩ := sound.known inserted
    ⟨List.mem_append_left _ known, List.mem_append_left _ outer, inner⟩
  once := sound.once

theorem LogSound.append (sound : LogSound root.id used log) {more : List PlacementId}
    (fresh : ∀ {placement scope}, event = .inserted placement scope → placement.id ∉ used)
    (new : ∀ {placement scope}, event = .inserted placement scope →
      placement.id ∈ more ∧ scope ∈ used ∧ placement.id ≠ root.id) :
    LogSound root.id (used ++ more) (log ++ [event]) where
  known inserted := by
    rcases List.mem_append.mp inserted with before | last
    · exact sound.mono.known before
    · obtain ⟨offered, outer, inner⟩ := new (List.mem_singleton.mp last).symm
      exact ⟨List.mem_append_right _ offered, List.mem_append_left _ outer, inner⟩
  once {first second scope within} one other same := by
    rcases List.mem_append.mp one with before | last
    · rcases List.mem_append.mp other with earlier | final
      · exact sound.once before earlier same
      · exact absurd (same ▸ (sound.known before).1) (fresh (List.mem_singleton.mp final).symm)
    · rcases List.mem_append.mp other with earlier | final
      · exact absurd (same.symm ▸ (sound.known earlier).1) (fresh (List.mem_singleton.mp last).symm)
      · have equal := (List.mem_singleton.mp last).trans (List.mem_singleton.mp final).symm
        cases equal
        exact ⟨rfl, rfl⟩

end Append

/-- The tables hold exactly the entries that the log tells of. -/
structure Recorded.Refines (root : Placement) (used : List PlacementId) (state : Recorded) : Prop where
  sound : state.index.Sound used
  rooted : state.index.rootId = root.id
  log_sound : LogSound root.id used state.log
  entry_iff : ∀ id entry, state.index.table.entry? id = some entry ↔ Recalled root state.log id entry

namespace Recorded.Refines
variable {root : Placement} {used : List PlacementId} {state : Recorded} {id scope : PlacementId}

theorem inserted_of_scope? (refines : state.Refines root used)
    (inside : state.index.table.scope? id = some scope) (inner : id ≠ root.id) :
    ∃ placement, placement.id = id ∧ .inserted placement scope ∈ state.log := by
  obtain ⟨entry, found, same⟩ := Option.map_eq_some_iff.mp inside
  cases (refines.entry_iff id entry).mp found with
  | root => exact absurd rfl inner
  | @standing placement within since stands => exact ⟨placement, rfl, same ▸ stands.inserted⟩

theorem scope?_of_inserted (refines : state.Refines root used) {placement : Placement}
    (inserted : .inserted placement scope ∈ state.log)
    (registered : state.index.table.contains placement.id = true) :
    state.index.table.scope? placement.id = some scope := by
  obtain ⟨within, inside⟩ := (Table.contains_iff_scope? ..).mp registered
  obtain ⟨other, same, earlier⟩ := refines.inserted_of_scope? inside (refines.log_sound.known inserted).2.2
  rw [inside, (refines.log_sound.once inserted earlier same.symm).2]

/-- The scopes above a registered placement are those it was inserted below. -/
theorem below_iff (refines : state.Refines root used) (registered : state.index.table.contains id = true) :
    state.index.table.Below scope id ↔ InsertedBelow state.log scope id := by
  have valid := refines.sound.consistent
  have rooted : state.index.table.root = root.id := refines.rooted
  constructor
  · intro below
    induction below with
    | single listed =>
      obtain ⟨inner, inside⟩ := valid.mem_members_iff.mp listed
      obtain ⟨placement, same, inserted⟩ := refines.inserted_of_scope? inside (rooted ▸ inner)
      exact same ▸ .direct inserted
    | tail _ listed ih =>
      obtain ⟨inner, inside⟩ := valid.mem_members_iff.mp listed
      obtain ⟨placement, same, inserted⟩ := refines.inserted_of_scope? inside (rooted ▸ inner)
      exact same ▸ .nested inserted (ih (valid.contains_scope inside))
  · intro below
    induction below with
    | direct inserted =>
      have inside := refines.scope?_of_inserted inserted registered
      have inner := (refines.log_sound.known inserted).2.2
      exact .single (valid.mem_members_iff.mpr ⟨rooted.symm ▸ inner, inside⟩)
    | nested inserted _ ih =>
      have inside := refines.scope?_of_inserted inserted registered
      have inner := (refines.log_sound.known inserted).2.2
      exact .tail (ih (valid.contains_scope inside)) (valid.mem_members_iff.mpr ⟨rooted.symm ▸ inner, inside⟩)

theorem contains_of_recalled (refines : state.Refines root used) {entry : Entry}
    (recalled : Recalled root state.log id entry) : state.index.table.contains id = true :=
  (Table.contains_iff ..).mpr ⟨entry, (refines.entry_iff id entry).mpr recalled⟩

/-- The tables after an event hold what the log with that event tells of. -/
theorem entry_iff_of_effect (refines : state.Refines root used) {event : Event} {rest : Table}
    (effect : Table.Effect state.index.table (some event) rest)
    (fresh : ∀ {placement scope}, event = .inserted placement scope → placement.id ∉ used) (entry : Entry) :
    rest.entry? id = some entry ↔ Recalled root (state.log ++ [event]) id entry := by
  have valid := refines.sound.consistent
  have rooted : state.index.table.root = root.id := refines.rooted
  have unedited (placement : Placement) : placement.edit [] = placement := rfl
  rw [recalled_append_iff refines.log_sound fresh]
  cases effect with
  | @inserted placement scope registered =>
    rw [Table.entry?_add]
    split
    · rename_i here
      subst here
      have unknown (before : Entry) : ¬ Recalled root state.log placement.id before :=
        fun recalled => fresh rfl (refines.sound.known (refines.contains_of_recalled recalled))
      simp [unknown, eq_comm]
    · rename_i elsewhere
      rw [refines.entry_iff]
      simp [elsewhere, Event.Evicts, pinEdits, unedited]
  | @pinned edited edits registered =>
    rw [Table.entry?_editPin]
    split
    · rename_i here
      subst here
      rw [Option.map_eq_some_iff]
      simp [refines.entry_iff, Event.Evicts, pinEdits, @eq_comm _ entry]
    · rename_i elsewhere
      rw [refines.entry_iff]
      simp [elsewhere, Event.Evicts, pinEdits, unedited]
  | @removed gone rest inner leaf pruned =>
    by_cases here : id = gone
    · subst here
      rw [pruned.entry_gone rfl]
      simp [Event.Evicts, rooted ▸ inner]
    · rw [pruned.entry_kept here, refines.entry_iff]
      simp [Event.Evicts, Ne.symm here, pinEdits, unedited]
  | @cleared scope rest pruned =>
    have taken (registered : state.index.table.contains id = true) :
        state.index.table.Cleared scope id ↔ id ≠ root.id ∧ Event.Evicts state.log id (.cleared scope) := by
      rw [Table.Cleared, rooted, Event.Evicts, Relation.reflTransGen_iff_eq_or_transGen,
        ← refines.below_iff registered, Table.Below, @eq_comm _ id scope]
    by_cases out : state.index.table.Cleared scope id
    · rw [pruned.entry_gone out]
      constructor
      · intro missing
        cases missing
      · rintro (⟨_, _, impossible, _⟩ | ⟨before, recalled, kept, _⟩)
        · cases impossible
        · have evicted := (taken (refines.contains_of_recalled recalled)).mp out
          exact absurd evicted.2 (kept evicted.1)
    · rw [pruned.entry_kept out, refines.entry_iff]
      constructor
      · intro recalled
        have stays := mt (taken (refines.contains_of_recalled recalled)).mpr out
        exact .inr ⟨entry, recalled, fun inner evicted => stays ⟨inner, evicted⟩, rfl⟩
      · rintro (⟨_, _, impossible, _⟩ | ⟨before, recalled, _, made⟩)
        · cases impossible
        · exact made ▸ recalled

end Recorded.Refines

theorem Recorded.start_refines (root : Placement) (maxPathDepth : Nat) :
    Refines root [root.id] ⟨.ofRoot root maxPathDepth, []⟩ where
  sound := Index.ofRoot_sound root maxPathDepth
  rooted := rfl
  log_sound := ⟨fun inserted => absurd inserted List.not_mem_nil,
    fun inserted => absurd inserted List.not_mem_nil⟩
  entry_iff id entry := by
    change Table.entry? (.ofRoot root) id = some entry ↔ _
    rw [Table.entry?_ofRoot]
    constructor
    · intro found
      split at found
      · rename_i here
        cases found
        exact here ▸ .root
      · cases found
    · intro recalled
      cases recalled with
      | root => rw [if_pos rfl]; rfl
      | standing stands => exact absurd stands.inserted List.not_mem_nil

/-- One call, succeeding or failing, keeps the index what its log tells. -/
theorem Recorded.step_refines {root : Placement} {used : List PlacementId} {state : Recorded}
    (mutation : Mutation) (refines : state.Refines root used) (fresh : (used ++ mutation.offered).Nodup) :
    (state.step mutation).Refines root (used ++ mutation.offered) := by
  unfold step
  split
  · rename_i after event success
    have sound := refines.sound.apply fresh success
    have effect := (Mutation.apply_effect refines.sound.consistent success).2
    have rooted : after.rootId = root.id := effect.root_eq.trans refines.rooted
    cases event with
    | none =>
      refine ⟨sound, rooted, ?_, ?_⟩
      · simpa using refines.log_sound.mono
      · rw [effect.eq_of_none]
        simpa using refines.entry_iff
    | some event =>
      have unused {placement : Placement} {scope : PlacementId} (same : event = .inserted placement scope) :
          placement.id ∉ used := Mutation.inserted_unused fresh (same ▸ success)
      refine ⟨sound, rooted, refines.log_sound.append unused ?_, fun id entry => ?_⟩
      · intro placement scope same
        subst same
        refine ⟨Mutation.inserted_offered success, refines.sound.known effect.contains_of_inserted, ?_⟩
        intro rootless
        have known := refines.sound.known refines.sound.consistent.contains_root
        exact unused rfl (rootless ▸ refines.rooted ▸ known)
      · exact refines.entry_iff_of_effect effect unused entry
  · exact ⟨refines.sound.mono, refines.rooted, refines.log_sound.mono, refines.entry_iff⟩

theorem Recorded.run_refines (root : Placement) (maxPathDepth : Nat) (mutations : List Mutation)
    (fresh : FreshIds root.id mutations) :
    (run root maxPathDepth mutations).Refines root (root.id :: mutations.flatMap Mutation.offered) :=
  foldl_fresh_induction step Mutation.offered (fun used state => state.Refines root used)
    step_refines [root.id] _ (start_refines root maxPathDepth) mutations fresh

/-- The index holds the placement in the scope, and every reference of a fitting type shows it. -/
structure Index.Shows (index : Index) (placement : Placement) (scope : PlacementId) : Prop where
  find_eq : index.find placement.id = .ok placement
  scopeOf_eq : index.scopeOf placement.id = .ok scope
  resolve_eq : ∀ reference : PlacementRef, reference.id = some placement.id →
    placement.admits reference.view = true → reference.resolve index = .ok placement
  placement_eq : ∀ reference : ObjectRef, reference.id = some placement.id →
    placement.admits reference.view = true → reference.placement index = .ok placement

theorem Index.shows_of_entry {index : Index} {placement : Placement} {scope : PlacementId}
    (found : index.table.entry? placement.id = some ⟨placement, scope⟩) : index.Shows placement scope := by
  have find_eq : index.find placement.id = .ok placement := by simp [find, found]
  have resolve_eq (reference : PlacementRef) (bound : reference.id = some placement.id)
      (admitted : placement.admits reference.view = true) : reference.resolve index = .ok placement := by
    simp [PlacementRef.resolve, PlacementRef.locate, findAs, bound, find_eq, admitted, Bind.bind, Except.bind,
      Pure.pure, Except.pure]
  refine ⟨find_eq, by simp [scopeOf, found], resolve_eq, fun reference bound admitted => ?_⟩
  have active : reference.isActive = true := by
    obtain ⟨object, shared, _⟩ := Option.bind_eq_some_iff.mp bound
    rw [ObjectRef.isActive, shared]
    rfl
  rw [ObjectRef.placement, if_pos active]
  exact resolve_eq reference.placementRef (reference.id_eq_placementRef_id ▸ bound) admitted

/-- Every run leaves the index as its log tells: registered is the root and what still stands, each found
in the scope it was inserted into, and with the pins that the edits made to it since leave of those it came with. -/
theorem run_shows_history (root : Placement) (maxPathDepth : Nat) (mutations : List Mutation)
    (fresh : FreshIds root.id mutations) :
    let final := Recorded.run root maxPathDepth mutations
    (∀ id, final.index.contains id = true ↔
      id = root.id ∨ ∃ placement scope since, placement.id = id ∧ Standing final.log placement scope since) ∧
    (∀ placement scope since, Standing final.log placement scope since →
      final.index.Shows (placement.repinned (pinEdits placement.id since)) scope) ∧
    final.index.Shows (root.repinned (pinEdits root.id final.log)) root.id := by
  intro final
  have refines : final.Refines root _ := Recorded.run_refines root maxPathDepth mutations fresh
  refine ⟨fun id => ?_, ?_, ?_⟩
  · rw [Index.contains, Table.contains_iff]
    simp only [refines.entry_iff]
    constructor
    · rintro ⟨entry, recalled⟩
      cases recalled with
      | root => exact .inl rfl
      | @standing placement scope since stands => exact .inr ⟨placement, scope, since, rfl, stands⟩
    · rintro (same | ⟨placement, scope, since, same, stands⟩)
      · subst same
        exact ⟨_, Recalled.root⟩
      · subst same
        exact ⟨_, Recalled.standing stands⟩
  · intro placement scope since stands
    rw [← placement.edit_eq]
    exact Index.shows_of_entry ((refines.entry_iff ..).mpr (.standing stands))
  · rw [← root.edit_eq]
    exact Index.shows_of_entry ((refines.entry_iff ..).mpr .root)

theorem run_shows_history_trial :
    let final := Recorded.run Trial.root 5 Trial.mutations
    let since : List Event :=
      [.inserted Trial.part Trial.track.id, .inserted Trial.echo Trial.part.id,
        .pinned Trial.track.id [.push (.wiring "left"), .push (.relative .zero)], .removed Trial.echo.id,
        .cleared Trial.part.id, .pinned Trial.track.id [.reset, .push (.wiring "right")]]
    FreshIds Trial.root.id Trial.mutations ∧ Standing final.log Trial.track Trial.root.id since ∧
    final.index.Shows { Trial.track with pin := ⟨[.wiring "right"]⟩ } Trial.root.id ∧
    ¬ ∃ placement scope since, placement.id = Trial.part.id ∧ Standing final.log placement scope since := by
  intro final since
  have fresh : FreshIds Trial.root.id Trial.mutations := by decide
  obtain ⟨registered, shown, _⟩ := run_shows_history Trial.root 5 Trial.mutations fresh
  have whole : final.log = .inserted Trial.track Trial.root.id :: since := by decide +kernel
  have kept : final.index.contains Trial.track.id = true := by decide +kernel
  have stands : Standing final.log Trial.track Trial.root.id since := by
    obtain ⟨placement, scope, later, same, before, split, stayed⟩ :=
      ((registered Trial.track.id).mp kept).resolve_left (by decide)
    rw [whole] at split
    cases before with
    | nil =>
      cases split
      exact ⟨[], whole, stayed⟩
    | cons first before =>
      have again : .inserted placement scope ∈ since := by
        rw [(List.cons.inj split).2]
        exact List.mem_append_right _ (List.mem_cons_self ..)
      simp only [since, List.mem_cons, Event.inserted.injEq, reduceCtorEq, List.not_mem_nil, or_false] at again
      rcases again with ⟨other, _⟩ | ⟨other, _⟩ <;> exact absurd (other ▸ same) (by decide)
  have gone : final.index.contains Trial.part.id ≠ true := by decide +kernel
  exact ⟨fresh, stands, shown _ _ _ stands, fun stands => gone ((registered _).mpr (.inr stands))⟩

end MediaSession
