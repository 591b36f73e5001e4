import MediaSession.Proofs.Index.Run
import MediaSession.Proofs.Table.Conservation

/-!
The removal worklist turn by turn, on any tables whatever. Every turn takes a waiting identity out and lets its members
wait in its place, so that one thing less is outstanding; the worklist therefore comes to its end even where member
lists run in circles, and what is left then is told by memberships alone.
-/
namespace MediaSession

/-- The worklist between two turns. -/
structure Worklist where
  table : Table
  pending : List PlacementId
  removed : List Placement

namespace Worklist

/-- Identities that wait, and those that are listed where they may still be found. -/
def outstanding (work : Worklist) : Nat := work.pending.length + work.table.memberships

/-- One turn, as long as an identity waits. -/
inductive Turn : Worklist → Worklist → Prop where
  | take (table : Table) (id : PlacementId) (pending : List PlacementId) (removed : List Placement) :
      Turn ⟨table, id :: pending, removed⟩
        ⟨table.takeOut id, (table.members id).reverse ++ pending,
          (table.entry? id).toList.map Entry.placement ++ removed⟩

variable {work next last : Worklist}

/-- A member list that is taken goes over to the identities that wait. -/
theorem Turn.outstanding_succ (turn : Turn work next) : next.outstanding + 1 = work.outstanding := by
  cases turn with
  | take table id pending removed =>
    have kept := (table.takeOut_cutAt id).memberships_eq
    simp only [outstanding, List.length_append, List.length_reverse, List.length_cons]
    omega

theorem Turn.unique : Relator.RightUnique Turn := by
  intro work next other one two
  cases one
  cases two
  rfl

/-- No worklist goes on for ever. -/
theorem turn_wellFounded : WellFounded fun next work => Turn work next := by
  apply Subrelation.wf ?_ (measure outstanding).wf
  intro next work turn
  exact Nat.lt_of_succ_le (Nat.le_of_eq turn.outstanding_succ)

/-- Turns end where nothing waits. -/
theorem ended_iff : (∀ next, ¬ Turn work next) ↔ work.pending = [] := by
  obtain ⟨table, pending, removed⟩ := work
  cases pending with
  | nil => exact iff_of_true nofun rfl
  | cons id pending => exact iff_of_false (fun ended => ended _ (.take ..)) (List.cons_ne_nil _ _)

/-- There is one end that turns can lead to. -/
theorem end_unique (first : Relation.ReflTransGen Turn work last) (ended : last.pending = [])
    (second : Relation.ReflTransGen Turn work next) (closed : next.pending = []) : last = next := by
  rcases Relation.ReflTransGen.total_of_right_unique Turn.unique first second with onward | onward
  · rcases onward.cases_head with same | ⟨_, turn, _⟩
    · exact same
    · exact absurd turn (ended_iff.mpr ended _)
  · rcases onward.cases_head with same | ⟨_, turn, _⟩
    · exact same.symm
    · exact absurd turn (ended_iff.mpr closed _)

end Worklist

namespace Table

open Worklist (Turn)

/-- With fuel for all that is outstanding, a sweep takes every turn there is. -/
theorem sweep_turns (fuel : Nat) (table : Table) (pending : List PlacementId) (removed : List Placement)
    (enough : (Worklist.mk table pending removed).outstanding ≤ fuel) :
    Relation.ReflTransGen Turn ⟨table, pending, removed⟩
      ⟨(sweep fuel table pending removed).1, [], (sweep fuel table pending removed).2⟩ := by
  induction fuel generalizing table pending removed with
  | zero =>
    have nothing : pending = [] := List.length_eq_zero_iff.mp (by simp only [Worklist.outstanding] at enough; omega)
    subst nothing
    exact .refl
  | succ fuel ih =>
    cases pending with
    | nil => exact .refl
    | cons id pending =>
      have turn := Turn.take table id pending removed
      have fewer := Nat.le_of_succ_le_succ (turn.outstanding_succ ▸ enough)
      have onward := ih _ _ _ fewer
      have same : sweep (fuel + 1) table (id :: pending) removed =
          sweep fuel (table.takeOut id) ((table.members id).reverse ++ pending)
            ((table.entry? id).toList.map Entry.placement ++ removed) := by
        rw [sweep]
        cases table.entry? id <;> rfl
      rw [same]
      exact .head turn onward

/-- Where the removal of all that is below a scope starts: the member list of the scope is taken, its members wait. -/
def belowWork (table : Table) (scope : PlacementId) : Worklist :=
  ⟨{ table with contents := table.contents.erase scope }, (table.members scope).reverse, []⟩

/-- The worklist ends with the result of the removal, and with nothing else. -/
theorem belowWork_ends_iff (table : Table) (scope : PlacementId) (last : Worklist) :
    Relation.ReflTransGen Turn (table.belowWork scope) last ∧ last.pending = [] ↔
      last = ⟨(table.removeBelow scope).1, [], (table.removeBelow scope).2⟩ := by
  have cut : CutAt table (table.belowWork scope).table scope := rfl
  have enough : (table.belowWork scope).outstanding ≤ table.memberships := by
    have kept := cut.memberships_eq
    simp only [Worklist.outstanding, belowWork, List.length_reverse] at kept ⊢
    omega
  have turns := sweep_turns table.memberships _ _ _ enough
  constructor
  · rintro ⟨others, ended⟩
    exact Worklist.end_unique others ended turns rfl
  · rintro rfl
    exact ⟨turns, rfl⟩

/-- As many placements are handed out as entries are lost. -/
theorem length_removeBelow (table : Table) (scope : PlacementId) :
    (table.removeBelow scope).2.length + (table.removeBelow scope).1.size = table.size := by
  have handed := (placements_removeBelow table scope).length_eq
  rwa [List.length_append, length_placements, length_placements] at handed

end Table

/-- On any tables the removal of what is below a scope comes to an end, counts every lost entry once, and takes out
exactly the entries and member lists that memberships lead to, with the list of the scope itself. -/
theorem removeBelow_exact (table : Table) (scope : PlacementId) :
    let rest := (table.removeBelow scope).1
    let removed := (table.removeBelow scope).2
    Acc (fun next work => Worklist.Turn work next) (table.belowWork scope) ∧
    (∀ last, Relation.ReflTransGen Worklist.Turn (table.belowWork scope) last ∧ (∀ next, ¬ Worklist.Turn last next) ↔
      last = ⟨rest, [], removed⟩) ∧
    removed.length + rest.size = table.size ∧
    (∀ id, table.Below scope id → rest.entry? id = none) ∧
    (∀ id, ¬ table.Below scope id → rest.entry? id = table.entry? id) ∧
    (∀ id, id = scope ∨ table.Below scope id → rest.contents[id]? = none) ∧
    (∀ id, ¬ (id = scope ∨ table.Below scope id) → rest.contents[id]? = table.contents[id]?) ∧
    rest.root = table.root := by
  intro rest removed
  obtain ⟨cut, lost, sameEntries, sameRoot, swept⟩ := table.removeBelow_swept scope
  refine ⟨Worklist.turn_wellFounded.apply _, fun last => ?_, table.length_removeBelow scope, fun id => swept.entry_gone,
    fun id stays => ?_, fun id out => ?_, fun id stays => ?_, swept.root_eq.trans sameRoot⟩
  · rw [Worklist.ended_iff]
    exact table.belowWork_ends_iff scope last
  · rw [swept.entry_kept stays, Table.entry?, sameEntries, Table.entry?]
  · by_cases below : table.Below scope id
    · exact swept.contents_gone below
    · rw [swept.contents_kept below, lost.contents, if_pos (out.resolve_right below).symm]
  · obtain ⟨other, above⟩ := not_or.mp stays
    rw [swept.contents_kept above, lost.contents, if_neg (Ne.symm other)]

namespace Trial

/-- Tables that describe no tree: the track lists a part twice, the part lists the track and something unregistered,
and what lists the root is not registered either. -/
def knot : Table where
  entries := .ofList [(root.id, Entry.mk root root.id), (track.id, .mk track part.id), (part.id, .mk part root.id)]
  contents := .ofList [(track.id, #[part.id, part.id]), (part.id, #[blur.id, track.id]), (echo.id, #[root.id])]
  root := root.id

end Trial

/-- The track, which its own part lists, is taken out with it, and nothing else is. -/
theorem removeBelow_exact_trial :
    let rest := (Trial.knot.removeBelow Trial.track.id).1
    (Trial.knot.removeBelow Trial.track.id).2.length = 2 ∧ rest.size = 1 ∧
      rest.entry? Trial.track.id = none ∧ rest.entry? Trial.part.id = none ∧
      rest.contents[Trial.part.id]? = none := by
  intro rest
  obtain ⟨_, _, count, gone, _, unlisted, _⟩ := removeBelow_exact Trial.knot Trial.track.id
  have part : Trial.knot.Below Trial.track.id Trial.part.id := .single (by unfold Table.Lists; decide +kernel)
  have track : Trial.knot.Below Trial.track.id Trial.track.id := part.tail (by unfold Table.Lists; decide +kernel)
  have size : rest.size = 1 := by decide +kernel
  have total : Trial.knot.size = 3 := by decide +kernel
  rw [size, total] at count
  exact ⟨Nat.add_right_cancel count, size, gone _ track, gone _ part, unlisted _ (.inr part)⟩

end MediaSession
