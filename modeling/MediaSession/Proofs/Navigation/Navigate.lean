import MediaSession.Proofs.Index.Calls
import MediaSession.Proofs.Navigation.Chain

/-!
What navigation does with a path: it leaves a path alone that ends at the target, and otherwise joins a kept
start of the path with the end of the plain chain, or takes that chain as it is.
-/
namespace MediaSession

/-- From the first occurrence of a member on. -/
theorem dropWhile_ne_of_mem {id : PlacementId} {ids : List PlacementId} (member : id ∈ ids) :
    ∃ rest, ids.dropWhile (· ≠ id) = id :: rest := by
  induction ids with
  | nil => cases member
  | cons first others ih =>
    by_cases same : first = id
    · exact ⟨others, by simp [same]⟩
    · obtain ⟨rest, found⟩ := ih (by simpa [Ne.symm same] using member)
      exact ⟨rest, by simpa [List.dropWhile_cons, same] using found⟩

/-- One scope leads to another that it holds, or that the object placed at it binds. -/
def Index.LeadsTo (index : Index) (upper lower : PlacementId) : Prop :=
  index.scopeOf lower = .ok upper ∨
    ∃ placement, index.find upper = .ok placement ∧ placement.object.content = .binding lower

namespace ScopePath
variable {index : Index} {target : PlacementId} {chain kept route : List PlacementId} {path after : ScopePath}

/-- A graft goes on behind an anchor of the chain, or from the scope that an anchor off the chain binds. -/
theorem graft_some {anchor : PlacementId} {rest : List PlacementId}
    (found : graft index chain anchor = some rest) :
    (∃ before, chain = before ++ anchor :: rest) ∨
      (anchor ∉ chain ∧ ∃ before bound others, attachedAt index anchor = some bound ∧
        chain = before ++ rest ∧ rest = bound :: others) := by
  unfold graft at found
  split at found
  · rename_i member
    obtain ⟨others, tail⟩ := dropWhile_ne_of_mem (List.contains_iff_mem.mp member)
    rw [tail] at found
    cases found
    refine .inl ⟨chain.takeWhile (· ≠ anchor), ?_⟩
    rw [List.drop_one, List.tail_cons, ← tail, List.takeWhile_append_dropWhile]
  · rename_i off
    obtain ⟨bound, binds, reached⟩ := Option.bind_eq_some_iff.mp found
    split at reached
    · rename_i member
      obtain ⟨others, tail⟩ := dropWhile_ne_of_mem (List.contains_iff_mem.mp member)
      cases reached
      have whole : chain = chain.takeWhile (· ≠ bound) ++ chain.dropWhile (· ≠ bound) :=
        List.takeWhile_append_dropWhile.symm
      exact .inr ⟨fun on => off (List.contains_iff_mem.mpr on), _, bound, others, binds, whole, tail⟩
    · cases reached

theorem joined_some_iff :
    joined index chain kept = some route ↔
      ∃ last rest, kept.getLast? = some last ∧ graft index chain last = some rest ∧
        kept.length + rest.length ≤ index.maxPathDepth ∧ (∀ id ∈ rest, id ∉ kept) ∧ route = kept ++ rest := by
  simp only [joined, Option.bind_eq_bind, Option.bind_eq_some_iff, Option.ite_none_left_eq_some,
    Option.some.injEq, not_or, List.any_eq_true, not_exists, not_and, List.contains_iff_mem, Nat.not_lt]
  constructor
  · rintro ⟨last, ends, rest, grafted, ⟨bounded, apart⟩, whole⟩
    exact ⟨last, rest, ends, grafted, bounded, apart, whole.symm⟩
  · rintro ⟨last, rest, ends, grafted, bounded, apart, whole⟩
    exact ⟨last, ends, rest, grafted, ⟨bounded, apart⟩, whole.symm⟩

theorem mem_startsDown_iff {start : List PlacementId} :
    start ∈ startsDown route ↔ start ≠ [] ∧ start <+: route := by
  simp only [startsDown, List.mem_map, List.mem_reverse, List.mem_range]
  constructor
  · rintro ⟨last, inside, rfl⟩
    refine ⟨?_, List.take_prefix ..⟩
    rw [Ne, List.take_eq_nil_iff]
    rintro (impossible | nothing)
    · cases impossible
    · rw [nothing] at inside
      cases inside
  · rintro ⟨some, start⟩
    have positive := List.length_pos_of_ne_nil some
    refine ⟨_, Nat.lt_of_lt_of_le (Nat.sub_lt positive Nat.one_pos) start.length_le, ?_⟩
    rw [Nat.sub_add_cancel positive]
    exact (List.prefix_iff_eq_take.mp start).symm

/-- A spliced route is joined from a start of the path that is registered throughout. -/
theorem splice_some (found : splice index chain path = some route) :
    ∃ kept, kept ≠ [] ∧ kept <+: path.anchors ∧ (∀ id ∈ kept, index.contains id = true) ∧
      joined index chain kept = some route := by
  obtain ⟨kept, start, joins⟩ := List.exists_of_findSome?_eq_some found
  obtain ⟨some, within⟩ := mem_startsDown_iff.mp start
  refine ⟨kept, some, within.trans (List.takeWhile_prefix _), ?_, joins⟩
  intro id member
  exact List.all_eq_true.mp List.all_takeWhile id (within.subset member)

/-- A route joined with a chain ends where the chain does. -/
theorem getLast_of_joined (joins : joined index chain kept = some route) :
    route.getLast? = chain.getLast? := by
  obtain ⟨last, rest, ends, grafted, _, _, rfl⟩ := joined_some_iff.mp joins
  rcases graft_some grafted with ⟨before, rfl⟩ | ⟨_, before, bound, others, _, rfl, rfl⟩
  · obtain ⟨start, rfl⟩ := List.getLast?_eq_some_iff.mp ends
    rw [List.append_assoc, List.singleton_append, List.getLast?_append_cons, List.getLast?_append_cons]
  · rw [List.getLast?_append_cons, List.getLast?_append_cons]

/-- What is grafted is an end of the chain. -/
theorem suffix_of_graft {anchor : PlacementId} {rest : List PlacementId}
    (grafted : graft index chain anchor = some rest) : rest <:+ chain := by
  rcases graft_some grafted with ⟨before, rfl⟩ | ⟨_, before, _, _, _, rfl, _⟩
  · exact (List.suffix_cons ..).trans (List.suffix_append ..)
  · exact List.suffix_append ..

theorem attachedAt_eq_some_iff {upper lower : PlacementId} : attachedAt index upper = some lower ↔
    ∃ placement, index.find upper = .ok placement ∧ placement.object.content = .binding lower := by
  have content (object : MediaObject) : object.attachedScope? = some lower ↔ object = .binding lower := by
    cases object <;> simp [MediaObject.attachedScope?]
  rw [attachedAt, Index.find]
  cases index.table.entry? upper <;> simp [content]

/-- The last scope that is kept leads to the first that is grafted. -/
theorem leadsTo_of_graft (linked : chain.IsChain fun upper lower => index.table.scope? lower = some upper)
    {last first : PlacementId} {rest : List PlacementId} (grafted : graft index chain last = some rest)
    (next : rest.head? = some first) : index.LeadsTo last first := by
  rcases graft_some grafted with ⟨before, rfl⟩ | ⟨_, before, bound, others, binds, rfl, rfl⟩
  · have step := (List.isChain_cons.mp (linked.suffix (List.suffix_append ..))).1
    exact .inl ((index.scopeOf_ok_iff ..).mpr (step first next))
  · cases next
    exact .inr (attachedAt_eq_some_iff.mp binds)

/-- The ways navigation can succeed. -/
theorem navigate_ok {target : Scope} (success : path.navigate index target = .ok after) :
    ∃ id, target = .anchored id ∧ index.contains id = true ∧ path.anchors ≠ [] ∧
      ((path.anchors.getLast? = some id ∧ after = path) ∨
        (path.anchors.getLast? ≠ some id ∧
          ∃ chain, discover index id = .ok chain ∧ after = ⟨(splice index chain path).getD chain⟩)) := by
  unfold navigate at success
  split at success
  · cases success
  · rename_i nonempty
    obtain ⟨anchor⟩ := target
    split at success
    · cases success
    · rename_i id same
      subst same
      split at success
      · cases success
      · rename_i registered
        refine ⟨id, rfl, by simpa using registered, by simpa [isEmpty] using nonempty, ?_⟩
        split at success
        · rename_i ends
          exact .inl ⟨ends, (Except.ok.inj success).symm⟩
        · rename_i elsewhere
          obtain ⟨chain, discovered, led⟩ := bind_ok_iff.mp success
          exact .inr ⟨elsewhere, chain, discovered, (Except.ok.inj led).symm⟩

/-- A path that is led elsewhere is the plain chain, or a start of the path that is registered throughout,
joined with the chain. -/
theorem navigate_elsewhere (success : path.navigate index (.anchored target) = .ok after)
    (elsewhere : path.anchors.getLast? ≠ some target) :
    index.contains target = true ∧ ∃ chain, discover index target = .ok chain ∧
      (after.anchors = chain ∨ ∃ kept, kept ≠ [] ∧ kept <+: path.anchors ∧
        (∀ id ∈ kept, index.contains id = true) ∧ joined index chain kept = some after.anchors) := by
  obtain ⟨_, same, registered, _, ⟨ends, _⟩ | ⟨_, chain, discovered, rfl⟩⟩ := navigate_ok success
  · cases same
    exact absurd ends elsewhere
  · cases same
    refine ⟨registered, chain, discovered, ?_⟩
    cases spliced : splice index chain path with
    | none => exact .inl rfl
    | some route => exact .inr (splice_some spliced)

/-- A path that is led elsewhere keeps nothing that is not registered. -/
theorem navigate_registered (success : path.navigate index (.anchored target) = .ok after)
    (elsewhere : path.anchors.getLast? ≠ some target) {id : PlacementId} (member : id ∈ after.anchors) :
    index.contains id = true := by
  obtain ⟨_, chain, discovered, whole | ⟨kept, _, _, intact, joins⟩⟩ := navigate_elsewhere success elsewhere
  · rw [whole] at member
    exact registered_of_discover discovered member
  · obtain ⟨_, rest, _, grafted, _, _, whole⟩ := joined_some_iff.mp joins
    rw [whole] at member
    rcases List.mem_append.mp member with old | new
    · exact intact id old
    · exact registered_of_discover discovered ((suffix_of_graft grafted).subset new)

/-- The routes to a target that navigation takes while the tables describe a tree. -/
inductive Reroutes (index : Index) (target : PlacementId) (path : ScopePath) : List PlacementId → Prop where
  | plain {chain : List PlacementId} (descends : Descends index target chain) : Reroutes index target path chain
  | spliced {chain kept route : List PlacementId} (descends : Descends index target chain) (some : kept ≠ [])
      (start : kept <+: path.anchors) (intact : ∀ id ∈ kept, index.contains id = true)
      (joins : joined index chain kept = .some route) : Reroutes index target path route

theorem navigate_reroutes (valid : index.table.Consistent)
    (success : path.navigate index (.anchored target) = .ok after)
    (elsewhere : path.anchors.getLast? ≠ some target) : Reroutes index target path after.anchors := by
  obtain ⟨registered, chain, discovered, ways⟩ := navigate_elsewhere success elsewhere
  have descends := descends_of_discover valid registered discovered
  rcases ways with whole | ⟨kept, some, start, intact, joins⟩
  · rw [whole]
    exact .plain descends
  · exact .spliced descends some start intact joins

namespace Reroutes

theorem getLast (reroutes : Reroutes index target path route) : route.getLast? = some target := by
  cases reroutes with
  | plain descends => exact descends.getLast
  | spliced descends _ _ _ joins => rw [getLast_of_joined joins, descends.getLast]

theorem bounded (reroutes : Reroutes index target path route) : route.length ≤ index.maxPathDepth := by
  cases reroutes with
  | plain descends => exact descends.bounded
  | spliced _ _ _ _ joins =>
    obtain ⟨_, _, _, _, bounded, _, rfl⟩ := joined_some_iff.mp joins
    rw [List.length_append]
    exact bounded

theorem head (reroutes : Reroutes index target path route)
    (rooted : path.anchors.head? = some index.rootId) : route.head? = some index.rootId := by
  cases reroutes with
  | plain descends => exact descends.head
  | spliced _ some start _ joins =>
    obtain ⟨_, _, _, _, _, _, rfl⟩ := joined_some_iff.mp joins
    obtain ⟨cut, whole⟩ := start
    rw [← whole, List.head?_append_of_ne_nil _ some] at rooted
    rw [List.head?_append_of_ne_nil _ some, rooted]

theorem nodup (reroutes : Reroutes index target path route) (unrepeated : path.anchors.Nodup) :
    route.Nodup := by
  cases reroutes with
  | plain descends => exact descends.nodup
  | spliced descends _ start _ joins =>
    obtain ⟨_, _, _, grafted, _, apart, rfl⟩ := joined_some_iff.mp joins
    refine List.nodup_append.mpr ⟨unrepeated.sublist start.sublist, ?_, ?_⟩
    · exact descends.nodup.sublist (suffix_of_graft grafted).sublist
    · rintro id kept _ new rfl
      exact apart id new kept

theorem linked (reroutes : Reroutes index target path route)
    (linked : path.anchors.IsChain fun upper lower =>
      index.contains upper = true → index.contains lower = true → index.LeadsTo upper lower) :
    route.IsChain index.LeadsTo := by
  cases reroutes with
  | plain descends => exact descends.linked.imp fun _ _ inside => .inl ((index.scopeOf_ok_iff ..).mpr inside)
  | spliced descends _ start intact joins =>
    obtain ⟨last, rest, ends, grafted, _, _, rfl⟩ := joined_some_iff.mp joins
    refine List.IsChain.append ?_ ?_ ?_
    · have kept := linked.prefix start
      refine kept.imp_of_mem_imp fun upper lower above below leads => ?_
      exact leads (intact upper above) (intact lower below)
    · exact (descends.linked.suffix (suffix_of_graft grafted)).imp fun _ _ inside =>
        .inl ((index.scopeOf_ok_iff ..).mpr inside)
    · intro upper upperLast lower lowerFirst
      rw [Option.mem_def, ends] at upperLast
      cases upperLast
      exact leadsTo_of_graft descends.linked grafted lowerFirst

end Reroutes

/-- A path that was led to a target ends there. -/
theorem navigate_leaf (valid : index.table.Consistent)
    (success : path.navigate index (.anchored target) = .ok after) : after.anchors.getLast? = some target := by
  by_cases ends : path.anchors.getLast? = some target
  · obtain ⟨_, same, _, _, ⟨_, rfl⟩ | ⟨elsewhere, _⟩⟩ := navigate_ok success
    · exact ends
    · cases same
      exact absurd ends elsewhere
  · exact (navigate_reroutes valid success ends).getLast

end ScopePath

end MediaSession
