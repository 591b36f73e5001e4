import MediaSession.Proofs.Index.Run
import MediaSession.Proofs.Table.Conservation

/-!
Where placements are: registered in an index, or in a pool where they wait to be inserted. A step moves them, makes
new ones or gives some up, and never puts another object under an identity in use.
-/
namespace MediaSession

structure Stock where
  index : Index
  pool : Std.TreeMap PlacementId Placement

namespace Stock
variable {stock next : Stock} {used more : List PlacementId} {id : PlacementId} {placement : Placement}
  {object : SharedObject}

def placements (stock : Stock) : List Placement := stock.index.table.placements ++ valuesOf stock.pool

def objects (stock : Stock) : List SharedObject := stock.placements.map Placement.object

/-- The placement of an identity holds the object. -/
def Places (stock : Stock) (id : PlacementId) (object : SharedObject) : Prop :=
  (∃ placement, stock.pool[id]? = some placement ∧ placement.object = object) ∨
    ∃ entry, stock.index.table.entry? id = some entry ∧ entry.placement.object = object

/-- Every placement has an identity that was used, those of the pool by their keys, and none is in both places. -/
structure Sound (used : List PlacementId) (stock : Stock) : Prop where
  indexed : stock.index.Sound used
  keyed : ∀ {id : PlacementId} {placement}, stock.pool[id]? = some placement → placement.id = id
  known : ∀ {id : PlacementId} {placement}, stock.pool[id]? = some placement → id ∈ used
  apart : ∀ {id : PlacementId} {placement}, stock.pool[id]? = some placement →
    stock.index.table.contains id ≠ true

theorem Places.mem_objects (placed : stock.Places id object) : object ∈ stock.objects := by
  refine List.mem_map.mpr ?_
  rcases placed with ⟨placement, pooled, same⟩ | ⟨entry, found, same⟩
  · exact ⟨placement, List.mem_append_right _ (mem_valuesOf_iff.mpr ⟨id, pooled⟩), same⟩
  · exact ⟨entry.placement, List.mem_append_left _ (Table.mem_placements_iff.mpr ⟨id, entry, found, rfl⟩), same⟩

theorem Sound.unique (sound : stock.Sound used) {other : SharedObject} (one : stock.Places id object)
    (second : stock.Places id other) : object = other := by
  have apart {placement : Placement} {entry : Entry} (pooled : stock.pool[id]? = some placement)
      (found : stock.index.table.entry? id = some entry) : False :=
    sound.apart pooled ((Table.contains_iff _ id).mpr ⟨entry, found⟩)
  rcases one with ⟨first, pooled, rfl⟩ | ⟨first, found, rfl⟩ <;>
    rcases second with ⟨again, waiting, rfl⟩ | ⟨again, present, rfl⟩
  · rw [Option.some.inj (pooled.symm.trans waiting)]
  · exact (apart pooled present).elim
  · exact (apart waiting found).elim
  · rw [Option.some.inj (found.symm.trans present)]

theorem Sound.known_of_places (sound : stock.Sound used) (placed : stock.Places id object) : id ∈ used := by
  rcases placed with ⟨placement, pooled, _⟩ | ⟨entry, found, _⟩
  · exact sound.known pooled
  · exact sound.indexed.known ((Table.contains_iff _ id).mpr ⟨entry, found⟩)

theorem Sound.places_of_mem (sound : stock.Sound used) (placed : placement ∈ stock.placements) :
    stock.Places placement.id placement.object := by
  rcases List.mem_append.mp placed with registered | pooled
  · obtain ⟨id, entry, found, rfl⟩ := Table.mem_placements_iff.mp registered
    exact .inr ⟨entry, (sound.indexed.consistent.keyed found).symm ▸ found, rfl⟩
  · obtain ⟨id, found⟩ := mem_valuesOf_iff.mp pooled
    exact .inl ⟨placement, (sound.keyed found).symm ▸ found, rfl⟩

/-- What is placed under an identity in use was placed there before. -/
def Since (used : List PlacementId) (stock next : Stock) : Prop :=
  ∀ {id object}, next.Places id object → id ∈ used → stock.Places id object

/-- A step that may use more identities: which objects it no longer places, and which it places anew. -/
structure Evolves (used more : List PlacementId) (stock next : Stock) (gone new : List SharedObject) : Prop where
  sound : next.Sound (used ++ more)
  since : Since used stock next
  objects : (gone ++ next.objects).Perm (new ++ stock.objects)

theorem Sound.evolves_refl (sound : stock.Sound used) (more : List PlacementId) :
    Evolves used more stock stock [] [] where
  sound :=
    { indexed := sound.indexed.mono
      keyed := sound.keyed
      known := fun pooled => List.mem_append_left _ (sound.known pooled)
      apart := sound.apart }
  since placed _ := placed
  objects := .refl _

/-- Put a placement into the pool. -/
def put (stock : Stock) (placement : Placement) : Stock :=
  { stock with pool := stock.pool.insert placement.id placement }

/-- Give up the placement of the pool that has an identity. -/
def take (stock : Stock) (id : PlacementId) : Stock := { stock with pool := stock.pool.erase id }

theorem pool_put (stock : Stock) (placement : Placement) (id : PlacementId) :
    (stock.put placement).pool[id]? = if placement.id = id then some placement else stock.pool[id]? := by
  simp [put, Std.TreeMap.getElem?_insert]

theorem pool_take (stock : Stock) (id other : PlacementId) :
    (stock.take id).pool[other]? = if id = other then none else stock.pool[other]? := by
  simp [take, Std.TreeMap.getElem?_erase]

theorem objects_put (stock : Stock) (placement : Placement) :
    (stock.put placement).objects.Perm (placement.object :: (stock.take placement.id).objects) := by
  have pooled := (valuesOf_insert_perm stock.pool placement.id placement).append_left stock.index.table.placements
  exact (pooled.trans List.perm_middle).map Placement.object

theorem objects_take (stock : Stock) (id : PlacementId) :
    stock.objects.Perm ((stock.pool[id]?.toList.map Placement.object) ++ (stock.take id).objects) := by
  have pooled := (valuesOf_perm_erase stock.pool id).append_left stock.index.table.placements
  have split := (pooled.trans (List.perm_append_comm_assoc _ _ _)).map Placement.object
  exact split.trans (.of_eq List.map_append)

theorem Sound.put (sound : stock.Sound used) (known : placement.id ∈ used ++ more)
    (apart : stock.index.table.contains placement.id ≠ true) : (stock.put placement).Sound (used ++ more) where
  indexed := sound.indexed.mono
  keyed pooled := by
    rw [pool_put] at pooled
    split at pooled
    · rename_i mine
      cases pooled
      exact mine
    · exact sound.keyed pooled
  known pooled := by
    rw [pool_put] at pooled
    split at pooled
    · rename_i mine
      exact mine ▸ known
    · exact List.mem_append_left _ (sound.known pooled)
  apart pooled := by
    rw [pool_put] at pooled
    split at pooled
    · rename_i mine
      exact mine ▸ apart
    · exact sound.apart pooled

theorem Sound.missing (sound : stock.Sound used) (fresh : id ∉ used) : stock.pool[id]? = none := by
  cases found : stock.pool[id]? with
  | none => rfl
  | some placement => exact absurd (sound.known found) fresh

/-- A new placement. -/
theorem Sound.evolves_put (sound : stock.Sound used) (fresh : placement.id ∉ used) :
    Evolves used [placement.id] stock (stock.put placement) [] [placement.object] where
  sound := sound.put (List.mem_append_right _ (List.mem_singleton_self _)) fun registered =>
    fresh (sound.indexed.known registered)
  since {id object} placed known := by
    rcases placed with ⟨other, pooled, same⟩ | registered
    · rw [pool_put, if_neg fun mine : placement.id = id => fresh (mine ▸ known)] at pooled
      exact .inl ⟨other, pooled, same⟩
    · exact .inr registered
  objects := by
    have before := objects_take stock placement.id
    rw [sound.missing fresh] at before
    exact (objects_put stock placement).trans (before.symm.cons placement.object)

/-- A placement of the pool is edited. -/
theorem Sound.evolves_edit (sound : stock.Sound used) (found : stock.pool[placement.id]? = some placement)
    (edits : List PinEdit) : Evolves used more stock (stock.put (placement.edit edits)) [] [] where
  sound := sound.put (List.mem_append_left _ (sound.known found)) (sound.apart found)
  since {id object} placed _ := by
    rcases placed with ⟨other, pooled, same⟩ | registered
    · rw [pool_put] at pooled
      split at pooled
      · rename_i mine
        cases pooled
        exact .inl ⟨placement, mine ▸ found, same⟩
      · exact .inl ⟨other, pooled, same⟩
    · exact .inr registered
  objects := by
    have before := objects_take stock placement.id
    rw [found] at before
    exact (objects_put stock (placement.edit edits)).trans before.symm

theorem pooled_of_take {other : Placement} (pooled : (stock.take placement.id).pool[id]? = some other) :
    stock.pool[id]? = some other ∧ placement.id ≠ id := by
  rw [pool_take] at pooled
  split at pooled
  · cases pooled
  · rename_i different
    exact ⟨pooled, different⟩

/-- A placement of the pool is given up. -/
theorem Sound.evolves_take (sound : stock.Sound used) (found : stock.pool[placement.id]? = some placement) :
    Evolves used more stock (stock.take placement.id) [placement.object] [] where
  sound :=
    { indexed := sound.indexed.mono
      keyed := fun pooled => sound.keyed (pooled_of_take pooled).1
      known := fun pooled => List.mem_append_left _ (sound.known (pooled_of_take pooled).1)
      apart := fun pooled => sound.apart (pooled_of_take pooled).1 }
  since placed _ := by
    rcases placed with ⟨other, pooled, same⟩ | registered
    · exact .inl ⟨other, (pooled_of_take pooled).1, same⟩
    · exact .inr registered
  objects := by
    have split := objects_take stock placement.id
    rw [found] at split
    exact split.symm

/-- A placement of the pool is inserted. -/
theorem Sound.evolves_insert (sound : stock.Sound used) (found : stock.pool[placement.id]? = some placement)
    {scope : PlacementId} {after : Index} (success : stock.index.insert placement scope = .ok (after, id)) :
    Evolves used more stock { stock.take placement.id with index := after } [] [] := by
  obtain ⟨registered, _, rfl⟩ := Index.insert_ok success
  have fresh := sound.apart found
  have contains_iff {id : PlacementId} : (stock.index.table.add placement scope).contains id = true ↔
      placement.id = id ∨ stock.index.table.contains id = true := by
    rw [Table.contains_iff_scope?, Table.contains_iff_scope?, Table.scope?_add]
    by_cases mine : placement.id = id <;> simp [mine]
  exact
    { sound :=
        { indexed := ⟨sound.indexed.consistent.add fresh registered, fun present =>
            List.mem_append_left _ ((contains_iff.mp present).elim (fun mine => mine ▸ sound.known found)
              sound.indexed.known)⟩
          keyed := fun pooled => sound.keyed (pooled_of_take pooled).1
          known := fun pooled => List.mem_append_left _ (sound.known (pooled_of_take pooled).1)
          apart := fun pooled present => (contains_iff.mp present).elim (pooled_of_take pooled).2
            (sound.apart (pooled_of_take pooled).1) }
      since := fun {id object} placed _ => by
        rcases placed with ⟨other, pooled, same⟩ | ⟨entry, present, same⟩
        · exact .inl ⟨other, (pooled_of_take pooled).1, same⟩
        · change Table.entry? (stock.index.table.add placement scope) id = some entry at present
          rw [Table.entry?_add] at present
          split at present
          · rename_i mine
            cases present
            exact .inl ⟨placement, mine ▸ found, same⟩
          · exact .inr ⟨entry, present, same⟩
      objects := by
        have before := objects_take stock placement.id
        rw [found] at before
        have added := (Table.placements_add fresh scope).append_right (valuesOf (stock.pool.erase placement.id))
        exact (added.map Placement.object).trans before.symm }

/-- A call on the index that inserts nothing. -/
theorem Sound.evolves_effect (sound : stock.Sound used) {event : Option Event} {after : Index}
    (effect : Table.Effect stock.index.table event after.table)
    (none_new : ∀ {placement scope}, event ≠ some (.inserted placement scope)) {gone : List SharedObject}
    (objects : (gone ++ after.table.placements.map Placement.object).Perm
      (stock.index.table.placements.map Placement.object)) :
    Evolves used more stock { stock with index := after } gone [] := by
  have kept {id : PlacementId} {entry : Entry} (present : after.table.entry? id = some entry) :
      ∃ before, stock.index.table.entry? id = some before ∧ before.placement.object = entry.placement.object := by
    obtain ⟨before, found, _, same⟩ := effect.entry_kept (fun new => absurd new none_new) present
    exact ⟨before, found, same⟩
  have registered {id : PlacementId} (present : after.table.contains id = true) :
      stock.index.table.contains id = true := by
    obtain ⟨entry, found⟩ := (Table.contains_iff _ id).mp present
    obtain ⟨before, earlier, _⟩ := kept found
    exact (Table.contains_iff _ id).mpr ⟨before, earlier⟩
  exact
    { sound :=
        { indexed := ⟨effect.consistent sound.indexed.consistent fun new => absurd new none_new, fun present =>
            List.mem_append_left _ (sound.indexed.known (registered present))⟩
          keyed := sound.keyed
          known := fun pooled => List.mem_append_left _ (sound.known pooled)
          apart := fun pooled present => sound.apart pooled (registered present) }
      since := fun {id object} placed _ => by
        rcases placed with waiting | ⟨entry, present, same⟩
        · exact .inl waiting
        · obtain ⟨before, found, equal⟩ := kept present
          exact .inr ⟨before, found, equal.trans same⟩
      objects := by
        have whole := objects.append_right ((valuesOf stock.pool).map Placement.object)
        simpa [Stock.objects, placements, List.append_assoc] using whole }

end Stock

end MediaSession
