import Std.Data.TreeMap.Lemmas

/-!
The values of a map as a list, up to order: one value more after an insertion, one less after a removal.
-/
namespace MediaSession
variable {κ ν : Type} [Ord κ] [Std.TransOrd κ] [Std.LawfulEqOrd κ] {map : Std.TreeMap κ ν} {key : κ} {value : ν}

/-- What a map holds, under whatever keys. -/
def valuesOf (map : Std.TreeMap κ ν) : List ν := map.toList.map Prod.snd

theorem mem_valuesOf_iff : value ∈ valuesOf map ↔ ∃ key : κ, map[key]? = some value := by
  simp [valuesOf, Std.TreeMap.mem_toList_iff_getElem?_eq_some]

theorem nodup_toList (map : Std.TreeMap κ ν) : map.toList.Nodup := by
  refine Std.TreeMap.distinct_keys_toList.imp ?_
  intro first second different same
  exact different (by simp [same])

theorem toList_perm_of_getElem?_eq {other : Std.TreeMap κ ν} (same : ∀ key : κ, map[key]? = other[key]?) :
    map.toList.Perm other.toList := by
  rw [List.perm_ext_iff_of_nodup (nodup_toList _) (nodup_toList _)]
  rintro ⟨key, value⟩
  simp only [Std.TreeMap.mem_toList_iff_getElem?_eq_some, same]

theorem toList_perm_of_some (found : map[key]? = some value) :
    map.toList.Perm ((key, value) :: (map.erase key).toList) := by
  have absent : (key, value) ∉ (map.erase key).toList := by
    simp [Std.TreeMap.mem_toList_iff_getElem?_eq_some]
  rw [List.perm_ext_iff_of_nodup (nodup_toList _) (List.nodup_cons.mpr ⟨absent, nodup_toList _⟩)]
  rintro ⟨other, held⟩
  simp only [List.mem_cons, Std.TreeMap.mem_toList_iff_getElem?_eq_some, Std.TreeMap.getElem?_erase,
    Std.LawfulEqOrd.compare_eq_iff_eq, Prod.mk.injEq]
  by_cases same : key = other
  · subst same
    simp [found, eq_comm]
  · simp [same, Ne.symm same]

/-- What a map holds under one key, and what under the others. -/
theorem valuesOf_perm_erase (map : Std.TreeMap κ ν) (key : κ) :
    (valuesOf map).Perm (map[key]?.toList ++ valuesOf (map.erase key)) := by
  cases found : map[key]? with
  | none =>
    refine (toList_perm_of_getElem?_eq fun other => ?_).map Prod.snd
    rw [Std.TreeMap.getElem?_erase]
    split
    · rename_i same
      rw [← Std.LawfulEqOrd.eq_of_compare same, found]
    · rfl
  | some value => exact (toList_perm_of_some found).map Prod.snd

theorem valuesOf_insert_perm (map : Std.TreeMap κ ν) (key : κ) (value : ν) :
    (valuesOf (map.insert key value)).Perm (value :: valuesOf (map.erase key)) := by
  have here : (map.insert key value)[key]? = some value := Std.TreeMap.getElem?_insert_self
  have others : ((map.insert key value).erase key).toList.Perm (map.erase key).toList := by
    refine toList_perm_of_getElem?_eq fun other => ?_
    rw [Std.TreeMap.getElem?_erase, Std.TreeMap.getElem?_erase, Std.TreeMap.getElem?_insert]
    split <;> rfl
  exact ((toList_perm_of_some here).map Prod.snd).trans ((others.map Prod.snd).cons value)

end MediaSession
