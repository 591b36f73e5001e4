import MediaSession.Index.SelfCheck
import MediaSession.Proofs.Index.Depth

/-!
The self-check of an index that describes a tree. All it can object to is an invalid root object, and chains of
scopes that do not reach the root within the depth limit.
-/
namespace MediaSession

namespace Table
variable {table : Table} {id scope start : PlacementId} {entry : Entry} {limit steps : Nat} {fault : SelfCheckFault}

theorem ensure_ok_iff {holds : Bool} {done : Unit} :
    ensure holds fault = .ok done ↔ holds = true := by
  cases holds <;> simp [ensure]

/-- A check goes on behind a condition that holds. -/
theorem ensure_bind {holds : Bool} {next : Unit → Except SelfCheckFault Unit}
    (held : holds = true) : (ensure holds fault >>= next) = next () := by
  rw [ensure, if_pos held]
  rfl

theorem checkBasics_ok_iff (valid : table.Consistent) (found : table.entry? table.root = some entry) :
    table.checkBasics = .ok () ↔ entry.placement.isValid = true := by
  have own : entry.scope = table.root := by
    have rooted := valid.root_scope
    rw [scope?, found] at rooted
    exact Option.some.inj rooted
  simp only [checkBasics, found, bind_ok_iff, ensure_ok_iff, own]
  simp

theorem checkChain_ok_iff {chain : List PlacementId} (ascent : table.Ascent id chain) (steps : Nat) :
    table.checkChain start limit steps id = .ok () ↔ chain.length ≤ steps := by
  induction ascent generalizing steps with
  | root => cases steps <;> simp [checkChain]
  | @scope id scope above inside inner rest ih =>
    cases steps with
    | zero => simp [checkChain]
    | succ steps =>
      obtain ⟨entry, found, rfl⟩ := Option.map_eq_some_iff.mp inside
      simp only [checkChain, if_neg inner, found, ih, List.length_cons, Nat.succ_le_succ_iff]

/-- A chain that leads to the root can but be too long. -/
theorem checkChain_error {chain : List PlacementId} (ascent : table.Ascent id chain)
    (failed : table.checkChain start limit steps id = .error fault) : fault = .chainTooLong start limit := by
  induction ascent generalizing steps with
  | root =>
    cases steps with
    | zero => exact (Except.error.inj failed).symm
    | succ steps => simp [checkChain] at failed
  | scope inside inner _ ih =>
    cases steps with
    | zero => exact (Except.error.inj failed).symm
    | succ steps =>
      obtain ⟨entry, found, rfl⟩ := Option.map_eq_some_iff.mp inside
      simp only [checkChain, if_neg inner, found] at failed
      exact ih failed

/-- Nothing but the chain of scopes is left to check of an entry. -/
theorem checkEntry_eq (valid : table.Consistent) (found : table.entry? id = some entry) :
    table.checkEntry limit id entry = if id = table.root then .ok () else table.checkChain id limit limit id := by
  have inside := scope?_of_found found
  rw [checkEntry, ensure_bind (by simpa using valid.keyed found)]
  by_cases rooted : id = table.root
  · simp [rooted, pure, Except.pure]
  · have listed : id ∈ table.members entry.scope := valid.mem_members_iff.mpr ⟨rooted, inside⟩
    rw [if_neg rooted, if_neg rooted, ensure_bind (valid.contains_scope inside), ensure_bind (by simpa using listed)]

theorem checkEntry_ok_iff (valid : table.Consistent) (found : table.entry? id = some entry) :
    table.checkEntry limit id entry = .ok () ↔ ¬ table.LiesBeyond limit id := by
  obtain ⟨chain, ascent⟩ := valid.ascent ((table.contains_iff id).mpr ⟨entry, found⟩)
  rw [liesBeyond_iff valid ascent, checkEntry_eq valid found]
  by_cases rooted : id = table.root
  · simp [rooted]
  · rw [if_neg rooted, checkChain_ok_iff ascent]
    simp [rooted]

theorem checkEntry_error (valid : table.Consistent) (found : table.entry? id = some entry)
    (failed : table.checkEntry limit id entry = .error fault) :
    table.LiesBeyond limit id ∧ fault = .chainTooLong id limit := by
  have beyond : table.LiesBeyond limit id := by
    by_contra within
    rw [(checkEntry_ok_iff valid found).mpr within] at failed
    cases failed
  obtain ⟨chain, ascent⟩ := valid.ascent beyond.1
  rw [checkEntry_eq valid found, if_neg beyond.2.1] at failed
  exact ⟨beyond, checkChain_error ascent failed⟩

theorem checkMember_ok (valid : table.Consistent) (listed : id ∈ table.members scope) :
    table.checkMember scope id = .ok () := by
  obtain ⟨inner, inside⟩ := valid.mem_members_iff.mp listed
  obtain ⟨entry, found, rfl⟩ := Option.map_eq_some_iff.mp inside
  simp [checkMember, found, ensure, inner]
  rfl

theorem checkScope_ok (valid : table.Consistent) {listed : Array PlacementId}
    (found : table.contents[scope]? = some listed) : table.checkScope scope listed.toList = .ok () := by
  have here : table.members scope = listed.toList := members_of_found found
  obtain ⟨registered, nonempty⟩ := valid.mem_contents ((mem_contents_iff ..).mpr ⟨listed, found⟩)
  rw [here] at nonempty
  rw [checkScope, ensure_bind registered, ensure_bind (by simpa using nonempty), forM_ok_iff]
  intro member inside
  exact checkMember_ok valid (here ▸ inside)

theorem checkLists_ok (valid : table.Consistent) :
    (table.contents.toList.forM fun item => table.checkScope item.1 item.2.toList) = .ok () := by
  rw [forM_ok_iff]
  rintro ⟨scope, listed⟩ item
  exact checkScope_ok valid (Std.TreeMap.mem_toList_iff_getElem?_eq_some.mp item)

theorem Consistent.totals (valid : table.Consistent) : table.size = table.memberships + 1 := by
  have positive : 0 < table.size := by
    rw [size_eq_length_keys]
    exact List.length_pos_of_mem ((mem_keys_iff ..).mpr valid.contains_root)
  rw [valid.memberships_eq]
  omega

/-- The verdict on tables that describe a tree. -/
theorem verify_ok_iff (valid : table.Consistent) (found : table.entry? table.root = some entry) :
    table.verify limit = .ok () ↔ entry.placement.isValid = true ∧ ∀ id, ¬ table.LiesBeyond limit id := by
  have entries : (table.entries.toList.forM fun item => table.checkEntry limit item.1 item.2) = .ok () ↔
      ∀ id, ¬ table.LiesBeyond limit id := by
    rw [forM_ok_iff]
    constructor
    · intro checked id beyond
      obtain ⟨entry, present⟩ := (table.contains_iff id).mp beyond.1
      have item := Std.TreeMap.mem_toList_iff_getElem?_eq_some.mpr present
      exact (checkEntry_ok_iff valid present).mp (checked _ item) beyond
    · rintro within ⟨id, entry⟩ item
      exact (checkEntry_ok_iff valid (Std.TreeMap.mem_toList_iff_getElem?_eq_some.mp item)).mpr (within id)
  simp only [verify, bind_ok_iff, checkBasics_ok_iff valid found, entries, checkLists_ok valid, ensure_ok_iff,
    valid.totals]
  simp

/-- What the verdict on tables that describe a tree can be, short of a good one. -/
theorem verify_error (valid : table.Consistent) (found : table.entry? table.root = some entry)
    (failed : table.verify limit = .error fault) :
    (entry.placement.isValid = false ∧ fault = .rootInvalid entry.placement) ∨
      (entry.placement.isValid = true ∧ ∃ id, table.LiesBeyond limit id ∧ fault = .chainTooLong id limit) := by
  by_cases sound : entry.placement.isValid = true
  · right
    have far : ∃ id, table.LiesBeyond limit id := by
      by_contra within
      rw [(verify_ok_iff valid found).mpr ⟨sound, not_exists.mp within⟩] at failed
      cases failed
    rcases bind_error_iff.mp failed with basics | ⟨_, _, later⟩
    · rw [(checkBasics_ok_iff valid found).mpr sound] at basics
      cases basics
    · rcases bind_error_iff.mp later with entries | ⟨⟨⟩, entries, _⟩
      · obtain ⟨⟨id, entry⟩, item, objected⟩ := forM_error entries
        have present := Std.TreeMap.mem_toList_iff_getElem?_eq_some.mp item
        exact ⟨sound, id, checkEntry_error valid present objected⟩
      · obtain ⟨id, beyond⟩ := far
        obtain ⟨entry, present⟩ := (table.contains_iff id).mp beyond.1
        have checked := forM_ok_iff.mp entries _ (Std.TreeMap.mem_toList_iff_getElem?_eq_some.mpr present)
        exact absurd beyond ((checkEntry_ok_iff valid present).mp checked)
  · have unsound : entry.placement.isValid = false := Bool.eq_false_iff.mpr sound
    have basics : table.checkBasics = .error (.rootInvalid entry.placement) := by
      simp only [checkBasics, found, ensure, unsound]
      rfl
    rw [verify, basics] at failed
    exact .inl ⟨unsound, (Except.error.inj failed).symm⟩

end Table

end MediaSession
