import MediaSession.Ledger
import Std.Data.TreeMap.Lemmas

/-!
The ledger against a list of owners, each standing for the object it holds. The counts are those of the list as long
as every owner that comes or goes is recorded once.
-/
namespace MediaSession

/-- How many of some owners hold the object of an identity. -/
def holding (owned : List SharedObject) (identity : Nat) : Nat :=
  owned.countP fun object => object.identity = identity

theorem holding_cons (object : SharedObject) (owned : List SharedObject) (identity : Nat) :
    holding (object :: owned) identity = holding owned identity + if object.identity = identity then 1 else 0 := by
  simp [holding, List.countP_cons]

namespace Ledger
variable {ledger : Ledger} {owned : List SharedObject} {object : SharedObject}

theorem counts_retain (ledger : Ledger) (object : SharedObject) (identity : Nat) :
    (ledger.retain object).counts.getD identity 0 =
      ledger.counts.getD identity 0 + if object.identity = identity then 1 else 0 := by
  rw [retain, Std.TreeMap.getD_insert]
  by_cases same : object.identity = identity
  · simp [same, owners]
  · simp [same]

theorem counts_release (ledger : Ledger) (object : SharedObject) (identity : Nat) :
    (ledger.release object).counts.getD identity 0 =
      ledger.counts.getD identity 0 - if object.identity = identity then 1 else 0 := by
  unfold release
  by_cases same : object.identity = identity
  · subst same
    split
    · rename_i last
      rw [owners] at last
      simp
      omega
    · simp [owners]
  · split <;> simp [same, Std.TreeMap.getD_erase, Std.TreeMap.getD_insert]

theorem counts_advance (ledger : Ledger) (identity : Nat) :
    ledger.advance.counts.getD identity 0 =
      if ledger.next = identity then 1 else ledger.counts.getD identity 0 := by
  simp [advance, Std.TreeMap.getD_insert]

theorem next_release (ledger : Ledger) (object : SharedObject) : (ledger.release object).next = ledger.next := by
  unfold release
  split <;> rfl

theorem next_releaseAll (ledger : Ledger) (objects : List SharedObject) :
    (ledger.releaseAll objects).next = ledger.next := by
  induction objects generalizing ledger with
  | nil => rfl
  | cons object rest ih => exact (ih (ledger.release object)).trans (next_release ledger object)

/-- The ledger counts exactly these owners, and all objects they hold were issued. -/
structure Accounts (ledger : Ledger) (owned : List SharedObject) : Prop where
  counted : ∀ identity, ledger.counts.getD identity 0 = holding owned identity
  issued : ∀ {object}, object ∈ owned → object.identity < ledger.next

namespace Accounts

theorem owners_eq (accounts : ledger.Accounts owned) (object : SharedObject) :
    ledger.owners object = holding owned object.identity := accounts.counted _

theorem perm {others : List SharedObject} (accounts : ledger.Accounts owned) (same : owned.Perm others) :
    ledger.Accounts others where
  counted identity := (accounts.counted identity).trans (same.countP_eq _)
  issued present := accounts.issued (same.mem_iff.mpr present)

theorem retain (accounts : ledger.Accounts owned) (known : object.identity < ledger.next) :
    (ledger.retain object).Accounts (object :: owned) where
  counted identity := by rw [counts_retain, accounts.counted, holding_cons]
  issued present := by
    rcases List.mem_cons.mp present with same | before
    · exact same ▸ known
    · exact accounts.issued before

theorem release (accounts : ledger.Accounts (object :: owned)) : (ledger.release object).Accounts owned where
  counted identity := by rw [counts_release, accounts.counted, holding_cons, Nat.add_sub_cancel]
  issued present := by
    rw [next_release]
    exact accounts.issued (List.mem_cons_of_mem _ present)

theorem releaseAll {gone : List SharedObject} (accounts : ledger.Accounts (gone ++ owned)) :
    (ledger.releaseAll gone).Accounts owned := by
  induction gone generalizing ledger with
  | nil => exact accounts
  | cons object rest ih => exact ih accounts.release

/-- One owner more, if there is an object to hold. -/
theorem gain (gained : Option SharedObject) : ledger.Accounts owned →
    (∀ object, gained = some object → object.identity < ledger.next) →
      Accounts (match gained with
        | some object => ledger.retain object
        | none => ledger) (gained.toList ++ owned) := by
  intro accounts known
  cases gained with
  | none => exact accounts
  | some object => exact accounts.retain (known object rfl)

/-- One owner less, if an object was held. -/
theorem lose (lost : Option SharedObject) : ledger.Accounts (lost.toList ++ owned) →
    Accounts (match lost with
      | some object => ledger.release object
      | none => ledger) owned := by
  intro accounts
  cases lost with
  | none => exact accounts
  | some object => exact accounts.release

/-- The first owner of a new object: nobody holds an object that was not issued. -/
theorem advance (accounts : ledger.Accounts owned) (content : MediaObject) :
    ledger.advance.Accounts (⟨ledger.next, content⟩ :: owned) where
  counted identity := by
    rw [counts_advance, holding_cons]
    by_cases same : ledger.next = identity
    · have nobody : holding owned identity = 0 := by
        refine List.countP_eq_zero.mpr ?_
        intro object present held
        have issued := accounts.issued present
        rw [of_decide_eq_true held, same] at issued
        exact Nat.lt_irrefl _ issued
      simp [same, nobody]
    · simp [same, accounts.counted]
  issued present := by
    rcases List.mem_cons.mp present with same | before
    · exact same ▸ Nat.lt_succ_self _
    · exact Nat.lt_succ_of_lt (accounts.issued before)

end Accounts

end Ledger

end MediaSession
