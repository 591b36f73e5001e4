import Mathlib.Algebra.BigOperators.Intervals
import MediaSession.Tree

/-!
How many placements a regular tree has: the sum of its levels, as long as that sum and every level on the way to it fit
into 64 bits.
-/
namespace MediaSession.Tree

/-- The first number beyond 64 bits. -/
def wordLimit : Nat := 0x10000000000000000

/-- The sizes of all levels together; each is a power of the width. -/
def levelSum (depth width : Nat) : Nat := ∑ level ∈ Finset.Icc 1 depth, width ^ level

variable {depth width level total : Nat}

@[simp] theorem levelSum_zero (width : Nat) : levelSum 0 width = 0 := rfl

/-- Below every member of the first level lies a tree with one level less. -/
theorem levelSum_succ (depth width : Nat) : levelSum (depth + 1) width = width * (1 + levelSum depth width) := by
  have next (depth : Nat) : levelSum (depth + 1) width = levelSum depth width + width ^ (depth + 1) :=
    Finset.sum_Icc_succ_top (Nat.le_add_left 1 depth) _
  induction depth with
  | zero => rw [next, levelSum_zero, Nat.zero_add, Nat.pow_one, Nat.add_zero, Nat.mul_one]
  | succ depth ih =>
    calc levelSum (depth + 2) width
      _ = width * (1 + levelSum depth width) + width ^ (depth + 2) := by rw [next, ih]
      _ = width * (1 + (levelSum depth width + width ^ (depth + 1))) := by
        rw [← Nat.add_assoc, Nat.mul_add width (1 + _), pow_succ' width (depth + 1)]
      _ = width * (1 + levelSum (depth + 1) width) := by rw [next]

theorem levelSum_of_narrow (depth : Nat) : levelSum depth 0 = 0 := by
  cases depth with
  | zero => rfl
  | succ depth => rw [levelSum_succ, Nat.zero_mul]

theorem levelSum_of_chain (depth : Nat) : levelSum depth 1 = depth := by
  induction depth with
  | zero => rfl
  | succ depth ih => rw [levelSum_succ, ih, Nat.one_mul, Nat.add_comm]

/-- The further levels are added up unless their sum does not fit; the levels grow, so the first one that does not fit
on its own is found by the sum as well. -/
theorem sizeFrom_eq (width levels : Nat) (fits : total < wordLimit) :
    sizeFrom width levels level total =
      if total + level * levelSum levels width < wordLimit then some (total + level * levelSum levels width)
      else none := by
  induction levels generalizing level total with
  | zero => rw [levelSum_zero, Nat.mul_zero, Nat.add_zero, if_pos fits, sizeFrom]
  | succ levels ih =>
    have whole : total + level * levelSum (levels + 1) width =
        total + level * width + level * width * levelSum levels width := by
      rw [levelSum_succ, Nat.mul_add, Nat.mul_one, Nat.mul_add, Nat.mul_assoc, Nat.add_assoc]
    rw [whole, sizeFrom]
    split
    · rename_i next
      exact ih next.2
    · rename_i beyond
      rw [if_neg]
      intro below
      refine beyond ⟨?_, ?_⟩ <;>
        exact Nat.lt_of_le_of_lt (by omega) below

/-- A chain is measured by its depth alone, every other tree level by level. -/
theorem size_eq_ite (depth width : Nat) :
    size depth width =
      if width = 1 ∨ levelSum depth width < wordLimit then some (levelSum depth width) else none := by
  unfold size
  split
  · rename_i narrow
    rw [narrow, levelSum_of_narrow, if_pos (.inr (by decide))]
  · split
    · rename_i chain
      rw [chain, levelSum_of_chain, if_pos (.inl rfl)]
    · rename_i wide
      rw [sizeFrom_eq width depth (by decide), Nat.zero_add, Nat.one_mul]
      simp only [wide, false_or]

theorem levelSum_of_size (found : size depth width = some total) : levelSum depth width = total := by
  rw [size_eq_ite] at found
  split at found
  · exact Option.some.inj found
  · cases found

theorem size_eq (width : Nat) (bounded : depth < wordLimit) :
    size depth width = if levelSum depth width < wordLimit then some (levelSum depth width) else none := by
  rw [size_eq_ite]
  by_cases chain : width = 1
  · have fits : levelSum depth width < wordLimit := by rwa [chain, levelSum_of_chain]
    rw [if_pos (.inl chain), if_pos fits]
  · simp only [chain, false_or]

end MediaSession.Tree
