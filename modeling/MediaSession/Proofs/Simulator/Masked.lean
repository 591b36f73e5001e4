import Mathlib.Data.List.SplitBy
import MediaSession.Labels
import MediaSession.Proofs.Index.SelfCheck
import MediaSession.Proofs.Text.Hex
import MediaSession.Simulator.Run

/-!
Reports with a mark in place of every identity. A text is masked part by part wherever it is not cut between two digits,
and what a self-check can object to in a simulation reads the same whichever placement it names.
-/
namespace MediaSession

theorem Text.Hex.isHexDigit_digit {value : Nat} (small : value < 16) : Labels.isHexDigit (digit value) = true := by
  revert value
  decide

theorem Text.Hex.isHexDigit_encode {bytes : List UInt8} {char : Char} (member : char ∈ encode bytes) :
    Labels.isHexDigit char = true := by
  induction bytes with
  | nil => cases member
  | cons byte rest ih =>
    rcases List.mem_cons.mp member with first | member
    · exact first ▸ isHexDigit_digit (high_lt byte)
    · rcases List.mem_cons.mp member with second | later
      · exact second ▸ isHexDigit_digit (low_lt byte)
      · exact ih later

theorem maskDigits_append (mark : String) {before after : String}
    (apart : ∀ last ∈ before.toList.getLast?, ∀ first ∈ after.toList.head?,
      (Labels.isHexDigit last && Labels.isHexDigit first) = false) :
    maskDigits mark (before ++ after) = maskDigits mark before ++ maskDigits mark after := by
  rw [maskDigits, Labels.runs, String.toList_append, List.splitBy_append apart, List.map_append, List.map_append,
    String.join_append]
  rfl

/-- The digits of an identity are as many as a mark takes the place of. -/
theorem maskDigits_toHex (mark : String) (id : PlacementId) : maskDigits mark id.toHex = mark := by
  have length : (Text.Hex.encode id.bytes).length = 32 := by rw [Text.Hex.length_encode, id.length_bytes]
  have nonempty : Text.Hex.encode id.bytes ≠ [] := List.ne_nil_of_length_pos (length ▸ by decide)
  have one : (Text.Hex.encode id.bytes).splitBy (fun a b => Labels.isHexDigit a && Labels.isHexDigit b) =
      [Text.Hex.encode id.bytes] := by
    refine List.splitBy_of_isChain nonempty (List.Pairwise.isChain (List.pairwise_of_forall_mem_list ?_))
    intro first here second there
    rw [Text.Hex.isHexDigit_encode here, Text.Hex.isHexDigit_encode there]
    rfl
  simp [maskDigits, Labels.runs, PlacementId.toHex, one, length, String.join_cons]

/-- Which placement it is that lies too deep makes no difference to the masked message. -/
theorem SelfCheckFault.mask_chainTooLong (mark : String) (id other : PlacementId) (limit : Nat) :
    maskDigits mark (chainTooLong id limit).message = maskDigits mark (chainTooLong other limit).message := by
  let before := "self-check (" ++ "1.5" ++ ") failed: " ++ "scope chain of "
  let after := " does not reach the root within " ++ (toString limit ++ " steps")
  have written (id : PlacementId) : (chainTooLong id limit).message = before ++ (id.toHex ++ after) := by
    have whole : (chainTooLong id limit).message = "self-check (" ++ "1.5" ++ ") failed: " ++
        ("scope chain of " ++ id.toHex ++ " does not reach the root within " ++ toString limit ++ " steps") := rfl
    simp only [whole, before, after, String.append_assoc]
  have ends : before.toList.getLast? = some ' ' := by decide
  have starts : after.toList.head? = some ' ' := by
    rw [String.toList_append]
    rfl
  have behind (id : PlacementId) : maskDigits mark (id.toHex ++ after) = mark ++ maskDigits mark after := by
    refine (maskDigits_append mark ?_).trans (congrArg (· ++ _) (maskDigits_toHex mark id))
    simp [starts, Labels.isHexDigit]
  have masked (id : PlacementId) : maskDigits mark (chainTooLong id limit).message =
      maskDigits mark before ++ (mark ++ maskDigits mark after) := by
    rw [written, ← behind id]
    refine maskDigits_append mark ?_
    simp [ends, Labels.isHexDigit]
  rw [masked, masked]

namespace Simulator

/-- A violation with a mark in place of every identity in its texts. -/
def Violation.masked (mark : String) : Violation → Violation
  | selfCheck step failure => selfCheck step (maskDigits mark failure)
  | unexpectedOutcome step operation expected actual detail =>
    unexpectedOutcome step operation expected actual (detail.map (maskDigits mark))
  | wrongResult step operation detail => wrongResult step operation (maskDigits mark detail)

def Report.masked (mark : String) (report : Report) : Report :=
  { report with violations := report.violations.map (Violation.masked mark) }

theorem Violation.step_masked (mark : String) (violation : Violation) :
    (violation.masked mark).step = violation.step := by
  cases violation <;> rfl

end Simulator

end MediaSession
