import MediaSession.Format.Placing
import MediaSession.Proofs.Json.Reading
import MediaSession.Proofs.Text.Hex

/-!
Times, pins, positions and identities are restored from what is written for them.
-/
namespace MediaSession

open Json

variable {depth : Nat}

theorem Time.restores (time : Time) : Restores reader depth time.toValue time := by
  have micros : Restores (Reader.integer (-0x8000000000000000) 0x7FFFFFFFFFFFFFFF "i64") depth time.toValue
      time.micros :=
    .integer (Int.le_refl _) (by decide) time.lower (Int.le_sub_one_of_lt time.upper) _
  refine ⟨micros.fits, fun room => bind_ok_iff.mpr ⟨time.micros, micros.read room, ?_⟩⟩
  exact congrArg Except.ok (Time.ext (micros_clamp_of_fits time.lower time.upper))

namespace Pin

theorem oneField_restores {read : Reader α} {written : Value} {value : α} (label name : String) (build : α → Pin)
    (restores : Restores read depth written value) :
    Restores (oneField label name read build) (depth + 1) (.record [(name, written)]) (build value) :=
  .layout rfl (.only rfl restores name)

theorem restores (pin : Pin) : Restores reader (depth + 1) pin.toValue pin := by
  cases pin with
  | fixed start => exact .tagged rfl (by simp) (oneField_restores _ _ _ start.restores)
  | relative offset => exact .tagged rfl (by simp) (oneField_restores _ _ _ offset.restores)
  | wiring pipe => exact .tagged rfl (by simp) (oneField_restores _ _ _ (.textAs ..))

end Pin

theorem PinChain.restores (chain : PinChain) : Restores reader (depth + 3) chain.toValue chain :=
  .layout rfl (.only rfl (.list fun pin _ => pin.restores) _)

theorem Position.restores (position : Position) : Restores reader (depth + 1) position.toValue position := by
  have pipe : Restores (Reader.option Reader.text) depth (.option .text position.pipe) position.pipe :=
    .option _ nofun fun _ _ => .textAs ..
  exact .layout rfl (.of rfl rfl position.start.restores <| .of rfl rfl pipe .nil)

theorem PlacementId.restores (id : PlacementId) : Restores reader depth id.toValue id := by
  refine ⟨.text, fun _ => bind_ok_iff.mpr ⟨id.toHex, rfl, ?_⟩⟩
  rw [id.parse_toHex]
  rfl

end MediaSession
