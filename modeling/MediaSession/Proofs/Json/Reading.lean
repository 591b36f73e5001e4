import MediaSession.Json.Reader
import MediaSession.Proofs.Json.Outline
import MediaSession.Proofs.Results

/-!
Reading back. A reader restores a value from what was written for it, whether it walks a text or something set aside;
how readers are put together follows how what they read is written.
-/
namespace MediaSession.Json

namespace Value

theorem outlines_eq (items : List Value) : outlines items = items.map outline := by
  induction items with
  | nil => rfl
  | cons item items ih => exact congrArg (_ :: ·) ih

theorem memberOutlines_eq (members : List (String × Value)) :
    memberOutlines members = members.map fun member => (.text (some member.1), member.2.outline) := by
  induction members with
  | nil => rfl
  | cons member members ih => exact congrArg (_ :: ·) ih

/-- Values with integers of 64 bits and at most `depth` lists and records within each other. -/
inductive Fits : Nat → Value → Prop where
  | null : Fits depth null
  | bool : Fits depth (bool value)
  | integer (lower : -0x8000000000000000 ≤ value) (upper : value ≤ 0xFFFFFFFFFFFFFFFF) : Fits depth (integer value)
  | text : Fits depth (text content)
  | list (items_fit : ∀ item ∈ items, Fits depth item) : Fits (depth + 1) (list items)
  | record (members_fit : ∀ member ∈ members, Fits depth member.2) : Fits (depth + 1) (record members)

/-- What fits can be set aside. -/
theorem Fits.settle {depth : Nat} {value : Value} (fits : value.Fits depth) {room : Nat} (enough : depth ≤ room) :
    value.outline.settle room = .ok () := by
  induction fits generalizing room with
  | null | bool | text => cases room <;> rfl
  | @integer number depth lower upper =>
    have found : (Outline.number (.ofInt number)).found = .ok (.integer number) := by
      rw [Outline.found, Numeral.integer?_ofInt lower upper]
    cases room <;> exact bind_ok_iff.mpr ⟨_, found, rfl⟩
  | list items_fit ih =>
    obtain _ | room := room
    · cases enough
    · refine bind_ok_iff.mpr ⟨(), forM_ok_iff.mpr fun node inside => ?_, rfl⟩
      rw [outlines_eq] at inside
      obtain ⟨item, member, rfl⟩ := List.mem_map.mp inside
      exact ih item member (Nat.le_of_succ_le_succ enough)
  | record members_fit ih =>
    obtain _ | room := room
    · cases enough
    · refine bind_ok_iff.mpr ⟨(), forM_ok_iff.mpr fun node inside => ?_, rfl⟩
      rw [memberOutlines_eq] at inside
      obtain ⟨member, listed, rfl⟩ := List.mem_map.mp inside
      exact ih member listed (Nat.le_of_succ_le_succ enough)

end Value

/-- Whether so many lists and records may be opened within each other from there. -/
def Origin.HasRoom (depth : Nat) : Origin → Prop
  | text room => depth ≤ room
  | _ => True

theorem Origin.HasRoom.inner {depth : Nat} {origin : Origin} (room : origin.HasRoom (depth + 1)) :
    ∃ inner, origin.inner = .ok inner ∧ inner.HasRoom depth := by
  cases origin with
  | text free =>
    obtain _ | free := free
    · cases room
    · exact ⟨.text free, rfl, Nat.le_of_succ_le_succ room⟩
  | setAside => exact ⟨.setAside, rfl, trivial⟩
  | tree => exact ⟨.tree, rfl, trivial⟩

theorem Value.Fits.setAside {depth : Nat} {value : Value} (fits : value.Fits depth) {origin : Origin}
    (room : origin.HasRoom depth) : value.outline.setAside origin = .ok () := by
  cases origin with
  | text free => exact fits.settle room
  | setAside | tree => rfl

/-- A reader gives `value` for what was written, from wherever there is room for that. -/
structure Restores (reader : Reader α) (depth : Nat) (written : Value) (value : α) : Prop where
  fits : written.Fits depth
  read : ∀ {origin : Origin}, origin.HasRoom depth → reader origin written.outline = .ok value

namespace Restores
variable {depth : Nat}

theorem integer {lower upper value : Int} (least : -0x8000000000000000 ≤ lower) (most : upper ≤ 0xFFFFFFFFFFFFFFFF)
    (above : lower ≤ value) (below : value ≤ upper) (expected : String) :
    Restores (Reader.integer lower upper expected) depth (.integer value) value where
  fits := .integer (Int.le_trans least above) (Int.le_trans below most)
  read _ := by
    have read := Numeral.integer?_ofInt (Int.le_trans least above) (Int.le_trans below most)
    simp only [Value.outline, Reader.integer, read, above, below, and_self, if_true]

theorem count {number : Nat} (word : number < 2 ^ 64) (expected : String) :
    Restores (Reader.count expected) depth (.count number) number := by
  have whole : Restores (Reader.integer 0 0xFFFFFFFFFFFFFFFF expected) depth (.count number) number :=
    .integer (by decide) (Int.le_refl _) (Int.natCast_nonneg number) (by omega) expected
  exact ⟨whole.fits, fun room => bind_ok_iff.mpr ⟨_, whole.read room, rfl⟩⟩

theorem bool (value : Bool) : Restores Reader.bool depth (.bool value) value := ⟨.bool, fun _ => rfl⟩

theorem textAs (expected content : String) : Restores (Reader.textAs expected) depth (.text content) content :=
  ⟨.text, fun _ => rfl⟩

theorem choice {choices : List (String × α)} {name : String} {value : α} (named : choices.lookup name = some value) :
    Restores (Reader.choice choices) depth (.text name) value where
  fits := .text
  read {origin} _ := by
    cases origin <;> simp only [Value.outline, Reader.choice, Reader.variant, named]

theorem option {reader : Reader α} {write : α → Value} (value : Option α)
    (present : ∀ content, write content ≠ .null)
    (restores : ∀ content ∈ value, Restores reader depth (write content) content) :
    Restores (Reader.option reader) depth (.option write value) value := by
  cases value with
  | none => exact ⟨.null, fun _ => rfl⟩
  | some content =>
    have inner := restores content rfl
    refine ⟨inner.fits, fun {origin} room => ?_⟩
    have read : (do return some (← reader origin (write content).outline)) = Except.ok (some content) :=
      bind_ok_iff.mpr ⟨_, inner.read room, rfl⟩
    change Reader.option reader origin (write content).outline = _
    cases shape : write content with
    | null => exact absurd shape (present content)
    | _ =>
      rw [shape] at read
      exact read

theorem list {reader : Reader α} {write : α → Value} {values : List α}
    (restores : ∀ value ∈ values, Restores reader depth (write value) value) :
    Restores (Reader.list reader) (depth + 1) (.list (values.map write)) values where
  fits := .list fun item inside => by
    obtain ⟨value, listed, rfl⟩ := List.mem_map.mp inside
    exact (restores value listed).fits
  read {origin} room := by
    obtain ⟨inner, opened, left⟩ := room.inner
    have items : (Value.outlines (values.map write)).mapM (reader inner) = .ok values := by
      rw [Value.outlines_eq, List.map_map]
      exact mapM_ok fun value listed => (restores value listed).read left
    exact bind_ok_iff.mpr ⟨inner, opened, bind_ok_iff.mpr ⟨values, items, rfl⟩⟩

/-- Members that fill a draft one after the other, each its field. -/
inductive Fills {σ : Type} (fields : List (Reader.Field σ)) (depth : Nat) : σ → List (String × Value) → σ → Prop where
  | nil : Fills fields depth draft [] draft
  | cons {field : Reader.Field σ} (found : fields.find? (·.name = name) = some field)
      (unset : field.isSet draft = false) (fits : Value.Fits depth written)
      (set : ∀ {origin : Origin}, origin.HasRoom depth → field.set origin written.outline draft = .ok next)
      (rest : Fills fields depth next members last) : Fills fields depth draft ((name, written) :: members) last

variable {σ : Type} {fields : List (Reader.Field σ)} {members : List (String × Value)} {draft last : σ}

/-- A member for a field with a reader of its own. -/
theorem Fills.of {get : σ → Option α} {put : α → σ → σ} {reader : Reader α} {name label : String} {written : Value}
    {value : α} (found : fields.find? (·.name = name) = some (.of label get put reader)) (unset : get draft = none)
    (restores : Restores reader depth written value) (rest : Fills fields depth (put value draft) members last) :
    Fills fields depth draft ((name, written) :: members) last :=
  .cons found (congrArg Option.isSome unset) restores.fits
    (fun room => bind_ok_iff.mpr ⟨value, restores.read room, rfl⟩) rest

/-- The member of a record with one field. -/
theorem Fills.only {get : σ → Option α} {put : α → σ → σ} {reader : Reader α} {written : Value} {value : α}
    (unset : get draft = none) (restores : Restores reader depth written value) (name : String) :
    Fills [.of name get put reader] depth draft [(name, written)] (put value draft) :=
  .of (List.find?_cons_of_pos (decide_eq_true rfl)) unset restores .nil

theorem Fills.fits (fills : Fills fields depth draft members last) : Value.Fits (depth + 1) (.record members) := by
  refine .record ?_
  induction fills with
  | nil => exact fun _ inside => nomatch inside
  | cons _ _ fits _ _ ih => exact List.forall_mem_cons.mpr ⟨fits, ih⟩

theorem Fills.fillMembers (fills : Fills fields depth draft members last) {origin : Origin}
    (room : origin.HasRoom depth) :
    Reader.fillMembers fields origin (Value.memberOutlines members) draft = .ok last := by
  induction fills with
  | nil => rfl
  | cons found unset _ set _ ih =>
    refine bind_ok_iff.mpr ⟨_, rfl, ?_⟩
    simp only [found, unset, Bool.false_eq_true, if_false]
    exact bind_ok_iff.mpr ⟨_, set room, ih⟩

theorem layout {layout : Reader.Layout σ α} {value : α} (finish : layout.finish last = .ok value)
    (fills : Fills layout.fields depth layout.start members last) :
    Restores (Reader.layout layout) (depth + 1) (.record members) value where
  fits := fills.fits
  read {origin} room := by
    obtain ⟨inner, opened, left⟩ := room.inner
    refine bind_ok_iff.mpr ⟨inner, opened, bind_ok_iff.mpr ⟨last, fills.fillMembers left, ?_⟩⟩
    exact congrArg (Except.mapError Refusal.mismatch) finish

/-- All members but the tag are set aside. -/
theorem findTag_others {tag : String} {choices : List (String × α)} {origin : Origin} (room : origin.HasRoom depth)
    (fit : ∀ member ∈ members, Value.Fits depth member.2) (apart : ∀ member ∈ members, member.1 ≠ tag)
    (picked : Option α) (others : List (Outline × Outline)) :
    Reader.findTag tag choices origin (Value.memberOutlines members) picked others =
      .ok (picked, others.reverse ++ Value.memberOutlines members) := by
  induction members generalizing others with
  | nil => exact congrArg (fun others => Except.ok (picked, others)) (List.append_nil _).symm
  | cons member members ih =>
    obtain ⟨fits, fit⟩ := List.forall_mem_cons.mp fit
    obtain ⟨other, apart⟩ := List.forall_mem_cons.mp apart
    have later := ih fit apart ((.text (some member.1), member.2.outline) :: others)
    rw [List.reverse_cons, List.append_assoc] at later
    refine bind_ok_iff.mpr ⟨member.1, rfl, ?_⟩
    rw [if_neg other]
    exact bind_ok_iff.mpr ⟨(), fits.setAside room, later⟩

theorem tagged {label tag name : String} {choices : List (String × Reader α)} {reader : Reader α} {value : α}
    (named : choices.lookup name = some reader) (apart : ∀ member ∈ members, member.1 ≠ tag)
    (restores : Restores reader (depth + 1) (.record members) value) :
    Restores (Reader.tagged label tag choices) (depth + 1) (.record ((tag, .text name) :: members)) value := by
  have fit : ∀ member ∈ members, Value.Fits depth member.2 := by
    cases restores.fits with
    | record fit => exact fit
  refine ⟨.record (List.forall_mem_cons.mpr ⟨.text, fit⟩), fun {origin} room => ?_⟩
  obtain ⟨inner, opened, left⟩ := room.inner
  have found : Reader.findTag tag choices inner (Value.memberOutlines ((tag, .text name) :: members)) none [] =
      .ok (some reader, Value.memberOutlines members) := by
    have variant : Reader.variantName choices inner (.text (some name)) = .ok reader := by
      rw [Reader.variantName, Reader.variant, named]
    refine bind_ok_iff.mpr ⟨tag, rfl, ?_⟩
    simp only [if_true, Option.isSome_none, Bool.false_eq_true, if_false]
    exact bind_ok_iff.mpr ⟨reader, variant, findTag_others left fit apart _ _⟩
  refine bind_ok_iff.mpr ⟨inner, opened, bind_ok_iff.mpr ⟨_, found, ?_⟩⟩
  exact restores.read trivial

/-- A variant that has a tag alone. -/
theorem noFields (value : α) : Restores (Reader.noFields value) (depth + 1) (.record []) value :=
  ⟨.record nofun, fun _ => rfl⟩

/-- What a reader restores it reads from the text in either form. -/
theorem ofText {reader : Reader α} {written : Value} {value : α} (restores : Restores reader depth written value)
    (shallow : depth ≤ 127) (form : Form) : Reader.ofText reader (form.text written) = .ok value := by
  unfold Reader.ofText
  rw [form.outline_text]
  exact bind_ok_iff.mpr ⟨value, restores.read shallow, rfl⟩

end Restores

end MediaSession.Json
