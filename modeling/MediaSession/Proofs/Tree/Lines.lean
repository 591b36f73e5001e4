import MediaSession.Proofs.Table.Conservation
import MediaSession.Proofs.Text.Hex
import MediaSession.Proofs.Tree.Forest

/-!
What the lines of a drawing tell. As long as no name has a line feed, the text of a drawing falls into the lines of its
rows, and the marks in front of them tell which row lies below which, whatever stands behind the marks.
-/
namespace MediaSession

theorem Text.Hex.not_mem_encode {char : Char} (other : ∀ value < 16, digit value ≠ char) (bytes : List UInt8) :
    char ∉ encode bytes := by
  induction bytes with
  | nil => exact List.not_mem_nil
  | cons byte rest ih =>
    rw [encode, List.mem_cons, List.mem_cons]
    rintro (same | same | later)
    · exact other _ (high_lt byte) same.symm
    · exact other _ (low_lt byte) same.symm
    · exact ih later

/-- The object's name, if it has one, has no line feed. -/
def MediaObject.OneLine : MediaObject → Prop
  | root name | fork name | clip name _ | effect name | sub1 name | sub2 name => '\n' ∉ name.toList
  | binding _ | dummy _ => True

instance : (content : MediaObject) → Decidable content.OneLine
  | .root name | .fork name | .clip name _ | .effect name | .sub1 name | .sub2 name =>
    inferInstanceAs (Decidable ('\n' ∉ name.toList))
  | .binding _ | .dummy _ => .isTrue trivial

theorem not_mem_enclosed {char : Char} {before inner behind : String} (left : char ∉ before.toList)
    (middle : char ∉ inner.toList) (right : char ∉ behind.toList) : char ∉ (before ++ inner ++ behind).toList := by
  simp only [String.toList_append, List.mem_append]
  exact not_or.mpr ⟨not_or.mpr ⟨left, middle⟩, right⟩

theorem MediaObject.shortId_oneLine {content : MediaObject} (plain : content.OneLine) :
    '\n' ∉ content.shortId.toList := by
  cases content with
  | root name | fork name | clip name _ | effect name | sub1 name | sub2 name =>
    exact not_mem_enclosed (by decide) plain (by decide)
  | binding sequence =>
    have short : '\n' ∉ sequence.short.toList := by
      rw [PlacementId.short, String.toList_ofList]
      exact Text.Hex.not_mem_encode (by decide) _
    exact not_mem_enclosed (by decide) short (by decide)
  | dummy tag =>
    have digits : '\n' ∉ (toString tag).toList := by
      change '\n' ∉ (Nat.repr tag.toNat).toList
      rw [Nat.repr, String.toList_ofList]
      exact fun written => absurd (Nat.isDigit_of_mem_toDigits (by decide) (by decide) written) (by decide)
    exact not_mem_enclosed (by decide) digits (by decide)

/-- No name of a registered object has a line feed. -/
def Index.OneLine (index : Index) : Prop := ∀ placement ∈ index.table.placements, placement.object.content.OneLine

instance (index : Index) : Decidable index.OneLine :=
  inferInstanceAs (Decidable (∀ placement ∈ index.table.placements, placement.object.content.OneLine))

theorem Index.OneLine.label {index : Index} (plain : index.OneLine) {id : PlacementId} {text : String}
    (named : index.label id = some text) : '\n' ∉ text.toList := by
  obtain ⟨entry, found, rfl⟩ := Option.map_eq_some_iff.mp named
  exact MediaObject.shortId_oneLine (plain _ (Table.mem_placements_iff.mpr ⟨id, entry, found, rfl⟩))

theorem Tree.Renders.oneLine {index : Index} {rows : List (PlacementId × String)} (renders : Renders index rows)
    (plain : index.OneLine) : ∀ line ∈ rows.map Prod.snd, '\n' ∉ line.toList := by
  intro line member
  obtain ⟨row, shown, rfl⟩ := List.mem_map.mp member
  obtain ⟨_, marks, text, _, named, line, _, single⟩ := renders.shown row shown
  rw [line, String.toList_append, List.mem_append]
  exact not_or.mpr ⟨single, plain.label named⟩

/-- What stands before the first stop mark can be told from what comes behind it. -/
theorem stop_inj {stop : Char} {one other behind rest : List Char} (left : stop ∉ one) (right : stop ∉ other)
    (same : one ++ stop :: behind = other ++ stop :: rest) : one = other ∧ behind = rest := by
  induction one generalizing other with
  | nil =>
    cases other with
    | nil => exact ⟨rfl, (List.cons.inj same).2⟩
    | cons char more => exact absurd (List.mem_cons.mpr (.inl (List.cons.inj same).1)) right
  | cons char more ih =>
    cases other with
    | nil => exact absurd (List.mem_cons.mpr (.inl (List.cons.inj same).1.symm)) left
    | cons first further =>
      obtain ⟨rfl, later⟩ := List.cons.inj same
      obtain ⟨rfl, equal⟩ := ih (mt (List.mem_cons_of_mem _) left) (mt (List.mem_cons_of_mem _) right) later
      exact ⟨rfl, equal⟩

theorem join_lines_inj {lines others : List String} (plain : ∀ line ∈ lines, '\n' ∉ line.toList)
    (single : ∀ line ∈ others, '\n' ∉ line.toList)
    (same : String.join (lines.map fun line => line ++ "\n") = String.join (others.map fun line => line ++ "\n")) :
    lines = others := by
  have cons_toList (line : String) (rest : List String) :
      (String.join ((line :: rest).map fun line => line ++ "\n")).toList =
        line.toList ++ '\n' :: (String.join (rest.map fun line => line ++ "\n")).toList := by
    simp [String.join_cons]
  induction lines generalizing others with
  | nil =>
    cases others with
    | nil => rfl
    | cons line rest =>
      have none := (congrArg String.toList same).trans (cons_toList line rest)
      exact absurd none.symm (List.append_ne_nil_of_right_ne_nil _ (List.cons_ne_nil _ _))
  | cons line rest ih =>
    cases others with
    | nil =>
      have none := (cons_toList line rest).symm.trans (congrArg String.toList same)
      exact absurd none (List.append_ne_nil_of_right_ne_nil _ (List.cons_ne_nil _ _))
    | cons other more =>
      obtain ⟨here, plain⟩ := List.forall_mem_cons.mp plain
      obtain ⟨there, single⟩ := List.forall_mem_cons.mp single
      have equal := (cons_toList line rest).symm.trans ((congrArg String.toList same).trans (cons_toList other more))
      obtain ⟨first, later⟩ := stop_inj here there equal
      rw [String.toList_inj.mp first, ih plain single (String.toList_inj.mp later)]

namespace Forest
variable {forest other below others within beside : Forest} {indent : String} {image : PlacementId → PlacementId}

/-- The same texts in the same arrangement. -/
def Resembles : Forest → Forest → Prop
  | nil, nil => True
  | node _ text below others, node _ again within beside =>
    text = again ∧ below.Resembles within ∧ others.Resembles beside
  | _, _ => False

theorem starts_with_indent (forest : Forest) (indent : String) :
    ∀ line ∈ (forest.rows indent).map Prod.snd, indent.toList <+: line.toList := by
  induction forest generalizing indent with
  | nil => exact fun _ shown => absurd shown List.not_mem_nil
  | node id text below others ihBelow ihOthers =>
    intro line shown
    rw [rows, List.map_cons, List.map_append, List.mem_cons, List.mem_append] at shown
    rcases shown with rfl | inside | beside
    · simp only [String.toList_append, List.append_assoc]
      exact List.prefix_append ..
    · refine .trans ?_ (ihBelow _ line inside)
      rw [String.toList_append]
      exact List.prefix_append ..
    · exact ihOthers _ line beside

/-- No mark in front of a text looks like what is in front of the lines further below. -/
theorem not_space_prefix (upper : Forest) (forest : Forest) (indent : String) :
    ∀ line ∈ ((forest.rows indent).map Prod.snd).head?, ¬ (indent ++ upper.space).toList <+: line.toList := by
  cases forest with
  | nil => exact nofun
  | node id text below others =>
    intro line first
    cases first
    simp only [String.toList_append, List.append_assoc, List.prefix_append_right_inj]
    intro start
    have marks := List.prefix_of_prefix_length_le start (List.prefix_append ..) (by
      rw [String.length_toList, String.length_toList, length_space, length_branch])
    have same := marks.eq_of_length (by rw [String.length_toList, String.length_toList, length_space, length_branch])
    revert same
    unfold space branch
    split <;> split <;> decide

theorem isEmpty_of_branch (same : others.branch = beside.branch) : others.isEmpty = beside.isEmpty := by
  revert same
  unfold branch
  cases others.isEmpty <;> cases beside.isEmpty <;> decide

/-- A row apart, what is below it and what is beside it can be told from each other. -/
theorem rows_split (same : others.isEmpty = beside.isEmpty)
    (equal : (below.rows (indent ++ others.space) ++ others.rows indent).map Prod.snd =
      (within.rows (indent ++ beside.space) ++ beside.rows indent).map Prod.snd) :
    (below.rows (indent ++ others.space)).map Prod.snd = (within.rows (indent ++ others.space)).map Prod.snd ∧
      (others.rows indent).map Prod.snd = (beside.rows indent).map Prod.snd := by
  have spaces : beside.space = others.space := by rw [space, space, same]
  let deeper (line : String) : Bool := (indent ++ others.space).toList.isPrefixOf line.toList
  have cut (inner outer : Forest) :
      ((inner.rows (indent ++ others.space) ++ outer.rows indent).map Prod.snd).takeWhile deeper =
        (inner.rows (indent ++ others.space)).map Prod.snd := by
    rw [List.map_append, List.takeWhile_append_of_pos, List.append_right_eq_self]
    · cases shown : (outer.rows indent).map Prod.snd with
      | nil => rfl
      | cons line rest =>
        refine List.takeWhile_cons_of_neg fun start => ?_
        exact not_space_prefix others outer indent line (by rw [shown]; rfl) (List.isPrefixOf_iff_prefix.mp start)
    · exact fun line shown => List.isPrefixOf_iff_prefix.mpr (starts_with_indent inner _ line shown)
  rw [spaces] at equal
  have inner : (below.rows (indent ++ others.space)).map Prod.snd =
      (within.rows (indent ++ others.space)).map Prod.snd := by
    rw [← cut below others, equal, cut within beside]
  rw [List.map_append, List.map_append, inner] at equal
  exact ⟨inner, List.append_cancel_left equal⟩

/-- The lines tell texts and arrangement. -/
theorem resembles_of_rows (same : (forest.rows indent).map Prod.snd = (other.rows indent).map Prod.snd) :
    forest.Resembles other := by
  induction forest generalizing other indent with
  | nil =>
    cases other with
    | nil => trivial
    | node => cases same
  | node id text below others ihBelow ihOthers =>
    cases other with
    | nil => cases same
    | node key again within beside =>
      obtain ⟨first, rest⟩ := List.cons.inj same
      have marked : others.branch.toList ++ text.toList = beside.branch.toList ++ again.toList := by
        have first := congrArg String.toList first
        simp only [String.toList_append, List.append_assoc] at first
        exact List.append_cancel_left first
      obtain ⟨marks, texts⟩ := List.append_inj marked (by
        rw [String.length_toList, String.length_toList, length_branch, length_branch])
      have ends := isEmpty_of_branch (String.toList_inj.mp marks)
      obtain ⟨inner, outer⟩ := rows_split ends rest
      exact ⟨String.toList_inj.mp texts, ihBelow inner, ihOthers outer⟩

theorem Resembles.length_ids (resembles : forest.Resembles other) : forest.ids.length = other.ids.length := by
  induction forest generalizing other with
  | nil =>
    cases other with
    | nil => rfl
    | node => exact resembles.elim
  | node id text below others ihBelow ihOthers =>
    cases other with
    | nil => exact resembles.elim
    | node =>
      obtain ⟨_, inner, outer⟩ := resembles
      simp only [ids, List.length_cons, List.length_append, ihBelow inner, ihOthers outer]

/-- What resembles a forest is that forest with other identities. -/
theorem Resembles.map_eq (resembles : forest.Resembles other) (moved : forest.ids.map image = other.ids) :
    forest.map image = other := by
  induction forest generalizing other with
  | nil =>
    cases other with
    | nil => rfl
    | node => exact resembles.elim
  | node id text below others ihBelow ihOthers =>
    cases other with
    | nil => exact resembles.elim
    | node key again within beside =>
      obtain ⟨rfl, inner, outer⟩ := resembles
      obtain ⟨here, rest⟩ := List.cons.inj moved
      rw [List.map_append] at rest
      obtain ⟨insides, outsides⟩ := List.append_inj rest ((List.length_map ..).trans inner.length_ids)
      rw [Forest.map, here, ihBelow inner insides, ihOthers outer outsides]

end Forest

/-- A list without repeats can be led to any list of its length. -/
theorem exists_map_eq {ids others : List PlacementId} (distinct : ids.Nodup) (same : ids.length = others.length) :
    ∃ image : PlacementId → PlacementId, ids.map image = others := by
  induction ids generalizing others with
  | nil => exact ⟨id, (List.length_eq_zero_iff.mp same.symm).symm⟩
  | cons first rest ih =>
    obtain ⟨fresh, distinct⟩ := List.nodup_cons.mp distinct
    cases others with
    | nil => cases same
    | cons other more =>
      obtain ⟨image, moved⟩ := ih distinct (Nat.succ.inj same)
      refine ⟨fun id => if id = first then other else image id, ?_⟩
      rw [List.map_cons, if_pos rfl, ← moved]
      refine congrArg (other :: ·) (List.map_congr_left fun id member => if_neg ?_)
      rintro rfl
      exact fresh member

end MediaSession
