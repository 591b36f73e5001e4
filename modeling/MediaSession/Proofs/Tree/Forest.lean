import MediaSession.Proofs.Index.Depth
import MediaSession.Proofs.Simulator.Subtree
import MediaSession.Tree

/-!
What the drawing of an index shows: for every scope a forest, whose rows are the placements below it, each followed by
all that lies below itself. Such a forest exists for every scope, and as many levels as there are placements suffice to
draw it.
-/
namespace MediaSession

namespace Table
variable {table : Table} {scope id : PlacementId}

/-- Nothing is reached from two placements of which neither reaches the other. -/
theorem Consistent.reached_apart (valid : table.Consistent) {one other : PlacementId}
    (away : ¬ Relation.ReflTransGen table.Lists one other) (back : ¬ Relation.ReflTransGen table.Lists other one)
    (route : Relation.ReflTransGen table.Lists one id) : ¬ Relation.ReflTransGen table.Lists other id := by
  induction route with
  | refl => exact back
  | tail route listed ih =>
    intro again
    rcases valid.reaches_scope listed again with same | higher
    · exact away (same ▸ route.tail listed)
    · exact ih higher

theorem Consistent.atDepth_member (valid : table.Consistent) (listed : id ∈ table.members scope) {depth : Nat}
    (lies : table.AtDepth scope depth) : table.AtDepth id (depth + 1) := by
  obtain ⟨chain, ascent, length⟩ := lies
  exact ⟨id :: chain, valid.ascent_member listed ascent, congrArg Nat.succ length⟩

end Table

/-- The text under which a registered placement is drawn. -/
def Index.label (index : Index) (id : PlacementId) : Option String :=
  (index.table.entry? id).map fun entry => entry.placement.object.content.shortId

theorem Index.exists_label {index : Index} {id : PlacementId} (registered : index.contains id = true) :
    ∃ text, index.label id = some text := by
  obtain ⟨entry, found⟩ := (Table.contains_iff ..).mp registered
  exact ⟨_, congrArg (Option.map _) found⟩

/-- Some siblings with all that is below them: the first one, what is below it, and the others. -/
inductive Forest where
  | nil
  | node (id : PlacementId) (text : String) (below others : Forest)

namespace Forest

def isEmpty : Forest → Bool
  | nil => true
  | node .. => false

/-- Levels of siblings. -/
def height : Forest → Nat
  | nil => 0
  | node _ _ below others => max (below.height + 1) others.height

/-- All placements, each in front of what is below it. -/
def ids : Forest → List PlacementId
  | nil => []
  | node id _ below others => id :: (below.ids ++ others.ids)

/-- The mark in front of a sibling's text. -/
def branch (others : Forest) : String := if others.isEmpty then "└── " else "├── "

/-- What is in front of everything below a sibling. -/
def space (others : Forest) : String := if others.isEmpty then "    " else "│   "

/-- The placements with the lines they are drawn as. -/
def rows (indent : String) : Forest → List (PlacementId × String)
  | nil => []
  | node id text below others =>
    (id, indent ++ others.branch ++ text) :: (below.rows (indent ++ others.space) ++ others.rows indent)

theorem map_fst_rows (forest : Forest) (indent : String) : (forest.rows indent).map Prod.fst = forest.ids := by
  induction forest generalizing indent with
  | nil => rfl
  | node id text below others ihBelow ihOthers => simp [rows, ids, ihBelow, ihOthers]

theorem length_branch (others : Forest) : others.branch.length = 4 := by
  unfold branch
  split <;> rfl

theorem length_space (others : Forest) : others.space.length = 4 := by
  unfold space
  split <;> rfl

/-- The same forest with other identities. -/
def map (image : PlacementId → PlacementId) : Forest → Forest
  | nil => nil
  | node id text below others => node (image id) text (below.map image) (others.map image)

theorem isEmpty_map (image : PlacementId → PlacementId) (forest : Forest) :
    (forest.map image).isEmpty = forest.isEmpty := by
  cases forest <;> rfl

/-- Identities are not drawn. -/
theorem map_snd_rows_map (image : PlacementId → PlacementId) (forest : Forest) (indent : String) :
    ((forest.map image).rows indent).map Prod.snd = (forest.rows indent).map Prod.snd := by
  induction forest generalizing indent with
  | nil => rfl
  | node id text below others ihBelow ihOthers =>
    simp [map, rows, branch, space, isEmpty_map, ihBelow, ihOthers]

end Forest

namespace Tree
variable {index : Index} {scope id : PlacementId} {text indent : String} {listed rest : List Sibling}
  {forest below others : Forest} {fuel : Nat}

/-- The members of a scope, in some order, each with its text. -/
theorem siblings_perm (valid : index.table.Consistent) (scope : PlacementId) :
    (siblings index scope).Perm ((index.table.members scope).map fun id => ((index.label id).getD "", id)) := by
  by_cases registered : index.contains scope = true
  · rw [siblings, Index.referrers, if_pos registered]
    refine (List.mergeSort_perm ..).trans (.of_eq ?_)
    rw [List.map_filterMap, ← List.filterMap_eq_map]
    refine List.filterMap_congr fun id listed => ?_
    obtain ⟨entry, found⟩ := (Table.contains_iff ..).mp (valid.contains_member listed)
    rw [Function.comp_apply, Index.label, found]
    exact congrArg (fun key => some (entry.placement.object.content.shortId, key)) (valid.keyed found)
  · rw [siblings, Index.referrers, if_neg registered, valid.members_eq_nil registered]
    exact .refl _

theorem siblings_ids (valid : index.table.Consistent) (scope : PlacementId) :
    ((siblings index scope).map Prod.snd).Perm (index.table.members scope) := by
  have same := (siblings_perm valid scope).map Prod.snd
  rwa [List.map_map, Function.comp_def, List.map_id'] at same

theorem mem_siblings_iff (valid : index.table.Consistent) :
    (text, id) ∈ siblings index scope ↔ id ∈ index.table.members scope ∧ index.label id = some text := by
  rw [(siblings_perm valid scope).mem_iff, List.mem_map]
  constructor
  · rintro ⟨_, listed, same⟩
    cases same
    obtain ⟨text, named⟩ := Index.exists_label (valid.contains_member listed)
    exact ⟨listed, by rw [named, Option.getD_some]⟩
  · rintro ⟨listed, named⟩
    exact ⟨id, listed, by rw [named, Option.getD_some]⟩

theorem contains_sibling (valid : index.table.Consistent) {sibling : Sibling}
    (listed : sibling ∈ siblings index scope) : index.contains sibling.2 = true :=
  valid.contains_member ((mem_siblings_iff valid).mp listed).1

/-- The forest shows the siblings in their order, and below each of them the members of its scope. -/
inductive Pictures (index : Index) : List Sibling → Forest → Prop where
  | nil : Pictures index [] .nil
  | node {id : PlacementId} {text : String} {rest : List Sibling} {below others : Forest}
      (inner : Pictures index (siblings index id) below) (further : Pictures index rest others) :
      Pictures index ((text, id) :: rest) (.node id text below others)

theorem Pictures.isEmpty (pictures : Pictures index listed forest) : forest.isEmpty = listed.isEmpty := by
  cases pictures <;> rfl

/-- Siblings that have enough scopes around them have few levels below them. -/
theorem exists_picture (valid : index.table.Consistent) (fuel : Nat) (listed : List Sibling)
    (deep : ∀ sibling ∈ listed, ∃ up, index.table.Ascent sibling.2 up ∧ index.table.size < up.length + fuel) :
    ∃ forest, Pictures index listed forest ∧ forest.height ≤ fuel := by
  induction fuel generalizing listed with
  | zero =>
    cases listed with
    | nil => exact ⟨.nil, .nil, Nat.le_refl _⟩
    | cons first rest =>
      obtain ⟨up, ascent, long⟩ := deep first List.mem_cons_self
      exact absurd (ascent.length_le_size valid) (Nat.not_le_of_lt long)
  | succ fuel ihFuel =>
    induction listed with
    | nil => exact ⟨.nil, .nil, Nat.zero_le _⟩
    | cons first rest ihRest =>
      obtain ⟨text, id⟩ := first
      obtain ⟨up, ascent, long⟩ := deep _ List.mem_cons_self
      obtain ⟨others, further, low⟩ := ihRest fun sibling member => deep sibling (List.mem_cons_of_mem _ member)
      have nested : ∀ sibling ∈ siblings index id,
          ∃ up, index.table.Ascent sibling.2 up ∧ index.table.size < up.length + fuel := by
        rintro ⟨text, member⟩ listed
        refine ⟨_, valid.ascent_member ((mem_siblings_iff valid).mp listed).1 ascent, ?_⟩
        rw [List.length_cons]
        omega
      obtain ⟨below, inner, lower⟩ := ihFuel (siblings index id) nested
      exact ⟨.node id text below others, .node inner further, Nat.max_le.mpr ⟨Nat.succ_le_succ lower, low⟩⟩

/-- Of every registered scope there is a picture, with fewer levels than there are placements. -/
theorem exists_picture_of_scope (valid : index.table.Consistent) (registered : index.contains scope = true) :
    ∃ forest, Pictures index (siblings index scope) forest ∧ forest.height ≤ index.table.size := by
  obtain ⟨up, ascent⟩ := valid.ascent registered
  refine exists_picture valid index.table.size _ ?_
  rintro ⟨text, member⟩ listed
  refine ⟨_, valid.ascent_member ((mem_siblings_iff valid).mp listed).1 ascent, ?_⟩
  rw [List.length_cons]
  omega

theorem Pictures.eq_nil (pictures : Pictures index listed forest) (flat : forest.height ≤ 0) : forest = .nil := by
  cases pictures with
  | nil => rfl
  | node => exact absurd (Nat.max_le.mp flat).1 (Nat.not_succ_le_zero _)

/-- Without fuel nothing is drawn, and a picture without levels shows nothing. -/
theorem drawBelow_of_siblings (pictures : Pictures index (siblings index scope) forest)
    (enough : forest.height ≤ fuel) {indent : String} {behind : List String}
    (drawn : ∀ fuel, forest.height ≤ fuel + 1 →
      drawSiblings (drawBelow index fuel) indent behind (siblings index scope) =
        (forest.rows indent).map Prod.snd ++ behind) :
    drawBelow index fuel scope indent behind = (forest.rows indent).map Prod.snd ++ behind := by
  cases fuel with
  | zero =>
    rw [pictures.eq_nil enough]
    rfl
  | succ fuel => exact drawn fuel enough

theorem drawSiblings_eq (pictures : Pictures index listed forest) (enough : forest.height ≤ fuel + 1)
    (indent : String) (behind : List String) :
    drawSiblings (drawBelow index fuel) indent behind listed = (forest.rows indent).map Prod.snd ++ behind := by
  induction pictures generalizing fuel indent behind with
  | nil => rfl
  | @node id text rest below others inner further ihBelow ihOthers =>
    obtain ⟨lower, low⟩ := Nat.max_le.mp enough
    have nested (indent : String) (behind : List String) :
        drawBelow index fuel id indent behind = (below.rows indent).map Prod.snd ++ behind :=
      drawBelow_of_siblings inner (Nat.le_of_succ_le_succ lower) fun _ high => ihBelow high indent behind
    rw [drawSiblings, nested, ihOthers low, Forest.rows, Forest.branch, Forest.space, further.isEmpty]
    simp

/-- To draw a scope is to draw its siblings one after the other, each followed by what is drawn of the scope that it is;
nothing bounds the depth. -/
inductive Draws (index : Index) : String → List Sibling → List String → Prop where
  | nil {indent : String} : Draws index indent [] []
  | cons {indent text : String} {id : PlacementId} {rest : List Sibling} {inner lines : List String}
      (below : Draws index (indent ++ if rest.isEmpty then "    " else "│   ") (siblings index id) inner)
      (others : Draws index indent rest lines) :
      Draws index indent ((text, id) :: rest)
        ((indent ++ (if rest.isEmpty then "└── " else "├── ") ++ text) :: (inner ++ lines))

theorem Draws.unique {lines others : List String} (one : Draws index indent listed lines)
    (two : Draws index indent listed others) : lines = others := by
  induction one generalizing others with
  | nil =>
    cases two
    rfl
  | cons _ _ ihBelow ihOthers =>
    cases two with
    | cons below rest => rw [ihBelow below, ihOthers rest]

theorem Pictures.draws (pictures : Pictures index listed forest) (indent : String) :
    Draws index indent listed ((forest.rows indent).map Prod.snd) := by
  induction pictures generalizing indent with
  | nil => exact .nil
  | node _ further ihBelow ihOthers =>
    rw [Forest.rows, List.map_cons, List.map_append, Forest.branch, Forest.space, further.isEmpty]
    exact .cons (ihBelow _) (ihOthers _)

/-- What is in a picture is drawn by calls that end. -/
theorem Pictures.acc (pictures : Pictures index listed forest) :
    ∀ id ∈ listed.map Prod.snd, Acc (fun next scope => next ∈ (siblings index scope).map Prod.snd) id := by
  induction pictures with
  | nil => exact fun _ member => absurd member List.not_mem_nil
  | node _ _ ihBelow ihOthers =>
    intro id member
    rcases List.mem_cons.mp member with rfl | later
    · exact ⟨_, ihBelow⟩
    · exact ihOthers id later

/-- With fuel for all levels, the rows of the picture are drawn. -/
theorem drawBelow_eq (pictures : Pictures index (siblings index scope) forest) (enough : forest.height ≤ fuel)
    (indent : String) (behind : List String) :
    drawBelow index fuel scope indent behind = (forest.rows indent).map Prod.snd ++ behind :=
  drawBelow_of_siblings pictures enough fun _ high => drawSiblings_eq pictures high indent behind

/-- A picture shows what is reached from its siblings. -/
theorem Pictures.mem_ids_iff (pictures : Pictures index listed forest) (valid : index.table.Consistent) :
    id ∈ forest.ids ↔ index.table.Reached (listed.map Prod.snd) id := by
  induction pictures with
  | nil => simp [Forest.ids, Table.Reached]
  | @node first text rest below others inner further ihBelow ihOthers =>
    have same (start : PlacementId) : start ∈ (siblings index first).map Prod.snd ↔ start ∈ index.table.members first :=
      (siblings_ids valid first).mem_iff
    rw [Forest.ids, List.mem_cons, List.mem_append, ihBelow, ihOthers, List.map_cons, Table.reached_cons_iff]
    simp only [Table.Reached, List.mem_append, same, or_and_right, exists_or]

theorem Pictures.mem_ids_iff_below (pictures : Pictures index (siblings index scope) forest)
    (valid : index.table.Consistent) : id ∈ forest.ids ↔ index.table.Below scope id := by
  rw [pictures.mem_ids_iff valid, Table.Reached, Table.Below, Relation.TransGen.head'_iff]
  simp only [(siblings_ids valid scope).mem_iff, Table.Lists]

theorem apart_siblings (valid : index.table.Consistent) (scope : PlacementId) :
    index.table.Apart ((siblings index scope).map Prod.snd) := by
  have apart := valid.apart_expand (List.pairwise_singleton _ scope)
  rw [List.append_nil] at apart
  exact apart.perm (siblings_ids valid scope).symm

theorem Pictures.nodup (pictures : Pictures index listed forest) (valid : index.table.Consistent)
    (apart : index.table.Apart (listed.map Prod.snd)) : forest.ids.Nodup := by
  induction pictures with
  | nil => exact List.nodup_nil
  | @node id text rest below others inner further ihBelow ihOthers =>
    obtain ⟨away, others⟩ := List.pairwise_cons.mp apart
    refine List.nodup_cons.mpr ⟨fun again => ?_, List.nodup_append.mpr ⟨?_, ihOthers others, ?_⟩⟩
    · rcases List.mem_append.mp again with inside | beside
      · exact valid.not_below_self id ((inner.mem_ids_iff_below valid).mp inside)
      · obtain ⟨start, member, route⟩ := (further.mem_ids_iff valid).mp beside
        exact (away start member).2 route
    · exact ihBelow (apart_siblings valid id)
    · rintro shown inside _ beside rfl
      obtain ⟨start, member, route⟩ := (further.mem_ids_iff valid).mp beside
      have below : index.table.Below id shown := (inner.mem_ids_iff_below valid).mp inside
      exact valid.reached_apart (away start member).1 (away start member).2 below.to_reflTransGen route

/-- Each row is followed by those of all that lies below its placement. -/
theorem Pictures.nested (pictures : Pictures index listed forest) (valid : index.table.Consistent) (indent : String) :
    ∀ row ∈ forest.rows indent, ∃ block, (row :: block) <:+: forest.rows indent ∧
      ∀ id, id ∈ block.map Prod.fst ↔ index.table.Below row.1 id := by
  induction pictures generalizing indent with
  | nil => exact fun _ shown => absurd shown List.not_mem_nil
  | @node id text rest below others inner further ihBelow ihOthers =>
    intro row shown
    rw [Forest.rows] at shown ⊢
    rcases List.mem_cons.mp shown with rfl | shown
    · refine ⟨below.rows (indent ++ others.space), ⟨[], others.rows indent, by simp⟩, fun other => ?_⟩
      rw [Forest.map_fst_rows]
      exact inner.mem_ids_iff_below valid
    · rcases List.mem_append.mp shown with inside | beside
      · obtain ⟨block, within, all⟩ := ihBelow _ row inside
        exact ⟨block, (within.trans (List.prefix_append ..).isInfix).trans (List.suffix_cons ..).isInfix, all⟩
      · obtain ⟨block, within, all⟩ := ihOthers _ row beside
        exact ⟨block, within.trans ((List.suffix_append ..).trans (List.suffix_cons ..)).isInfix, all⟩

/-- The line shows the text of the placement behind marks, four for every level. -/
def ShownAs (index : Index) (id : PlacementId) (line : String) : Prop :=
  ∃ depth marks text, index.table.AtDepth id depth ∧ index.label id = some text ∧ line = marks ++ text ∧
    marks.length = 4 * depth ∧ '\n' ∉ marks.toList

theorem Pictures.shown (pictures : Pictures index listed forest) (valid : index.table.Consistent) (depth : Nat)
    (level : ∀ text id, (text, id) ∈ listed → index.label id = some text ∧ index.table.AtDepth id (depth + 1))
    (width : indent.length = 4 * depth) (single : '\n' ∉ indent.toList) :
    ∀ row ∈ forest.rows indent, ShownAs index row.1 row.2 := by
  induction pictures generalizing indent depth with
  | nil => exact fun _ shown => absurd shown List.not_mem_nil
  | @node id text rest below others inner further ihBelow ihOthers =>
    obtain ⟨named, deep⟩ := level text id List.mem_cons_self
    intro row shown
    rw [Forest.rows] at shown
    rcases List.mem_cons.mp shown with rfl | shown
    · have branch : '\n' ∉ others.branch.toList := by
        unfold Forest.branch
        split <;> decide
      refine ⟨depth + 1, indent ++ others.branch, text, deep, named, rfl, ?_, ?_⟩
      · rw [String.length_append, width, Forest.length_branch, Nat.mul_succ]
      · rw [String.toList_append, List.mem_append]
        exact not_or.mpr ⟨single, branch⟩
    · rcases List.mem_append.mp shown with inside | beside
      · have space : '\n' ∉ others.space.toList := by
          unfold Forest.space
          split <;> decide
        refine ihBelow (depth + 1) (fun text member listed => ?_) ?_ ?_ row inside
        · obtain ⟨member, named⟩ := (mem_siblings_iff valid).mp listed
          exact ⟨named, valid.atDepth_member member deep⟩
        · rw [String.length_append, width, Forest.length_space, Nat.mul_succ]
        · rw [String.toList_append, List.mem_append]
          exact not_or.mpr ⟨single, space⟩
      · have later (text : String) (id : PlacementId) (member : (text, id) ∈ rest) :=
          level text id (List.mem_cons_of_mem _ member)
        exact ihOthers depth later width single row beside

def rootText (index : Index) : String := (index.label index.rootId).getD ""

theorem label_root (valid : index.table.Consistent) : index.label index.rootId = some (rootText index) := by
  have registered : index.contains index.rootId = true := valid.contains_root
  obtain ⟨text, named⟩ := Index.exists_label registered
  rw [rootText, named, Option.getD_some]

theorem draw_eq (index : Index) :
    draw index = String.join
      ((rootText index :: drawBelow index index.table.size index.rootId "" []).map fun line => line ++ "\n") := by
  rw [draw, rootText, Index.label, Index.find]
  cases index.table.entry? index.rootId <;> rfl

/-- The rows show every registered placement once, the root first, and each in front of all that lies below it. -/
structure Renders (index : Index) (rows : List (PlacementId × String)) : Prop where
  first : ∃ text, index.label index.rootId = some text ∧ rows.head? = some (index.rootId, text)
  distinct : (rows.map Prod.fst).Nodup
  all : ∀ id, id ∈ rows.map Prod.fst ↔ index.contains id = true
  shown : ∀ row ∈ rows, ShownAs index row.1 row.2
  nested : ∀ row ∈ rows, ∃ block, (row :: block) <:+: rows ∧
    ∀ id, id ∈ block.map Prod.fst ↔ index.table.Below row.1 id

theorem Pictures.mem_ids_iff_inner (pictures : Pictures index (siblings index index.rootId) forest)
    (valid : index.table.Consistent) : id ∈ forest.ids ↔ id ≠ index.rootId ∧ index.contains id = true := by
  rw [pictures.mem_ids_iff_below valid]
  refine ⟨valid.scope_of_below, fun ⟨inner, registered⟩ => ?_⟩
  obtain ⟨up, ascent⟩ := valid.ascent registered
  have route := valid.reached_of_ascent ascent (List.mem_of_getLast? ascent.getLast)
  exact (Relation.reflTransGen_iff_eq_or_transGen.mp route).resolve_left inner

/-- The root and what a picture of its scope shows are the registered placements, once each. -/
theorem Pictures.ids_perm (pictures : Pictures index (siblings index index.rootId) forest)
    (valid : index.table.Consistent) :
    (index.rootId :: forest.ids).Nodup ∧ (index.rootId :: forest.ids).Perm index.ids := by
  have shown {id : PlacementId} : id ∈ forest.ids ↔ id ≠ index.rootId ∧ index.contains id = true :=
    pictures.mem_ids_iff_inner valid
  have distinct : (index.rootId :: forest.ids).Nodup :=
    List.nodup_cons.mpr ⟨fun again => (shown.mp again).1 rfl, pictures.nodup valid (apart_siblings valid _)⟩
  refine ⟨distinct, (List.perm_ext_iff_of_nodup distinct Std.TreeMap.nodup_keys).mpr fun id => ?_⟩
  rw [List.mem_cons, shown, Table.mem_keys_iff]
  by_cases top : id = index.rootId
  · simp [top, Index.rootId, valid.contains_root]
  · simp [top, Index.contains]

theorem Pictures.renders (pictures : Pictures index (siblings index index.rootId) forest)
    (valid : index.table.Consistent) : Renders index ((index.rootId, rootText index) :: forest.rows "") where
  first := ⟨rootText index, label_root valid, rfl⟩
  distinct := by
    rw [List.map_cons, Forest.map_fst_rows]
    exact (pictures.ids_perm valid).1
  all id := by
    rw [List.map_cons, Forest.map_fst_rows, (pictures.ids_perm valid).2.mem_iff]
    exact Table.mem_keys_iff ..
  shown row shown := by
    rcases List.mem_cons.mp shown with rfl | shown
    · exact ⟨0, "", _, ⟨_, .root, rfl⟩, label_root valid, String.empty_append.symm, rfl, by decide⟩
    · refine pictures.shown valid 0 (fun text id listed => ?_) rfl (by decide) row shown
      obtain ⟨member, named⟩ := (mem_siblings_iff valid).mp listed
      exact ⟨named, valid.atDepth_member member ⟨_, .root, rfl⟩⟩
  nested row shown := by
    rcases List.mem_cons.mp shown with rfl | shown
    · refine ⟨forest.rows "", List.infix_rfl, fun id => ?_⟩
      rw [Forest.map_fst_rows]
      exact pictures.mem_ids_iff_below valid
    · obtain ⟨block, within, all⟩ := pictures.nested valid "" row shown
      exact ⟨block, within.trans (List.suffix_cons ..).isInfix, all⟩

/-- What is drawn of an index is the rows of its picture. -/
theorem exists_rendering (valid : index.table.Consistent) :
    ∃ forest, Pictures index (siblings index index.rootId) forest ∧
      ∀ fuel, index.table.size ≤ fuel →
        rootText index :: drawBelow index fuel index.rootId "" [] =
          ((index.rootId, rootText index) :: forest.rows "").map Prod.snd := by
  have registered : index.contains index.rootId = true := valid.contains_root
  obtain ⟨forest, pictures, low⟩ := exists_picture_of_scope valid registered
  refine ⟨forest, pictures, fun fuel enough => ?_⟩
  rw [drawBelow_eq pictures (Nat.le_trans low enough), List.append_nil, List.map_cons]

end Tree

end MediaSession
