import MediaSession.Proofs.Json.Scanning

/-!
Outlines of what is written. The outline of either form of a value is that of the value, complete and with nothing
behind it.
-/
namespace MediaSession.Json

open Value (tokensTo itemTokens memberTokens)

namespace Outline

/-- Wherever a value is wanted, the tokens are one with this outline. -/
def Builds (tokens : List Token) (value : Outline) : Prop :=
  ∀ rest pending, build (tokens ++ rest) .value pending = build rest (.next value) pending

/-- The tokens are all further items of a list. -/
def BuildsItems (tokens : List Token) (items : List Outline) : Prop :=
  ∀ done rest pending, build (tokens ++ .listClose :: rest) .value (.list done :: pending) =
    build rest (.next (list (done.reverse ++ items) none)) pending

/-- The tokens are a further member of a record. -/
def BuildsMember (tokens : List Token) (member : Outline × Outline) : Prop :=
  ∀ done rest pending, build (tokens ++ rest) (.key done) pending =
    build rest (.next member.2) (.record done member.1 :: pending)

/-- The tokens are all further members of a record. -/
def BuildsMembers (tokens : List Token) (members : List (Outline × Outline)) : Prop :=
  ∀ done rest pending, build (tokens ++ .recordClose :: rest) (.key done) pending =
    build rest (.next (record (done.reverse ++ members) none)) pending

/-- The tokens do not start with the end of a list or record. -/
def Opens (tokens : List Token) : Prop :=
  ∃ token rest, tokens = token :: rest ∧ token ≠ .listClose ∧ token ≠ .recordClose

section Builds
variable {tokens others : List Token} {value : Outline} {items : List Outline} {member : Outline × Outline}
  {members : List (Outline × Outline)}

theorem Opens.append (opens : Opens tokens) (others : List Token) : Opens (tokens ++ others) := by
  obtain ⟨token, rest, rfl, notList, notRecord⟩ := opens
  exact ⟨token, rest ++ others, rfl, notList, notRecord⟩

theorem Builds.leaf {token : Token} (one : leaf? token = some value) : Builds [token] value := by
  intro rest pending
  cases token <;> cases one <;> rfl

theorem Builds.lastItem (builds : Builds tokens value) : BuildsItems tokens [value] := by
  intro done rest pending
  rw [builds, ← List.reverse_cons]
  rfl

theorem Builds.consItems (builds : Builds tokens value) (more : BuildsItems others items) :
    BuildsItems (tokens ++ .comma :: others) (value :: items) := by
  intro done rest pending
  rw [List.append_assoc, builds]
  change build (others ++ .listClose :: rest) .value (.list (value :: done) :: pending) = _
  rw [more, List.reverse_cons, List.append_assoc]
  rfl

theorem Builds.emptyList : Builds [.listOpen, .listClose] (list [] none) := fun _ _ => rfl

/-- The first item of a list stands like those behind a comma. -/
theorem BuildsItems.list (builds : BuildsItems tokens items) (opens : Opens tokens) :
    Builds (.listOpen :: (tokens ++ [.listClose])) (list items none) := by
  intro rest pending
  obtain ⟨token, others, rfl, other, -⟩ := opens
  have first : build (token :: (others ++ .listClose :: rest)) .firstItem pending =
      build (token :: (others ++ .listClose :: rest)) .value (.list [] :: pending) := by
    cases token <;> first | rfl | exact absurd rfl other
  rw [List.cons_append, List.append_assoc]
  exact first.trans (builds [] rest pending)

theorem Builds.asMember (builds : Builds tokens value) (key : Option String) :
    BuildsMember (.text key :: .colon :: tokens) (text key, value) := fun done rest pending =>
  builds rest (.record done (text key) :: pending)

theorem BuildsMember.last (builds : BuildsMember tokens member) : BuildsMembers tokens [member] := by
  intro done rest pending
  rw [builds, ← List.reverse_cons]
  rfl

theorem BuildsMember.cons (builds : BuildsMember tokens member) (more : BuildsMembers others members) :
    BuildsMembers (tokens ++ .comma :: others) (member :: members) := by
  intro done rest pending
  rw [List.append_assoc, builds]
  change build (others ++ .recordClose :: rest) (.key (member :: done)) pending = _
  rw [more, List.reverse_cons, List.append_assoc]
  rfl

theorem Builds.emptyRecord : Builds [.recordOpen, .recordClose] (record [] none) := fun _ _ => rfl

/-- The first member of a record stands like those behind a comma. -/
theorem BuildsMembers.record (builds : BuildsMembers tokens members) (opens : Opens tokens) :
    Builds (.recordOpen :: (tokens ++ [.recordClose])) (record members none) := by
  intro rest pending
  obtain ⟨token, others, rfl, -, other⟩ := opens
  have first : build (token :: (others ++ .recordClose :: rest)) .firstKey pending =
      build (token :: (others ++ .recordClose :: rest)) (.key []) pending := by
    cases token <;> first | rfl | exact absurd rfl other
  rw [List.cons_append, List.append_assoc]
  exact first.trans (builds [] rest pending)

end Builds

/-- The first item of a list is a value like those behind a comma. -/
theorem build_firstItem (item : Value) (rest : List Token) (pending : List Pending) :
    build (item.tokensTo rest) .firstItem pending = build (item.tokensTo rest) .value (.list [] :: pending) := by
  cases item <;> rfl

mutual

/-- Behind the tokens of a value stands its outline. -/
theorem build_tokensTo (value : Value) (rest : List Token) (pending : List Pending) :
    build (value.tokensTo rest) .value pending = build rest (.next value.outline) pending := by
  cases value with
  | null => rfl
  | bool value => rfl
  | integer value => rfl
  | text content => rfl
  | list items =>
    cases items with
    | nil => rfl
    | cons item items =>
      change build (item.tokensTo (itemTokens items true (.listClose :: rest))) .firstItem pending = _
      rw [build_firstItem, build_tokensTo item, build_itemTokens items]
      rfl
  | record members =>
    cases members with
    | nil => rfl
    | cons member members =>
      change build (member.2.tokensTo (memberTokens members true (.recordClose :: rest))) .value
        (.record [] (text (some member.1)) :: pending) = _
      rw [build_tokensTo member.2, build_memberTokens members]
      rfl

theorem build_itemTokens (items : List Value) (value : Outline) (done : List Outline) (rest : List Token)
    (pending : List Pending) :
    build (itemTokens items true (.listClose :: rest)) (.next value) (.list done :: pending) =
      build rest (.next (list ((value :: done).reverse ++ Value.outlines items) none)) pending := by
  cases items with
  | nil =>
    rw [Value.outlines, List.append_nil]
    rfl
  | cons item items =>
    change build (item.tokensTo (itemTokens items true (.listClose :: rest))) .value
      (.list (value :: done) :: pending) = _
    rw [build_tokensTo item, build_itemTokens items, Value.outlines, List.reverse_cons, List.append_assoc]
    rfl

theorem build_memberTokens (members : List (String × Value)) (key value : Outline) (done : List (Outline × Outline))
    (rest : List Token) (pending : List Pending) :
    build (memberTokens members true (.recordClose :: rest)) (.next value) (.record done key :: pending) =
      build rest (.next (record (((key, value) :: done).reverse ++ Value.memberOutlines members) none)) pending := by
  cases members with
  | nil =>
    rw [Value.memberOutlines, List.append_nil]
    rfl
  | cons member members =>
    change build (member.2.tokensTo (memberTokens members true (.recordClose :: rest))) .value
      (.record ((key, value) :: done) (text (some member.1)) :: pending) = _
    rw [build_tokensTo member.2, build_memberTokens members, Value.memberOutlines, List.reverse_cons,
      List.append_assoc]
    rfl

end

end Outline

/-- How a value is laid out as text. -/
inductive Form where
  | compact
  | spacious

namespace Form

def text : Form → Value → String
  | compact => Value.compact
  | spacious => Value.spacious

theorem outline_text (form : Form) (value : Value) :
    Outline.ofText (form.text value).toList = (value.outline, false) := by
  have tokens : Token.scan (form.text value).toList = value.tokensTo [] := by
    cases form with
    | compact => exact value.scan_compact
    | spacious => exact value.scan_spacious
  rw [Outline.ofText, tokens, Outline.build_tokensTo]
  rfl

end Form

end MediaSession.Json
