import Mathlib.Data.List.Nodup
import Mathlib.Data.List.Perm.Basic
import MediaSession.Proofs.Format.RoundTrip
import MediaSession.Proofs.Json.Grammar

/-!
Loading of session configurations. An object may give any of the fields in any order, with any other members in
between; it is loaded as the configuration of what it gives, unless that is unusable.
-/
namespace MediaSession.SessionConfig

open Json Json.Grammar
open Token (EndsNumber Yields)
open Outline (Opens BuildsMember BuildsMembers)

/-- A field and the value given for it. -/
inductive Setting where
  | rootName (name : String)
  | selfCheck (policy : SelfCheck)
  | maxPathDepth (depth : UInt64)

/-- Names of the fields. -/
def names : List String := ["root_name", "self_check", "max_path_depth"]

namespace Setting

def name : Setting → String
  | rootName _ => "root_name"
  | selfCheck _ => "self_check"
  | maxPathDepth _ => "max_path_depth"

/-- The text of the value. -/
inductive Spells : Setting → List Char → List Char → Prop where
  | rootName {name : String} (quoted : Quoted name text rest) : Spells (.rootName name) text rest
  | selfCheck {policy : SelfCheck} (quoted : Quoted policy.name text rest) : Spells (.selfCheck policy) text rest
  | maxPathDepth : Spells (.maxPathDepth depth) (Nat.toDigits 10 depth.toNat ++ rest) rest

end Setting

/-- Values for some of the fields. -/
structure Choice where
  rootName : Option String := none
  selfCheck : Option SelfCheck := none
  maxPathDepth : Option UInt64 := none

namespace Choice

def settings (choice : Choice) : List Setting :=
  choice.rootName.toList.map .rootName ++ choice.selfCheck.toList.map .selfCheck ++
    choice.maxPathDepth.toList.map .maxPathDepth

/-- The chosen values, and the defaults for all other fields. -/
def config (choice : Choice) : SessionConfig :=
  let default : SessionConfig := {}
  { rootName := choice.rootName.getD default.rootName
    selfCheck := choice.selfCheck.getD default.selfCheck
    maxPathDepth := (choice.maxPathDepth.map UInt64.toNat).getD default.maxPathDepth }

end Choice

/-- A member of an object: a setting, or anything under a name that is none of a field. -/
inductive Clause where
  | given (setting : Setting)
  | other (name : String) (foreign : name ∉ names)

namespace Clause

def name : Clause → String
  | given setting => setting.name
  | other name _ => name

def setting? : Clause → Option Setting
  | given setting => some setting
  | other _ _ => none

def SpellsValue : Clause → List Char → List Char → Prop
  | given setting => setting.Spells
  | other _ _ => Grammar.Spells .value

inductive Spells (clause : Clause) : List Char → List Char → Prop where
  | of (before : Blanks text key) (named : Quoted clause.name key colon) (behind : Blanks colon (':' :: value))
      (space : Blanks value front) (spelled : clause.SpellsValue front back) (after : Blanks back rest) :
      Spells clause text rest

/-- Clauses with commas between them. -/
inductive SpellsAll : List Clause → List Char → List Char → Prop where
  | last (one : clause.Spells text rest) : SpellsAll [clause] text rest
  | cons (one : clause.Spells text (',' :: others)) (more : SpellsAll clauses others rest) :
      SpellsAll (clause :: clauses) text rest

/-- The text of one object with these members. -/
inductive Written : List Clause → String → Prop where
  | empty (before : Blanks text.toList ('\x7b' :: inside)) (blanks : Blanks inside ('\x7d' :: behind))
      (after : Blanks behind []) : Written [] text
  | members (before : Blanks text.toList ('\x7b' :: inside)) (all : SpellsAll clauses inside ('\x7d' :: behind))
      (after : Blanks behind []) : Written clauses text

end Clause

namespace Setting

def toValue : Setting → Value
  | rootName name => .text name
  | selfCheck policy => policy.toValue
  | maxPathDepth depth => .count depth.toNat

theorem Spells.yields {setting : Setting} {text rest : List Char} (spells : setting.Spells text rest)
    (ends : EndsNumber rest) :
    ∃ token, Outline.leaf? token = some setting.toValue.outline ∧ Yields text [token] rest := by
  cases spells with
  | rootName quoted | selfCheck quoted => exact ⟨_, rfl, quoted.yields⟩
  | @maxPathDepth depth =>
    refine ⟨.number (.ofInt depth.toNat), rfl, ?_⟩
    rw [← Value.integerText_natCast]
    exact fun _ scans => scans.integer depth.toNat ends

end Setting

namespace Clause

/-- A member as it is read for a clause. -/
def Holds : Clause → Outline × Outline → Prop
  | given setting, member => member = (.text (some setting.name), setting.toValue.outline)
  | other name _, member => member.1 = .text (some name) ∧ member.2.skipFault? = none

variable {clause : Clause} {clauses : List Clause} {text rest : List Char}

theorem spellsValue_read (spells : clause.SpellsValue text rest) (ends : EndsNumber rest) :
    ∃ tokens value, Yields text tokens rest ∧ Outline.Builds tokens value ∧
      clause.Holds (.text (some clause.name), value) := by
  cases clause with
  | given setting =>
    obtain ⟨token, leaf, yields⟩ := Setting.Spells.yields spells ends
    exact ⟨[token], _, yields, .leaf leaf, rfl⟩
  | other name foreign =>
    obtain ⟨tokens, yields, _, value, skipped, builds⟩ := Grammar.Spells.read spells ends
    exact ⟨tokens, value, yields, builds, rfl, skipped⟩

theorem Spells.read (spells : clause.Spells text rest) (ends : EndsNumber rest) :
    ∃ tokens member, Yields text tokens rest ∧ Opens tokens ∧ BuildsMember tokens member ∧ clause.Holds member := by
  obtain ⟨before, named, behind, space, spelled, after⟩ := spells
  obtain ⟨tokens, value, yields, builds, holds⟩ := spellsValue_read spelled (after.endsNumber ends)
  have inside := space.before (after.behind yields)
  exact ⟨_, _, yields_member before named.yields behind inside, ⟨_, _, rfl, nofun, nofun⟩, builds.asMember _, holds⟩

theorem SpellsAll.read (spells : SpellsAll clauses text rest) (ends : EndsNumber rest) :
    ∃ tokens members, Yields text tokens rest ∧ Opens tokens ∧ BuildsMembers tokens members ∧
      List.Forall₂ Holds clauses members := by
  induction spells with
  | last one =>
    obtain ⟨tokens, member, yields, opens, builds, holds⟩ := one.read ends
    exact ⟨tokens, _, yields, opens, builds.last, .cons holds .nil⟩
  | cons one _ ih =>
    obtain ⟨tokens, member, yields, opens, builds, holds⟩ := one.read (.cons _ (by decide))
    obtain ⟨others, members, behind, _, more, all⟩ := ih ends
    exact ⟨_, _, yields.append (behind.sign rfl rfl), opens.append _, builds.cons more, .cons holds all⟩

theorem Written.outline {text : String} (written : Written clauses text) :
    ∃ members, List.Forall₂ Holds clauses members ∧ Outline.ofText text.toList = (.record members none, false) := by
  have built {tokens : List Token} {members : List (Outline × Outline)} (yields : Yields text.toList tokens [])
      (builds : Outline.Builds tokens (.record members none)) :
      Outline.ofText text.toList = (.record members none, false) := by
    have scans := yields [] .nil
    rw [Outline.ofText, Token.scan_eq scans, builds]
    rfl
  cases written with
  | empty before blanks after =>
    have close := blanks.before (after.behind .recordClose)
    exact ⟨[], .nil, built (before.before (close.sign rfl rfl)) .emptyRecord⟩
  | members before all after =>
    obtain ⟨tokens, members, yields, opens, builds, holds⟩ := all.read (.cons _ (by decide))
    have close := yields.append (after.behind .recordClose)
    exact ⟨members, holds, built (before.before (close.sign rfl rfl)) (builds.record opens)⟩

end Clause

namespace Setting

def fill (draft : Draft) : Setting → Draft
  | rootName name => { draft with rootName := some name }
  | selfCheck policy => { draft with selfCheck := some policy }
  | maxPathDepth depth => { draft with maxPathDepth := some depth.toNat }

/-- Whether the field has a value yet. -/
def isFilled (draft : Draft) : Setting → Bool
  | rootName _ => draft.rootName.isSome
  | selfCheck _ => draft.selfCheck.isSome
  | maxPathDepth _ => draft.maxPathDepth.isSome

/-- Every setting has its field, which reads the value it was given. -/
theorem field (setting : Setting) :
    ∃ field, fields.find? (·.name = setting.name) = some field ∧
      (∀ draft, field.isSet draft = setting.isFilled draft) ∧
      ∀ room draft, field.set (.text room) setting.toValue.outline draft = .ok (setting.fill draft) := by
  cases setting with
  | rootName name => exact ⟨_, rfl, fun _ => rfl, fun _ _ => rfl⟩
  | selfCheck policy =>
    refine ⟨_, rfl, fun _ => rfl, fun room draft => bind_ok_iff.mpr ⟨policy, ?_, rfl⟩⟩
    exact (@SelfCheck.restores 0 policy).read (Nat.zero_le room)
  | maxPathDepth depth =>
    refine ⟨_, rfl, fun _ => rfl, fun room draft => bind_ok_iff.mpr ⟨depth.toNat, ?_, rfl⟩⟩
    exact (@Restores.count 0 _ depth.toNat_lt "usize").read (Nat.zero_le room)

/-- A setting fills its own field only. -/
theorem isFilled_fill {setting other : Setting} (apart : other.name ≠ setting.name) (draft : Draft) :
    other.isFilled (setting.fill draft) = other.isFilled draft := by
  cases setting <;> cases other <;> first | rfl | exact absurd rfl apart

theorem fill_comm {setting other : Setting} (apart : other.name ≠ setting.name) (draft : Draft) :
    other.fill (setting.fill draft) = setting.fill (other.fill draft) := by
  cases setting <;> cases other <;> first | rfl | exact absurd rfl apart

end Setting

/-- The settings among some clauses. -/
def settings (clauses : List Clause) : List Setting := clauses.filterMap Clause.setting?

theorem name_mem : ∀ field ∈ fields, field.name ∈ names := by simp [fields, names, Reader.Field.of]

/-- Settings of different fields are all taken, and other clauses passed over. -/
theorem fillMembers_clauses {clauses : List Clause} {members : List (Outline × Outline)}
    (holds : List.Forall₂ Clause.Holds clauses members) (room : Nat) {draft : Draft}
    (apart : ((settings clauses).map Setting.name).Nodup)
    (unset : ∀ setting ∈ settings clauses, setting.isFilled draft = false) :
    Reader.fillMembers fields (.text room) members draft = .ok ((settings clauses).foldl Setting.fill draft) := by
  induction holds generalizing draft with
  | nil => rfl
  | @cons clause member clauses members first _ ih =>
    cases clause with
    | given setting =>
      obtain ⟨unfilled, unset⟩ := List.forall_mem_cons.mp unset
      obtain ⟨fresh, apart⟩ := List.nodup_cons.mp apart
      obtain ⟨field, found, isSet, set⟩ := setting.field
      have still : ∀ other ∈ settings clauses, other.isFilled (setting.fill draft) = false := fun other listed => by
        have differs : other.name ≠ setting.name := fun same => fresh (same ▸ List.mem_map_of_mem listed)
        rw [Setting.isFilled_fill differs, unset other listed]
      obtain rfl : member = _ := first
      refine bind_ok_iff.mpr ⟨setting.name, rfl, ?_⟩
      simp only [found, isSet, unfilled, Bool.false_eq_true, if_false]
      exact bind_ok_iff.mpr ⟨_, set room draft, ih apart still⟩
    | other name foreign =>
      obtain ⟨key, value⟩ := member
      obtain ⟨rfl, skipped⟩ := first
      have unknown : fields.find? (·.name = name) = none := List.find?_eq_none.mpr fun field listed same =>
        foreign (of_decide_eq_true same ▸ name_mem field listed)
      have passed : Outline.skip value = .ok () := by rw [Outline.skip, skipped, Outline.checkStop]
      refine bind_ok_iff.mpr ⟨name, rfl, ?_⟩
      simp only [unknown]
      exact bind_ok_iff.mpr ⟨(), passed, ih apart unset⟩

namespace Choice

theorem nodup_names (choice : Choice) : (choice.settings.map Setting.name).Nodup := by
  obtain ⟨_ | rootName, _ | selfCheck, _ | maxPathDepth⟩ := choice <;> simp [settings, Setting.name]

/-- The order of the settings does not matter. -/
theorem foldl_fill {choice : Choice} {order : List Setting} (given : order.Perm choice.settings) :
    (order.foldl Setting.fill {}).finish = choice.config := by
  have names : (order.map Setting.name).Nodup := (given.map _).nodup_iff.mpr choice.nodup_names
  have swaps : ∀ one ∈ order, ∀ other ∈ order, ∀ draft : Draft,
      other.fill (one.fill draft) = one.fill (other.fill draft) := fun one here other there draft => by
    by_cases same : other.name = one.name
    · rw [List.inj_on_of_nodup_map names there here same]
    · exact Setting.fill_comm same draft
  rw [given.foldl_eq' swaps]
  obtain ⟨_ | rootName, _ | selfCheck, _ | maxPathDepth⟩ := choice <;> rfl

end Choice

/-- An object with the settings of a choice is read as its configuration. -/
theorem read_written {choice : Choice} {clauses : List Clause} {text : String}
    (given : (settings clauses).Perm choice.settings) (written : Clause.Written clauses text) :
    Reader.ofText reader text = .ok choice.config := by
  obtain ⟨members, holds, outline⟩ := written.outline
  have apart : ((settings clauses).map Setting.name).Nodup := (given.map _).nodup_iff.mpr choice.nodup_names
  have empty (setting : Setting) : setting.isFilled {} = false := by cases setting <;> rfl
  have filled := fillMembers_clauses holds 126 apart fun setting _ => empty setting
  have finished : (Except.ok _ : Except Mismatch _) = .ok choice.config := congrArg _ (Choice.foldl_fill given)
  have read : reader .wholeText (.record members none) = .ok choice.config :=
    bind_ok_iff.mpr ⟨.text 126, rfl, bind_ok_iff.mpr ⟨_, filled, congrArg (Except.mapError Refusal.mismatch) finished⟩⟩
  unfold Reader.ofText
  rw [outline]
  exact bind_ok_iff.mpr ⟨choice.config, read, rfl⟩

/-- The root name has no character but white space. -/
def HasBlankName (config : SessionConfig) : Prop := ∀ char ∈ config.rootName.toList, Text.Blank.isBlank char = true

theorem load_of_read {config : SessionConfig} {text : String} (read : Reader.ofText reader text = .ok config) :
    load text = config.validate.mapError .unusable >>= fun _ => .ok config := by
  unfold load
  rw [read]
  rfl

theorem load_ok_iff {config : SessionConfig} {text : String} :
    load text = .ok config ↔ Reader.ofText reader text = .ok config ∧ config.validate = .ok () := by
  unfold load
  simp only [bind_ok_iff, mapError_ok_iff]
  constructor
  · rintro ⟨_, read, _, valid, ⟨⟩⟩
    exact ⟨read, valid⟩
  · rintro ⟨read, valid⟩
    exact ⟨config, read, (), valid, rfl⟩

theorem validate_of_blank {config : SessionConfig} (blank : config.HasBlankName) :
    config.validate = .error .blankRootName := if_pos (List.all_eq_true.mpr blank)

theorem validate_of_named {config : SessionConfig} (named : ¬ config.HasBlankName) :
    config.validate = if config.maxPathDepth = 0 then .error .zeroPathDepth else .ok () :=
  if_neg fun blank => named (List.all_eq_true.mp blank)

/-- An object that gives some of the fields is loaded as what it gives, with the defaults for the others, unless the
root name is blank or the bound for paths is zero; so all that is loaded is usable, and all that is usable is loaded
from what is written for it. -/
theorem load_exact :
    (∀ (choice : Choice) (clauses : List Clause) (text : String),
      (settings clauses).Perm choice.settings → Clause.Written clauses text →
        (choice.config.HasBlankName → load text = .error (.unusable .blankRootName)) ∧
        (¬ choice.config.HasBlankName → choice.config.maxPathDepth = 0 →
          load text = .error (.unusable .zeroPathDepth)) ∧
        (¬ choice.config.HasBlankName → choice.config.maxPathDepth ≠ 0 → load text = .ok choice.config)) ∧
    (∀ (text : String) (config : SessionConfig), load text = .ok config → config.validate = .ok ()) ∧
    (∀ config : SessionConfig, config.InWords → ∀ form : Form,
      (load (form.text config.toValue) = .ok config ↔ config.validate = .ok ())) := by
  refine ⟨fun choice clauses text given written => ?object, fun text config loaded => (load_ok_iff.mp loaded).2,
    fun config words form => ?written⟩
  case object =>
    have loaded := load_of_read (read_written given written)
    refine ⟨fun blank => ?_, fun named zero => ?_, fun named positive => ?_⟩
    · rw [loaded, validate_of_blank blank]
      rfl
    · rw [loaded, validate_of_named named, if_pos zero]
      rfl
    · rw [loaded, validate_of_named named, if_neg positive]
      rfl
  case written =>
    have read : Reader.ofText reader (form.text config.toValue) = .ok config :=
      (@restores 0 config words).ofText (by decide) form
    exact load_ok_iff.trans (and_iff_right read)

namespace Trial

/-- Some of the fields, out of order, behind a member with a number beyond all doubles and half of a surrogate pair. -/
def text : String :=
  "\x7b\"x\": [2e999, \x7b\"k\":\"\\ud800\"\x7d],\"max_path_depth\":7 , \"root_name\":\"\\ud834\\uDD1E\"\x7d"

def choice : Choice := { rootName := some "𝄞", maxPathDepth := some 7 }

def clauses : List Clause :=
  [.other "x" (by decide), .given (.maxPathDepth 7), .given (.rootName "𝄞")]

theorem written : Clause.Written clauses text := by
  have blank : ' ' ∈ [' ', '\n', '\t', '\r'] := by decide
  have huge : Magnitude ['2', 'e', '9', '9', '9'] := by
    have whole : Whole ['2'] := .digits (by decide) (by decide) (List.forall_mem_nil _)
    have unsigned : [] ∈ [[], ['-'], ['+']] := by decide
    have digits : ∀ char ∈ ['9', '9', '9'], Digit char := by simp [Digit]
    exact .of whole .none (.digits (.inl rfl) unsigned (by decide) digits)
  have half (rest : List Char) :
      Pieces ('\\' :: 'u' :: 'd' :: '8' :: '0' :: '0' :: '\x22' :: rest) [.unit 0xD800] rest :=
    .unit (show HexDigit 'd' 13 by decide) (show HexDigit '8' 8 by decide) (show HexDigit '0' 0 by decide)
      (show HexDigit '0' 0 by decide) .close
  have key (rest : List Char) : Pieces ('k' :: '\x22' :: rest) [.plain 'k'] rest :=
    .plain (by decide) (by decide) (by decide) .close
  have clef (rest : List Char) :
      Quoted "𝄞" ('\x22' :: '\\' :: 'u' :: 'd' :: '8' :: '3' :: '4' :: '\\' :: 'u' :: 'D' :: 'D' :: '1' :: 'E' ::
        '\x22' :: rest) rest := by
    have trail : Pieces ('\\' :: 'u' :: 'D' :: 'D' :: '1' :: 'E' :: '\x22' :: rest) [.unit 0xDD1E] rest :=
      .unit (show HexDigit 'D' 13 by decide) (show HexDigit 'D' 13 by decide) (show HexDigit '1' 1 by decide)
        (show HexDigit 'E' 14 by decide) .close
    refine .of (.unit (show HexDigit 'd' 13 by decide) (show HexDigit '8' 8 by decide)
      (show HexDigit '3' 3 by decide) (show HexDigit '4' 4 by decide) trail) ?_
    exact .pair (by decide) (by decide) .nil
  have ignored (rest : List Char) : Grammar.Spells .value
      ('[' :: '2' :: 'e' :: '9' :: '9' :: '9' :: ',' :: ' ' :: '\x7b' :: '\x22' :: 'k' :: '\x22' :: ':' :: '\x22' ::
        '\\' :: 'u' :: 'd' :: '8' :: '0' :: '0' :: '\x22' :: '\x7d' :: ']' :: rest) rest := by
    have entry :=
      Grammar.Spells.member .none (key _) .none (.element .none (.string (half ('\x7d' :: ']' :: rest))) .none)
    have nested := Grammar.Spells.element (.one blank .none) (.record (.lastMember entry)) .none
    exact .list (.elements (.element .none (.number huge) .none) (.lastElement nested))
  exact .members .none
    (.cons (.of .none (.quote "x" _) .none (.one blank .none) (ignored _) .none) <|
      .cons (.of .none (.quote "max_path_depth" _) .none .none .maxPathDepth (.one blank .none)) <|
      .last (.of (.one blank .none) (.quote "root_name" _) .none .none (.rootName (clef _)) .none))
    .none

end Trial

/-- The trial text is loaded as what it gives; what is written for a blank root name is not loaded. -/
theorem load_exact_trial :
    ((settings Trial.clauses).Perm Trial.choice.settings ∧ Clause.Written Trial.clauses Trial.text ∧
      load Trial.text = .ok { rootName := "𝄞", selfCheck := .never, maxPathDepth := 7 }) ∧
    SessionConfig.validate { rootName := "𝄞", selfCheck := .never, maxPathDepth := 7 } = .ok () ∧
    load (Form.compact.text (toValue { rootName := " " })) ≠ .ok { rootName := " " } := by
  obtain ⟨given, valid, iff⟩ := load_exact
  have order : (settings Trial.clauses).Perm Trial.choice.settings := .swap ..
  have named : ¬ Trial.choice.config.HasBlankName := fun blank =>
    absurd (blank '𝄞' List.mem_cons_self) (by decide)
  have loaded := (given Trial.choice Trial.clauses Trial.text order Trial.written).2.2 named (by decide)
  have blank : SessionConfig.InWords { rootName := " " } := by unfold InWords; decide
  refine ⟨⟨order, Trial.written, loaded⟩, valid _ _ loaded, fun restored => ?_⟩
  exact absurd ((iff _ blank .compact).mp restored) (by decide)

end MediaSession.SessionConfig
