import MediaSession.Format.Report
import MediaSession.Proofs.Format.Placing

/-!
All that is written can be read again. Every interchange text, compact or spacious, holds the value it was written for.
-/
namespace MediaSession

open Json

variable {depth : Nat}

theorem SelfCheck.restores (policy : SelfCheck) : Restores reader depth policy.toValue policy := by
  cases policy <;> exact .choice rfl

namespace SessionConfig

/-- The figures are words of 64 bits. -/
def InWords (config : SessionConfig) : Prop := config.maxPathDepth < 2 ^ 64

theorem restores {config : SessionConfig} (words : config.InWords) :
    Restores reader (depth + 1) config.toValue config :=
  .layout rfl <|
    .of rfl rfl (.textAs ..) <| .of rfl rfl config.selfCheck.restores <| .of rfl rfl (.count words _) .nil

end SessionConfig

theorem ErrorClass.restores (error : ErrorClass) : Restores reader depth error.toValue error := by
  cases error <;> exact .choice rfl

namespace Simulator

theorem Config.restores {config : Config} (words : config.session.InWords) :
    Restores reader (depth + 2) config.toValue config := by
  have same : Draft.finish ⟨some config.seed.toNat, some config.operations.toNat, some config.stopOnFirstViolation,
      some config.session⟩ = config := by
    simp only [Draft.finish, Option.map_some, Option.getD_some, UInt64.ofNat_toNat]
  exact .layout (congrArg Except.ok same) <|
    .of rfl rfl (.count config.seed.toNat_lt _) <| .of rfl rfl (.count config.operations.toNat_lt _) <|
    .of rfl rfl (.bool _) <| .of rfl rfl (SessionConfig.restores words) .nil

theorem PlacedKind.restores (kind : PlacedKind) : Restores reader depth kind.toValue kind := by
  cases kind <;> exact .choice rfl

namespace Operation

/-- The slots are words of 64 bits. -/
def InWords : Operation → Prop
  | insert slot _ | remove slot | clearScope slot | activate slot | resolve slot | navigate slot | pushFocus slot =>
    slot < 2 ^ 64
  | popFocus => True

theorem slotReader_restores {slot : Nat} (word : slot < 2 ^ 64) (label name : String) (build : Nat → Operation) :
    Restores (slotReader label name build) (depth + 1) (.record [(name, .count slot)]) (build slot) :=
  .layout rfl (.only rfl (.count word _) name)

theorem insertReader_restores {parent : Nat} (word : parent < 2 ^ 64) (kind : PlacedKind) :
    Restores insertReader (depth + 1) (.record [("parent", .count parent), ("kind", kind.toValue)])
      (insert parent kind) :=
  .layout rfl <| .of rfl rfl (.count word _) <| .of rfl rfl kind.restores .nil

theorem restores {operation : Operation} (words : operation.InWords) :
    Restores reader (depth + 1) operation.toValue operation := by
  cases operation with
  | insert parent kind =>
    have apart : ∀ member ∈ [("parent", Value.count parent), ("kind", kind.toValue)], member.1 ≠ "op" := by simp
    exact .tagged rfl apart (insertReader_restores words kind)
  | popFocus => exact .tagged rfl nofun (.noFields popFocus)
  | _ => exact .tagged rfl (by simp) (slotReader_restores words _ _ _)

end Operation

namespace Outcome

theorem fill_tag {origin : Origin} (room : origin.HasRoom depth) {name : String} {tag : Tag}
    (named : tags.lookup name = some tag) (rest : List (Outline × Outline)) :
    fill origin ((.text (some "outcome"), .text (some name)) :: rest) .empty = fill origin rest (.tagged tag) := by
  have picked : Restores (Reader.choice tags) depth (.text name) tag := .choice named
  have read : Reader.choice tags origin (.text (some name)) = .ok tag := picked.read room
  conv_lhs => unfold fill
  simp only [Outline.asKey, bind, Except.bind, if_true, read]

theorem restores_of_fill {members : List (String × Value)} {draft : Draft} {outcome : Outcome}
    (fit : ∀ member ∈ members, Value.Fits depth member.2)
    (filled : ∀ {origin : Origin}, origin.HasRoom depth → fill origin (Value.memberOutlines members) .empty = .ok draft)
    (finish : draft.finish = .ok outcome) : Restores reader (depth + 1) (.record members) outcome where
  fits := .record fit
  read {origin} room := by
    obtain ⟨inner, opened, left⟩ := room.inner
    refine bind_ok_iff.mpr ⟨inner, opened, bind_ok_iff.mpr ⟨draft, filled left, ?_⟩⟩
    exact congrArg (Except.mapError Refusal.mismatch) finish

theorem restores (outcome : Outcome) : Restores reader (depth + 1) outcome.toValue outcome := by
  cases outcome with
  | success => exact restores_of_fill (by simp [Value.Fits.text]) (fun room => fill_tag room rfl []) rfl
  | skipped => exact restores_of_fill (by simp [Value.Fits.text]) (fun room => fill_tag room rfl []) rfl
  | failure error =>
    have shown : Restores ErrorClass.reader depth error.toValue error := error.restores
    have complete : Draft.finish (.complete (failure error)) = .ok (failure error) := rfl
    refine restores_of_fill (by simp [Value.Fits.text, shown.fits]) (fun {origin} room => ?_) complete
    have content : content .failure origin error.toValue.outline = .ok (failure error) :=
      bind_ok_iff.mpr ⟨error, shown.read room, rfl⟩
    refine (fill_tag room rfl _).trans ?_
    exact bind_ok_iff.mpr ⟨"class", rfl, bind_ok_iff.mpr ⟨_, content, rfl⟩⟩

end Outcome

namespace Violation

/-- The step and the slots are words of 64 bits. -/
def InWords : Violation → Prop
  | selfCheck step _ => step < 2 ^ 64
  | unexpectedOutcome step operation _ _ _ => step < 2 ^ 64 ∧ operation.InWords
  | wrongResult step operation _ => step < 2 ^ 64 ∧ operation.InWords

theorem selfCheckReader_restores {step : Nat} (word : step < 2 ^ 64) (failure : String) :
    Restores selfCheckReader (depth + 1) (.record [("step", .count step), ("failure", .text failure)])
      (selfCheck step failure) :=
  .layout rfl <| .of rfl rfl (.count word _) <| .of rfl rfl (.textAs ..) .nil

theorem unexpectedOutcomeReader_restores {step : Nat} {operation : Operation} (word : step < 2 ^ 64)
    (words : operation.InWords) (expected actual : Outcome) (detail : Option String) :
    Restores unexpectedOutcomeReader (depth + 2)
      (.record [("step", .count step), ("operation", operation.toValue), ("expected", expected.toValue),
        ("actual", actual.toValue), ("detail", .option .text detail)])
      (unexpectedOutcome step operation expected actual detail) := by
  have shown : Restores (Reader.option Reader.text) (depth + 1) (.option .text detail) detail :=
    .option _ nofun fun _ _ => .textAs ..
  exact .layout rfl <| .of rfl rfl (.count word _) <| .of rfl rfl (Operation.restores words) <|
    .of rfl rfl expected.restores <| .of rfl rfl actual.restores <| .of rfl rfl shown .nil

theorem wrongResultReader_restores {step : Nat} {operation : Operation} (word : step < 2 ^ 64)
    (words : operation.InWords) (detail : String) :
    Restores wrongResultReader (depth + 2)
      (.record [("step", .count step), ("operation", operation.toValue), ("detail", .text detail)])
      (wrongResult step operation detail) :=
  .layout rfl <| .of rfl rfl (.count word _) <| .of rfl rfl (Operation.restores words) <|
    .of rfl rfl (.textAs ..) .nil

theorem restores {violation : Violation} (words : violation.InWords) :
    Restores reader (depth + 2) violation.toValue violation := by
  cases violation with
  | selfCheck step failure => exact .tagged rfl (by simp) (selfCheckReader_restores words failure)
  | unexpectedOutcome step operation expected actual detail =>
    exact .tagged rfl (by simp) (unexpectedOutcomeReader_restores words.1 words.2 expected actual detail)
  | wrongResult step operation detail => exact .tagged rfl (by simp) (wrongResultReader_restores words.1 words.2 detail)

end Violation

/-- The figures are words of 64 bits. -/
structure Stats.InWords (stats : Stats) : Prop where
  operations : stats.operations < 2 ^ 64
  succeeded : stats.succeeded < 2 ^ 64
  skipped : stats.skipped < 2 ^ 64
  nonEmptyScope : stats.nonEmptyScope < 2 ^ 64
  rootRefused : stats.rootRefused < 2 ^ 64
  dangling : stats.dangling < 2 ^ 64
  navigation : stats.navigation < 2 ^ 64
  typeErrors : stats.typeErrors < 2 ^ 64
  placementsInserted : stats.placementsInserted < 2 ^ 64
  placementsRemoved : stats.placementsRemoved < 2 ^ 64
  maxFocusDepth : stats.maxFocusDepth < 2 ^ 64

theorem Stats.restores {stats : Stats} (words : stats.InWords) : Restores reader (depth + 1) stats.toValue stats :=
  .layout rfl <|
    .of rfl rfl (.count words.operations _) <| .of rfl rfl (.count words.succeeded _) <|
    .of rfl rfl (.count words.skipped _) <| .of rfl rfl (.count words.nonEmptyScope _) <|
    .of rfl rfl (.count words.rootRefused _) <| .of rfl rfl (.count words.dangling _) <|
    .of rfl rfl (.count words.navigation _) <| .of rfl rfl (.count words.typeErrors _) <|
    .of rfl rfl (.count words.placementsInserted _) <| .of rfl rfl (.count words.placementsRemoved _) <|
    .of rfl rfl (.count words.maxFocusDepth _) .nil

structure Report.InWords (report : Report) : Prop where
  session : report.config.session.InWords
  stats : report.stats.InWords
  violations : ∀ violation ∈ report.violations, violation.InWords
  finalSize : report.finalSize < 2 ^ 64

theorem Report.restores {report : Report} (words : report.InWords) :
    Restores reader (depth + 4) report.toValue report :=
  .layout rfl <|
    .of rfl rfl (Config.restores words.session) <| .of rfl rfl (Stats.restores words.stats) <|
    .of rfl rfl (.list fun violation listed => Violation.restores (words.violations violation listed)) <|
    .of rfl rfl (.count words.finalSize _) .nil

end Simulator

namespace Json

/-- A value is read back from its text in either form, and writing what was read gives the same text. -/
structure RoundTrips (write : α → Value) (reader : Reader α) (value : α) : Prop where
  back (form : Form) : Reader.ofText reader (form.text (write value)) = .ok value
  again (form : Form) : (Reader.ofText reader (form.text (write value))).map (fun read => form.text (write read)) =
    .ok (form.text (write value))

theorem Restores.roundTrips {write : α → Value} {reader : Reader α} {value : α}
    (restores : Restores reader depth (write value) value) (shallow : depth ≤ 127) : RoundTrips write reader value where
  back := restores.ofText shallow
  again form := by
    rw [restores.ofText shallow form]
    rfl

end Json

open Simulator

/-- Every value of the interchange format makes the round trip, as long as its figures are words of 64 bits. -/
theorem format_roundTrips :
    (∀ time, RoundTrips Time.toValue Time.reader time) ∧
    (∀ pin, RoundTrips Pin.toValue Pin.reader pin) ∧
    (∀ chain, RoundTrips PinChain.toValue PinChain.reader chain) ∧
    (∀ position, RoundTrips Position.toValue Position.reader position) ∧
    (∀ id, RoundTrips PlacementId.toValue PlacementId.reader id) ∧
    (∀ config : SessionConfig, config.InWords → RoundTrips SessionConfig.toValue SessionConfig.reader config) ∧
    (∀ config : Config, config.session.InWords → RoundTrips Config.toValue Config.reader config) ∧
    (∀ operation : Operation, operation.InWords → RoundTrips Operation.toValue Operation.reader operation) ∧
    (∀ outcome, RoundTrips Outcome.toValue Outcome.reader outcome) ∧
    (∀ violation : Violation, violation.InWords → RoundTrips Violation.toValue Violation.reader violation) ∧
    (∀ stats : Stats, stats.InWords → RoundTrips Stats.toValue Stats.reader stats) ∧
    (∀ report : Report, report.InWords → RoundTrips Report.toValue Report.reader report) := by
  refine ⟨fun time => ?time, fun pin => ?pin, fun chain => ?chain, fun position => ?position, fun id => ?id,
    fun config words => ?session, fun config words => ?config, fun operation words => ?operation,
    fun outcome => ?outcome, fun violation words => ?violation, fun stats words => ?stats,
    fun report words => ?report⟩
  case time => exact (@Time.restores 0 time).roundTrips (by decide)
  case pin => exact (@Pin.restores 0 pin).roundTrips (by decide)
  case chain => exact (@PinChain.restores 0 chain).roundTrips (by decide)
  case position => exact (@Position.restores 0 position).roundTrips (by decide)
  case id => exact (@PlacementId.restores 0 id).roundTrips (by decide)
  case session => exact (@SessionConfig.restores 0 config words).roundTrips (by decide)
  case config => exact (@Config.restores 0 config words).roundTrips (by decide)
  case operation => exact (@Operation.restores 0 operation words).roundTrips (by decide)
  case outcome => exact (@Outcome.restores 0 outcome).roundTrips (by decide)
  case violation => exact (@Violation.restores 0 violation words).roundTrips (by decide)
  case stats => exact (@Stats.restores 0 stats words).roundTrips (by decide)
  case report => exact (@Report.restores 0 report words).roundTrips (by decide)

example : Form.compact.text (Violation.toValue (.wrongResult 2 .popFocus "\x01")) =
    "\x7b\"violation\":\"wrong_result\",\"step\":2,\"operation\":\x7b\"op\":\"pop_focus\"\x7d," ++
      "\"detail\":\"\\u0001\"\x7d" := by decide

namespace Trial

/-- A report with a control and a quote in its texts, and a violation of every kind. -/
def report : Report where
  config := { session := { rootName := "\x01\x22\\", selfCheck := .onMutation, maxPathDepth := 0 } }
  stats := { operations := 3, skipped := 2 ^ 64 - 1 }
  violations :=
    [.selfCheck 0 "line\nline", .unexpectedOutcome 1 (.insert 5 .clip) .success (.failure .dangling) none,
      .wrongResult 2 .popFocus ""]
  finalSize := 7

end Trial

/-- The trial report and what it is made of. -/
theorem format_roundTrips_trial :
    RoundTrips SessionConfig.toValue SessionConfig.reader Trial.report.config.session ∧
    RoundTrips Config.toValue Config.reader Trial.report.config ∧
    RoundTrips Operation.toValue Operation.reader (.insert 5 .clip) ∧
    (∀ violation ∈ Trial.report.violations, RoundTrips Violation.toValue Violation.reader violation) ∧
    RoundTrips Stats.toValue Stats.reader Trial.report.stats ∧
    RoundTrips Report.toValue Report.reader Trial.report := by
  have session : Trial.report.config.session.InWords := by unfold SessionConfig.InWords; decide
  have operation : Operation.InWords (.insert 5 .clip) := by unfold Operation.InWords; decide
  have stats : Trial.report.stats.InWords := by constructor <;> decide
  have violations : ∀ violation ∈ Trial.report.violations, violation.InWords := by
    simp [Trial.report, Violation.InWords, Operation.InWords]
  have report : Trial.report.InWords := ⟨session, stats, violations, by decide⟩
  obtain ⟨_, _, _, _, _, ofSession, ofConfig, ofOperation, _, ofViolation, ofStats, ofReport⟩ := format_roundTrips
  exact ⟨ofSession _ session, ofConfig _ session, ofOperation _ operation,
    fun violation listed => ofViolation violation (violations violation listed), ofStats _ stats, ofReport _ report⟩

end MediaSession
