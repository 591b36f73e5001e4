import MediaSession.Format.Config
import MediaSession.Simulator.Report

/-!
Interchange form of simulations. Operations are tagged by `op` and violations by `violation`; an outcome
keeps its class beside its tag.
-/
namespace MediaSession

open Json

namespace ErrorClass

def name : ErrorClass → String
  | nonEmptyScope => "non_empty_scope"
  | rootRefused => "root_refused"
  | dangling => "dangling"
  | navigation => "navigation"
  | type => "type"

def choices : List (String × ErrorClass) :=
  [nonEmptyScope, rootRefused, dangling, navigation, type].map fun error => (error.name, error)

def toValue (error : ErrorClass) : Value := .text error.name

def reader : Reader ErrorClass := Reader.choice choices

end ErrorClass

namespace Simulator

namespace Config

def toValue (config : Config) : Value :=
  .record [("seed", .count config.seed.toNat), ("operations", .count config.operations.toNat),
    ("stop_on_first_violation", .bool config.stopOnFirstViolation),
    ("session", config.session.toValue)]

structure Draft where
  seed : Option Nat := none
  operations : Option Nat := none
  stopOnFirstViolation : Option Bool := none
  session : Option SessionConfig := none

def Draft.finish (draft : Draft) : Config where
  seed := (draft.seed.map UInt64.ofNat).getD 42
  operations := (draft.operations.map UInt64.ofNat).getD 1000
  stopOnFirstViolation := draft.stopOnFirstViolation.getD false
  session := draft.session.getD {}

def fields : List (Reader.Field Draft) :=
  [.of "seed" Draft.seed (fun value draft => { draft with seed := some value }) (Reader.count "u64"),
   .of "operations" Draft.operations (fun value draft => { draft with operations := some value })
    (Reader.count "u64"),
   .of "stop_on_first_violation" Draft.stopOnFirstViolation
    (fun value draft => { draft with stopOnFirstViolation := some value }) Reader.bool,
   .of "session" Draft.session (fun value draft => { draft with session := some value })
    SessionConfig.reader]

def reader : Reader Config :=
  Reader.layout
    { label := "struct SimulatorConfig", start := {}, fields, mayEndEarly := true
      finish := fun draft => .ok draft.finish }

end Config

namespace PlacedKind

def name : PlacedKind → String
  | fork => "fork"
  | clip => "clip"
  | effect => "effect"
  | binding => "binding"

def choices : List (String × PlacedKind) :=
  [fork, clip, effect, binding].map fun kind => (kind.name, kind)

def toValue (kind : PlacedKind) : Value := .text kind.name

def reader : Reader PlacedKind := Reader.choice choices

end PlacedKind

namespace Operation

def toValue : Operation → Value
  | insert parent kind =>
    .record [("op", .text "insert"), ("parent", .count parent), ("kind", kind.toValue)]
  | remove target => .record [("op", .text "remove"), ("target", .count target)]
  | clearScope target => .record [("op", .text "clear_scope"), ("target", .count target)]
  | activate target => .record [("op", .text "activate"), ("target", .count target)]
  | resolve reference => .record [("op", .text "resolve"), ("reference", .count reference)]
  | navigate target => .record [("op", .text "navigate"), ("target", .count target)]
  | pushFocus target => .record [("op", .text "push_focus"), ("target", .count target)]
  | popFocus => .record [("op", .text "pop_focus")]

/-- A variant with one slot. -/
def slotReader (label name : String) (build : Nat → Operation) : Reader Operation :=
  Reader.layout
    { label, start := none
      fields := [.of name id (fun value _ => some value) (Reader.count "usize")]
      finish := fun draft => return build (← Reader.required name draft) }

structure InsertDraft where
  parent : Option Nat := none
  kind : Option PlacedKind := none

def insertReader : Reader Operation :=
  Reader.layout
    { label := "struct variant SimulatedOperation::Insert", start := ({} : InsertDraft)
      fields :=
        [.of "parent" InsertDraft.parent (fun value draft => { draft with parent := some value })
          (Reader.count "usize"),
         .of "kind" InsertDraft.kind (fun value draft => { draft with kind := some value })
          PlacedKind.reader]
      finish := fun draft =>
        return insert (← Reader.required "parent" draft.parent) (← Reader.required "kind" draft.kind) }

def reader : Reader Operation :=
  Reader.tagged "internally tagged enum SimulatedOperation" "op"
    [("insert", insertReader),
     ("remove", slotReader "struct variant SimulatedOperation::Remove" "target" remove),
     ("clear_scope", slotReader "struct variant SimulatedOperation::ClearScope" "target" clearScope),
     ("activate", slotReader "struct variant SimulatedOperation::Activate" "target" activate),
     ("resolve", slotReader "struct variant SimulatedOperation::Resolve" "reference" resolve),
     ("navigate", slotReader "struct variant SimulatedOperation::Navigate" "target" navigate),
     ("push_focus", slotReader "struct variant SimulatedOperation::PushFocus" "target" pushFocus),
     ("pop_focus", Reader.noFields popFocus)]

end Operation

namespace Outcome

def toValue : Outcome → Value
  | success => .record [("outcome", .text "success")]
  | failure error => .record [("outcome", .text "failure"), ("class", error.toValue)]
  | skipped => .record [("outcome", .text "skipped")]

/-- Tag of an outcome. -/
inductive Tag where
  | success
  | failure
  | skipped
deriving DecidableEq

def tags : List (String × Tag) :=
  [("success", .success), ("failure", .failure), ("skipped", .skipped)]

/-- Nothing but `null` may stand beside an outcome without class. -/
def empty (label : String) (outcome : Outcome) : Reader Outcome := fun _ node =>
  match node with
  | .null => .ok outcome
  | _ => node.refuse label

/-- Read what stands beside a tag. -/
def content : Tag → Reader Outcome
  | .success => empty "unit variant Outcome::Success" success
  | .skipped => empty "unit variant Outcome::Skipped" skipped
  | .failure => fun origin node => do return failure (← ErrorClass.reader origin node)

/-- An outcome without anything beside its tag. -/
def alone : Tag → Except Mismatch Outcome
  | .success => .ok success
  | .skipped => .ok skipped
  | .failure => .error (.missingField "class")

/-- What is known of an outcome so far. -/
inductive Draft where
  | empty
  | tagged (tag : Tag)
  /-- Content that waits for its tag. -/
  | waiting (content : Outline)
  | complete (outcome : Outcome)

/-- Tag and content may come in either order, each once. -/
def fill (origin : Origin) : List (Outline × Outline) → Draft → Except Refusal Draft
  | [], draft => .ok draft
  | (key, value) :: rest, draft => do
    let name ← key.asKey
    if name = "outcome" then
      match draft with
      | .empty => do fill origin rest (.tagged (← Reader.choice tags origin value))
      | .waiting node => do
        let tag ← Reader.choice tags origin value
        fill origin rest (.complete (← content tag .setAside node))
      | _ => .error (.mismatch (.duplicateField name))
    else if name = "class" then
      match draft with
      | .empty => do
        value.setAside origin
        fill origin rest (.waiting value)
      | .tagged tag => do fill origin rest (.complete (← content tag origin value))
      | _ => .error (.mismatch (.duplicateField name))
    else do
      value.skip
      fill origin rest draft

def Draft.finish : Draft → Except Mismatch Outcome
  | .complete outcome => .ok outcome
  | .tagged tag => alone tag
  | _ => .error (.missingField "outcome")

def label : String := "adjacently tagged enum Outcome"

def reader : Reader Outcome := fun origin node =>
  match node with
  | .record members stop => do
    let draft ← fill (← origin.inner) members .empty
    Outline.checkStop stop
    draft.finish.mapError .mismatch
  | .list (first :: second :: rest) stop => do
    let inner ← origin.inner
    let tag ← Reader.choice tags inner first
    let outcome ← content tag inner second
    Reader.checkRest origin 2 rest
    Outline.checkStop stop
    return outcome
  | .list items stop => do
    let inner ← origin.inner
    let _ ← items.mapM (Reader.choice tags inner)
    Outline.checkStop stop
    .error (.mismatch (.wrongLength items.length label))
  | _ => node.refuse label

end Outcome

namespace Violation

def toValue : Violation → Value
  | selfCheck step failure =>
    .record [("violation", .text "self_check"), ("step", .count step), ("failure", .text failure)]
  | unexpectedOutcome step operation expected actual detail =>
    .record [("violation", .text "unexpected_outcome"), ("step", .count step),
      ("operation", operation.toValue), ("expected", expected.toValue), ("actual", actual.toValue),
      ("detail", .option .text detail)]
  | wrongResult step operation detail =>
    .record [("violation", .text "wrong_result"), ("step", .count step),
      ("operation", operation.toValue), ("detail", .text detail)]

/-- Fields of all variants. -/
structure Draft where
  step : Option Nat := none
  failure : Option String := none
  operation : Option Operation := none
  expected : Option Outcome := none
  actual : Option Outcome := none
  maybeDetail : Option (Option String) := none
  detail : Option String := none

def stepField : Reader.Field Draft :=
  .of "step" Draft.step (fun value draft => { draft with step := some value }) (Reader.count "u64")

def failureField : Reader.Field Draft :=
  .of "failure" Draft.failure (fun value draft => { draft with failure := some value }) Reader.text

def operationField : Reader.Field Draft :=
  .of "operation" Draft.operation (fun value draft => { draft with operation := some value })
    Operation.reader

def expectedField : Reader.Field Draft :=
  .of "expected" Draft.expected (fun value draft => { draft with expected := some value })
    Outcome.reader

def actualField : Reader.Field Draft :=
  .of "actual" Draft.actual (fun value draft => { draft with actual := some value }) Outcome.reader

def maybeDetailField : Reader.Field Draft :=
  .of "detail" Draft.maybeDetail (fun value draft => { draft with maybeDetail := some value })
    (Reader.option Reader.text)

def detailField : Reader.Field Draft :=
  .of "detail" Draft.detail (fun value draft => { draft with detail := some value }) Reader.text

def selfCheckReader : Reader Violation :=
  Reader.layout
    { label := "struct variant Violation::SelfCheck", start := {}
      fields := [stepField, failureField]
      finish := fun draft =>
        return selfCheck (← Reader.required "step" draft.step)
          (← Reader.required "failure" draft.failure) }

def unexpectedOutcomeReader : Reader Violation :=
  Reader.layout
    { label := "struct variant Violation::UnexpectedOutcome", start := {}
      fields := [stepField, operationField, expectedField, actualField, maybeDetailField]
      finish := fun draft =>
        return unexpectedOutcome (← Reader.required "step" draft.step)
          (← Reader.required "operation" draft.operation)
          (← Reader.required "expected" draft.expected)
          (← Reader.required "actual" draft.actual) (draft.maybeDetail.getD none) }

def wrongResultReader : Reader Violation :=
  Reader.layout
    { label := "struct variant Violation::WrongResult", start := {}
      fields := [stepField, operationField, detailField]
      finish := fun draft =>
        return wrongResult (← Reader.required "step" draft.step)
          (← Reader.required "operation" draft.operation)
          (← Reader.required "detail" draft.detail) }

def reader : Reader Violation :=
  Reader.tagged "internally tagged enum Violation" "violation"
    [("self_check", selfCheckReader), ("unexpected_outcome", unexpectedOutcomeReader),
     ("wrong_result", wrongResultReader)]

end Violation

namespace Stats

def toValue (stats : Stats) : Value :=
  .record [("operations", .count stats.operations), ("succeeded", .count stats.succeeded),
    ("skipped", .count stats.skipped), ("non_empty_scope", .count stats.nonEmptyScope),
    ("root_refused", .count stats.rootRefused), ("dangling", .count stats.dangling),
    ("navigation", .count stats.navigation), ("type_errors", .count stats.typeErrors),
    ("placements_inserted", .count stats.placementsInserted),
    ("placements_removed", .count stats.placementsRemoved),
    ("max_focus_depth", .count stats.maxFocusDepth)]

structure Draft where
  operations : Option Nat := none
  succeeded : Option Nat := none
  skipped : Option Nat := none
  nonEmptyScope : Option Nat := none
  rootRefused : Option Nat := none
  dangling : Option Nat := none
  navigation : Option Nat := none
  typeErrors : Option Nat := none
  placementsInserted : Option Nat := none
  placementsRemoved : Option Nat := none
  maxFocusDepth : Option Nat := none

def fields : List (Reader.Field Draft) :=
  let word := Reader.count "u64"
  [.of "operations" Draft.operations (fun n draft => { draft with operations := some n }) word,
   .of "succeeded" Draft.succeeded (fun n draft => { draft with succeeded := some n }) word,
   .of "skipped" Draft.skipped (fun n draft => { draft with skipped := some n }) word,
   .of "non_empty_scope" Draft.nonEmptyScope
    (fun n draft => { draft with nonEmptyScope := some n }) word,
   .of "root_refused" Draft.rootRefused (fun n draft => { draft with rootRefused := some n }) word,
   .of "dangling" Draft.dangling (fun n draft => { draft with dangling := some n }) word,
   .of "navigation" Draft.navigation (fun n draft => { draft with navigation := some n }) word,
   .of "type_errors" Draft.typeErrors (fun n draft => { draft with typeErrors := some n }) word,
   .of "placements_inserted" Draft.placementsInserted
    (fun n draft => { draft with placementsInserted := some n }) word,
   .of "placements_removed" Draft.placementsRemoved
    (fun n draft => { draft with placementsRemoved := some n }) word,
   .of "max_focus_depth" Draft.maxFocusDepth
    (fun n draft => { draft with maxFocusDepth := some n }) (Reader.count "usize")]

def Draft.finish (draft : Draft) : Except Mismatch Stats := do
  return {
    operations := ← Reader.required "operations" draft.operations
    succeeded := ← Reader.required "succeeded" draft.succeeded
    skipped := ← Reader.required "skipped" draft.skipped
    nonEmptyScope := ← Reader.required "non_empty_scope" draft.nonEmptyScope
    rootRefused := ← Reader.required "root_refused" draft.rootRefused
    dangling := ← Reader.required "dangling" draft.dangling
    navigation := ← Reader.required "navigation" draft.navigation
    typeErrors := ← Reader.required "type_errors" draft.typeErrors
    placementsInserted := ← Reader.required "placements_inserted" draft.placementsInserted
    placementsRemoved := ← Reader.required "placements_removed" draft.placementsRemoved
    maxFocusDepth := ← Reader.required "max_focus_depth" draft.maxFocusDepth }

def reader : Reader Stats :=
  Reader.layout { label := "struct SimulatorStats", start := {}, fields, finish := Draft.finish }

end Stats

namespace Report

def toValue (report : Report) : Value :=
  .record [("config", report.config.toValue), ("stats", report.stats.toValue),
    ("violations", .list (report.violations.map Violation.toValue)),
    ("final_size", .count report.finalSize)]

structure Draft where
  config : Option Config := none
  stats : Option Stats := none
  violations : Option (List Violation) := none
  finalSize : Option Nat := none

def fields : List (Reader.Field Draft) :=
  [.of "config" Draft.config (fun value draft => { draft with config := some value }) Config.reader,
   .of "stats" Draft.stats (fun value draft => { draft with stats := some value }) Stats.reader,
   .of "violations" Draft.violations (fun value draft => { draft with violations := some value })
    (Reader.list Violation.reader),
   .of "final_size" Draft.finalSize (fun value draft => { draft with finalSize := some value })
    (Reader.count "usize")]

def reader : Reader Report :=
  Reader.layout
    { label := "struct SimulatorReport", start := {}, fields
      finish := fun draft => return {
        config := ← Reader.required "config" draft.config
        stats := ← Reader.required "stats" draft.stats
        violations := ← Reader.required "violations" draft.violations
        finalSize := ← Reader.required "final_size" draft.finalSize } }

end Report

end Simulator

end MediaSession
