import MediaSession.Format.Report
import MediaSession.Simulator.Run
import MediaSession.Tree

/-!
The command line: what is asked for, and the answer. Wrong usage gives status 2 and no output, failure to
load or build something status 1 and no output.
-/
namespace MediaSession.CommandLine

/-- What the program is asked to do. -/
inductive Invocation where
  | version
  /-- Run one simulation; `configPath` names a session configuration. -/
  | simulate (operations seed : Nat) (configPath : Option String) (stopOnViolation json : Bool)
  /-- Run a simulation for each of some seeds. -/
  | certify (seeds operations : Nat)
  /-- Build and draw a regular tree. -/
  | tree (depth width : Nat)
deriving DecidableEq, Repr

structure Answer where
  status : UInt8
  output : String
deriving DecidableEq, Repr

def version : String := "0.1.0"

/-- Options of a command: those with a value, and flags. -/
structure Options where
  valued : List String
  flags : List String

/-- Options given, with their values; flags have none. -/
abbrev Given := List (String × Option String)

/-- Value of an option with `=` in its argument. -/
def splitValue (argument : String) : String × Option String :=
  let chars := argument.toList
  match chars.dropWhile (· ≠ '=') with
  | [] => (argument, none)
  | _ :: value => (String.ofList (chars.takeWhile (· ≠ '=')), some (String.ofList value))

/-- Whether an argument can be a value on its own. -/
def canBeValue (argument : String) : Bool :=
  match argument.toList with
  | ['-'] => true
  | '-' :: _ => false
  | _ => true

/-- Options of a command in the order given; each may come once, and nothing else may come. -/
def parseOptions (options : Options) : List String → Given → Option Given
  | [], given => some given
  | ["--"], given => some given
  | argument :: rest, given => do
    let (name, value) := splitValue argument
    guard (!(given.map Prod.fst).contains name)
    if options.flags.contains name then
      guard value.isNone
      parseOptions options rest ((name, none) :: given)
    else if options.valued.contains name then
      match value, rest with
      | some value, rest => parseOptions options rest ((name, some value) :: given)
      | none, value :: rest =>
        guard (canBeValue value)
        parseOptions options rest ((name, some value) :: given)
      | none, [] => none
    else none

/-- A decimal number of a machine word, with an optional plus sign. -/
def parseWord (text : String) : Option Nat := do
  let digits := match text.toList with
    | '+' :: rest => rest
    | rest => rest
  guard (!digits.isEmpty && digits.all Char.isDigit)
  let number := Numeral.ofDigits (digits.map fun digit => digit.toNat - 48)
  guard (number < 0x10000000000000000)
  return number

/-- Value of a number option, or its default. -/
def wordOption (given : Given) (name : String) (default : Nat) : Option Nat :=
  match given.lookup name with
  | some (some text) => parseWord text
  | _ => some default

/-- Value of a path option; an empty path is none. -/
def pathOption (given : Given) (name : String) : Option (Option String) :=
  match given.lookup name with
  | some (some path) => if path = "" then none else some (some path)
  | _ => some none

def parseSimulate (arguments : List String) : Option Invocation := do
  let given ← parseOptions ⟨["--ops", "--seed", "--config"], ["--stop-on-violation", "--json"]⟩
    arguments []
  let operations ← wordOption given "--ops" 1000
  let seed ← wordOption given "--seed" 42
  let path ← pathOption given "--config"
  let has (flag : String) : Bool := (given.lookup flag).isSome
  return .simulate operations seed path (has "--stop-on-violation") (has "--json")

def parseCertify (arguments : List String) : Option Invocation := do
  let given ← parseOptions ⟨["--seeds", "--ops"], []⟩ arguments []
  return .certify (← wordOption given "--seeds" 32) (← wordOption given "--ops" 500)

def parseTree (arguments : List String) : Option Invocation := do
  let given ← parseOptions ⟨["--depth", "--width"], []⟩ arguments []
  return .tree (← wordOption given "--depth" 3) (← wordOption given "--width" 2)

/-- What the arguments ask for; `none` for wrong usage. -/
def parse : List String → Option Invocation
  | [] => none
  | first :: rest =>
    if first = "--version" ∨ first.startsWith "-V" then some .version
    else if first = "simulate" then parseSimulate rest
    else if first = "certify" then parseCertify rest
    else if first = "tree" then parseTree rest
    else none

/-- The configuration file to be read. -/
def Invocation.configPath? : Invocation → Option String
  | simulate _ _ path _ _ => path
  | _ => none

def usageError : Answer := ⟨2, ""⟩

def failure : Answer := ⟨1, ""⟩

def answerSimulate (config : Simulator.Config) (json : Bool) : Answer :=
  let report := Simulator.run config
  let shown := if json then report.toValue.spacious else report.text
  ⟨if report.passed then 0 else 1, shown ++ "\n"⟩

/-- Seeds whose run finds violations, with how many. -/
def failedSeeds (seeds operations : Nat) : List (Nat × Nat) :=
  (List.range seeds).filterMap fun seed =>
    let report := Simulator.run { seed := .ofNat seed, operations := .ofNat operations }
    if report.passed then none else some (seed, report.violations.length)

def answerCertify (seeds operations : Nat) : Answer :=
  let failed := failedSeeds seeds operations
  let status := if failed.isEmpty then "PASSED" else "FAILED"
  let lines := [s!"Running certification over {seeds} seeds..."] ++
    failed.map (fun (seed, count) => s!"  seed {seed}: {count} violations") ++ [s!"Status: {status}"]
  ⟨if failed.isEmpty then 0 else 1, String.join (lines.map fun line => line ++ "\n")⟩

/-- Draw a regular tree in the model of a session with default configuration. -/
def answerTree (depth width : Nat) : Answer :=
  let config : SessionConfig := {}
  let place (number : Nat) (content : MediaObject) : Placement :=
    { id := .ofNat number, object := ⟨number, content⟩ }
  let root := place 0 (.root config.rootName)
  match Tree.build (fun number => place (number + 1)) depth width
      (.ofRoot root config.maxPathDepth) with
  | .error _ => failure
  | .ok (index, _) =>
    let count := index.size
    ⟨0, Tree.draw index ++ s!"{count} placements below the root\n"⟩

/-- The answer to an invocation; `readConfig` holds the text of the configuration file, if there is one
and it can be read. -/
def Invocation.answer (readConfig : Option String) : Invocation → Answer
  | version => ⟨0, s!"mos-sim {CommandLine.version}\n"⟩
  | certify seeds operations => answerCertify seeds operations
  | tree depth width => answerTree depth width
  | simulate operations seed path stopOnFirstViolation json =>
    let session? : Option SessionConfig :=
      if path.isSome then readConfig.bind fun text => (SessionConfig.load text).toOption
      else some {}
    match session? with
    | none => failure
    | some session =>
      answerSimulate
        { seed := .ofNat seed, operations := .ofNat operations, stopOnFirstViolation, session } json

end MediaSession.CommandLine
