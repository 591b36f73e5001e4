import MediaSession.CommandLine

/-! The program: reads the configuration file if one is named, answers, and exits. -/

namespace MediaSession.CommandLine

/-- Text of a file, if it can be read. -/
def readText (path : String) : IO (Option String) := do
  try
    return some (← IO.FS.readFile path)
  catch _ =>
    return none

/-- Read what an invocation asks for, and answer it. -/
def respond (arguments : List String) : IO Answer := do
  match parse arguments with
  | none => return usageError
  | some invocation =>
    match invocation.configPath? with
    | some path => return invocation.answer (← readText path)
    | none => return invocation.answer none

end MediaSession.CommandLine

def main (arguments : List String) : IO UInt32 := do
  let answer ← MediaSession.CommandLine.respond arguments
  (← IO.getStdout).putStr answer.output
  return answer.status.toUInt32
