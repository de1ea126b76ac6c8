import CardNet.CommandLine.Outcome

/-!
# The program

Reads the document and the environment that a command needs, and prints the outcome of the
command.
-/

open CardNet CommandLine

/-- The environment variables that settings are read from. -/
def settingVariables : List String :=
  ["PETRIFLOW_MODE", "PETRIFLOW_TASK_TIMEOUT_MS", "PETRIFLOW_MAX_FIRINGS",
    "PETRIFLOW_AUTO_EXEC_INTERVAL_MS"]

/-- The text of a failed attempt to read a file. -/
def readFailure : IO.Error → String
  | .noFileOrDirectory _ _ _ => "No such file or directory (os error 2)"
  | error => toString error

/-- The content of a file. -/
def readContent (path : String) : IO (Except String String) := do
  try
    return .ok (← IO.FS.readFile path)
  catch error =>
    return .error (readFailure error)

/-- The environment variables that are set. -/
def readEnvironment : IO (List (String × String)) := do
  let pairs ← settingVariables.mapM fun name => do
    return (← IO.getEnv name).map fun text => (name, text)
  return pairs.filterMap id

/-- A number of milliseconds in seconds with two decimals. -/
def seconds (milliseconds : Nat) : String :=
  let hundredths := (milliseconds + 5) / 10
  let decimals := toString (hundredths % 100)
  let padded := if decimals.length = 1 then "0" ++ decimals else decimals
  s!"{hundredths / 100}.{padded}s"

/-- Carry a command out. -/
def perform (command : Command) : IO UInt32 := do
  let started ← IO.monoMsNow
  let content ← readContent command.document
  let outcome := command.outcome content (← readEnvironment)
  IO.sleep outcome.wait.toUInt32
  for text in outcome.output do
    IO.println text
  let elapsed := (← IO.monoMsNow) - started
  let ticks :=
    match command with
    | .watch _ _ ticks => toString ticks
    | _ => ""
  for text in outcome.notes ⟨seconds elapsed, ticks⟩ do
    IO.eprintln text
  return outcome.exit.toUInt32

/-- Do what the arguments ask for. -/
def main (arguments : List String) : IO UInt32 := do
  match Invocation.parse arguments with
  | .command command => perform command
  | .version =>
      IO.println versionText
      return 0
  | .help =>
      for text in usage do
        IO.println text
      return 0
  | .misuse =>
      for text in usage do
        IO.eprintln text
      return 2
