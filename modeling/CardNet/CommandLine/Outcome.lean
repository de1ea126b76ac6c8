import CardNet.CommandLine.Invocation
import CardNet.Connection.Validation
import CardNet.Document.Session
import CardNet.Document.Written

/-!
# Outcomes of commands

What a command prints and with which code it ends. The results of a command go to the output
stream; notes on what happens, and in the end the report of an error, go to the error stream. An
error is reported with the chain of its causes, which are numbered when there are several.
-/

namespace CardNet.CommandLine

/-- What only a clock can tell, as text: how long a command took, and how many ticks a timer
made. -/
structure Measures where
  elapsed : String
  ticks : String

/-- What a command prints, and how it ends. -/
structure Outcome where
  output : List String
  notes : Measures → List String
  exit : Nat
  /-- How long the command is kept by its timer, in milliseconds. -/
  wait : Nat

/-- An error with the chain of its causes. -/
structure Trouble where
  top : String
  causes : List String

namespace Trouble

/-- A failure on its own. -/
def ofFailure (failure : Failure) : Trouble := ⟨failure.message, failure.cause?.toList⟩

/-- An error that another one explains. -/
def within (trouble : Trouble) (context : String) : Trouble :=
  ⟨context, trouble.top :: trouble.causes⟩

/-- A cause with a mark in front; the lines after the first stand below the first. -/
def indent (mark : String) (cause : String) : String :=
  let margin := String.ofList (List.replicate mark.length ' ')
  mark ++ String.intercalate ("\n" ++ margin) (cause.splitOn "\n")

/-- A number set to the right over five columns. -/
def rightAligned (n : Nat) : String :=
  let digits := toString n
  String.ofList (List.replicate (5 - digits.length) ' ') ++ digits

/-- The list of causes as it is printed. -/
def listed : List String → List String
  | [] => []
  | [cause] => [indent "    " cause]
  | causes => causes.mapIdx fun number cause => indent (rightAligned number ++ ": ") cause

/-- An error as it is reported. -/
def report (trouble : Trouble) : List String :=
  let error := "Error: " ++ trouble.top
  if trouble.causes.isEmpty then [error]
  else error :: "" :: "Caused by:" :: listed trouble.causes

end Trouble

/-- The name of the program and its version. -/
def versionText : String := "petriflow 0.1.0"

/-- How the program is called. -/
def usage : List String :=
  ["Run card graphs on the petri-net dataflow engine", "",
    "Usage: petriflow [OPTIONS] <COMMAND>", "",
    "Commands:",
    "  run    Build a graph document and run it",
    "  watch  Run a graph document on a timer for a number of ticks",
    "  check  Validate connections and print the build report",
    "  help   Print this message or the help of the given subcommand(s)", "",
    "Options:",
    "  -v, --verbose  Enable verbose logging",
    "  -h, --help     Print help",
    "  -V, --version  Print version"]

/-- The colours of notes. -/
inductive Color where
  | green
  | yellow
  | cyan
  | red

/-- The code that switches a colour on. -/
def Color.code : Color → String
  | green => "\x1b[32m"
  | yellow => "\x1b[33m"
  | cyan => "\x1b[36m"
  | red => "\x1b[31m"

/-- A note: a coloured word, and what it is about. -/
def note (color : Color) (word text : String) : String :=
  color.code ++ word ++ "\x1b[0m " ++ text

namespace Outcome

/-- The outcome of a command that went well. -/
def success (output : List String) (notes : Measures → List String) : Outcome :=
  ⟨output, notes, 0, 0⟩

/-- The outcome of a command that ended with an error after some notes. -/
def failure (output notes : List String) (trouble : Trouble) : Outcome :=
  ⟨output, fun _ => notes ++ trouble.report, 1, 0⟩

end Outcome

/-- The note for a connection that was left out. -/
def warningNote (warning : Warning) : String := note .yellow "warning:" warning.text

/-- Read a document from what its file holds. -/
def load (path : String) (content : Except String String) : Except Trouble Document :=
  match content with
  | .error reason => .error ⟨s!"failed to read {path}", [reason]⟩
  | .ok text =>
      match Json.Shape.parse? Shapes.document text with
      | some document => .ok document
      | none => .error ⟨s!"failed to parse graph document {path}", ["unexpected content"]⟩

/-- The settings that a command runs a document with. -/
def settings (document : Document) (environment : List (String × String))
    (mode : Option Mode) : Except Trouble EngineConfig :=
  (document.settings environment mode).mapError fun failure =>
    (Trouble.ofFailure failure).within "invalid engine environment"

/-- The cards of a document. -/
def cards (document : Document) : Except Trouble (List CardDesign) :=
  document.designs.mapError fun reason => ⟨reason.message, []⟩

/-- A document that is ready to run. -/
structure Ready where
  document : Document
  report : Report
  session : Session

/-- Load a document and build its graph. -/
def prepare (path : String) (content : Except String String)
    (environment : List (String × String)) (mode : Option Mode) : Except Trouble Ready := do
  let document ← load path content
  let config ← settings document environment mode
  let designs ← cards document
  match document.start config designs with
  | (.ok report, session) => .ok ⟨document, report, session⟩
  | (.error failure, _) =>
      .error ((Trouble.ofFailure failure).within "failed to build petri net")

/-- The notes on the connections that were left out. -/
def Ready.warnings (ready : Ready) : List String := ready.report.warnings.map warningNote

/-- Outputs as they are printed. -/
def printed (outputs : Values) : String := (Value.ofValues outputs).pretty ""

/-- Run a document a number of times. -/
def run (ready : Ready) (times : Nat) (force : Bool) : Outcome :=
  let mode := ready.session.engine.config.mode
  let notes := ready.warnings ++
    [note .cyan "Running" s!"{ready.document.graph.name} ({mode.name} mode)"]
  let (outputs, failure, session) := ready.session.execTimes ∅ force times
  let output := outputs.map printed
  match failure with
  | some failure =>
      let context := s!"run {outputs.length + 1} failed"
      .failure output notes ((Trouble.ofFailure failure).within context)
  | none =>
      let tasks := session.tally.submitted
      .success output fun measures => notes ++
        [note .green "Completed"
          s!"{times} runs in {measures.elapsed} ({tasks} scheduled tasks)"]

/-- Run a document on a timer until it has ticked a number of times. -/
def watch (ready : Ready) (interval ticks : Nat) : Outcome :=
  let name := ready.document.graph.name
  let notes := ready.warnings ++
    [note .cyan "Watching" s!"{name} every {interval}ms for {ticks} ticks"]
  let (outputs, failure, session) := ready.session.execTimes ∅ false ticks
  let ticked := outputs.length
  let wait := (ticked - 1) * max interval 1
  match failure with
  | some _ =>
      let reason := s!"auto exec stopped after {ticked} of {ticks} ticks"
      { Outcome.failure [] notes ⟨reason, []⟩ with wait := wait }
  | none =>
      let output := [printed session.engine.records.outputs]
      let success := Outcome.success output fun measures => notes ++
        [note .green "Completed" s!"{measures.ticks} ticks"]
      { success with wait := wait }

/-- Validate connections one by one against those accepted before; answers with the number of
those accepted and the notes on the others. -/
def validateAll (cards : List Card) : List Connection → List Connection → Nat × List String
  | accepted, [] => (accepted.length, [])
  | accepted, connection :: rest =>
      match Connection.validate accepted connection cards with
      | .ok () => validateAll cards (accepted ++ [connection]) rest
      | .error reason =>
          let (count, notes) := validateAll cards accepted rest
          let complaint := note .red "invalid:" s!"{connection.text}: {reason.message}"
          (count, complaint :: notes)

/-- The end of a check of a graph that could be built. -/
def checked (graph : Graph) (accepted : Nat) (notes : List String) : Outcome :=
  let output := [graph.report.toValue.pretty ""]
  if notes.isEmpty then
    .success output fun _ => [note .green "OK" s!"{accepted} connections"]
  else .failure output notes ⟨s!"{notes.length} invalid connection(s)", []⟩

/-- Check a document with its cards. -/
def check (document : Document) (designs : List CardDesign)
    (environment : List (String × String)) : Outcome :=
  let (cards, board) := Board.empty.seatAll designs
  let (accepted, notes) := validateAll cards [] document.graph.connections
  match settings document environment none with
  | .error trouble => .failure [] notes trouble
  | .ok config =>
      match Graph.build config.mode document.graph cards document.suppliedGlobals board with
      | (.error failure, _) => .failure [] notes (.ofFailure failure)
      | (.ok graph, _) => checked graph accepted notes

/-- The outcome of a command on a document of which the content of its file is given. -/
def Command.outcome (command : Command) (content : Except String String)
    (environment : List (String × String)) : Outcome :=
  match command with
  | .run path mode times force =>
      match prepare path content environment mode with
      | .error trouble => .failure [] [] trouble
      | .ok ready => CommandLine.run ready times force
  | .watch path interval ticks =>
      match prepare path content environment none with
      | .error trouble => .failure [] [] trouble
      | .ok ready => CommandLine.watch ready interval ticks
  | .check path =>
      match (do let document ← load path content; return (document, ← cards document)) with
      | .error trouble => .failure [] [] trouble
      | .ok (document, designs) => CommandLine.check document designs environment

end CardNet.CommandLine
