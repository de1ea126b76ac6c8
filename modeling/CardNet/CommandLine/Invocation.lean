import CardNet.Engine.Config

/-!
# Invocations

What the arguments of the program ask for. Arguments are read from left to right and the first
one that is wrong, or that asks for help or the version, decides. An option takes its value after
an equals sign or from the next argument, which must not look like an option; no option may be
given twice at one level, and behind a double dash everything is a plain argument.
-/

namespace CardNet.CommandLine

/-- A command of the program. -/
inductive Command where
  /-- Build a document and run it a number of times. -/
  | run (document : String) (mode : Option Mode) (times : Nat) (force : Bool)
  /-- Run a document on a timer for a number of ticks. -/
  | watch (document : String) (interval ticks : Nat)
  /-- Check the connections of a document. -/
  | check (document : String)

/-- The document that a command is about. -/
def Command.document : Command → String
  | run document _ _ _ => document
  | watch document _ _ => document
  | check document => document

/-- What the arguments ask for. -/
inductive Invocation where
  | command (command : Command)
  | version
  | help
  | misuse

/-- The options of commands that take a value. -/
inductive Setting where
  | mode
  | times
  | interval
  | ticks
deriving DecidableEq

/-- The options that take none. -/
inductive Flag where
  | verbose
  | force
  | help
  | version
deriving DecidableEq

/-- Which options are known at some level. -/
structure Level where
  settings : List (String × Setting)
  flags : List (String × Flag)
  /-- Flags by their letter. -/
  letters : List (Char × Flag)

/-- What was given at some level so far. -/
structure Given where
  flags : List Flag
  settings : List (Setting × String)
  plain : List String

namespace Given

/-- Nothing was given. -/
def nothing : Given := ⟨[], [], []⟩

/-- The value of an option. -/
def setting? (given : Given) (setting : Setting) : Option String := given.settings.lookup setting

end Given

namespace Setting

/-- A number written in ASCII digits with an optional plus. -/
def number? (text : String) : Option Nat :=
  if text.toList.all fun c => c.isDigit || c == '+' then EngineConfig.number? text else none

/-- Whether a text is a value of the option. -/
def accepts (setting : Setting) (text : String) : Bool :=
  match setting with
  | mode => (Mode.parse text).toOption.isSome
  | times | interval | ticks => (number? text).isSome

end Setting

namespace Level

/-- The options of the program itself. -/
def top : Level where
  settings := []
  flags := [("verbose", .verbose), ("help", .help), ("version", .version)]
  letters := [('v', .verbose), ('h', .help), ('V', .version)]

/-- The options of a command that has some of its own. -/
def command (settings : List (String × Setting)) (flags : List (String × Flag)) : Level where
  settings := settings
  flags := flags ++ [("verbose", .verbose), ("help", .help)]
  letters := [('v', .verbose), ('h', .help)]

/-- The options of the command `run`. -/
def run : Level := command [("mode", .mode), ("times", .times)] [("force", .force)]

/-- The options of the command `watch`. -/
def watch : Level := command [("interval-ms", .interval), ("ticks", .ticks)] []

/-- The options of the command `check`. -/
def check : Level := command [] []

end Level

/-- Whether an argument looks like an option. -/
def looksLikeOption (argument : String) : Bool :=
  match argument.toList with
  | '-' :: _ :: _ => true
  | _ => false

/-- Note a flag; one that asks for help or the version decides at once. -/
def raise (given : Given) (flag : Flag) : Except Invocation Given :=
  match flag with
  | .help => .error .help
  | .version => .error .version
  | flag =>
      if flag ∈ given.flags then .error .misuse
      else .ok { given with flags := flag :: given.flags }

/-- Note flags given by letters. -/
def raiseLetters (level : Level) : List Char → Given → Except Invocation Given
  | [], given => .ok given
  | letter :: rest, given =>
      match level.letters.lookup letter with
      | none => .error .misuse
      | some flag =>
          match raise given flag with
          | .error invocation => .error invocation
          | .ok given => raiseLetters level rest given

/-- Note the value of an option. -/
def assign (given : Given) (setting : Setting) (text : String) : Except Invocation Given :=
  if (given.setting? setting).isSome || !setting.accepts text then .error .misuse
  else .ok { given with settings := (setting, text) :: given.settings }

/-- A name and what follows the first equals sign, if there is one. -/
def splitEquals (chars : List Char) : String × Option String :=
  match chars.dropWhile (· != '=') with
  | _ :: value => (String.ofList (chars.takeWhile (· != '=')), some (String.ofList value))
  | [] => (String.ofList chars, none)

/-- How the reading of arguments goes on after an option. -/
inductive Reading where
  | onward (given : Given)
  /-- The next argument is the value of an option. -/
  | valueOf (setting : Setting)

/-- Read an argument that looks like an option. -/
def readOption (level : Level) (given : Given) (chars : List Char) : Except Invocation Reading :=
  match chars with
  | '-' :: '-' :: long =>
      let (name, value) := splitEquals long
      match level.settings.lookup name, level.flags.lookup name, value with
      | some setting, _, some value => (assign given setting value).map .onward
      | some setting, _, none => .ok (.valueOf setting)
      | none, some flag, none => (raise given flag).map .onward
      | none, _, _ => .error .misuse
  | _ :: letters => (raiseLetters level letters given).map .onward
  | [] => .error .misuse

/-- Read the arguments of a command, which has one plain argument. -/
def readArguments (level : Level) : List String → Given → Except Invocation Given
  | [], given => .ok given
  | "--" :: rest, given => plainArguments rest given
  | argument :: rest, given =>
      if looksLikeOption argument then
        match readOption level given argument.toList with
        | .error invocation => .error invocation
        | .ok (.onward given) => readArguments level rest given
        | .ok (.valueOf setting) =>
            match rest with
            | [] => .error .misuse
            | value :: rest =>
                if looksLikeOption value then .error .misuse
                else
                  match assign given setting value with
                  | .error invocation => .error invocation
                  | .ok given => readArguments level rest given
      else if given.plain.isEmpty then
        readArguments level rest { given with plain := [argument] }
      else .error .misuse
where
  /-- Take everything as a plain argument. -/
  plainArguments : List String → Given → Except Invocation Given
    | [], given => .ok given
    | argument :: rest, given =>
        if given.plain.isEmpty then plainArguments rest { given with plain := [argument] }
        else .error .misuse

/-- The value of an option that is a number. -/
def Given.number (given : Given) (setting : Setting) (missing : Nat) : Nat :=
  ((given.setting? setting).bind Setting.number?).getD missing

/-- The command that a name, a document and options make up. -/
def Given.command (given : Given) (name document : String) : Command :=
  match name with
  | "run" =>
      let mode := (given.setting? .mode).bind fun text => (Mode.parse text).toOption
      .run document mode (given.number .times 1) (given.flags.contains .force)
  | "watch" => .watch document (given.number .interval 1000) (given.number .ticks 3)
  | _ => .check document

/-- The options of the command of a name. -/
def levelOf? (name : String) : Option Level :=
  [("run", Level.run), ("watch", Level.watch), ("check", Level.check)].lookup name

/-- Read what follows the name of a command. -/
def readCommand (name : String) (level : Level) (arguments : List String) : Invocation :=
  match readArguments level arguments .nothing with
  | .error invocation => invocation
  | .ok given =>
      match given.plain with
      | [document] => .command (given.command name document)
      | _ => .misuse

/-- Read a request for help on commands. -/
def readHelp : List String → Invocation
  | [] => .help
  | [name] => if name == "help" || (levelOf? name).isSome then .help else .misuse
  | _ => .misuse

/-- Read the arguments of the program after some of its options. -/
def readProgram : List String → Given → Invocation
  | [], _ => .misuse
  | argument :: rest, given =>
      if argument == "--" then .misuse
      else if looksLikeOption argument then
        match readOption .top given argument.toList with
        | .error invocation => invocation
        | .ok (.valueOf _) => .misuse
        | .ok (.onward given) => readProgram rest given
      else if argument == "help" then readHelp rest
      else
        match levelOf? argument with
        | some level => readCommand argument level rest
        | none => .misuse

/-- What the arguments of the program ask for. -/
def Invocation.parse (arguments : List String) : Invocation := readProgram arguments .nothing

end CardNet.CommandLine
