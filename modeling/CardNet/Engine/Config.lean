import CardNet.Graph.Basic

/-!
# Engine settings

The mode of execution, the time limit of a task, the number of firings after which a visual run
is given up, and the interval of the auto-run loop. Settings come from a document or from
environment variables.
-/

namespace CardNet

/-- The settings of an engine. Times are in milliseconds. -/
structure EngineConfig where
  mode : Mode
  /-- The longest that a task may take. -/
  taskTimeout : Option Nat
  maxFirings : Nat
  interval : Nat
deriving DecidableEq, Inhabited

namespace EngineConfig

/-- The settings that hold when nothing is said. -/
def standard : EngineConfig := ⟨.visual, some 30000, 10000, 1000⟩

/-- Set the mode. -/
def withMode (config : EngineConfig) (mode : Mode) : EngineConfig := { config with mode := mode }

/-- Set the time limit of a task. -/
def withTaskTimeout (config : EngineConfig) (limit : Option Nat) : EngineConfig :=
  { config with taskTimeout := limit }

/-- Set the largest number of firings, at least one. -/
def withMaxFirings (config : EngineConfig) (firings : Nat) : EngineConfig :=
  { config with maxFirings := max firings 1 }

/-- Set the interval, at least one millisecond. -/
def withInterval (config : EngineConfig) (milliseconds : Nat) : EngineConfig :=
  { config with interval := max milliseconds 1 }

/-- The number that a text gives in ASCII digits, up to `2 ^ 64 - 1`, with an optional plus. -/
def number? (text : String) : Option Nat :=
  let chars :=
    match (Text.trim text).toList with
    | '+' :: rest => rest
    | chars => chars
  if !chars.isEmpty && chars.all Char.isDigit then
    let n : Nat := chars.foldl (fun n c => n * 10 + (c.toNat - 48)) 0
    if n < UInt64.size then some n else none
  else none

/-- Read one variable as a number and let it change the settings; what is no number does not. -/
def adjust (environment : List (String × String)) (name : String)
    (change : EngineConfig → Nat → EngineConfig) (config : EngineConfig) : EngineConfig :=
  match (environment.lookup name).bind number? with
  | some n => change config n
  | none => config

/-- The settings that environment variables give. A mode that is none is an error; a time limit
of zero stands for no limit. -/
def ofEnvironment (environment : List (String × String)) : Except Failure EngineConfig := do
  let mode ←
    match environment.lookup "PETRIFLOW_MODE" with
    | some text => Mode.parse text
    | none => .ok standard.mode
  let limit := fun (config : EngineConfig) n =>
    config.withTaskTimeout (if n = 0 then none else some n)
  return (standard.withMode mode)
    |> adjust environment "PETRIFLOW_TASK_TIMEOUT_MS" limit
    |> adjust environment "PETRIFLOW_MAX_FIRINGS" withMaxFirings
    |> adjust environment "PETRIFLOW_AUTO_EXEC_INTERVAL_MS" withInterval

end EngineConfig

end CardNet
