import CardNet.Graph.Error

/-!
# Graphs

A graph is a set of cards and connections laid out as a circuit, together with what is needed to
run it: the plans of function mode, its channel on the board, and its subscriptions to events.
-/

namespace CardNet

/-- How a graph is run: by firing its circuit, or by its plans. -/
inductive Mode where
  | visual
  | function
deriving DecidableEq, Inhabited

namespace Mode

/-- The name of a mode. -/
def name : Mode → String
  | visual => "visual"
  | function => "function"

/-- The modes in order. -/
def all : List Mode := [visual, function]

/-- The mode of a name. -/
def ofName? (name : String) : Option Mode := all.find? fun mode => mode.name == name

/-- Read a mode: blanks at the ends and the case of ASCII letters do not matter. -/
def parse (text : String) : Except Failure Mode :=
  match ofName? (Text.lowerAscii (Text.trim text)) with
  | some mode => .ok mode
  | none => .error (.invalidMode text)

end Mode

/-- A listener that a graph has put on an event anchor. -/
structure Subscription where
  anchor : Anchor
  number : Nat

/-- A graph laid out as a circuit. -/
structure Graph where
  mode : Mode
  net : Circuit
  cards : List Card
  connections : Registry Connection
  /-- The plan of each entry place; function mode only. -/
  paths : Registry Plan
  /-- The plan of all entry places together; function mode only. -/
  plan : Option Plan
  /-- The graph's channel on the board. -/
  channel : Nat
  /-- Whether the channel supplies globals. -/
  suppliesGlobals : Bool
  warnings : List Warning
  /-- The subscriptions by event place. -/
  subscriptions : Registry Subscription

/-- The summary of a graph. -/
structure Report where
  warnings : List Warning
  entries : List String
  exits : List String
  places : Nat
  transitions : Nat
  arcs : Nat
deriving DecidableEq

namespace Graph

/-- The summary of a graph. -/
def report (graph : Graph) : Report where
  warnings := graph.warnings
  entries := graph.net.entryPlaces
  exits := graph.net.exitPlaces
  places := graph.net.places.size
  transitions := graph.net.transitions.size
  arcs := graph.net.arcs.size

/-- The globals that are supplied at present, if any are. -/
def globals? (graph : Graph) (board : Board) : Option Values :=
  if graph.suppliesGlobals then some (board.channel graph.channel).globals else none

/-- Inputs with the globals put on top. -/
def mergeGlobals (graph : Graph) (board : Board) (inputs : Values) : Values :=
  match graph.globals? board with
  | some globals => inputs.merge globals
  | none => inputs

/-- Give up all subscriptions of a graph. -/
def release (graph : Graph) (board : Board) : Board :=
  graph.subscriptions.values.foldl
    (fun board held => board.unsubscribe held.anchor held.number) board

end Graph

end CardNet
