import CardNet.Document.Shapes
import CardNet.Schedule.Scheduler

/-!
# Written parts of documents

The values that stand for the parts of a document, and for the summaries of graphs, nets and
schedulers, with their fields in the order in which they are declared.
-/

namespace CardNet

/-- A number, or null where there is none. -/
def Value.ofNat? : Option Nat → Value
  | some n => .ofNat n
  | none => .null

/-- A text, or null where there is none. -/
def Value.ofText? : Option String → Value
  | some content => .text content
  | none => .null

/-- An endpoint as a value. -/
def Endpoint.toValue (endpoint : Endpoint) : Value :=
  .object [("cardId", .text endpoint.card), ("anchorId", .text endpoint.anchor)]

/-- A connection as a value. -/
def Connection.toValue (connection : Connection) : Value :=
  .object [("from", connection.source.toValue), ("to", connection.target.toValue)]

/-- The description of a graph as a value. -/
def GraphConfig.toValue (config : GraphConfig) : Value :=
  .object [("name", .text config.name),
    ("connections", .list (config.connections.map Connection.toValue))]

/-- A warning as a value. -/
def Warning.toValue (warning : Warning) : Value :=
  .object [("connection", warning.connection.toValue), ("reason", .text warning.reason.message)]

/-- The summary of a graph as a value. -/
def Report.toValue (report : Report) : Value :=
  .object [("warnings", .list (report.warnings.map Warning.toValue)),
    ("entry_nodes", .texts report.entries), ("exit_nodes", .texts report.exits),
    ("places", .ofNat report.places), ("transitions", .ofNat report.transitions),
    ("arcs", .ofNat report.arcs)]

/-- The settings of an engine as a value. -/
def EngineConfig.toValue (config : EngineConfig) : Value :=
  .object [("mode", .text config.mode.name), ("task_timeout", .ofNat? config.taskTimeout),
    ("max_firings", .ofNat config.maxFirings), ("auto_exec_interval", .ofNat config.interval)]

/-- An arc as a value. -/
def Arc.toValue (arc : Arc) : Value :=
  .object [("source", .text arc.source), ("target", .text arc.target),
    ("weight", .ofNat arc.weight)]

/-- A marking as a value. -/
def Marking.toValue (marking : Std.ExtTreeMap String Nat) : Value :=
  .object (marking.toList.map fun entry => (entry.1, .ofNat entry.2))

/-- The marking of a net and the names of its parts as a value. -/
def Snapshot.toValue (snapshot : Snapshot) : Value :=
  .object [("marking", Marking.toValue snapshot.marking), ("places", .texts snapshot.places),
    ("transitions", .texts snapshot.transitions), ("arcs", .texts snapshot.arcs)]

/-- A built-in card as a value. -/
def CardDef.toValue (card : CardDef) : Value :=
  .object [("id", .text card.id), ("title", .ofText? card.title), ("op", .text card.op.title),
    ("inputs", .texts card.inputs), ("outputs", .texts card.outputs),
    ("defaults", .ofValues card.defaults), ("value", card.value), ("key", .ofText? card.key)]

/-- A tally as a value. -/
def Tally.toValue (tally : Tally) : Value :=
  .object [("submitted", .ofNat tally.submitted), ("completed", .ofNat tally.completed),
    ("failed", .ofNat tally.failed)]

end CardNet
