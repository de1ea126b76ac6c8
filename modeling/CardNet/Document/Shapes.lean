import CardNet.Card.Operation
import CardNet.Engine.Config
import CardNet.Json.Shape
import CardNet.Schedule.Priority

/-!
# Documents

A document describes a graph, its cards, the globals of every run, and the settings of the
engine. Here are the shapes of a document and of its parts.
-/

namespace CardNet

open Json

/-- A graph with its cards, as it is stored. -/
structure Document where
  graph : GraphConfig
  cards : List CardDef
  /-- The globals handed to every run. -/
  globals : Values
  /-- The settings; the environment decides when there are none. -/
  engine : Option EngineConfig

namespace Shapes

/-- An endpoint. -/
def endpoint : Shape Endpoint := fun depth tree => do
  let fields ← Shape.fields ["cardId", "anchorId"] depth tree
  let card ← fields.need "cardId" Shape.text
  let anchor ← fields.need "anchorId" Shape.text
  return ⟨card, anchor⟩

/-- A connection. -/
def connection : Shape Connection := fun depth tree => do
  let fields ← Shape.fields ["from", "to"] depth tree
  let source ← fields.need "from" endpoint
  let target ← fields.need "to" endpoint
  return ⟨source, target⟩

/-- The description of a graph. -/
def graphConfig : Shape GraphConfig := fun depth tree => do
  let fields ← Shape.fields ["name", "connections"] depth tree
  let name ← fields.need "name" Shape.text
  let connections ← fields.get "connections" (Shape.list connection) []
  return ⟨name, connections⟩

/-- A mode, by its exact name. -/
def mode : Shape Mode := Shape.choice Mode.ofName?

/-- The kind of an anchor. -/
def anchorKind : Shape AnchorKind := Shape.choice AnchorKind.ofName?

/-- The kind of a place. -/
def placeKind : Shape PlaceKind := Shape.choice PlaceKind.ofName?

/-- A priority. -/
def priority : Shape Priority := Shape.choice Priority.ofName?

/-- The declared default of an anchor. -/
def anchorDefault : Shape Value := fun depth tree => do
  let fields ← Shape.fields ["default"] depth tree
  fields.need "default" Shape.value

/-- An arc. -/
def arc : Shape Arc := fun depth tree => do
  let fields ← Shape.fields ["source", "target", "weight"] depth tree
  let source ← fields.need "source" Shape.text
  let target ← fields.need "target" Shape.text
  let weight ← fields.need "weight" Shape.natural
  return ⟨source, target, weight⟩

/-- The marking of a net and the names of its parts. -/
def snapshot : Shape Snapshot := fun depth tree => do
  let fields ← Shape.fields ["marking", "places", "transitions", "arcs"] depth tree
  let marking ← fields.need "marking" (Shape.members Shape.natural)
  let places ← fields.need "places" (Shape.list Shape.text)
  let transitions ← fields.need "transitions" (Shape.list Shape.text)
  let arcs ← fields.need "arcs" (Shape.list Shape.text)
  return ⟨marking.foldl (fun marking entry => marking.insert entry.1 entry.2) ∅,
    places, transitions, arcs⟩

/-- The settings of an engine; what is missing is as usual. -/
def engineConfig : Shape EngineConfig := fun depth tree => do
  let standard := EngineConfig.standard
  let names := ["mode", "task_timeout", "max_firings", "auto_exec_interval"]
  let fields ← Shape.fields names depth tree
  let mode ← fields.get "mode" mode standard.mode
  let timeout ← fields.get "task_timeout" (Shape.optional Shape.natural) standard.taskTimeout
  let firings ← fields.get "max_firings" Shape.natural standard.maxFirings
  let interval ← fields.get "auto_exec_interval" Shape.natural standard.interval
  return EngineConfig.withInterval ⟨mode, timeout, firings, interval⟩ interval

/-- A built-in card. -/
def cardDef : Shape CardDef := fun depth tree => do
  let names := ["id", "title", "op", "inputs", "outputs", "defaults", "value", "key"]
  let fields ← Shape.fields names depth tree
  let id ← fields.need "id" Shape.text
  let title ← fields.get "title" (Shape.optional Shape.text) none
  let op ← fields.need "op" (Shape.choice Operation.ofName?)
  let inputs ← fields.get "inputs" (Shape.list Shape.text) []
  let outputs ← fields.get "outputs" (Shape.list Shape.text) []
  let defaults ← fields.get "defaults" Shape.values ∅
  let value ← fields.get "value" Shape.value .null
  let key ← fields.get "key" (Shape.optional Shape.text) none
  return ⟨id, title, op, inputs, outputs, defaults, value, key⟩

/-- A document. -/
def document : Shape Document := fun depth tree => do
  let fields ← Shape.fields ["graph", "cards", "globals", "engine"] depth tree
  let graph ← fields.need "graph" graphConfig
  let cards ← fields.get "cards" (Shape.list cardDef) []
  let globals ← fields.get "globals" Shape.values ∅
  let engine ← fields.get "engine" (Shape.optional engineConfig) none
  return ⟨graph, cards, globals, engine⟩

end Shapes

end CardNet
