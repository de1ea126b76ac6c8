import CardNet.Registry
import CardNet.Text.Blank
import Std.Data.ExtTreeMap

/-!
# Nets

A net has places with token counts, transitions with actions, and weighted arcs between a place
and a transition. Places and transitions share one set of names and keep their order of entry.
An arc goes under the text `source->target`, and the arcs are listed a second and a third time
under their target and under their source. What a place holds besides tokens and what a
transition does are parameters of the net.
-/

namespace CardNet

/-- The part that a place plays. -/
inductive PlaceKind where
  | start
  | process
  | finish
deriving DecidableEq, Inhabited

namespace PlaceKind

/-- The name of a kind. -/
def name : PlaceKind → String
  | start => "start"
  | process => "process"
  | finish => "end"

/-- The kinds in order. -/
def all : List PlaceKind := [start, process, finish]

/-- The kind of a name. -/
def ofName? (name : String) : Option PlaceKind := all.find? fun kind => kind.name == name

end PlaceKind

/-- A place with its tokens and what it holds. -/
structure Place (κ : Type) where
  kind : PlaceKind
  tokens : Nat
  content : Option κ
deriving Inhabited

/-- A weighted arc between a place and a transition. -/
structure Arc where
  source : String
  target : String
  weight : Nat
deriving DecidableEq, Inhabited

/-- The text under which an arc between two nodes goes. -/
def arcName (source target : String) : String := source ++ "->" ++ target

/-- The text under which an arc goes. -/
def Arc.name (arc : Arc) : String := arcName arc.source arc.target

/-- Whether a name belongs to a place or to a transition. -/
inductive NodeKind where
  | place
  | transition
deriving DecidableEq

/-- Why a net cannot be built as asked. -/
inductive NetError where
  | emptyName
  | duplicatePlace (id : String)
  | duplicateTransition (id : String)
  | duplicateArc (source target : String)
  | unknownNode (id : String)
  | sameKind (source target : String)
  | weightless (weight : Nat)
deriving DecidableEq

/-- The text of a construction error. -/
def NetError.message : NetError → String
  | emptyName => "net name must be a non-empty string"
  | duplicatePlace id => s!"place {id} already exists"
  | duplicateTransition id => s!"transition {id} already exists"
  | duplicateArc source target => s!"arc {source}->{target} already exists"
  | unknownNode id => s!"unknown node {id}"
  | sameKind source target => s!"arc {source}->{target} must connect a place and a transition"
  | weightless weight => s!"arc weight must be a positive integer, got {weight}"

/-- Arcs listed under one of their ends, in order of entry. No list is empty. -/
structure ArcIndex where
  lists : Std.ExtTreeMap String (List Arc)

namespace ArcIndex

/-- The index without arcs. -/
def empty : ArcIndex := ⟨∅⟩

instance : Inhabited ArcIndex := ⟨empty⟩

/-- The arcs under a node. -/
def under (index : ArcIndex) (node : String) : List Arc := index.lists.getD node []

/-- Replace the arcs under a node. -/
def put (index : ArcIndex) (node : String) (arcs : List Arc) : ArcIndex :=
  if arcs.isEmpty then ⟨index.lists.erase node⟩ else ⟨index.lists.insert node arcs⟩

/-- List an arc under a node, behind the others. -/
def push (index : ArcIndex) (node : String) (arc : Arc) : ArcIndex :=
  index.put node (index.under node ++ [arc])

/-- Keep only some of the arcs under a node. -/
def keep (index : ArcIndex) (node : String) (kept : Arc → Bool) : ArcIndex :=
  index.put node ((index.under node).filter kept)

theorem under_put (index : ArcIndex) (node other : String) (arcs : List Arc) :
    (index.put node arcs).under other = if node = other then arcs else index.under other := by
  unfold put under
  split
  · next none =>
      have nothing : arcs = [] := by simpa using none
      subst nothing
      by_cases same : node = other <;>
        simp [Std.ExtTreeMap.getD_erase, Std.LawfulEqCmp.compare_eq_iff_eq, same]
  · by_cases same : node = other <;>
      simp [Std.ExtTreeMap.getD_insert, Std.LawfulEqCmp.compare_eq_iff_eq, same]

end ArcIndex

/-- A net of places that hold a `κ` and transitions that do an `α`. -/
structure Net (κ α : Type) where
  name : String
  places : Registry (Place κ)
  transitions : Registry α
  arcs : Registry Arc
  incoming : ArcIndex
  outgoing : ArcIndex
deriving Inhabited

/-- The marking of a net and the names of its parts. -/
structure Snapshot where
  marking : Std.ExtTreeMap String Nat
  places : List String
  transitions : List String
  arcs : List String

namespace Net

variable {κ α : Type}

/-- A net without nodes; its name must not be blank. -/
def create (name : String) : Except NetError (Net κ α) :=
  if Text.isBlankText name then .error .emptyName
  else .ok ⟨name, .empty, .empty, .empty, .empty, .empty⟩

/-- Whether a name belongs to a node. -/
def hasNode (net : Net κ α) (id : String) : Bool :=
  net.places.contains id || net.transitions.contains id

/-- The kind of the node of a name. -/
def nodeKind? (net : Net κ α) (id : String) : Option NodeKind :=
  if net.places.contains id then some .place
  else if net.transitions.contains id then some .transition
  else none

/-- Enter a place under a free name. -/
def addPlace (net : Net κ α) (id : String) (place : Place κ) : Except NetError (Net κ α) :=
  if net.hasNode id then .error (.duplicatePlace id)
  else .ok { net with places := net.places.insert id place }

/-- Enter a transition under a free name. -/
def addTransition (net : Net κ α) (id : String) (action : α) : Except NetError (Net κ α) :=
  if net.hasNode id then .error (.duplicateTransition id)
  else .ok { net with transitions := net.transitions.insert id action }

/-- Whether an arc goes under the text of two nodes. -/
def isConnected (net : Net κ α) (source target : String) : Bool :=
  net.arcs.contains (arcName source target)

/-- Enter an arc in the list of arcs and under its two ends. -/
def pushArc (net : Net κ α) (arc : Arc) : Net κ α :=
  { net with
    arcs := net.arcs.insert arc.name arc
    incoming := net.incoming.push arc.target arc
    outgoing := net.outgoing.push arc.source arc }

/-- Connect a place and a transition, in either direction. -/
def addArc (net : Net κ α) (source target : String) (weight : Nat) :
    Except NetError (Net κ α) :=
  match net.nodeKind? source with
  | none => .error (.unknownNode source)
  | some sourceKind =>
      match net.nodeKind? target with
      | none => .error (.unknownNode target)
      | some targetKind =>
          if sourceKind = targetKind then .error (.sameKind source target)
          else if weight = 0 then .error (.weightless weight)
          else if net.isConnected source target then .error (.duplicateArc source target)
          else .ok (net.pushArc ⟨source, target, weight⟩)

/-- The arcs into a node, in order of entry. -/
def arcsInto (net : Net κ α) (id : String) : List Arc := net.incoming.under id

/-- The arcs out of a node, in order of entry. -/
def arcsFrom (net : Net κ α) (id : String) : List Arc := net.outgoing.under id

/-- The nodes that an arc leads to from a node, in order of the arcs. -/
def successors (net : Net κ α) (id : String) : List String :=
  (net.arcsFrom id).map Arc.target

/-- The place of a name. -/
def place? (net : Net κ α) (id : String) : Option (Place κ) := net.places.get? id

/-- The content of the place of a name. -/
def content? (net : Net κ α) (id : String) : Option κ := (net.place? id).bind Place.content

/-- The tokens on a place. -/
def tokens? (net : Net κ α) (id : String) : Option Nat := (net.place? id).map Place.tokens

/-- Change the tokens on a place, if there is one of the name. -/
def modifyTokens (net : Net κ α) (id : String) (change : Nat → Nat) : Net κ α :=
  { net with
    places := net.places.modify id fun place => { place with tokens := change place.tokens } }

/-- Put a number of tokens on a place; answers whether there is one of the name. -/
def setTokens (net : Net κ α) (id : String) (tokens : Nat) : Bool × Net κ α :=
  (net.places.contains id, net.modifyTokens id fun _ => tokens)

/-- The places that no arc leads to, in order of entry. -/
def entryPlaces (net : Net κ α) : List String :=
  net.places.names.filter fun id => (net.arcsInto id).isEmpty

/-- The places that no arc leads away from, in order of entry. -/
def exitPlaces (net : Net κ α) : List String :=
  net.places.names.filter fun id => (net.arcsFrom id).isEmpty

/-- Take an arc out of the list of arcs and from under its two ends. -/
def dropArc (net : Net κ α) (arc : Arc) : Net κ α :=
  { net with
    arcs := net.arcs.erase arc.name
    outgoing := net.outgoing.keep arc.source fun other => other.target ≠ arc.target
    incoming := net.incoming.keep arc.target fun other => other.source ≠ arc.source }

/-- Take out every arc that touches a node. -/
def detach (net : Net κ α) (id : String) : Net κ α :=
  let touching := net.arcsInto id ++ net.arcsFrom id
  let cleared :=
    { net with incoming := net.incoming.put id [], outgoing := net.outgoing.put id [] }
  touching.foldl dropArc cleared

/-- Take out a place and the arcs that touch it; answers with the place. -/
def removePlace (net : Net κ α) (id : String) : Option (Place κ) × Net κ α :=
  match net.place? id with
  | none => (none, net)
  | some place => (some place, { net with places := net.places.erase id }.detach id)

/-- Take out a transition and the arcs that touch it; answers with its action. -/
def removeTransition (net : Net κ α) (id : String) : Option α × Net κ α :=
  match net.transitions.get? id with
  | none => (none, net)
  | some action =>
      (some action, { net with transitions := net.transitions.erase id }.detach id)

/-- The marking of a net and the names of its parts. -/
def snapshot (net : Net κ α) : Snapshot where
  marking := net.places.entries.foldl
    (fun marking entry => marking.insert entry.1 entry.2.tokens) ∅
  places := net.places.names
  transitions := net.transitions.names
  arcs := net.arcs.names

/-- Put the tokens of a marking back on the places that are still there. -/
def restore (net : Net κ α) (marking : Std.ExtTreeMap String Nat) : Net κ α :=
  marking.foldl (fun net id tokens => (net.setTokens id tokens).2) net

end Net

end CardNet
