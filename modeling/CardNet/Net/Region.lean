import CardNet.Net.Basic

/-!
# Regions of a net

The region of some start nodes is what can be reached from them along arcs. It is listed in
breadth-first order (`Net.reachable`) and, when no cycle lies in it, in an order in which every
arc leads forward (`Net.regionOrder`). That order is the reverse of the order in which a
depth-first search finishes the nodes of the breadth-first list; it is accepted when every node
comes after the nodes that lead to it, and otherwise names the first exception.
-/

namespace CardNet

/-- Why a region has no order. -/
inductive RegionError where
  | unknownNode (id : String)
  | cyclic (starts : List String) (node : String)
deriving DecidableEq

/-- The text of a region error. -/
def RegionError.message : RegionError → String
  | unknownNode id => s!"unknown node {id}"
  | cyclic starts node =>
      let entry := String.intercalate ", " starts
      s!"cannot compile path from {entry}: cycle detected at {node}"

/-- The nodes of a list other than one. -/
def without (nodes : List String) (node : String) : List String := nodes.filter (· ≠ node)

theorem length_without_lt {nodes : List String} {node : String} (member : node ∈ nodes) :
    (without nodes node).length < nodes.length := by
  unfold without
  rw [← List.countP_eq_length_filter]
  refine Nat.lt_of_le_of_ne List.countP_le_length ?_
  intro same
  have all := List.countP_eq_length.mp same node member
  simp at all

/-- The state of a breadth-first search: the nodes not met so far and the nodes met and not yet
followed. -/
structure Frontier where
  unseen : List String
  queue : List String

namespace Frontier

/-- Put a node into the queue when it is met for the first time. -/
def meet (frontier : Frontier) (node : String) : Frontier :=
  if node ∈ frontier.unseen then
    ⟨without frontier.unseen node, frontier.queue ++ [node]⟩
  else frontier

/-- The number of nodes that are still to be followed. -/
def work (frontier : Frontier) : Nat := frontier.unseen.length + frontier.queue.length

theorem work_meet_le (frontier : Frontier) (node : String) :
    (frontier.meet node).work ≤ frontier.work := by
  unfold meet work
  split
  · next member =>
      have fewer := length_without_lt member
      simp only [List.length_append, List.length_cons, List.length_nil]
      omega
  · exact Nat.le_refl _

theorem work_foldl_meet_le (nodes : List String) (frontier : Frontier) :
    (nodes.foldl meet frontier).work ≤ frontier.work := by
  induction nodes generalizing frontier with
  | nil => exact Nat.le_refl _
  | cons node rest ih => exact Nat.le_trans (ih _) (frontier.work_meet_le node)

/-- Follow the queue to its end; answers with the nodes in the order in which they were
followed. -/
def follow (successors : String → List String) (unseen : List String) :
    List String → List String
  | [] => []
  | node :: rest =>
      let next := (successors node).foldl meet ⟨unseen, rest⟩
      node :: follow successors next.unseen next.queue
termination_by queue => unseen.length + queue.length
decreasing_by
  refine Nat.lt_of_le_of_lt (work_foldl_meet_le (successors node) ⟨unseen, rest⟩) ?_
  simp only [work, List.length_cons]
  omega

end Frontier

/-- Nodes that a depth-first search has not met, and nodes it has finished, latest first. -/
structure Descent where
  unmet : List String
  finished : List String

namespace Descent

/-- Work a stack off. A node that is met for the first time stays on the stack below its
successors; met again it is finished, once. -/
def descend (successors : String → List String) (unmet finished : List String) :
    List String → Descent
  | [] => ⟨unmet, finished⟩
  | node :: rest =>
      if _ : node ∈ unmet then
        let unmet := without unmet node
        let next := (successors node).filter (· ∈ unmet)
        descend successors unmet finished (next ++ node :: rest)
      else if node ∈ finished then descend successors unmet finished rest
      else descend successors unmet (node :: finished) rest
termination_by stack => (unmet.length, stack.length)
decreasing_by
  · exact Prod.Lex.left _ _ (length_without_lt ‹_›)
  · exact Prod.Lex.right _ (Nat.lt_succ_self _)
  · exact Prod.Lex.right _ (Nat.lt_succ_self _)

/-- Descend from a node unless it was met before. -/
def visit (successors : String → List String) (search : Descent) (node : String) : Descent :=
  if node ∈ search.unmet then descend successors search.unmet search.finished [node] else search

/-- The nodes in the reverse of the order in which a depth-first search finishes them. -/
def order (successors : String → List String) (nodes : List String) : List String :=
  (nodes.foldl (visit successors) ⟨nodes, []⟩).finished

end Descent

/-- The first node that leads to a node of the list without standing before it. -/
def misplaced? (predecessors : String → List String) (before : List String) :
    List String → Option String
  | [] => none
  | node :: rest =>
      match (predecessors node).find? (· ∉ node :: before) with
      | some late => some late
      | none => misplaced? predecessors (node :: before) rest

namespace Net

variable {κ α : Type}

/-- The names of all nodes. -/
def nodes (net : Net κ α) : List String := net.places.names ++ net.transitions.names

/-- The nodes that can be reached from the starts, in breadth-first order. -/
def reachableFrom (net : Net κ α) (starts : List String) : Except RegionError (List String) :=
  match starts.find? fun start => !net.hasNode start with
  | some start => .error (.unknownNode start)
  | none =>
      let frontier := starts.foldl Frontier.meet ⟨net.nodes, []⟩
      .ok (Frontier.follow net.successors frontier.unseen frontier.queue)

/-- The nodes that can be reached from a start, in breadth-first order. -/
def reachable (net : Net κ α) (start : String) : Except RegionError (List String) :=
  net.reachableFrom [start]

/-- The nodes of a list that lead to a node, in the order of the list. -/
def predecessorsIn (net : Net κ α) (region : List String) (id : String) : List String :=
  region.filter fun other => id ∈ net.successors other

/-- The region of the starts in an order in which every arc leads forward. -/
def regionOrder (net : Net κ α) (starts : List String) : Except RegionError (List String) :=
  match net.reachableFrom starts with
  | .error reason => .error reason
  | .ok region =>
      let order := Descent.order net.successors region
      match misplaced? (net.predecessorsIn region) [] order with
      | some node => .error (.cyclic starts node)
      | none => .ok order

end Net

end CardNet
