import CardNet.Proofs.Graph.Planning

/-!
# Plans by bounded searches

The searches behind a plan end because fewer and fewer nodes are left, which a reckoning of a given
circuit cannot see. With a bound on their steps they can be reckoned, and what they answer with
within the bound is what they find (`Net.regionOrder_of_within`, `Net.regionOrder_of_cycleWithin`).
So a given graph can be built in function mode and looked at (`Graph.build_of_within`).
-/

namespace CardNet

namespace Frontier

/-- Follow the queue to its end, in at most so many steps. -/
def followWithin (successors : String → List String) :
    Nat → List String → List String → Option (List String)
  | _, _, [] => some []
  | 0, _, _ :: _ => none
  | steps + 1, unseen, node :: rest =>
      let next := (successors node).foldl meet ⟨unseen, rest⟩
      (followWithin successors steps next.unseen next.queue).map (node :: ·)

theorem follow_of_within {successors : String → List String} {steps : Nat}
    {unseen queue nodes : List String}
    (found : followWithin successors steps unseen queue = some nodes) :
    follow successors unseen queue = nodes := by
  induction steps generalizing unseen queue nodes with
  | zero =>
      cases queue <;> cases found
      rw [follow]
  | succ steps ih =>
      cases queue with
      | nil =>
          cases found
          rw [follow]
      | cons node rest =>
          obtain ⟨later, within, rfl⟩ := Option.map_eq_some_iff.mp found
          rw [follow, ih within]

end Frontier

namespace Descent

/-- Work a stack off, in at most so many steps. -/
def descendWithin (successors : String → List String) :
    Nat → List String → List String → List String → Option Descent
  | _, unmet, finished, [] => some ⟨unmet, finished⟩
  | 0, _, _, _ :: _ => none
  | steps + 1, unmet, finished, node :: rest =>
      if node ∈ unmet then
        let unmet := without unmet node
        let next := (successors node).filter (· ∈ unmet)
        descendWithin successors steps unmet finished (next ++ node :: rest)
      else if node ∈ finished then descendWithin successors steps unmet finished rest
      else descendWithin successors steps unmet (node :: finished) rest

variable {successors : String → List String} {steps : Nat}

theorem descend_of_within {unmet finished stack : List String} {search : Descent}
    (found : descendWithin successors steps unmet finished stack = some search) :
    descend successors unmet finished stack = search := by
  induction steps generalizing unmet finished stack with
  | zero =>
      cases stack <;> cases found
      rw [descend]
  | succ steps ih =>
      cases stack with
      | nil =>
          cases found
          rw [descend]
      | cons node rest =>
          rw [descendWithin] at found
          rw [descend]
          split at found
          · next fresh => rw [dif_pos fresh, ih found]
          · next met =>
              rw [dif_neg met]
              split at found
              · next done => rw [if_pos done, ih found]
              · next open' => rw [if_neg open', ih found]

/-- Descend from a node unless it was met before, in at most so many steps. -/
def visitWithin (successors : String → List String) (steps : Nat) (search : Descent)
    (node : String) : Option Descent :=
  if node ∈ search.unmet then descendWithin successors steps search.unmet search.finished [node]
  else some search

theorem foldl_visit_of_within {nodes : List String} {search last : Descent}
    (found : nodes.foldlM (visitWithin successors steps) search = some last) :
    nodes.foldl (visit successors) search = last := by
  induction nodes generalizing search with
  | nil =>
      cases found
      rfl
  | cons node rest ih =>
      obtain ⟨next, within, others⟩ := Option.bind_eq_some_iff.mp found
      have visited : visit successors search node = next := by
        unfold visitWithin at within
        unfold visit
        split at within
        · next fresh => rw [if_pos fresh, descend_of_within within]
        · next met => rw [if_neg met, Option.some.inj within]
      rw [List.foldl_cons, visited, ih others]

end Descent

namespace Net

variable {κ α : Type} {net : Net κ α} {steps : Nat}

/-- The region of the starts in an order in which every arc leads forward, by searches of at most so
many steps. -/
def regionOrderWithin (net : Net κ α) (steps : Nat) (starts : List String) :
    Option (List String) :=
  let frontier := starts.foldl Frontier.meet ⟨net.nodes, []⟩
  if starts.all net.hasNode then
    (Frontier.followWithin net.successors steps frontier.unseen frontier.queue).bind fun region =>
      (region.foldlM (Descent.visitWithin net.successors steps) ⟨region, []⟩).bind fun search =>
        if misplaced? (net.predecessorsIn region) [] search.finished = none then
          some search.finished
        else none
  else none

/-- A node of the region of the starts from which one comes back to it, by searches of at most so
many steps. -/
def cycleWithin (net : Net κ α) (steps : Nat) (starts : List String) : Option String :=
  let frontier := starts.foldl Frontier.meet ⟨net.nodes, []⟩
  if starts.all net.hasNode then
    (Frontier.followWithin net.successors steps frontier.unseen frontier.queue).bind fun region =>
      (region.foldlM (Descent.visitWithin net.successors steps) ⟨region, []⟩).bind fun search =>
        misplaced? (net.predecessorsIn region) [] search.finished
  else none

theorem reachableFrom_of_within {starts region : List String}
    (known : starts.all net.hasNode = true)
    (followed : Frontier.followWithin net.successors steps
      (starts.foldl Frontier.meet ⟨net.nodes, []⟩).unseen
      (starts.foldl Frontier.meet ⟨net.nodes, []⟩).queue = some region) :
    net.reachableFrom starts = .ok region := by
  have none : starts.find? (fun start => !net.hasNode start) = none := by
    rw [List.find?_eq_none]
    intro start member
    rw [List.all_eq_true.mp known start member]
    decide
  rw [reachableFrom, none]
  exact congrArg Except.ok (Frontier.follow_of_within followed)

theorem regionOrder_of_within {starts order : List String}
    (found : net.regionOrderWithin steps starts = some order) :
    net.regionOrder starts = .ok order := by
  unfold regionOrderWithin at found
  dsimp only at found
  split at found
  · next known =>
      obtain ⟨region, followed, rest⟩ := Option.bind_eq_some_iff.mp found
      obtain ⟨search, visited, last⟩ := Option.bind_eq_some_iff.mp rest
      split at last
      · next placed =>
          obtain rfl := Option.some.inj last
          have same : Descent.order net.successors region = search.finished :=
            congrArg Descent.finished (Descent.foldl_visit_of_within visited)
          rw [regionOrder, reachableFrom_of_within known followed]
          dsimp only
          rw [same, placed]
      · cases last
  · cases found

theorem regionOrder_of_cycleWithin {starts : List String} {node : String}
    (found : net.cycleWithin steps starts = some node) :
    net.regionOrder starts = .error (.cyclic starts node) := by
  unfold cycleWithin at found
  dsimp only at found
  split at found
  · next known =>
      obtain ⟨region, followed, rest⟩ := Option.bind_eq_some_iff.mp found
      obtain ⟨search, visited, misplaced⟩ := Option.bind_eq_some_iff.mp rest
      have same : Descent.order net.successors region = search.finished :=
        congrArg Descent.finished (Descent.foldl_visit_of_within visited)
      rw [regionOrder, reachableFrom_of_within known followed]
      dsimp only
      rw [same, misplaced]
  · cases found

end Net

/-- The plan of the region of some entries, by searches of at most so many steps. -/
def Plan.ofEntriesWithin (net : Circuit) (steps : Nat) (entries : List String) : Option Plan :=
  (net.regionOrderWithin steps entries).bind fun path => (ofPath net entries path).toOption

theorem Plan.ofEntries_of_within {net : Circuit} {steps : Nat} {entries : List String}
    {plan : Plan} (found : ofEntriesWithin net steps entries = some plan) :
    ofEntries net entries = .ok plan := by
  obtain ⟨path, ordered, made⟩ := Option.bind_eq_some_iff.mp found
  rw [ofEntries, Net.regionOrder_of_within ordered]
  dsimp only
  cases walked : ofPath net entries path with
  | error reason =>
      rw [walked] at made
      cases made
  | ok same =>
      rw [walked] at made
      exact congrArg Except.ok (Option.some.inj made)

namespace Graph

/-- The plans of entry places, by searches of at most so many steps. -/
def pathsWithin (net : Circuit) (steps : Nat) :
    List String → Registry Plan → Option (Registry Plan)
  | [], paths => some paths
  | entry :: rest, paths =>
      (Plan.ofEntriesWithin net steps [entry]).bind fun plan =>
        pathsWithin net steps rest (paths.insert entry plan)

theorem pathsOf_of_within {net : Circuit} {steps : Nat} {entries : List String}
    {paths all : Registry Plan} (found : pathsWithin net steps entries paths = some all) :
    pathsOf net entries paths = (.ok (), all) := by
  induction entries generalizing paths with
  | nil =>
      cases found
      rfl
  | cons entry rest ih =>
      obtain ⟨plan, own, others⟩ := Option.bind_eq_some_iff.mp found
      rw [pathsOf, Plan.ofEntries_of_within own]
      exact ih others

/-- A graph with the plans of its entry places, made by searches of at most so many steps. -/
def compileWithin (steps : Nat) (graph : Graph) : Option Graph :=
  let entries := graph.net.entryPlaces
  if entries.isEmpty then none
  else
    (pathsWithin graph.net steps entries .empty).bind fun paths =>
      (Plan.ofEntriesWithin graph.net steps entries).map fun plan =>
        { graph with paths := paths, plan := some plan }

theorem compile_of_within {steps : Nat} {graph after : Graph}
    (found : compileWithin steps graph = some after) : graph.compile = (.ok (), after) := by
  unfold compileWithin at found
  dsimp only at found
  split at found
  · cases found
  · next some' =>
      obtain ⟨paths, made, rest⟩ := Option.bind_eq_some_iff.mp found
      obtain ⟨plan, common, rfl⟩ := Option.map_eq_some_iff.mp rest
      rw [compile, pathsOf_of_within made, Plan.ofEntries_of_within common]
      exact if_neg some'

/-- Why the plan of the first entry place cannot be made, by searches of at most so many steps. -/
def cycleWithin (steps : Nat) (graph : Graph) : Option Failure :=
  graph.net.entryPlaces.head?.bind fun entry =>
    (graph.net.cycleWithin steps [entry]).map fun node => .region (.cyclic [entry] node)

theorem compile_of_cycleWithin {steps : Nat} {graph : Graph} {failure : Failure}
    (found : graph.cycleWithin steps = some failure) : graph.compile.1 = .error failure := by
  obtain ⟨entry, first, rest⟩ := Option.bind_eq_some_iff.mp found
  obtain ⟨node, cycle, rfl⟩ := Option.map_eq_some_iff.mp rest
  obtain ⟨others, entries⟩ := List.head?_eq_some_iff.mp first
  rw [compile, entries, pathsOf, Plan.ofEntries, Net.regionOrder_of_cycleWithin cycle]

/-- A graph in function mode on its board, its plans made by searches of at most so many steps. -/
def buildWithin (steps : Nat) (config : GraphConfig) (cards : List Card) (board : Board) :
    Option Bench :=
  match build .visual config cards none board with
  | (.ok graph, after) =>
      (compileWithin steps { graph with mode := .function }).map fun graph => ⟨graph, after⟩
  | (.error _, _) => none

theorem build_of_within {steps : Nat} {config : GraphConfig} {cards : List Card} {board : Board}
    {bench : Bench} (found : buildWithin steps config cards board = some bench) :
    build .function config cards none board = (.ok bench.graph, bench.board) := by
  unfold buildWithin at found
  split at found
  · next graph after built =>
      obtain ⟨planned, made, rfl⟩ := Option.map_eq_some_iff.mp found
      exact build_function built (compile_of_within made)
  · cases found

end Graph

end CardNet
