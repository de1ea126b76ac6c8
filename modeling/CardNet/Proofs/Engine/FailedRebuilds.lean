import CardNet.Proofs.Engine.KeptNumbers
import CardNet.Proofs.Engine.MachineReckoning
import CardNet.Proofs.Engine.Servings
import CardNet.Proofs.Graph.FailedBuilds
import CardNet.Value.Printer

/-!
# Failed rebuilds

A graph that cannot be built is as good as a graph that nobody tried to build: what the machine
holds stays, every anchor has the listeners that it had, and from then on the machine takes the
course that it would have taken if the caller had been refused at once. Only where an entry reaches
a cycle, the entry places of the refused graph stand at their defaults
(`Machine.refused_build_spares`), which can be noticed later (`Machine.refused_circle_noticed`).
-/

namespace CardNet

/-! ## What a graph shows of other anchors -/

/-- The anchors by whose values a change of a place is noticed. -/
def Content.anchors : Content → List Anchor
  | anchor _ slot => [slot]
  | event _ slot => [slot]
  | trigger card => card.anchors
  | relay => []

/-- No place of the graph has to do with an anchor of the cards. -/
def Graph.Apart (graph : Graph) (cards : List Card) : Prop :=
  ∀ content ∈ graph.net.contents, ∀ mine ∈ content.anchors,
    ∀ card ∈ cards, ∀ anchor ∈ card.anchors, anchor.slot ≠ mine.slot

instance (graph : Graph) (cards : List Card) : Decidable (graph.Apart cards) :=
  inferInstanceAs (Decidable (∀ content ∈ graph.net.contents, ∀ mine ∈ content.anchors,
    ∀ card ∈ cards, ∀ anchor ∈ card.anchors, anchor.slot ≠ mine.slot))

namespace Content

variable {content : Content} {one two : Board}

/-- What is noticed at a place comes from its anchors and from what is remembered of cards. -/
theorem observed_congr (records : two.records = one.records)
    (reads : ∀ mine ∈ content.anchors, two.read mine = one.read mine) :
    content.observed two = content.observed one := by
  cases content with
  | anchor owner slot => exact reads slot (List.mem_singleton.mpr rfl)
  | event owner slot => exact reads slot (List.mem_singleton.mpr rfl)
  | trigger card =>
      have gathered : card.gather two = card.gather one := by
        refine congrArg Values.ofPairs (List.map_congr_left fun mine member => ?_)
        rw [reads mine (List.mem_filter.mp member).1]
      simp only [observed, Card.runtimeInput, Board.record, records, gathered]
  | relay => rfl

/-- What a place shows comes from its anchors. -/
theorem value?_congr (reads : ∀ mine ∈ content.anchors, two.read mine = one.read mine) :
    content.value? two = content.value? one := by
  cases content with
  | anchor owner slot => exact congrArg some (reads slot (List.mem_singleton.mpr rfl))
  | event owner slot => exact congrArg some (reads slot (List.mem_singleton.mpr rfl))
  | trigger card => rfl
  | relay => rfl

end Content

/-- Two boards on which the same is seen of a graph. -/
structure Graph.SeenAlike (graph : Graph) (one two : Board) : Prop where
  entryValues : (Bench.mk graph two).entryValues = (Bench.mk graph one).entryValues
  placeValues : (Bench.mk graph two).placeValues = (Bench.mk graph one).placeValues
  outputs : (Bench.mk graph two).outputs = (Bench.mk graph one).outputs

theorem Graph.seenAlike {graph : Graph} {one two : Board} (records : two.records = one.records)
    (reads : ∀ content ∈ graph.net.contents, ∀ mine ∈ content.anchors,
      two.read mine = one.read mine) : graph.SeenAlike one two := by
  have reads' : ∀ ids, ∀ entry ∈ graph.net.contentsOf ids, ∀ mine ∈ entry.2.anchors,
      two.read mine = one.read mine := by
    intro ids entry member
    obtain ⟨id, -, shown⟩ := List.mem_filterMap.mp member
    obtain ⟨content, held, rfl⟩ := Option.map_eq_some_iff.mp shown
    exact reads content (Circuit.mem_contents.mpr ⟨id, held⟩)
  refine ⟨congrArg Values.ofPairs (List.map_congr_left fun entry member => ?_),
    congrArg Values.ofPairs (List.filterMap_congr fun entry member => ?_),
    congrArg Values.ofPairs (List.filterMap_congr fun entry member => ?_)⟩
  · rw [Content.observed_congr records (reads' _ entry member)]
  · rw [Content.value?_congr (reads' _ entry member)]
  · rw [Content.value?_congr (reads' _ entry member)]

/-! ## The step that fails -/

namespace Machine

variable {machine after : Machine} {caller : Nat} {layout : GraphConfig} {cards : List Card}
  {globals : Option Values} {restart : Bool} {failure : Failure} {board : Board}

/-- Inside the run gate a caller is refused, and nothing is tried. -/
def refuse (machine : Machine) (caller : Nat) (failure : Failure) : Machine :=
  { machine with runGate := machine.runGate.claim caller }.setWorker caller
    (.caller (.leaving (.error failure) false))

theorem workers_of_stepServer (stepped : machine.stepServer = some after) :
    after.workers = machine.workers := by
  cases serving_of_stepServer stepped with
  | turn turned => rfl
  | work served begun serves frame becomes => exact serves.workers
  | answer served ended => rfl

/-- A step after which a caller that was to build a graph is refused has failed to build the
graph. -/
theorem refused_of_step
    (building : machine.workers.get? caller =
      some (.caller (.building layout cards globals restart)))
    (stepped : machine.step caller = some after)
    (failed : after.workers.get? caller = some (.caller (.leaving (.error failure) false))) :
    ∃ board, Graph.build machine.engine.config.mode layout cards globals machine.engine.board =
        (.error failure, board) ∧
      after = (machine.refuse caller failure).onBoard fun _ => board := by
  rw [step] at stepped
  split at stepped
  · rw [workers_of_stepServer stepped, building] at failed
    cases failed
  · rw [building] at stepped
    obtain ⟨⟨stage, middle⟩, moved, rfl⟩ := Option.map_eq_some_iff.mp stepped
    have told : stage = .leaving (.error failure) false := by
      simpa [setWorker] using failed
    subst told
    simp only [stepCall, atRunGate] at moved
    split at moved
    · have worked := Option.some.inj moved
      simp only [buildGraph, Engine.build] at worked
      rcases built : Graph.build machine.engine.config.mode layout cards globals
        machine.engine.board with ⟨reason | graph, board⟩
      · rw [built] at worked
        cases worked
        exact ⟨board, rfl, rfl⟩
      · rw [built] at worked
        cases worked
    · split at moved <;> cases moved

/-- A caller whose turn it is to build a graph is refused when the graph cannot be built. -/
theorem step_of_build_error (other : caller ≠ server)
    (building : machine.workers.get? caller =
      some (.caller (.building layout cards globals restart)))
    (ready : (machine.runGate.claim caller).holder? = some caller)
    (failed : Graph.build machine.engine.config.mode layout cards globals machine.engine.board =
      (.error failure, board)) :
    machine.step caller = some ((machine.refuse caller failure).onBoard fun _ => board) := by
  simp only [step, if_neg other, building, stepCall, atRunGate, if_pos ready, buildGraph,
    Engine.build, failed, Option.map_some]
  rfl

/-! ## Reckoning with what happens -/

/-- The machine after something has happened, with bounded searches. -/
def meetWithin (steps : Nat) (machine : Machine) (occurrence : Occurrence) : Option Machine :=
  machine.undergoWithin steps (occurrence.incident machine.engine.graph)

theorem meetAll_of_within {steps : Nat} {occurrences : List Occurrence}
    (found : occurrences.foldlM (meetWithin steps) machine = some after) :
    machine.meetAll occurrences = some after := by
  induction occurrences generalizing machine with
  | nil => exact found
  | cons occurrence rest ih =>
      obtain ⟨middle, now, later⟩ := Option.bind_eq_some_iff.mp found
      exact Option.bind_eq_some_iff.mpr ⟨middle, undergo_of_within now, ih later⟩

/-- The next caller has asked for a graph and is about to build it. -/
def asked (machine : Machine) (layout : GraphConfig) (cards : List Card) : Machine :=
  (machine.call (.build layout cards none)).2.setWorker machine.nextWorker
    (.caller (.building layout cards none false))

theorem meetAll_asked (layout : GraphConfig) (cards : List Card)
    (other : machine.nextWorker ≠ server) :
    machine.meetAll [.call (.build layout cards none), .step machine.nextWorker] =
      some (machine.asked layout cards) := by
  have asks : machine.meet (.call (.build layout cards none)) =
      some (machine.call (.build layout cards none)).2 := rfl
  have begins : (machine.call (.build layout cards none)).2.meet (.step machine.nextWorker) =
      some (machine.asked layout cards) := by
    change (machine.call (.build layout cards none)).2.step machine.nextWorker = _
    have fresh : (machine.call (.build layout cards none)).2.workers.get? machine.nextWorker =
        some (.caller (.fresh (.build layout cards none))) := by simp [call, enlist]
    simp only [step, if_neg other, fresh]
    rfl
  simp only [meetAll, List.foldlM_cons, List.foldlM_nil, asks, begins, Option.bind_eq_bind,
    Option.bind_some, Option.pure_def]

theorem building_asked (machine : Machine) (layout : GraphConfig) (cards : List Card) :
    (machine.asked layout cards).workers.get? machine.nextWorker =
      some (.caller (.building layout cards none false)) := by
  simp [asked, setWorker]

theorem step_asked {steps : Nat} (other : machine.nextWorker ≠ server)
    (free : machine.runGate = .free) (mode : machine.engine.config.mode = .function)
    (found : Graph.refuseWithin steps layout cards none machine.engine.board =
      some (failure, board)) :
    (machine.asked layout cards).step machine.nextWorker =
      some (((machine.asked layout cards).refuse machine.nextWorker failure).onBoard
        fun _ => board) := by
  have refused := Graph.build_of_refuseWithin found
  rw [← mode] at refused
  refine step_of_build_error other (building_asked ..) ?_ refused
  change (machine.runGate.claim machine.nextWorker).holder? = _
  rw [free, Gate.holder?_claim_free]

theorem failed_refuse (change : Board → Board) :
    ((machine.refuse caller failure).onBoard change).workers.get? caller =
      some (.caller (.leaving (.error failure) false)) := by
  simp [refuse, setWorker, onBoard]

/-! ## What a failed build leaves -/

/-- What a caller leaves of a machine when the graph that it was to build is refused, but for the
defaults of some anchors. -/
structure Spared (machine : Machine) (caller : Nat) (cards : List Card) (failure : Failure)
    (defaulted : List Anchor) (after : Machine) : Prop where
  /-- But for the board it is the machine on which the caller is refused at once: with the same
  graph, the same records and the same courier. -/
  frame : after = (machine.refuse caller failure).onBoard fun _ => after.engine.board
  /-- Every anchor has the listeners that it had. -/
  listeners : ∀ slot, (after.engine.board.bells.getD slot .silent).listeners =
    (machine.engine.board.bells.getD slot .silent).listeners
  values : after.engine.board.values = (machine.engine.board.resetAll defaulted).values
  cardRecords : after.engine.board.records = machine.engine.board.records
  counters : after.engine.board.counters = machine.engine.board.counters
  log : after.engine.board.log = machine.engine.board.log
  /-- The graph has its inputs, its globals and the events that were not yet delivered. -/
  channel : ∀ graph, machine.engine.graph = some graph →
    after.engine.board.channel graph.channel = machine.engine.board.channel graph.channel
  /-- What the recorded outputs depended on is as it was. -/
  seen : ∀ graph, machine.engine.graph = some graph → graph.Apart cards →
    graph.SeenAlike machine.engine.board after.engine.board
  /-- Whatever happens from now on, what can be seen of the machine is what could be seen if the
  caller had been refused at once and the anchors had been brought to their defaults. -/
  sequel : ∀ occurrences, (after.meetAll occurrences).map view =
    (((machine.refuse caller failure).onBoard (·.resetAll defaulted)).meetAll occurrences).map view

theorem Matches.refuse {renumber : Renumbering} {extent : Extent} {first second : Machine}
    (machines : first.Matches renumber extent second) (caller : Nat) (failure : Failure) :
    (first.refuse caller failure).Matches renumber extent (second.refuse caller failure) := by
  rw [Machine.refuse, Machine.refuse, machines.runGate]
  exact (machines.withRunGate _).setWorker caller _ trivial

theorem Matches.spared (machines : machine.Matches .same machine.engine.board.extent machine)
    {defaulted : List Anchor} (aged : (machine.engine.board.resetAll defaulted).Aged board)
    (own : ∀ anchor ∈ defaulted, ∃ card ∈ cards, anchor ∈ card.anchors) :
    machine.Spared caller cards failure defaulted
      ((machine.refuse caller failure).onBoard fun _ => board) := by
  obtain ⟨values, same⟩ : ∃ values, machine.engine.board.resetAll defaulted =
      { machine.engine.board with values := values } := ⟨_, Board.resetAll_eq ..⟩
  have numbered : (machine.engine.board.resetAll defaulted).Numbered := by
    rw [same]
    exact machines.engine.board.within
  have extents :
      (machine.engine.board.resetAll defaulted).extent = machine.engine.board.extent := by
    rw [same]
    rfl
  refine
    { frame := rfl
      listeners := fun slot => ?_
      values := aged.values
      cardRecords := ?_
      counters := ?_
      log := ?_
      channel := fun graph held => ?_
      seen := fun graph held apart => ?_
      sequel := fun occurrences => ?_ }
  · exact (aged.listeners slot).trans (by rw [same])
  · exact aged.records.trans (by rw [same])
  · exact aged.counters.trans (by rw [same])
  · exact aged.log.trans (by rw [same])
  · have known := (machines.engine.within graph held).channel
    refine (aged.channels graph.channel ?_).trans (by rw [same]; rfl)
    rw [same]
    exact Nat.ne_of_lt known
  · refine Graph.seenAlike (aged.records.trans (by rw [same])) fun content inside mine shown => ?_
    have read : board.read mine = (machine.engine.board.resetAll defaulted).read mine := by
      rw [Board.read, Board.read, aged.values]
    refine read.trans (Board.read_resetAll fun other member => ?_)
    obtain ⟨card, known, held⟩ := own other member
    exact apart content inside mine shown card known other held
  · have keeps :=
      Renumbering.keeps_past (machine.engine.board.resetAll defaulted).extent board.extent
    have boards := aged.matches_past numbered
    rw [extents] at keeps boards
    exact ((machines.refuse caller failure).onBoards keeps boards).view_meetAll occurrences

/-- A graph that cannot be built leaves nothing behind but, where an entry reaches a cycle, the
entry places of its circuit at their defaults. -/
theorem refused_build_spares {config : EngineConfig} {board : Board} {occurrences : List Occurrence}
    (numbered : board.Numbered)
    (reached : (idle config board).meetAll occurrences = some machine)
    (building : machine.workers.get? caller =
      some (.caller (.building layout cards globals restart)))
    (stepped : machine.step caller = some after)
    (failed : after.workers.get? caller = some (.caller (.leaving (.error failure) false))) :
    let mode := machine.engine.config.mode
    let defaulted := Graph.initialized mode layout cards globals machine.engine.board
    (∀ anchor ∈ defaulted, ∃ card ∈ cards, anchor ∈ card.anchors) ∧
      (defaulted = [] ∨
        mode = .function ∧ ∃ entry node, failure = .region (.cyclic [entry] node)) ∧
      machine.Spared caller cards failure defaulted after := by
  have machines := matches_self numbered reached
  obtain ⟨left, refused, rfl⟩ := refused_of_step building stepped failed
  have aged := Graph.aged_of_build_error machines.engine.board.within refused
  exact ⟨fun anchor => Graph.mem_initialized, Graph.initialized_eq_nil_or_cycle refused,
    machines.spared aged fun anchor => Graph.mem_initialized⟩

end Machine

/-! ## A graph that runs in a circle -/

namespace Roundabout

def design (id : String) (inputs : List AnchorDesign) (result : Value) : CardDesign where
  id := id
  title := id
  anchors := inputs ++ [⟨"out", .output, none, none, false⟩]
  delay := 0
  work := .function fun _ => .ok ((∅ : Values).insert "out" result)
  runtime := none

/-- Two cards without inputs, and one with two inputs, of which the first holds a seven and declares
a five. -/
def seated : List Card × Board :=
  Board.empty.seatAll [design "lamp" [] (.ofNat 1), design "source" [] (.ofNat 9),
    design "loop" [⟨"in", .input, some (.ofNat 5), some (.ofNat 7), false⟩,
      ⟨"again", .input, none, none, false⟩] (.ofNat 2)]

def settings : EngineConfig := EngineConfig.standard.withMode .function

/-- The card with two inputs. -/
def loop : List Card := seated.1.drop 2

/-- The second input is fed by the card itself. -/
def circle : GraphConfig := ⟨"circle", [⟨⟨"loop", "out"⟩, ⟨"loop", "again"⟩⟩]⟩

/-- The first input is fed by the second card. -/
def line : GraphConfig := ⟨"line", [⟨⟨"source", "out"⟩, ⟨"loop", "in"⟩⟩]⟩

/-- Caller one has a graph built of the first card; worker two is its courier. -/
def building : List Occurrence :=
  .call (.build ⟨"lamp", []⟩ (seated.1.take 1) none) :: List.replicate 6 (.step 1)

/-- Caller three asks for the circle. -/
def asking : List Occurrence := [.call (.build circle loop none), .step 3]

/-- Caller three leaves. Caller four has the line built; worker five is its courier. Caller six asks
what the first input holds. -/
def looking : List Occurrence :=
  .step 3 :: .call (.build line (seated.1.drop 1) none) :: List.replicate 6 (.step 4) ++
    .call (.executeNode "place_loop_in" ∅) :: List.replicate 3 (.step 6) ++
      List.replicate 3 (.step 0) ++ [.step 6]

/-- The value that caller six was answered. -/
def told (machine : Machine) : String :=
  match machine.answer? 6 with
  | some (.ok (.value value)) => value.compact
  | _ => "nothing"

end Roundabout

namespace Machine

open Roundabout (settings seated loop circle)

/-- Caller three is refused after caller one was served. -/
private theorem step_asking {first : Machine} {failure : Failure} {board : Board}
    (built : Roundabout.building.foldlM (meetWithin 60) (idle settings seated.2) = some first)
    (third : first.nextWorker = 3) (free : first.runGate = .free)
    (mode : first.engine.config.mode = .function)
    (found : Graph.refuseWithin 60 circle loop none first.engine.board = some (failure, board)) :
    (idle settings seated.2).meetAll (Roundabout.building ++ Roundabout.asking) =
        some (first.asked circle loop) ∧
      (first.asked circle loop).workers.get? 3 =
        some (.caller (.building circle loop none false)) ∧
      (first.asked circle loop).step 3 =
        some (((first.asked circle loop).refuse 3 failure).onBoard fun _ => board) := by
  have other : first.nextWorker ≠ server := by
    rw [third]
    decide
  have asks := meetAll_asked circle loop other
  have building := building_asked first circle loop
  have stepped := step_asked other free mode found
  rw [third] at asks building stepped
  refine ⟨?_, building, stepped⟩
  rw [meetAll, List.foldlM_append]
  exact Option.bind_eq_some_iff.mpr ⟨first, meetAll_of_within built, asks⟩

/-- Beside the graph of a lamp, a circle cannot be built. -/
theorem refused_build_spares_circle :
    ∃ (machine after : Machine) (failure : Failure), seated.2.Numbered ∧
      (idle settings seated.2).meetAll (Roundabout.building ++ Roundabout.asking) = some machine ∧
      machine.workers.get? 3 = some (.caller (.building circle loop none false)) ∧
      machine.step 3 = some after ∧
      after.workers.get? 3 = some (.caller (.leaving (.error failure) false)) ∧
      machine.Spared 3 loop failure
        (Graph.initialized machine.engine.config.mode circle loop none machine.engine.board)
        after := by
  have numbered : seated.2.Numbered := by
    have silent : seated.2.bells = ∅ := rfl
    intro slot held member
    rw [silent] at member
    cases member
  have ran : ((Roundabout.building.foldlM (meetWithin 60) (idle settings seated.2)).any fun first =>
      first.nextWorker == 3 && first.runGate == .free && first.engine.config.mode == .function &&
        (Graph.refuseWithin 60 circle loop none first.engine.board).isSome) = true := by
    decide +kernel
  obtain ⟨first, built, rest⟩ := (Option.any_eq_true _ _).mp ran
  simp only [Bool.and_eq_true, beq_iff_eq, Option.isSome_iff_exists] at rest
  obtain ⟨⟨⟨third, free⟩, mode⟩, ⟨failure, board⟩, found⟩ := rest
  obtain ⟨reached, building, stepped⟩ := step_asking built third free mode found
  exact ⟨_, _, failure, numbered, reached, building, stepped, failed_refuse _,
    (refused_build_spares numbered reached building stepped (failed_refuse _)).2.2⟩

/-- A circle is refused that has nothing in common with the present graph. A call that is made later
is answered with the default of an anchor of the circle, and not with what the anchor held. -/
theorem refused_circle_noticed :
    ∃ (machine after one two : Machine) (graph : Graph) (failure : Failure),
      (idle settings seated.2).meetAll (Roundabout.building ++ Roundabout.asking) = some machine ∧
      machine.engine.graph = some graph ∧ graph.Apart loop ∧
      machine.workers.get? 3 = some (.caller (.building circle loop none false)) ∧
      machine.step 3 = some after ∧
      after.workers.get? 3 = some (.caller (.leaving (.error failure) false)) ∧
      (machine.refuse 3 failure).meetAll Roundabout.looking = some one ∧ Roundabout.told one = "7" ∧
      after.meetAll Roundabout.looking = some two ∧ Roundabout.told two = "5" := by
  have ran : ((Roundabout.building.foldlM (meetWithin 60) (idle settings seated.2)).any fun first =>
      first.nextWorker == 3 && first.runGate == .free && first.engine.config.mode == .function &&
        first.engine.graph.any (fun graph => decide (graph.Apart loop)) &&
        (Graph.refuseWithin 60 circle loop none first.engine.board).any fun refused =>
          let spared := (first.asked circle loop).refuse 3 refused.1
          (Roundabout.looking.foldlM (meetWithin 60) spared).any
              (fun one => Roundabout.told one == "7") &&
            (Roundabout.looking.foldlM (meetWithin 60) (spared.onBoard fun _ => refused.2)).any
              fun two => Roundabout.told two == "5") = true := by
    decide +kernel
  obtain ⟨first, built, rest⟩ := (Option.any_eq_true _ _).mp ran
  simp only [Bool.and_eq_true, beq_iff_eq, Option.any_eq_true, decide_eq_true_eq] at rest
  obtain ⟨⟨⟨⟨third, free⟩, mode⟩, graph, held, apart⟩, ⟨failure, board⟩, found,
    ⟨one, untried, seven⟩, two, tried, five⟩ := rest
  obtain ⟨reached, building, stepped⟩ := step_asking built third free mode found
  exact ⟨first.asked circle loop, _, one, two, graph, failure, reached, held, apart, building,
    stepped, failed_refuse _, meetAll_of_within untried, seven, meetAll_of_within tried, five⟩

end Machine

end CardNet
