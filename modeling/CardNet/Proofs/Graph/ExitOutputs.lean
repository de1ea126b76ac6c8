import CardNet.Proofs.Graph.Aims
import CardNet.Proofs.Graph.Rearranging

/-!
# Outputs of exit places

The key of an output joins the ids of a card and of an anchor, and two endpoints can be joined to
one text. But a place that shows an anchor is named by the same text, and no place can be bound to a
second anchor. So however a graph was built and edited, the outputs of its exit places have keys of
their own: none is lost, and there are no others (`Bench.Reached.outputs_spec`).
-/

namespace CardNet

/-- The key under which the value of a place appears among outputs. -/
def Circuit.outputKey? (net : Circuit) (id : String) : Option String :=
  (net.content? id).bind Content.outputKey?

/-- The exit places that show an anchor as an output. -/
def Circuit.outlets (net : Circuit) : List String :=
  net.exitPlaces.filter fun id => (net.outputKey? id).isSome

theorem Circuit.Aimed.keyed {net : Circuit} {cards : List Card} (aimed : net.Aimed cards) :
    net.Keyed := by
  intro id content key found keyed
  cases content with
  | anchor card anchor =>
      cases keyed
      rw [(aimed.place id card anchor found).1]
      exact Endpoint.place_outputKey _
  | event | trigger | relay => cases keyed

/-- Two places with one key are one place. -/
theorem Circuit.Keyed.eq_of_outputKey? {net : Circuit} (keyed : net.Keyed) {one two key : String}
    (left : net.outputKey? one = some key) (right : net.outputKey? two = some key) : one = two := by
  obtain ⟨first, found, named⟩ := Option.bind_eq_some_iff.mp left
  obtain ⟨second, found', named'⟩ := Option.bind_eq_some_iff.mp right
  exact (keyed one first key found named).trans (keyed two second key found' named').symm

/-- Among the outputs the place of an anchor stands with what the anchor holds. -/
theorem Graph.get?_outputs {graph : Graph} (keyed : graph.net.Keyed) {place card : String}
    {anchor : Anchor} (shows : graph.net.content? place = some (.anchor card anchor))
    (exit : place ∈ graph.net.exitPlaces) (board : Board) :
    (Bench.mk graph board).outputs.get? (Endpoint.outputKey ⟨card, anchor.id⟩) =
      some (board.read anchor) := by
  rw [Std.ExtTreeMap.get?_eq_getElem?, Bench.outputs_eq]
  refine Values.getElem?_ofPairs (Bench.nodup_outputPairs keyed) (List.mem_filterMap.mpr ?_)
  exact ⟨_, List.mem_filterMap.mpr ⟨place, exit, by rw [shows]; rfl⟩, rfl⟩

namespace Bench

variable {bench : Bench}

theorem mem_outputPairs {key : String} {value : Value} : (key, value) ∈ bench.outputPairs ↔
    ∃ id ∈ bench.graph.net.exitPlaces, ∃ card anchor,
      bench.graph.net.content? id = some (.anchor card anchor) ∧
        Endpoint.outputKey ⟨card, anchor.id⟩ = key ∧ bench.board.read anchor = value := by
  rw [outputPairs, List.mem_filterMap]
  constructor
  · intro member
    obtain ⟨entry, listed, shown⟩ := member
    obtain ⟨id, exit, held⟩ := List.mem_filterMap.mp listed
    obtain ⟨content, found, rfl⟩ := Option.map_eq_some_iff.mp held
    refine ⟨id, exit, ?_⟩
    cases content with
    | anchor card anchor =>
        obtain ⟨rfl, rfl⟩ := Prod.mk.inj (Option.some.inj shown)
        exact ⟨card, anchor, found, rfl, rfl⟩
    | event | trigger | relay => cases shown
  · intro shows
    obtain ⟨id, exit, card, anchor, found, keyed, holds⟩ := shows
    refine ⟨(id, .anchor card anchor), List.mem_filterMap.mpr ⟨id, exit, by rw [found]; rfl⟩, ?_⟩
    rw [← keyed, ← holds]
    rfl

/-- There are as many outputs as exit places that show an anchor. -/
theorem length_outputPairs (bench : Bench) :
    bench.outputPairs.length = bench.graph.net.outlets.length := by
  rw [outputPairs, Circuit.contentsOf, List.filterMap_filterMap, List.length_filterMap_eq_countP,
    Circuit.outlets, ← List.countP_eq_length_filter]
  congr 1
  funext id
  rw [Circuit.outputKey?]
  cases bench.graph.net.content? id with
  | none => rfl
  | some content => cases content <;> rfl

/-- However a graph was built and edited, and whatever the ids of its cards and anchors are: the
exit places that show an anchor have keys of their own, and the outputs are the values of these
anchors, each under the joined ids of the card and the anchor that the place is bound to, and
nothing else. -/
theorem Reached.outputs_spec (reached : bench.Reached) :
    (∀ one ∈ bench.graph.net.exitPlaces, ∀ two ∈ bench.graph.net.exitPlaces, ∀ key,
      bench.graph.net.outputKey? one = some key → bench.graph.net.outputKey? two = some key →
        one = two) ∧
    (∀ key value, bench.outputs[key]? = some value ↔ ∃ id ∈ bench.graph.net.exitPlaces,
      ∃ endpoint anchor, bench.graph.net.content? id = some (.anchor endpoint.card anchor) ∧
        bench.graph.net.boundTo? id = some endpoint ∧ endpoint.outputKey = key ∧
          bench.board.read anchor = value) ∧
    bench.outputs.size = bench.graph.net.outlets.length := by
  have keyed := reached.aimed.keyed
  refine ⟨?_, ?_, ?_⟩
  · intro one _ two _ key
    exact keyed.eq_of_outputKey?
  · intro key value
    rw [outputs_eq, Values.getElem?_ofPairs_eq_some_iff (nodup_outputPairs keyed), mem_outputPairs]
    refine exists_congr fun id => and_congr_right fun _ => ?_
    constructor
    · intro shows
      obtain ⟨card, anchor, found, same, holds⟩ := shows
      exact ⟨⟨card, anchor.id⟩, anchor, found, by rw [Circuit.boundTo?, found]; rfl, same, holds⟩
    · intro shows
      obtain ⟨endpoint, anchor, found, bound, same, holds⟩ := shows
      rw [Circuit.boundTo?, found] at bound
      have own : (⟨endpoint.card, anchor.id⟩ : Endpoint) = endpoint := Option.some.inj bound
      exact ⟨endpoint.card, anchor, found, own.symm ▸ same, holds⟩
  · rw [outputs_eq, Values.size_ofPairs (nodup_outputPairs keyed), length_outputPairs]

end Bench

/-! ## Endpoints joined to one text -/

namespace Homographs

def anchor (id : String) (kind : AnchorKind) (value : Int) : AnchorDesign :=
  ⟨id, kind, none, some (.ofInt value), false⟩

def design (id : String) (anchors : List AnchorDesign) : CardDesign where
  id := id
  title := "card"
  anchors := anchors
  delay := 0
  work := .function fun arguments => .ok arguments
  runtime := none

/-- The ids of the output and of the event join to one text. -/
def seated : List Card × Board :=
  Board.empty.seatAll [design "a_b" [anchor "c" .output 1],
    design "a" [anchor "b_c" .event 2, anchor "out" .output 3], design "t" [anchor "x" .input 4]]

def connection : Connection := ⟨⟨"a_b", "c"⟩, ⟨"t", "x"⟩⟩

def built : Except Failure Graph × Board :=
  Graph.build .visual ⟨"homographs", []⟩ seated.1 none seated.2

/-- The graph after a connection from the output was added, one to the event refused, and the first
one removed again. -/
def edited (bench : Bench) : Bench :=
  let joined := (bench.addConnection connection).2
  let refused := (joined.addConnection ⟨⟨"a_b", "c"⟩, ⟨"a", "b_c"⟩⟩).2
  (refused.removeConnection connection.id).2

end Homographs

namespace Bench

/-- The place of an output and that of an event with the same text are both exit places, and there
is one output for each exit place that is no event. -/
theorem outputs_spec_homographs : ∃ bench : Bench, bench.Reached ∧
    bench.graph.net.exitPlaces = ["place_a_b_c", "place_a_out", "event_place_a_b_c"] ∧
    bench.outputs.size = 2 ∧ (bench.outputs["a_b_c"]?).bind Value.toInt? = some 1 := by
  have seen : Homographs.built.1.toOption.map (fun graph =>
      let bench := Homographs.edited ⟨graph, Homographs.built.2⟩
      (bench.graph.net.exitPlaces, bench.graph.net.outlets,
        (bench.outputs["a_b_c"]?).bind Value.toInt?)) =
      some (["place_a_b_c", "place_a_out", "event_place_a_b_c"], ["place_a_b_c", "place_a_out"],
        some 1) := by
    decide +kernel
  rcases result : Homographs.built with ⟨failure | graph, board⟩
  · rw [result] at seen
    cases seen
  · rw [result] at seen
    obtain ⟨exits, outlets, value⟩ := by simpa using Option.some.inj seen
    have reached : Reached (Homographs.edited ⟨graph, board⟩) :=
      .remove _ (.add _ (.add _ (.build result)))
    refine ⟨_, reached, exits, ?_, value⟩
    rw [reached.outputs_spec.2.2, outlets]
    rfl

end Bench

end CardNet
