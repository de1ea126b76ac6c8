import CardNet.Proofs.Engine.MemoizedAnswers
import CardNet.Proofs.Engine.Settling
import CardNet.Proofs.Graph.Reckoning

/-!
# The common plan and the plans of the entries

In function mode a graph has one plan for all entry places together and one for each of them. Both
ways of running the graph come to the same (`Bench.plan_agrees_with_closures`) as long as no two
transitions write one anchor and whatever looks at an anchor lies behind the transition that writes
it. A graph is like that when each of its connections leads to an input of its own
(`Graph.Faithful.orderly`). With two connections into one input the last one to carry its value over
counts, and that may be another one in the common plan (`Bench.plan_differs_from_closures`).
-/

namespace CardNet

/-! ## Graphs with orderly circuits -/

/-- Connections between anchors that there are, each from an anchor that is no input to an input
that no other one leads to. -/
structure OwnTargets (cards : List Card) (connections : List Connection) : Prop where
  ends : ∀ connection ∈ connections, ∃ parties, connection.parties cards = .ok parties ∧
    parties.source.kind ≠ .input ∧ parties.target.kind = .input
  single : ∀ first ∈ connections, ∀ second ∈ connections, first.target = second.target →
    first = second

theorem OwnTargets.lands {cards : List Card} {connections : List Connection}
    (own : OwnTargets cards connections) :
    ∀ connection ∈ connections, connection.Lands cards := fun connection member => by
  obtain ⟨parties, found, -, kind⟩ := own.ends connection member
  exact ⟨parties, found, by rw [kind]; decide⟩

namespace Graph.Faithful

variable {graph : Graph} {id : String} {action : Action}

/-- A transition of a faithful graph calls a card, splits, or carries over what a connection
connects. -/
theorem transition_cases (faithful : graph.Faithful)
    (found : graph.net.transitions.get? id = some action) :
    (∃ card ∈ graph.cards, id = card.internalTransition ∧ action = card.action graph.channel) ∨
    action = .split ∨
    ∃ connection ∈ graph.connections.values, ∃ parties,
      connection.parties graph.cards = .ok parties ∧ id = connection.transfer ∧
        action = .transfer parties.source parties.target := by
  have stands := (faithful.stands _ _).mp (Circuit.fixture?_transition_eq_some.mpr found)
  cases stands with
  | call known => exact .inl ⟨_, known, rfl, rfl⟩
  | handOver => exact .inr (.inl rfl)
  | transfer member parties => exact .inr (.inr ⟨_, member, _, parties, rfl, rfl⟩)

section

variable (faithful : graph.Faithful) (own : OwnTargets graph.cards graph.connections.values)
  (slots : DistinctSlots graph.cards)
include faithful own

/-- An arc of a faithful graph leads to a node. -/
private theorem step {source target : String}
    (leads : Leads graph.cards graph.connections.values source target) :
    graph.net.Joins source target ∧ target ∈ graph.net.nodes := by
  have joined := faithful.joins_iff.mpr leads
  exact ⟨joined, (faithful.straight own.lands source target joined).2⟩

/-- What a transition writes is an output of the card that it calls, or the input that its
connection leads to, and it leads to the place of the anchor. -/
theorem writes_cases (found : graph.net.transitions.get? id = some action) {slot : Nat}
    (writes : action.Writes slot) : ∃ card ∈ graph.cards, ∃ anchor ∈ card.anchors,
      anchor.slot = slot ∧ anchor.kind ≠ .event ∧
      graph.net.Reaches id (Endpoint.place ⟨card.id, anchor.id⟩) ∧
      (anchor.kind = .output ∧ id = card.internalTransition ∨ anchor.kind = .input ∧
        ∃ connection ∈ graph.connections.values, id = connection.transfer ∧
          connection.target = ⟨card.id, anchor.id⟩) := by
  obtain ⟨anchor, written, rfl⟩ := writes
  rcases faithful.transition_cases found with
    ⟨card, known, rfl, rfl⟩ | rfl | ⟨connection, member, parties, resolved, rfl, rfl⟩
  · rw [Card.writes_action] at written
    obtain ⟨inside, kind⟩ := Card.mem_anchorsOf.mp written
    exact ⟨card, known, anchor, inside, rfl, by rw [kind]; decide,
      .single (faithful.step own (.output known written)), .inl ⟨kind, rfl⟩⟩
  · cases written
  · obtain rfl := List.mem_singleton.mp written
    have ends := Connection.resolved_of_parties resolved
    obtain ⟨others, same, -, kind⟩ := own.ends connection member
    obtain rfl := Except.ok.inj (resolved.symm.trans same)
    refine ⟨_, ends.targetCard, _, ends.target, rfl, by rw [kind]; decide, ?_,
      .inr ⟨kind, connection, member, rfl, ends.targetEnd⟩⟩
    rw [← ends.targetEnd]
    exact .single (faithful.step own (.bring member resolved))

/-- What a transition reads is an event, or an anchor whose place leads to it. -/
theorem reads_cases (found : graph.net.transitions.get? id = some action) {anchor : Anchor}
    (read : anchor ∈ action.reads) : ∃ card ∈ graph.cards, anchor ∈ card.anchors ∧
      (anchor.kind = .event ∨
        graph.net.Reaches (Endpoint.place ⟨card.id, anchor.id⟩) id) := by
  rcases faithful.transition_cases found with
    ⟨card, known, rfl, rfl⟩ | rfl | ⟨connection, member, parties, resolved, rfl, rfl⟩
  · rw [Card.reads_action] at read
    exact ⟨card, known, (Card.mem_anchorsOf.mp read).1,
      .inr (.single (faithful.step own (.input known read)))⟩
  · cases read
  · obtain rfl := List.mem_singleton.mp read
    have ends := Connection.resolved_of_parties resolved
    refine ⟨_, ends.sourceCard, ends.source, or_iff_not_imp_left.mpr fun kind => ?_⟩
    have hand := faithful.step own (.hand member resolved)
    rw [Connection.sourcePlace, if_neg kind, ends.sourceEnd] at hand
    exact .tail (.tail (.single hand) (faithful.step own (.spread member resolved)))
      (faithful.step own (.take member resolved))

/-- What a node looks at is an event, or an anchor whose place is the node or leads to it. -/
theorem looksAt_cases {anchor : Anchor} (looks : anchor ∈ graph.net.looksAt id) :
    ∃ card ∈ graph.cards, anchor ∈ card.anchors ∧ (anchor.kind = .event ∨
      Endpoint.place ⟨card.id, anchor.id⟩ = id ∨
        graph.net.Reaches (Endpoint.place ⟨card.id, anchor.id⟩) id) := by
  cases here : graph.net.transitions.get? id with
  | some action =>
      rw [Circuit.looksAt_eq here] at looks
      obtain ⟨card, known, inside, shows⟩ := faithful.reads_cases own here looks
      exact ⟨card, known, inside, shows.imp_right .inr⟩
  | none =>
      rw [Circuit.looksAt, here] at looks
      obtain ⟨content, held, shows⟩ := Option.bind_eq_some_iff.mp (Option.mem_toList.mp looks)
      obtain ⟨place, present, holds⟩ := Option.bind_eq_some_iff.mp held
      have fixture : graph.net.fixture? (.place id) =
          some (.place place.kind (some content)) := by
        rw [Circuit.fixture?, present, ← holds]
        rfl
      have stands := (faithful.stands _ _).mp fixture
      generalize place.kind = sort at stands
      cases stands with
      | anchor known inside _ =>
          obtain rfl := Option.some.inj shows
          exact ⟨_, known, inside, .inr (.inl rfl)⟩
      | event known inside event =>
          obtain rfl := Option.some.inj shows
          exact ⟨_, known, inside, .inl event⟩
      | start => cases shows
      | relay => cases shows

include slots

/-- No transition reads what it writes. -/
theorem not_writes_of_reads (found : graph.net.transitions.get? id = some action)
    {anchor : Anchor} (read : anchor ∈ action.reads) : ¬action.Writes anchor.slot := by
  rintro ⟨written, inside, same⟩
  rcases faithful.transition_cases found with
    ⟨card, known, rfl, rfl⟩ | rfl | ⟨connection, member, parties, resolved, rfl, rfl⟩
  · rw [Card.reads_action] at read
    rw [Card.writes_action] at inside
    obtain ⟨one, input⟩ := Card.mem_anchorsOf.mp read
    obtain ⟨two, output⟩ := Card.mem_anchorsOf.mp inside
    obtain ⟨-, rfl⟩ := slots card known written two card known anchor one same
    cases input.symm.trans output
  · cases read
  · obtain rfl := List.mem_singleton.mp read
    obtain rfl := List.mem_singleton.mp inside
    have ends := Connection.resolved_of_parties resolved
    obtain ⟨others, again, source, target⟩ := own.ends connection member
    obtain rfl := Except.ok.inj (resolved.symm.trans again)
    obtain ⟨-, equal⟩ := slots _ ends.targetCard _ ends.target _ ends.sourceCard _ ends.source same
    exact source (equal ▸ target)

/-- A faithful graph is orderly when its anchors have values of their own and each connection leads
to an input of its own. -/
theorem orderly : graph.net.Orderly where
  sole := by
    intro first second one two found here slot writes again
    obtain ⟨card, known, anchor, inside, same, -, -, origin⟩ :=
      faithful.writes_cases own found writes
    obtain ⟨other, known', written, inside', same', -, -, origin'⟩ :=
      faithful.writes_cases own here again
    obtain ⟨rfl, rfl⟩ := slots card known anchor inside other known' written inside'
      (same.trans same'.symm)
    rcases origin with ⟨kind, rfl⟩ | ⟨kind, connection, member, rfl, target⟩
    · rcases origin' with ⟨-, rfl⟩ | ⟨kind', -⟩
      · rfl
      · cases kind.symm.trans kind'
    · rcases origin' with ⟨kind', -⟩ | ⟨-, connection', member', rfl, target'⟩
      · cases kind.symm.trans kind'
      · rw [own.single connection member connection' member' (target.trans target'.symm)]
  behind := by
    rintro first second ⟨one, found, anchor, looks, writes⟩
    obtain ⟨card, known, written, inside, same, kind, leads, -⟩ :=
      faithful.writes_cases own found writes
    obtain ⟨other, known', inside', shows⟩ := faithful.looksAt_cases own looks
    obtain ⟨rfl, rfl⟩ := slots card known written inside other known' anchor inside' same
    constructor
    · rintro rfl
      rw [Circuit.looksAt_eq found] at looks
      exact faithful.not_writes_of_reads own slots found looks writes
    · rcases shows with event | rfl | onward
      · exact absurd event kind
      · exact leads
      · exact leads.trans onward

end

end Graph.Faithful

/-! ## Running a graph in two ways -/

namespace Bench

variable {bench : Bench} {plan : Plan}

/-- The plan of a graph notes something for the same nodes as the plans of its entry places. -/
theorem mem_order_iff_closures (reached : bench.Reached) (function : bench.graph.mode = .function)
    (planned : bench.graph.plan = some plan) {node : String} :
    node ∈ plan.order ↔ ∃ closure ∈ bench.graph.closures, node ∈ closure.order := by
  have tidy := reached.seated.tidy
  have current := reached.current
  obtain ⟨-, made, -⟩ := current function plan planned
  rw [Plan.mem_order_iff tidy made]
  constructor
  · rintro ⟨legible, entry, member, leads⟩
    obtain ⟨closure, own⟩ := current.exists_closure function planned member
    exact ⟨closure, (current.mem_closures function planned).mpr ⟨entry, member, own⟩,
      (Plan.mem_order_iff tidy own).mpr ⟨legible, entry, List.mem_singleton_self entry, leads⟩⟩
  · rintro ⟨closure, member, inside⟩
    obtain ⟨entry, start, own⟩ := (current.mem_closures function planned).mp member
    obtain ⟨legible, other, single, leads⟩ := (Plan.mem_order_iff tidy own).mp inside
    exact ⟨legible, entry, start, List.mem_singleton.mp single ▸ leads⟩

/-- The common plan of a graph does what the plans of its entry places do one after the other. A
graph in function mode was built from function cards that set all their outputs, and has been edited
and run since; no two of its transitions write one anchor, and whatever looks at an anchor lies
behind the transition that writes it. When its plan is run to its end, and so are the plans of its
entry places, in order and on the same board as the plan, each time with the same inputs, then both
leave the same values, and the same results as long as no input goes by the name of a node. -/
theorem plan_agrees_with_closures (reached : bench.Reached)
    (function : bench.graph.mode = .function)
    (functions : ∀ card ∈ bench.graph.cards, ∃ run, card.work = .function run)
    (complete : ∀ card ∈ bench.graph.cards, card.Complete) (orderly : bench.graph.net.Orderly)
    (planned : bench.graph.plan = some plan) {limit other : Option Nat}
    {inputs results merged : Values} {after last : Board}
    (ran : plan.run limit inputs bench.board = (.finished results, after))
    (each : Plan.runEach other inputs bench.graph.closures ∅ bench.board =
      (.finished merged, last)) :
    (∀ anchor, after.read anchor = last.read anchor) ∧
      ((∀ node ∈ plan.order, inputs.get? node = none) → results = merged) := by
  have tidy := reached.seated.tidy
  have functional := reached.staffed.functional functions
  have current := reached.current
  obtain ⟨entries, made, -⟩ := current function plan planned
  have covers : ∀ node, (∃ closure ∈ bench.graph.closures, node ∈ closure.order) ↔
      node ∈ plan.order := fun node => (mem_order_iff_closures reached function planned).symm
  have swept := Plan.swept_of_run tidy orderly functional made ran
  obtain ⟨sweptEach, shows, passes⟩ := Plan.runEach_spec tidy orderly functional
    (fun closure member =>
      let ⟨entry, _, own⟩ := (current.mem_closures function planned).mp member
      ⟨[entry], own⟩) each
  have reads : after.read = last.read := swept.read_eq tidy orderly
    (fun id action found card calls => complete card (reached.staffed.mem_cards found calls)) made
    (sweptEach.congr covers)
  refine ⟨congrFun reads, fun free => Std.ExtTreeMap.ext_getElem? fun node => ?_⟩
  rw [← Std.ExtTreeMap.get?_eq_getElem?, ← Std.ExtTreeMap.get?_eq_getElem?,
    Plan.get?_of_run tidy orderly functional made ran]
  split
  · next member =>
      rw [shows node ((covers node).mpr member) (free node member)]
      exact Circuit.shown?_congr functional (fun anchor _ => congrFun reads anchor)
        (swept.channel.trans sweptEach.channel.symm)
  · next outside =>
      have some' : bench.graph.closures ≠ [] := by
        obtain ⟨entry, member⟩ := List.exists_mem_of_ne_nil _ entries
        obtain ⟨closure, own⟩ := current.exists_closure function planned member
        exact List.ne_nil_of_mem
          ((current.mem_closures function planned).mpr ⟨entry, member, own⟩)
      rw [passes node (fun covered => outside ((covers node).mp covered)) some']
      cases inputs.get? node <;> rfl

/-- What the plan of a graph and the plans of its entry places answer with for a node, as texts, when
all of them are run to their ends. -/
def compared (bench : Bench) (inputs : Values) (node : String) :
    Option (Option String × Option String) :=
  match bench.graph.plan with
  | none => none
  | some plan =>
      match plan.run none inputs bench.board,
          Plan.runEach none inputs bench.graph.closures ∅ bench.board with
      | (.finished results, _), (.finished merged, _) =>
          some ((results.get? node).map Value.compact, (merged.get? node).map Value.compact)
      | _, _ => none

theorem compared_eq_some {inputs : Values} {node : String} {answers : Option String × Option String}
    (same : bench.compared inputs node = some answers) :
    ∃ plan results after merged last, bench.graph.plan = some plan ∧
      plan.run none inputs bench.board = (.finished results, after) ∧
      Plan.runEach none inputs bench.graph.closures ∅ bench.board = (.finished merged, last) ∧
      (results.get? node).map Value.compact = answers.1 ∧
      (merged.get? node).map Value.compact = answers.2 := by
  unfold compared at same
  split at same
  · cases same
  · next plan planned =>
      split at same
      · next results after merged last ran each =>
          cases same
          exact ⟨plan, results, after, merged, last, planned, ran, each, rfl, rfl⟩
      · cases same

end Bench

namespace Joined

/-- Two sources and a card behind both. -/
def seated : List Card × Board :=
  Board.empty.seatAll [.single "a" [] fun _ => .ofNat 1, .single "b" [] fun _ => .ofNat 2,
    .single "both" ["one", "two"] fun arguments => .list (arguments.toList.map Prod.snd)]

/-- Each source leads to an input of its own. -/
def config : GraphConfig where
  name := "joined"
  connections := [⟨⟨"a", "out"⟩, ⟨"both", "one"⟩⟩, ⟨⟨"b", "out"⟩, ⟨"both", "two"⟩⟩]

theorem shown : ∀ card ∈ seated.1, (∃ run, card.work = .function run) ∧ card.Complete := by
  intro card member
  simp only [seated, Board.seatAll, Board.seat, CardDesign.single, List.mem_cons,
    List.not_mem_nil, or_false] at member
  rcases member with rfl | rfl | rfl <;> exact ⟨⟨_, rfl⟩, .of_single rfl (by decide)⟩

theorem ownTargets : OwnTargets seated.1 config.connections where
  ends := by
    have checked : ∀ connection ∈ config.connections, (connection.parties seated.1).toOption.any
        (fun parties => parties.source.kind != .input && parties.target.kind == .input) = true := by
      decide +kernel
    intro connection member
    obtain ⟨parties, found, kinds⟩ := Connection.of_any (checked connection member)
    exact ⟨parties, found, by simpa using kinds⟩
  single := by decide +kernel

theorem slots : DistinctSlots seated.1 := .of_nodup (by decide +kernel)

theorem usable : Usable seated.1 config.connections where
  lands := ownTargets.lands
  clear := .of_lists (.of_lands ownTargets.lands) (by decide +kernel) (by decide +kernel)
    (by decide +kernel) (by decide +kernel) (by decide +kernel) (by decide +kernel)
  apart := by
    have none : ∀ card ∈ seated.1, ∀ anchor ∈ card.anchors, anchor.kind ≠ .event := by
      decide +kernel
    exact fun _ _ _ _ _ card known anchor member event => (none card known anchor member event).elim

end Joined

namespace Bench

/-- The common plan of the card behind both sources, and the plans of the sources one after the
other. -/
theorem plan_agrees_with_closures_joined :
    ∃ (bench : Bench) (plan : Plan) (results merged : Values) (after last : Board),
      bench.Reached ∧ bench.graph.mode = .function ∧
      (∀ card ∈ bench.graph.cards, ∃ run, card.work = .function run) ∧
      (∀ card ∈ bench.graph.cards, card.Complete) ∧ bench.graph.net.Orderly ∧
      bench.graph.plan = some plan ∧ plan.run none ∅ bench.board = (.finished results, after) ∧
      Plan.runEach none ∅ bench.graph.closures ∅ bench.board = (.finished merged, last) ∧
      (results.get? "place_both_out").map Value.compact = some "[1,2]" ∧
      (∀ anchor, after.read anchor = last.read anchor) ∧ results = merged := by
  have ran : (Graph.buildWithin 60 Joined.config Joined.seated.1 Joined.seated.2).bind
      (·.compared ∅ "place_both_out") = some (some "[1,2]", some "[1,2]") := by decide +kernel
  obtain ⟨bench, found, compared⟩ := Option.bind_eq_some_iff.mp ran
  obtain ⟨plan, results, after, merged, last, planned, one, each, answer, -⟩ :=
    compared_eq_some compared
  have built := Graph.build_of_within found
  obtain ⟨whole, function⟩ := Graph.built_of_build built
  have members := (whole.mem_values Joined.usable fun _ member => member).1
  have functions : ∀ card ∈ bench.graph.cards, ∃ run, card.work = .function run :=
    whole.cards_eq ▸ fun card known => (Joined.shown card known).1
  have complete : ∀ card ∈ bench.graph.cards, card.Complete :=
    whole.cards_eq ▸ fun card known => (Joined.shown card known).2
  have own : OwnTargets bench.graph.cards bench.graph.connections.values := by
    rw [whole.cards_eq]
    exact ⟨fun connection member => Joined.ownTargets.ends connection ((members _).mp member),
      fun first left second right =>
        Joined.ownTargets.single first ((members _).mp left) second ((members _).mp right)⟩
  have orderly := (whole.faithful Joined.usable fun _ member => member).orderly own
    (whole.cards_eq ▸ Joined.slots)
  obtain ⟨values, same⟩ := plan_agrees_with_closures (.build built) function functions complete
    orderly planned one each
  exact ⟨bench, plan, results, merged, after, last, .build built, function, functions, complete,
    orderly, planned, one, each, answer, values, same fun _ _ => rfl⟩

/-- A graph in function mode that was built from function cards that set all their outputs and have
anchors of their own. Its plan, and the plans of its entry places one after the other, are run to
their ends on one board with the same inputs, and for a node they answer with one thing and
another. -/
structure Deviates (bench : Bench) (inputs : Values) (node one other : String) : Prop where
  reached : bench.Reached
  function : bench.graph.mode = .function
  slots : DistinctSlots bench.graph.cards
  functions : ∀ card ∈ bench.graph.cards, ∃ run, card.work = .function run
  complete : ∀ card ∈ bench.graph.cards, card.Complete
  answers : ∃ plan results after merged last, bench.graph.plan = some plan ∧
    plan.run none inputs bench.board = (.finished results, after) ∧
    Plan.runEach none inputs bench.graph.closures ∅ bench.board = (.finished merged, last) ∧
    (results.get? node).map Value.compact = some one ∧
    (merged.get? node).map Value.compact = some other

theorem exists_deviates {steps : Nat} {config : GraphConfig} {cards : List Card} {board : Board}
    {inputs : Values} {node one other : String} (slots : DistinctSlots cards)
    (shown : ∀ card ∈ cards, (∃ run, card.work = .function run) ∧ card.Complete)
    (ran : (Graph.buildWithin steps config cards board).bind (·.compared inputs node) =
      some (some one, some other)) : ∃ bench : Bench, bench.Deviates inputs node one other := by
  obtain ⟨bench, found, compared⟩ := Option.bind_eq_some_iff.mp ran
  have built := Graph.build_of_within found
  obtain ⟨whole, function⟩ := Graph.built_of_build built
  refine ⟨bench, .build built, function, ?_, ?_, ?_, compared_eq_some compared⟩
  · exact whole.cards_eq ▸ slots
  · exact whole.cards_eq ▸ fun card known => (shown card known).1
  · exact whole.cards_eq ▸ fun card known => (shown card known).2

end Bench

namespace Crossing

/-- Two sources and a card that hands its input on. -/
def seated : List Card × Board :=
  Board.empty.seatAll [.single "a" [] fun _ => .ofNat 1, .single "b" [] fun _ => .ofNat 2,
    .single "x" ["in"] fun arguments => arguments.getD "in" .null]

/-- Both sources lead to the one input. -/
def config : GraphConfig where
  name := "crossing"
  connections := [⟨⟨"a", "out"⟩, ⟨"x", "in"⟩⟩, ⟨⟨"b", "out"⟩, ⟨"x", "in"⟩⟩]

theorem shown : ∀ card ∈ seated.1, (∃ run, card.work = .function run) ∧ card.Complete := by
  intro card member
  simp only [seated, Board.seatAll, Board.seat, CardDesign.single, List.mem_cons,
    List.not_mem_nil, or_false] at member
  rcases member with rfl | rfl | rfl <;> exact ⟨⟨_, rfl⟩, .of_single rfl (by decide)⟩

end Crossing

namespace Bench

/-- Where two connections lead to one input, the common plan may leave the value of one of them there
and the plans of the entries that of the other. And where an input goes by the name of a node, the
plans of the entries answer with the input for it. -/
theorem plan_differs_from_closures :
    (∃ bench : Bench, bench.Deviates ∅ "place_x_in" "1" "2") ∧
      ∃ bench : Bench, bench.Deviates ((∅ : Values).insert "place_a_out" (.ofNat 7)) "place_a_out"
        "1" "7" := by
  have crossing : (Graph.buildWithin 60 Crossing.config Crossing.seated.1 Crossing.seated.2).bind
      (·.compared ∅ "place_x_in") = some (some "1", some "2") := by decide +kernel
  have named : (Graph.buildWithin 60 Joined.config Joined.seated.1 Joined.seated.2).bind
      (·.compared ((∅ : Values).insert "place_a_out" (.ofNat 7)) "place_a_out") =
        some (some "1", some "7") := by decide +kernel
  exact ⟨exists_deviates (.of_nodup (by decide +kernel)) Crossing.shown crossing,
    exists_deviates Joined.slots Joined.shown named⟩

end Bench

end CardNet
