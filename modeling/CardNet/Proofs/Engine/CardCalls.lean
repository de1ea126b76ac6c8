import CardNet.Proofs.Engine.FeedForwardRuns

/-!
# Each card is called once

In a graph without cycles a run that succeeds does each transition exactly once, calls each card
exactly once, and only after all transfers into the card's inputs
(`Session.exec_calls_each_card_once`). A visual run leaves one token on each output that nothing
is connected to, and no other token but those on events.
-/

namespace CardNet

/-! ## Counting calls -/

/-- Whether an action calls the card whose record lies at a slot. -/
def Action.calls (action : Action) (slot : Nat) : Bool :=
  action.card?.any fun card => card.slot == slot

theorem Board.calls_countCall (board : Board) (called slot : Nat) :
    ((board.countCall called).record slot).calls =
      (board.record slot).calls + if called == slot then 1 else 0 := by
  rw [countCall, record_modifyRecord]
  by_cases same : called = slot
  · simp [same]
  · simp [same]

/-- An action that succeeds counts the call that it makes and no other. -/
theorem Action.calls_play {action : Action} (functional : action.Functional)
    {board after : Board} (played : action.play board = some after) (slot : Nat) :
    (after.record slot).calls =
      (board.record slot).calls + if action.calls slot then 1 else 0 := by
  rw [play_eq functional] at played
  obtain ⟨writes, -, rfl⟩ := Option.map_eq_some_iff.mp played
  unfold count calls
  cases action.card? with
  | none => rfl
  | some card => exact Board.calls_countCall (board.writeAll writes) card.slot slot

namespace Circuit

/-- Whether a transition calls the card whose record lies at a slot. -/
def calls (net : Circuit) (slot : Nat) (transition : String) : Bool :=
  (net.transitions.get? transition).any fun action => action.calls slot

/-- Transitions that are done one after the other count the calls that they make. -/
theorem calls_playAll {net : Circuit} (functional : net.Functional) {trace : List String}
    {board after : Board} (played : net.playAll trace board = some after) (slot : Nat) :
    (after.record slot).calls = (board.record slot).calls + trace.countP (net.calls slot) := by
  induction trace generalizing board with
  | nil =>
      cases played
      rfl
  | cons transition rest ih =>
      rw [playAll_cons, Option.bind_eq_some_iff] at played
      obtain ⟨middle, first, others⟩ := played
      obtain ⟨action, found, acts⟩ := Option.bind_eq_some_iff.mp first
      have called : net.calls slot transition = action.calls slot := by
        rw [calls, found, Option.any_some]
      rw [ih others, Action.calls_play (functional _ _ found) acts, List.countP_cons, called]
      omega

/-- The transition of a card is the only one that calls it. -/
theorem Draws.calls_iff {net : Circuit} {cards : List Card} {connections laid : List Connection}
    {channel : Nat} (draws : net.Draws cards connections channel laid)
    (records : ∀ first ∈ cards, ∀ second ∈ cards, first.slot = second.slot → first = second)
    {card : Card} (known : card ∈ cards) {id : String} :
    net.calls card.slot id = true ↔ id = card.internalTransition := by
  unfold calls
  constructor
  · intro called
    rw [Option.any_eq_true] at called
    obtain ⟨action, found, calls⟩ := called
    rcases draws.transition_cases found with
      ⟨other, member, rfl, rfl⟩ | ⟨_, _, _, _, -, rfl⟩ | ⟨_, _, _, _, -, rfl⟩
    · rw [Action.calls, Card.card?_action, Option.any_some, beq_iff_eq] at calls
      rw [records other member card known calls]
    · cases calls
    · cases calls
  · rintro rfl
    have found : net.transitions.get? card.internalTransition = some (card.action channel) :=
      (draws.transition _ _).mpr ⟨.internal card, .internal known, rfl, rfl⟩
    rw [found, Option.any_some, Action.calls, Card.card?_action, Option.any_some, beq_self_eq_true]

end Circuit

/-- In an arrangement an item stands behind the others that it comes after. -/
theorem Arranged.mem_front {ι : Type} {before : ι → ι → Prop} {front rest : List ι}
    {item other : ι} (arranged : Arranged before (front ++ item :: rest))
    (member : other ∈ front ++ item :: rest) (first : before other item) (differ : other ≠ item) :
    other ∈ front := by
  rcases List.mem_append.mp member with inside | last
  · exact inside
  · have behind := (List.mem_cons.mp last).resolve_left differ
    have ordered := (List.pairwise_append.mp arranged.ordered).2.1
    exact ((List.pairwise_cons.mp ordered).1 other behind first).elim

/-! ## The tokens that are left -/

/-- What is left of the tokens when a visual run is over: one on each output that nothing is
connected to, those on events, and no other. -/
structure RunDown (cards : List Card) (before after : Circuit) : Prop where
  exit : ∀ card ∈ cards, ∀ slot ∈ card.anchorsOf .output,
    card.anchorPlace slot ∈ before.exitPlaces → after.tokens? (card.anchorPlace slot) = some 1
  event : ∀ card ∈ cards, ∀ slot ∈ card.anchorsOf .event,
    after.tokens? (card.anchorPlace slot) = before.tokens? (card.anchorPlace slot)
  inner : ∀ place ∈ before.places.names,
    (∀ card ∈ cards, ∀ slot ∈ card.anchorsOf .output, card.anchorPlace slot ∈ before.exitPlaces →
      place ≠ card.anchorPlace slot) →
    (∀ card ∈ cards, ∀ slot ∈ card.anchorsOf .event, place ≠ card.anchorPlace slot) →
    after.tokens? place = some 0

theorem Net.tokens?_eq_some {κ α : Type} {net : Net κ α} {place : String}
    (known : place ∈ net.places.names) : net.tokens? place = some (net.tokens place) := by
  obtain ⟨held, found⟩ := Registry.exists_get?_of_mem_names known
  rw [tokens, tokens?, place?, found]
  rfl

namespace Circuit.Draws

variable {net : Circuit} {cards : List Card} {connections laid : List Connection} {channel : Nat}

theorem anchorPlace_mem (draws : net.Draws cards connections channel laid) {card : Card}
    {slot : Anchor} (known : card ∈ cards) (member : slot ∈ card.anchors) :
    card.anchorPlace slot ∈ net.places.names := by
  refine draws.mem_places.mpr
    ⟨.ofAnchor card slot, .ofAnchor known member, Part.name_ofAnchor card slot, ?_⟩
  unfold Part.ofAnchor
  split <;> rfl

theorem collectsEvents_anchorPlace (draws : net.Draws cards connections channel laid)
    {card : Card} {slot : Anchor} (known : card ∈ cards) (member : slot ∈ card.anchorsOf .event) :
    net.collectsEvents (card.anchorPlace slot) = true := by
  obtain ⟨inside, kind⟩ := Card.mem_anchorsOf.mp member
  rw [collectsEvents, draws.content?_anchorPlace known inside, if_pos kind]
  rfl

/-- A place that is no output and no event leads to a transition. -/
theorem exists_consumer (draws : net.Draws cards connections channel laid) {place : String}
    (known : place ∈ net.places.names)
    (output : ∀ card ∈ cards, ∀ slot ∈ card.anchorsOf .output, place ≠ card.anchorPlace slot)
    (event : ∀ card ∈ cards, ∀ slot ∈ card.anchorsOf .event, place ≠ card.anchorPlace slot) :
    ∃ transition, net.Joins place transition := by
  obtain ⟨part, present, rfl, isPlace⟩ := draws.mem_places.mp known
  cases present with
  | @anchor card slot member inside kind =>
      have name : (Part.anchor card slot).name = card.anchorPlace slot := (if_neg kind).symm
      cases which : slot.kind with
      | event => exact (kind which).elim
      | output => exact (output card member slot (Card.mem_anchorsOf.mpr ⟨inside, which⟩) name).elim
      | input =>
          exact ⟨_, (draws.arc _ _).mpr
            ⟨_, _, .input member (Card.mem_anchorsOf.mpr ⟨inside, which⟩), rfl, rfl⟩⟩
  | @event card slot member inside kind =>
      have name : (Part.event card slot).name = card.anchorPlace slot := (if_pos kind).symm
      exact (event card member slot (Card.mem_anchorsOf.mpr ⟨inside, kind⟩) name).elim
  | start member none => exact ⟨_, (draws.arc _ _).mpr ⟨_, _, .start member none, rfl, rfl⟩⟩
  | relay member wires => exact ⟨_, (draws.arc _ _).mpr ⟨_, _, .take member wires, rfl, rfl⟩⟩
  | internal => cases isPlace
  | split => cases isPlace
  | transfer => cases isPlace

end Circuit.Draws

/-- The passes of a run leave tokens on unconnected outputs and on events only. -/
theorem Bench.runDown_of_exhausts {bench : Bench} {inputs : Values} {cards : List Card}
    {connections : List Connection} {channel : Nat}
    (draws : bench.graph.net.Draws cards connections channel connections)
    (feed : FeedForward cards connections) {trace : List String}
    (exhausts : (bench.opened inputs).graph.net.Exhausts trace) :
    RunDown cards bench.graph.net ((bench.opened inputs).graph.net.firedAll trace) := by
  have same := bench.bare_opened inputs
  have seeded : (bench.opened inputs).graph.net.Seeded := seeded_opened draws feed.names
  obtain ⟨rank, marked⟩ := feed.exists_markedGraph (draws.of_bare same.symm)
  have joins := Net.joins_of_bare same
  have names := Net.placeNames_of_bare same
  -- The places are the same before, at the opening and in the end.
  have last : ∀ place ∈ bench.graph.net.places.names,
      ((bench.opened inputs).graph.net.firedAll trace).tokens? place =
        some (((bench.opened inputs).graph.net.firedAll trace).tokens place) := by
    intro place known
    refine Net.tokens?_eq_some ?_
    rwa [Net.placeNames_of_bare (Net.bare_firedAll _ trace), names]
  constructor
  · intro card known slot output exit
    have inside := (Card.mem_anchorsOf.mp output).1
    have place := draws.anchorPlace_mem known inside
    have final := (draws.plain.mem_exitPlaces.mp exit).2
    have fed : bench.graph.net.Joins card.internalTransition (card.anchorPlace slot) := by
      refine (draws.arc _ _).mpr ⟨_, _, .output known output, rfl, ?_⟩
      rw [Card.anchorPlace, if_neg (by rw [(Card.mem_anchorsOf.mp output).2]; decide)]
      rfl
    rw [last _ place, exhausts.tokens_exit marked seeded (names ▸ place) (joins ▸ fed)
      fun transition => joins ▸ final transition]
  · intro card known slot event
    have place := draws.anchorPlace_mem known (Card.mem_anchorsOf.mp event).1
    have events := draws.collectsEvents_anchorPlace known event
    have free := draws.not_joins_event feed.names events
    rw [last _ place, exhausts.tokens_apart marked (names ▸ place)
      (fun transition => joins ▸ (free transition).2) (fun transition => joins ▸ (free transition).1),
      tokens_opened bench inputs place, if_pos events, Net.tokens?_eq_some place]
  · intro place known output event
    have consumed : ∃ transition, bench.graph.net.Joins place transition := by
      by_contra free
      rw [not_exists] at free
      have exit := draws.plain.mem_exitPlaces.mpr ⟨known, free⟩
      obtain ⟨transition, joined⟩ := draws.exists_consumer known
        (fun card member slot inside same => output card member slot inside (same ▸ exit) same) event
      exact free transition joined
    obtain ⟨transition, joined⟩ := consumed
    rw [last _ known, exhausts.tokens_inner marked seeded (names ▸ known) (joins ▸ joined)]

/-! ## Whole runs -/

namespace Session

variable {cards : List Card} {config : GraphConfig} {mode : Mode} {globals : Option Values}
  {board start : Board} {graph : Graph} {net : Circuit} {session after : Session}
  {inputs outputs : Values} {force : Bool}

/-- Every card is called exactly once in a run. Take function cards that are joined without a
cycle and have records of their own, built in either mode, and a session with the graph, whatever
its tokens, its board and its records. When a run is not answered from the records and succeeds,
it begins each transition once, calls each card once, and calls it after all transfers into its
inputs; and a visual run leaves tokens on unconnected outputs and on events only. -/
theorem exec_calls_each_card_once (feed : FeedForward cards config.connections)
    (records : ∀ first ∈ cards, ∀ second ∈ cards, first.slot = second.slot → first = second)
    (built : Graph.build mode config cards globals board = (.ok graph, start))
    (held : session.engine.graph = some { graph with net := net })
    (same : net.bare = graph.net.bare)
    (runs : ∀ recorded, (session.engine.opening inputs force).1 ≠ .ok (.recorded recorded))
    (ran : session.exec inputs force = (.ok outputs, after)) :
    (session.enacted inputs force).Perm net.transitions.names ∧
      (∀ card ∈ cards,
        (session.enacted inputs force).count card.internalTransition = 1 ∧
        (after.engine.board.record card.slot).calls =
          (session.engine.board.record card.slot).calls + 1 ∧
        ∀ connection ∈ config.connections, ∀ parties,
          connection.parties cards = .ok parties → parties.targetCard = card →
          ∀ front rest, session.enacted inputs force = front ++ card.internalTransition :: rest →
            connection.transfer ∈ front) ∧
      (mode = .visual → ∃ final, after.engine.graph = some { graph with net := final } ∧
        RunDown cards net final) := by
  obtain ⟨_, _, builds⟩ := Graph.build_ok feed globals board
  obtain ⟨other, built', ready, isMode, -, -, -⟩ := builds mode
  obtain rfl : other = graph := by
    rw [built] at built'
    exact (Except.ok.inj (Prod.mk.inj built').1).symm
  have draws : net.Draws cards config.connections other.channel config.connections :=
    ready.draws.of_bare same.symm
  have compiled := ready.compiled.of_bare same
  have functional : net.Functional := fun id action => draws.functional feed.functions
  have fresh : session.engine.answers { other with net := net } inputs force = false := by
    by_contra answers
    rw [Bool.not_eq_false] at answers
    exact runs _ (by rw [Engine.opening_recorded held answers])
  obtain ⟨last, course, played, -, recorded, -⟩ := course_of_exec held compiled functional fresh ran
  have opened := session.engine.bare_opened { other with net := net } inputs
  obtain ⟨rank, marked⟩ := feed.exists_markedGraph (draws.of_bare opened.symm)
  have seeded : (session.engine.opened { other with net := net } inputs).graph.net.Seeded :=
    Bench.seeded_opened draws feed.names
  obtain ⟨perm, arranged⟩ := course.arranged marked seeded (draws.of_bare opened.symm).nodup_nodes
  rw [Net.transitions_of_bare opened] at perm
  have nodup := perm.nodup_iff.mpr net.transitions.nodup_names
  refine ⟨perm, fun card known => ?_, fun visual => ?_⟩
  · have internal : card.internalTransition ∈ net.transitions.names :=
      draws.mem_transitions.mpr ⟨.internal card, .internal known, rfl, rfl⟩
    have once := List.count_eq_one_of_mem nodup (perm.mem_iff.mpr internal)
    refine ⟨once, ?_, ?_⟩
    · have calls := Circuit.calls_playAll (fun id action => draws.functional feed.functions) played
        card.slot
      have counted : (session.enacted inputs force).countP (net.calls card.slot) =
          (session.enacted inputs force).count card.internalTransition := by
        refine List.countP_congr fun id _ => ?_
        rw [draws.calls_iff records known, beq_iff_eq]
      have opening : ((session.engine.opened { other with net := net } inputs).board.record
          card.slot).calls = (session.engine.board.record card.slot).calls :=
        Bench.calls_opened _ _ _
      rw [recorded.board, ← opening, ← once, ← counted]
      exact calls
    · rintro connection member parties found rfl front rest split
      have wires := feed.wires member found
      have kind := (feed.wired connection member parties found).2
      have input : parties.target ∈ parties.targetCard.anchorsOf .input :=
        Card.mem_anchorsOf.mpr ⟨wires.resolved.target, kind⟩
      have feeds : net.Feeds connection.transfer parties.targetCard.internalTransition :=
        ⟨_, (draws.arc _ _).mpr ⟨_, _, .bring member wires, rfl, rfl⟩,
          (draws.arc _ _).mpr ⟨_, _, .input known input, rfl, rfl⟩⟩
      have transfer : connection.transfer ∈ net.transitions.names :=
        draws.mem_transitions.mpr ⟨.transfer connection, .transfer member wires, rfl, rfl⟩
      have differ : connection.transfer ≠ parties.targetCard.internalTransition := by
        intro equal
        have impossible := Part.eq_of_name feed.names (.transfer member wires)
          (.internal known) equal
        cases impossible
      have feedsOpened :
          (session.engine.opened { other with net := net } inputs).graph.net.Feeds =
            net.Feeds := by
        funext first second
        rw [Net.Feeds, Net.Feeds, Net.joins_of_bare opened]
      rw [feedsOpened] at arranged
      have inside := perm.mem_iff.mpr transfer
      rw [split] at arranged inside
      exact arranged.mem_front inside (.single feeds) differ
  · have visual' : (session.engine.opened { other with net := net } inputs).graph.mode =
        .visual := isMode.trans visual
    unfold Graph.Course at course
    rw [visual'] at course
    refine ⟨_, recorded.graph, ?_⟩
    rw [Graph.spent_visual visual']
    exact Bench.runDown_of_exhausts
      draws feed course.1

/-- Each card of the triangle is called once when it is run for the first time. -/
theorem exec_calls_each_card_once_triangle :
    ∃ (graph : Graph) (start : Board) (session after : Session) (outputs : Values),
      FeedForward Triangle.seated.1 Triangle.config.connections ∧
      (∀ first ∈ Triangle.seated.1, ∀ second ∈ Triangle.seated.1,
        first.slot = second.slot → first = second) ∧
      Graph.build .visual Triangle.config Triangle.seated.1 none Triangle.seated.2 =
        (.ok graph, start) ∧
      session.engine.graph = some graph ∧
      (∀ recorded, (session.engine.opening ∅ false).1 ≠ .ok (.recorded recorded)) ∧
      session.exec ∅ false = (.ok outputs, after) ∧
      (session.enacted ∅ false).Perm graph.net.transitions.names ∧
      ∀ card ∈ Triangle.seated.1, (after.engine.board.record card.slot).calls =
        (session.engine.board.record card.slot).calls + 1 := by
  have records : ∀ first ∈ Triangle.seated.1, ∀ second ∈ Triangle.seated.1,
      first.slot = second.slot → first = second := fun _ left _ right same =>
    List.inj_on_of_nodup_map (f := Card.slot) (by decide +kernel) left right same
  obtain ⟨net, start, builds⟩ := Graph.build_ok Triangle.feedForward none Triangle.seated.2
  obtain ⟨graph, built, -⟩ := builds .visual
  obtain ⟨session, taken, held, -, -, fresh⟩ := exists_build .standard built
  have runs := Engine.opening_ne_recorded held (fresh ∅ false)
  have succeeds : (((idle .standard Triangle.seated.2).build Triangle.config Triangle.seated.1
      none).2.exec ∅ false).1.toOption.isSome = true := by decide +kernel
  rw [taken] at succeeds
  rcases ran : session.exec ∅ false with ⟨failure | outputs, after⟩
  · rw [ran] at succeeds
    cases succeeds
  · obtain ⟨perm, cards, -⟩ := exec_calls_each_card_once Triangle.feedForward records built
      held rfl runs ran
    exact ⟨graph, start, session, after, outputs, Triangle.feedForward, records, built, held, runs,
      ran, perm, fun card known => (cards card known).2.1⟩

end Session

end CardNet
