import CardNet.Proofs.Engine.Conservation

/-!
# What work on an engine leaves as it is

Running a graph, firing its transitions and setting its values sends no events, fetches none, and
changes neither who listens to what nor anything of the graph but tokens (`Engine.frame`).
-/

namespace CardNet

namespace Board

/-- Who listens to what, and what has been sent and not fetched. -/
def post (board : Board) : Std.ExtTreeMap Nat Bell × (Nat → List (String × Value)) :=
  (board.bells, fun slot => (board.channel slot).mail)

@[simp] theorem post_write (board : Board) (anchor : Anchor) (value : Value) :
    (board.write anchor value).post = board.post := rfl

@[simp] theorem post_modifyRecord (board : Board) (slot : Nat)
    (change : CardRecord → CardRecord) : (board.modifyRecord slot change).post = board.post := rfl

@[simp] theorem post_resetAnchor (board : Board) (anchor : Anchor) :
    (board.resetAnchor anchor).post = board.post := by
  unfold resetAnchor
  split <;> rfl

/-- Changing a channel but for its mail leaves all mail as it is. -/
theorem post_modifyChannel (board : Board) (slot : Nat) {change : Channel → Channel}
    (same : (change (board.channel slot)).mail = (board.channel slot).mail) :
    (board.modifyChannel slot change).post = board.post := by
  refine Prod.ext rfl (funext fun other => ?_)
  change Channel.mail (Std.ExtTreeMap.getD _ _ _) = _
  rw [modifyChannel, Std.ExtTreeMap.getD_insert]
  split
  · next equal =>
      obtain rfl := Std.LawfulEqCmp.compare_eq_iff_eq.mp equal
      exact same
  · rfl

/-- Steps that send and fetch nothing do so together. -/
theorem post_foldl {β : Type} {step : Board → β → Board}
    (still : ∀ board item, (step board item).post = board.post) (items : List β) (board : Board) :
    (items.foldl step board).post = board.post := by
  induction items generalizing board with
  | nil => rfl
  | cons item rest ih => exact (ih (step board item)).trans (still board item)

end Board

@[simp] theorem Content.post_reset (content : Content) (board : Board) :
    (content.reset board).post = board.post := by
  cases content with
  | anchor card slot => exact board.post_resetAnchor slot
  | event card slot => exact board.post_resetAnchor slot
  | trigger card => rfl
  | relay => rfl

theorem Card.post_call (card : Card) (inputs globals : Option Values) (board : Board) :
    (card.call inputs globals board).2.post = board.post := by
  have entered : (card.enter board).post = board.post := by
    unfold Card.enter
    cases card.work <;> rfl
  unfold Card.call
  dsimp only
  split
  · exact entered
  · refine (Board.post_foldl (fun board anchor => ?_) _ _).trans entered
    split <;> rfl

theorem Action.post_begin (action : Action) (arguments : List Value) (board : Board) :
    (action.begin arguments board).2.post = board.post := by
  cases action with
  | scripted slot failOn move =>
      simp only [Action.begin]
      split
      · rfl
      · cases move <;> rfl
  | split | transfer | call | start => rfl

theorem Job.post_finish (job : Job) (board : Board) : (job.finish board).2.post = board.post := by
  cases job with
  | settled => rfl
  | visit card inputs globals => exact card.post_call inputs globals board

theorem Bench.post_opened (bench : Bench) (inputs : Values) :
    (bench.opened inputs).board.post = bench.board.post := by
  rw [board_opened]
  refine (Board.post_foldl (fun board id => ?_) _ _).trans
    ((Board.post_foldl (fun board content => content.post_reset board) _ _).trans ?_)
  · unfold Circuit.applyDefault
    split
    · exact board.post_resetAnchor _
    · rfl
  · exact Board.post_modifyChannel _ _ rfl

/-- A graph without its tokens. -/
def Graph.bare (graph : Graph) : Graph := { graph with net := graph.net.bare }

namespace Engine

/-- What is left as it is by work on an engine: its settings, its graph but for the tokens, and what
concerns events. -/
structure Frame where
  config : EngineConfig
  layout : Option Graph
  post : Std.ExtTreeMap Nat Bell × (Nat → List (String × Value))

/-- What is left of an engine without tokens, values and records. -/
def frame (engine : Engine) : Frame :=
  ⟨engine.config, engine.graph.map Graph.bare, engine.board.post⟩

variable {engine after : Engine} {graph : Graph}

theorem frame_withCircuit (held : engine.graph = some graph) {net : Circuit} {board : Board}
    (bare : net.bare = graph.net.bare) (post : board.post = engine.board.post) :
    (engine.withCircuit net board).frame = engine.frame := by
  rw [frame, graph_withCircuit held, frame, held, board_withCircuit, post]
  simp only [Option.map_some, Graph.bare, bare]
  rfl

theorem frame_launch {bench : Bench} (present : engine.bench = .ok bench) {transition : String}
    {flight : Flight} (launched : engine.launch bench transition = .ok (flight, after)) :
    after.frame = engine.frame := by
  obtain ⟨graph, held, rfl⟩ := bench_eq_ok present
  simp only [launch, Circuit.launch, Net.begin] at launched
  split at launched
  · cases launched
  · next flown net board began =>
      cases launched
      split at began
      · cases began
      · next firing taken begun =>
          cases began
          split at begun
          · cases begun
          · split at begun
            · cases begun
            · cases begun
              exact frame_withCircuit held (Net.bare_deduct _ _) (Action.post_begin _ _ _)

theorem frame_land (engine : Engine) (flight : Flight) :
    (engine.land flight).2.frame = engine.frame := by
  cases held : engine.graph with
  | none =>
      rw [land, Engine.bench, bench?, held]
      rfl
  | some graph =>
      simp only [land, bench_eq held, Circuit.land]
      have post := flight.job.post_finish engine.board
      generalize flight.job.finish engine.board = ended at post
      obtain ⟨message | value, board⟩ := ended
      · exact frame_withCircuit held (Net.bare_refund _ _) post
      · exact frame_withCircuit held (Net.bare_credit _ _) post

theorem frame_callOff (engine : Engine) (flight : Flight) :
    (engine.callOff flight).frame = engine.frame := by
  rw [callOff]
  split
  · rfl
  · next graph held => exact frame_withCircuit held (Net.bare_refund _ _) rfl

theorem frame_visit (engine : Engine) (card : Card) (globals : Values) :
    (engine.visit card globals).2.frame = engine.frame := by
  change Frame.mk _ _ _ = Frame.mk _ _ _
  rw [Frame.mk.injEq]
  exact ⟨rfl, rfl, card.post_call _ _ _⟩

/-- A graph and a board that are put back leave as it is what they agree on with what was there. -/
theorem frame_withBench (held : engine.graph = some graph) {bench : Bench}
    (layout : bench.graph.bare = graph.bare) (post : bench.board.post = engine.board.post) :
    (engine.withBench bench).frame = engine.frame := by
  rw [frame, frame, held, Option.map_some, ← layout, ← post]
  rfl

theorem frame_setPlace (engine : Engine) (place : String) (value : Value) :
    (engine.setPlace place value).2.frame = engine.frame := by
  cases held : engine.graph with
  | none =>
      rw [setPlace, Engine.bench, bench?, held]
      rfl
  | some graph =>
      simp only [setPlace, bench_eq held]
      have kept : (Bench.setPlace ⟨graph, engine.board⟩ place value).2.graph = graph ∧
          (Bench.setPlace ⟨graph, engine.board⟩ place value).2.board.post =
            engine.board.post := by
        unfold Bench.setPlace
        split
        · exact ⟨rfl, rfl⟩
        · split
          · next known _ _ board set =>
              obtain ⟨content, -, same⟩ := Option.map_eq_some_iff.mp set
              unfold Content.setValue at same
              split at same
              · cases same
                exact ⟨rfl, rfl⟩
              · cases same
          · exact ⟨rfl, rfl⟩
      exact frame_withBench held (congrArg Graph.bare kept.1) kept.2

theorem frame_noteEvent (engine : Engine) (place : String) :
    (engine.noteEvent place).2.frame = engine.frame := by
  cases held : engine.graph with
  | none =>
      rw [noteEvent, Engine.bench, bench?, held]
      rfl
  | some graph =>
      simp only [noteEvent, bench_eq held]
      have kept : (Bench.noteEvent ⟨graph, engine.board⟩ place).2.graph.bare = graph.bare ∧
          (Bench.noteEvent ⟨graph, engine.board⟩ place).2.board = engine.board := by
        have noted : (Bench.noteEvent ⟨graph, engine.board⟩ place).2 =
            (Bench.recordEvent ⟨graph, engine.board⟩ place).2 := by
          unfold Bench.noteEvent
          split <;> next recorded => rw [recorded]
        rw [noted]
        unfold Bench.recordEvent
        dsimp only
        split
        · split
          · exact ⟨congrArg (fun net => { graph with net := net })
              (graph.net.bare_modifyTokens place (· + 1)), rfl⟩
          · exact ⟨rfl, rfl⟩
        · exact ⟨rfl, rfl⟩
      exact frame_withBench held kept.1 (congrArg Board.post kept.2)

theorem frame_close (engine : Engine) (inputs : Values) (results : Option Values) :
    (engine.close inputs results).2.frame = engine.frame := by
  rw [close]
  split <;> rfl

theorem frame_opened (held : engine.graph = some graph) (inputs : Values) :
    (engine.withBench (Bench.opened ⟨graph, engine.board⟩ inputs)).frame = engine.frame := by
  refine frame_withBench held ?_ (Bench.post_opened _ _)
  have bare := Bench.bare_opened ⟨graph, engine.board⟩ inputs
  rw [Bench.graph_opened] at bare ⊢
  exact congrArg (fun net => { graph with net := net }) bare

theorem frame_opening (engine : Engine) (inputs : Values) (force : Bool) :
    (engine.opening inputs force).2.frame = engine.frame := by
  cases held : engine.graph with
  | none =>
      rw [opening, bench, bench?, held]
      rfl
  | some graph =>
      cases answered : engine.answers graph inputs force with
      | true => rw [opening_recorded held answered]
      | false =>
          rw [opening_fresh held answered]
          exact frame_opened held _

end Engine

end CardNet
