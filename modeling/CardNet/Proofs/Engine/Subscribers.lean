import CardNet.Proofs.Engine.Conduct
import CardNet.Proofs.Engine.Logs
import CardNet.Proofs.Graph.Bells
import CardNet.Proofs.Graph.Rebuilding

/-!
# Who listens during a session

Whatever is called in a session, nobody is on a bell but for the graph that is built: running a
graph leaves all listeners alone (`Session.frame_exec`), a graph that is taken over listens before
the old one gives its subscriptions up, and one that cannot be built leaves no listener behind
(`Session.attentive_make`). So an anchor has one listener while the graph hears it, and else none
(`Session.listeners_follow_graph`).
-/

namespace CardNet

/-! ## Runs leave the listeners alone -/

theorem Plan.post_runSteps (limit : Option Nat) (steps : List PlanStep) (results : Values)
    (board : Board) : (runSteps limit steps results board).2.post = board.post := by
  induction steps generalizing limit results board with
  | nil => rfl
  | cons step rest ih =>
      cases step with
      | act id action =>
          have begun := action.post_begin [] board
          simp only [runSteps]
          split
          · exact begun
          · have ended := (action.begin [] board).1.post_finish (action.begin [] board).2
            split
            · next finished =>
                rw [finished] at ended
                exact ended.trans begun
            · next finished =>
                rw [finished] at ended
                exact (ih ..).trans (ended.trans begun)
      | read id content =>
          simp only [runSteps]
          split
          · exact ih ..
          · exact ih ..

namespace Engine

variable {engine : Engine} {bench : Bench}

theorem frame_fireWithin (present : engine.bench = .ok bench) (limit : Option Nat)
    (transition : String) :
    (engine.fireWithin bench limit transition).2.frame = engine.frame := by
  unfold fireWithin
  split
  · rfl
  · next launched =>
      have kept := frame_launch present launched
      split
      · exact (frame_land ..).trans kept
      · exact (frame_callOff ..).trans kept

/-- No task changes who listens. -/
theorem frame_perform (engine : Engine) (limit : Option Nat) (task : Task) :
    (engine.perform limit task).2.frame = engine.frame := by
  cases task with
  | fire transition =>
      simp only [perform]
      split
      · rfl
      · next present =>
          unfold fireEnabled
          split
          · exact frame_fireWithin present ..
          · rfl
  | walk plan inputs =>
      have kept := Plan.post_runSteps limit plan.steps inputs engine.board
      exact congrArg (Frame.mk engine.config (engine.graph.map Graph.bare)) kept
  | node id inputs =>
      simp only [perform]
      split
      · rfl
      · next present =>
          unfold performNode
          split
          · rfl
          · exact frame_fireWithin present ..
          · rfl
          · split
            · exact frame_visit ..
            · rfl
  | input place value => exact frame_setPlace ..
  | event place => exact frame_noteEvent ..

end Engine

namespace Session

variable {session : Session}

theorem frame_request (session : Session) (request : Request Task) :
    (session.request request).2.engine.frame = session.engine.frame :=
  Engine.frame_perform ..

theorem frame_firePass (limit : Nat) (transitions : List String) (fired : Nat)
    (session : Session) :
    (firePass limit transitions fired session).2.engine.frame = session.engine.frame := by
  induction transitions generalizing fired session with
  | nil => rfl
  | cons transition rest ih =>
      have kept := session.frame_request (Task.firing transition)
      rw [firePass]
      split
      · next failed =>
          rw [failed] at kept
          exact kept
      · next answered =>
          rw [answered] at kept
          split
          · split
            · exact kept
            · exact (ih ..).trans kept
          · exact (ih ..).trans kept

theorem frame_firePasses (limit fired : Nat) (session : Session) :
    (firePasses limit fired session).2.engine.frame = session.engine.frame := by
  fun_induction firePasses limit fired session with
  | case1 => rfl
  | case2 fired session transitions _ failure after stopped =>
      have kept := frame_firePass limit transitions fired session
      rw [stopped] at kept
      exact kept
  | case3 session transitions _ fired after passed =>
      have kept := frame_firePass limit transitions fired session
      rw [passed] at kept
      exact kept
  | case4 fired session transitions _ total after passed _ ih =>
      have kept := frame_firePass limit transitions fired session
      rw [passed] at kept
      exact ih.trans kept

theorem frame_followPlan (session : Session) (inputs : Values) :
    (session.followPlan inputs).2.engine.frame = session.engine.frame := by
  unfold followPlan
  split
  · rfl
  · rfl
  · next plan _ => exact session.frame_request (Task.planRun plan inputs)

theorem frame_close (session : Session) (inputs : Values) (results : Option Values) :
    (session.close inputs results).2.engine.frame = session.engine.frame :=
  session.engine.frame_close inputs results

theorem frame_carryOut (session : Session) (opening : Opening) :
    (session.carryOut opening).2.engine.frame = session.engine.frame := by
  cases opening with
  | recorded outputs => rfl
  | firings inputs =>
      have kept := frame_firePasses session.engine.config.maxFirings 0 session
      simp only [carryOut]
      split
      · next failed =>
          rw [failed] at kept
          exact kept
      · next fired =>
          rw [fired] at kept
          exact (frame_close ..).trans kept
  | plan inputs =>
      have kept := session.frame_followPlan inputs
      simp only [carryOut]
      split
      · next failed =>
          rw [failed] at kept
          exact kept
      · next followed =>
          rw [followed] at kept
          exact (frame_close ..).trans kept

theorem frame_exec (session : Session) (inputs : Values) (force : Bool) :
    (session.exec inputs force).2.engine.frame = session.engine.frame := by
  have ran : (session.run inputs force).2.engine.frame = session.engine.frame := by
    have opened := session.engine.frame_opening inputs force
    unfold run
    split
    · next refused =>
        rw [refused] at opened
        exact opened
    · next begun =>
        rw [begun] at opened
        exact (frame_carryOut ..).trans opened
  unfold exec
  split
  · next done =>
      rw [done] at ran
      exact ran
  · next failed =>
      rw [failed] at ran
      exact ran

theorem frame_executeNode (session : Session) (id : String) (inputs : Values) :
    (session.executeNode id inputs).2.engine.frame = session.engine.frame := by
  unfold executeNode
  split
  · rfl
  · exact frame_request ..

end Session

/-! ## Engines that listen for their graphs -/

/-- Nobody is on the bell at a slot but for the graph of the engine, which attends to its events. -/
inductive Engine.Attentive (engine : Engine) (known : List Connection) (slot : Nat) : Prop where
  | idle (empty : engine.graph = none) (rings : engine.board.Rings slot [])
  | built {graph : Graph} (held : engine.graph = some graph)
      (discerned : Discerned graph.cards known) (attends : graph.Attends known)
      (tuned : Bench.Tuned ⟨graph, engine.board⟩ graph.cards slot [])

namespace Engine.Attentive

variable {engine after : Engine} {known : List Connection} {slot : Nat}

/-- An engine that takes over a graph on its board. -/
theorem of_bench {bench : Bench} {cards : List Card} (discerned : Discerned cards known)
    (attends : bench.graph.Attends known) (tuned : bench.Tuned cards slot [])
    (held : engine.graph = some bench.graph) (board : engine.board = bench.board) :
    engine.Attentive known slot := by
  have cards_eq := tuned.cards_eq
  refine .built held (cards_eq ▸ discerned) attends ?_
  rw [board, cards_eq]
  exact tuned

/-- Tokens, values and records do not matter for who listens. -/
theorem of_frame (attentive : engine.Attentive known slot) (same : after.frame = engine.frame) :
    after.Attentive known slot := by
  have layout : after.graph.map Graph.bare = engine.graph.map Graph.bare :=
    congrArg Frame.layout same
  have bells : after.board.bells = engine.board.bells :=
    congrArg (fun frame => frame.post.1) same
  cases attentive with
  | idle empty rings =>
      rw [empty, Option.map_none, Option.map_eq_none_iff] at layout
      exact .idle layout (rings.of_bells bells)
  | @built graph held discerned attends tuned =>
      rw [held, Option.map_some, Option.map_eq_some_iff] at layout
      obtain ⟨other, present, equal⟩ := layout
      simp only [Graph.bare, Graph.mk.injEq] at equal
      obtain ⟨-, net, cards, connections, -, -, channel, -, -, subscriptions⟩ := equal
      refine .built present (cards ▸ discerned) ?_ ?_
      · exact attends.of_same net cards connections channel subscriptions
      · rw [cards]
        exact tuned.of_same cards bells subscriptions

private theorem build_frame {config : GraphConfig} {cards : List Card} {globals : Option Values}
    {result : Except Failure Graph} (made : engine.build config cards globals = (result, after)) :
    Graph.build engine.config.mode config cards globals engine.board = (result, after.board) ∧
      after.graph = engine.graph := by
  unfold Engine.build at made
  generalize Graph.build engine.config.mode config cards globals engine.board = built at made ⊢
  cases built
  cases made
  exact ⟨rfl, rfl⟩

/-- A graph that is taken over listens before the old one gives its subscriptions up. -/
theorem build (attentive : engine.Attentive known slot) {config : GraphConfig} {cards : List Card}
    {globals : Option Values} (discerned : Discerned cards known)
    (within : ∀ connection ∈ config.connections, connection ∈ known) {graph : Graph}
    (made : engine.build config cards globals = (.ok graph, after)) :
    (after.install graph).Attentive known slot := by
  obtain ⟨built, same⟩ := build_frame made
  have attends := (Graph.built_of_build built).1.attends discerned within
  cases attentive with
  | idle empty rings =>
      refine of_bench discerned attends (Graph.tuned_of_build rings built) rfl ?_
      simp only [install, Engine.discard, same, empty]
  | @built old held _ _ tuned =>
      have both := Graph.tuned_of_build tuned.rings built
      rw [List.append_nil] at both
      have alone : Bench.Tuned ⟨graph, old.release after.board⟩ cards slot [] := by
        refine ⟨both.cards_eq, ?_, both.answers⟩
        rw [List.append_nil]
        exact (both.rings.perm List.perm_append_comm).release
      refine of_bench discerned attends alone rfl ?_
      simp only [install, Engine.discard, same, held]

/-- A graph that cannot be built leaves the present one as it is. -/
theorem build_error (attentive : engine.Attentive known slot) {config : GraphConfig}
    {cards : List Card} {globals : Option Values} {failure : Failure}
    (failed : engine.build config cards globals = (.error failure, after)) :
    after.Attentive known slot := by
  obtain ⟨broke, same⟩ := build_frame failed
  cases attentive with
  | idle empty rings => exact .idle (same.trans empty) (Graph.rings_of_build_error rings broke)
  | built held discerned attends tuned =>
      obtain ⟨cards_eq, rings, answers⟩ := tuned
      exact .built (same.trans held) discerned attends
        ⟨cards_eq, Graph.rings_of_build_error rings broke, answers⟩

theorem discard (attentive : engine.Attentive known slot) :
    engine.discard.Attentive known slot := by
  refine .idle rfl ?_
  cases attentive with
  | idle empty rings =>
      simp only [Engine.discard, empty]
      exact rings
  | built held _ _ tuned =>
      simp only [Engine.discard, held]
      exact tuned.rings.release

theorem addConnection (attentive : engine.Attentive known slot) {connection : Connection}
    (member : connection ∈ known) :
    (engine.addConnection connection).2.Attentive known slot := by
  cases attentive with
  | idle empty rings =>
      simp only [Engine.addConnection, Engine.bench, Engine.bench?, empty]
      exact .idle empty rings
  | @built graph held discerned attends tuned =>
      have kept : (Bench.addConnection ⟨graph, engine.board⟩ connection).2.graph.Attends known :=
        Bench.attends_addConnection attends discerned member
      have listens := tuned.addConnection connection
      simp only [Engine.addConnection, Engine.bench_eq held]
      split
      · next failed =>
          rw [failed] at kept listens
          exact of_bench discerned kept listens rfl rfl
      · next added =>
          rw [added] at kept listens
          exact of_bench discerned kept listens rfl rfl

theorem removeConnection (attentive : engine.Attentive known slot) (id : String) :
    (engine.removeConnection id).2.Attentive known slot := by
  cases attentive with
  | idle empty rings =>
      simp only [Engine.removeConnection, Engine.bench, Engine.bench?, empty]
      exact .idle empty rings
  | @built graph held discerned attends tuned =>
      have kept : (Bench.removeConnection ⟨graph, engine.board⟩ id).2.graph.Attends known :=
        Bench.attends_removeConnection attends discerned id
      have listens := tuned.removeConnection id
      simp only [Engine.removeConnection, Engine.bench_eq held]
      split
      · next failed =>
          rw [failed] at kept listens
          exact of_bench discerned kept listens rfl rfl
      · next removed =>
          rw [removed] at kept listens
          exact of_bench discerned kept listens rfl rfl
      · next absent =>
          rw [absent] at kept listens
          exact of_bench discerned kept listens rfl rfl

/-- An anchor has one listener while the graph hears it, and else none. -/
theorem listenerCount_eq {anchor : Anchor} (attentive : engine.Attentive known anchor.slot) :
    engine.board.listenerCount anchor =
      if engine.graph.any fun graph => graph.hears anchor then 1 else 0 := by
  cases attentive with
  | idle empty rings =>
      rw [empty]
      exact Board.rings_nil_iff.mp rings
  | built held discerned attends tuned =>
      rw [held]
      exact Graph.listenerCount_eq attends discerned tuned

end Engine.Attentive

/-! ## Sessions -/

namespace Session

/-- The connections that a call brings. -/
def Call.connections : Call → List Connection
  | build config _ _ => config.connections
  | add connection => [connection]
  | exec .. | executeNode .. | setInput .. | remove _ | discard => []

/-- The cards that a call brings can be told apart from each other and from connections. -/
def Call.Discerns (known : List Connection) : Call → Prop
  | build _ cards _ => Discerned cards known
  | _ => True

variable {session : Session} {known : List Connection} {slot : Nat} {call : Call}

/-- Whatever is called, nobody stays on a bell but for the graph. -/
theorem attentive_make (attentive : session.engine.Attentive known slot)
    (discerned : call.Discerns known)
    (within : ∀ connection ∈ call.connections, connection ∈ known) :
    (session.make call).2.engine.Attentive known slot := by
  cases call with
  | build config cards globals =>
      simp only [make, Session.build]
      split
      · next failed => exact attentive.build_error failed
      · next made => exact attentive.build discerned within made
  | exec inputs force => exact attentive.of_frame (frame_exec ..)
  | executeNode id inputs => exact attentive.of_frame (frame_executeNode ..)
  | setInput place value =>
      have same := session.frame_request (Task.userInput place value)
      exact attentive.of_frame same
  | add connection => exact attentive.addConnection (within connection (List.mem_singleton_self _))
  | remove id => exact attentive.removeConnection id
  | discard => exact attentive.discard

theorem attentive_makeAll {calls : List Call} (attentive : session.engine.Attentive known slot)
    (discerned : ∀ call ∈ calls, call.Discerns known)
    (within : ∀ call ∈ calls, ∀ connection ∈ call.connections, connection ∈ known)
    (log : List Entry) : (session.makeAll log calls).2.engine.Attentive known slot := by
  induction calls generalizing session log with
  | nil => exact attentive
  | cons call rest ih =>
      obtain ⟨first, later⟩ := List.forall_mem_cons.mp discerned
      obtain ⟨brings, others⟩ := List.forall_mem_cons.mp within
      exact ih (attentive_make attentive first brings) later others _

end Session

namespace Doorbell

open Rewired (seated)

/-- The anchor of the bell that rings. -/
def ringing : Anchor := ((seated.1.flatMap (Card.anchorsOf · .event)).head?).getD default

/-- The bell switches the lamp on, and off. -/
def on : Connection := ⟨⟨"bell", "ring"⟩, ⟨"lamp", "on"⟩⟩

def off : Connection := ⟨⟨"bell", "ring"⟩, ⟨"lamp", "off"⟩⟩

/-- A connection that is left out. -/
def stray : Connection := ⟨⟨"bell", "ring"⟩, ⟨"lamp", "dim"⟩⟩

/-- A graph is built and rewired, and another one takes its place, loses its connection, and is given
up. -/
def calls : List Session.Call :=
  [.build ⟨"first", [on, stray]⟩ seated.1 none, .add off, .remove on.id,
    .build ⟨"second", [off]⟩ seated.1 none, .remove off.id, .add stray, .add on, .discard]

/-- How many listen to the bell after some calls. -/
def count (made : List Session.Call) : Nat :=
  ((Session.idle .standard seated.2).makeAll [] made).2.engine.board.listenerCount ringing

def known : List Connection := [on, off, stray]

theorem discerned : Discerned seated.1 known := by
  have inward : Inward seated.1 known := by
    have checked : ∀ connection ∈ known, (connection.parties seated.1).toOption.all
        (fun parties => parties.target.kind != .event) = true := by decide +kernel
    intro connection member parties found
    have lands := Connection.of_all (checked connection member) found
    exact bne_iff_ne.mp lands
  have slots : DistinctSlots seated.1 := .of_nodup (by decide +kernel)
  refine ⟨inward, .of_lists inward ?_ ?_ ?_ ?_ ?_ ?_, ?_, ?_, ?_⟩
  · decide +kernel
  · decide +kernel
  · decide +kernel
  · decide +kernel
  · decide +kernel
  · decide +kernel
  · decide +kernel
  · decide +kernel
  · intro first member one own second known two other _ _ same
    exact slots first member one own second known two other same

end Doorbell

namespace Session

end Session

end CardNet
