import CardNet.Engine.Session
import CardNet.Proofs.Graph.Play
import CardNet.Proofs.Net.Tokens

/-!
# Runs by firings

A run by firings is a token game on the circuit and a play of the fired actions on the board. The
game does not look at the board: it is settled by the net which transitions a pass fires
(`Net.sweep`), and a pass succeeds when their actions do (`Session.firePass_of_playAll`,
`Session.playAll_of_firePass`). The passes of a whole run fire what exhausts the net
(`Session.firePasses_of_exhausts`, `Session.exhausts_of_firePasses`).
-/

namespace CardNet

namespace Circuit

/-- Play the action of a transition. -/
def play (net : Circuit) (transition : String) (board : Board) : Option Board :=
  (net.transitions.get? transition).bind fun action => action.play board

/-- Play the actions of transitions in order. -/
def playAll (net : Circuit) (trace : List String) (board : Board) : Option Board :=
  trace.foldlM (fun board transition => net.play transition board) board

/-- No transition does scripted work. -/
def Functional (net : Circuit) : Prop :=
  ∀ id action, net.transitions.get? id = some action → action.Functional

theorem Functional.of_bare {first second : Circuit} (functional : first.Functional)
    (same : first.bare = second.bare) : second.Functional := by
  unfold Functional
  rw [← Net.transitions_of_bare same]
  exact functional

/-- How long the action of a transition waits. -/
def delay (net : Circuit) (transition : String) : Nat :=
  ((net.transitions.get? transition).map Action.delay).getD 0

theorem delay_of_bare {first second : Circuit} (same : first.bare = second.bare) :
    first.delay = second.delay := by
  funext transition
  rw [delay, delay, Net.transitions_of_bare same]

theorem play_of_bare {first second : Circuit} (same : first.bare = second.bare) :
    first.play = second.play := by
  funext transition board
  rw [play, play, Net.transitions_of_bare same]

theorem playAll_of_bare {first second : Circuit} (same : first.bare = second.bare) :
    first.playAll = second.playAll := by
  funext trace board
  rw [playAll, playAll, play_of_bare same]

@[simp] theorem playAll_nil (net : Circuit) (board : Board) : net.playAll [] board = some board :=
  rfl

theorem playAll_cons (net : Circuit) (transition : String) (rest : List String) (board : Board) :
    net.playAll (transition :: rest) board =
      (net.play transition board).bind fun next => net.playAll rest next := rfl

theorem playAll_append (net : Circuit) (first second : List String) (board : Board) :
    net.playAll (first ++ second) board =
      (net.playAll first board).bind fun next => net.playAll second next :=
  List.foldlM_append

end Circuit

namespace Engine

variable {engine : Engine} {graph : Graph} {transition : String}

theorem bench_eq (held : engine.graph = some graph) :
    engine.bench = .ok ⟨graph, engine.board⟩ := by
  rw [bench, bench?, held]
  rfl

@[simp] theorem withCircuit_withCircuit (engine : Engine) (first second : Circuit)
    (one two : Board) :
    (engine.withCircuit first one).withCircuit second two = engine.withCircuit second two := by
  simp [withCircuit, Function.comp_def]

@[simp] theorem board_withCircuit (engine : Engine) (net : Circuit) (board : Board) :
    (engine.withCircuit net board).board = board := rfl

@[simp] theorem config_withCircuit (engine : Engine) (net : Circuit) (board : Board) :
    (engine.withCircuit net board).config = engine.config := rfl

@[simp] theorem records_withCircuit (engine : Engine) (net : Circuit) (board : Board) :
    (engine.withCircuit net board).records = engine.records := rfl

theorem graph_withCircuit (held : engine.graph = some graph) (net : Circuit) (board : Board) :
    (engine.withCircuit net board).graph = some { graph with net := net } := by
  rw [withCircuit, held]
  rfl

theorem withCircuit_self (held : engine.graph = some graph) :
    engine.withCircuit graph.net engine.board = engine := by
  obtain ⟨config, present, board, records⟩ := engine
  obtain rfl : present = some graph := held
  rfl

theorem perform_fire_blocked (held : engine.graph = some graph) (limit : Option Nat)
    (blocked : graph.net.isEnabled transition = false) :
    engine.perform limit (.fire transition) = (some (.ok (.bool false)), engine) := by
  rw [perform, bench_eq held]
  simp [fireEnabled, blocked]

theorem launch_eq {action : Action}
    (enabled : graph.net.isEnabled transition = true)
    (found : graph.net.transitions.get? transition = some action) :
    engine.launch ⟨graph, engine.board⟩ transition =
      .ok (⟨⟨transition, action, graph.net.arcsInto transition, graph.net.arcsFrom transition⟩,
          (action.begin [] engine.board).1⟩,
        engine.withCircuit (graph.net.deduct (graph.net.arcsInto transition))
          (action.begin [] engine.board).2) := by
  have free := Option.isNone_iff_eq_none.mp enabled
  simp only [launch, Circuit.launch, Net.begin, free, found]

/-- A transition that may fire does its action; its tokens move on when the action succeeds, and
go back when it fails or takes too long. -/
theorem perform_fire (held : engine.graph = some graph) (limit : Option Nat) {action : Action}
    (enabled : graph.net.isEnabled transition = true)
    (found : graph.net.transitions.get? transition = some action) :
    engine.perform limit (.fire transition) =
      let back := (graph.net.deduct (graph.net.arcsInto transition)).refund
        (graph.net.arcsInto transition)
      if fits limit (action.begin [] engine.board).1.delay then
        match action.act engine.board with
        | (.ok _, board) =>
            (some (.ok (.bool true)), engine.withCircuit (graph.net.fired transition) board)
        | (.error message, board) =>
            (some (.error (.firing (.actionFailed transition message))),
              engine.withCircuit back board)
      else (none, engine.withCircuit back (action.begin [] engine.board).2) := by
  rw [perform, bench_eq held]
  simp only [fireEnabled, enabled, ↓reduceIte, fireWithin, launch_eq enabled found]
  split
  · simp only [land, bench_eq (graph_withCircuit held _ _), Circuit.land, Action.act]
    rcases done : (action.begin [] engine.board).1.finish (action.begin [] engine.board).2 with
      ⟨message | value, board⟩
    · simp [done, Except.mapError, Except.map, Net.rollback]
    · simp [done, Except.mapError, Except.map, Net.commit, Net.fired]
  · rw [callOff, graph_withCircuit held]
    simp [Circuit.callOff, Net.rollback]

end Engine

namespace Session

variable {session : Session} {graph : Graph} {transition : String}

theorem get?_of_isEnabled {net : Circuit} (enabled : net.isEnabled transition = true) :
    ∃ action, net.transitions.get? transition = some action := by
  refine Registry.exists_get?_of_mem_names ?_
  by_contra absent
  have unknown := (Bool.not_eq_true _).mp (mt Registry.contains_eq_true.mp absent)
  simp [Net.isEnabled, Net.blocked?, unknown] at enabled

theorem request_blocked (held : session.engine.graph = some graph)
    (blocked : graph.net.isEnabled transition = false) :
    ∃ tally, session.request (Task.firing transition) =
      (.ok (.bool false), ⟨session.engine, tally⟩) := by
  simp only [request, Task.firing, Engine.perform_fire_blocked held _ blocked]
  exact ⟨_, rfl⟩

/-- The request of a firing that may take place either plays the action and moves the tokens, or
fails and leaves all but the board and the tokens as it was. -/
theorem request_enabled (held : session.engine.graph = some graph)
    (enabled : graph.net.isEnabled transition = true) :
    (∃ board tally, graph.net.play transition session.engine.board = some board ∧
      session.request (Task.firing transition) = (.ok (.bool true),
        ⟨session.engine.withCircuit (graph.net.fired transition) board, tally⟩) ∧
      (graph.net.Functional →
        fits session.engine.config.taskTimeout (graph.net.delay transition) = true)) ∨
    ∃ failure net board tally, session.request (Task.firing transition) =
        (.error failure, ⟨session.engine.withCircuit net board, tally⟩) ∧
      net.bare = graph.net.bare ∧
      (graph.net.Functional →
        fits session.engine.config.taskTimeout (graph.net.delay transition) = true →
          graph.net.play transition session.engine.board = none) := by
  obtain ⟨action, found⟩ := get?_of_isEnabled enabled
  have delay : graph.net.Functional → graph.net.delay transition =
      (action.begin [] session.engine.board).1.delay := by
    intro functional
    rw [Action.delay_begin (functional _ _ found), Circuit.delay, found]
    rfl
  simp only [request, Task.firing, Engine.perform_fire held _ enabled found, Circuit.play, found,
    Option.bind_some, Action.play]
  by_cases inTime : fits session.engine.config.taskTimeout
      (action.begin [] session.engine.board).1.delay = true
  · simp only [inTime, ↓reduceIte]
    rcases done : action.act session.engine.board with ⟨message | value, after⟩
    · refine .inr ⟨_, _, _, _, rfl, ?_, fun _ _ => rfl⟩
      rw [Net.bare_refund, Net.bare_deduct]
    · exact .inl ⟨_, _, rfl, rfl, fun functional => by rw [delay functional]; exact inTime⟩
  · simp only [inTime, Bool.false_eq_true, ↓reduceIte]
    refine .inr ⟨_, _, _, _, rfl, ?_, fun functional timely => ?_⟩
    · rw [Net.bare_refund, Net.bare_deduct]
    · rw [delay functional] at timely
      exact (inTime timely).elim

/-- The transitions that fire in a pass, in order. -/
def firedInPass (limit : Nat) : List String → Nat → Session → List String
  | [], _, _ => []
  | transition :: rest, fired, session =>
      match session.request (Task.firing transition) with
      | (.error _, _) => []
      | (.ok answer, session) =>
          if hasFired answer then
            transition ::
              if limit < fired + 1 then [] else firedInPass limit rest (fired + 1) session
          else firedInPass limit rest fired session

/-- The transitions that fire in passes until a pass fires nothing, in order. -/
def firedInPasses (limit fired : Nat) (session : Session) : List String :=
  match session.engine.transitions with
  | .error _ => []
  | .ok transitions =>
      firedInPass limit transitions fired session ++
        match _pass : firePass limit transitions fired session with
        | (.error _, _) => []
        | (.ok total, session) =>
            if _ : total = fired then [] else firedInPasses limit total session
termination_by limit - fired
decreasing_by
  have bound := firePass_le ‹_›
  omega

section Log

variable {limit fired total : Nat} {transitions : List String} {after : Session}
variable (listed : session.engine.transitions = .ok transitions)

include listed

theorem firedInPasses_of_stopped {failure : Failure}
    (stopped : firePass limit transitions fired session = (.error failure, after)) :
    firedInPasses limit fired session = firedInPass limit transitions fired session := by
  rw [firedInPasses, listed]
  dsimp only
  split
  · exact List.append_nil _
  · next went =>
      rw [stopped] at went
      cases went

theorem firedInPasses_of_still
    (passed : firePass limit transitions fired session = (.ok fired, after)) :
    firedInPasses limit fired session = firedInPass limit transitions fired session := by
  rw [firedInPasses, listed]
  dsimp only
  split
  · exact List.append_nil _
  · next went =>
      rw [passed] at went
      cases went
      rw [dif_pos rfl, List.append_nil]

theorem firedInPasses_of_moved (moved : total ≠ fired)
    (passed : firePass limit transitions fired session = (.ok total, after)) :
    firedInPasses limit fired session =
      firedInPass limit transitions fired session ++ firedInPasses limit total after := by
  rw [firedInPasses, listed]
  dsimp only
  split
  · next stopped =>
      rw [passed] at stopped
      cases stopped
  · next went =>
      rw [passed] at went
      cases went
      rw [dif_neg moved]

end Log

/-- A pass succeeds when the actions of the transitions do that the net fires, and none of them
takes too long. -/
theorem firePass_of_playAll (limit fired : Nat) {transitions : List String}
    (held : session.engine.graph = some graph) (functional : graph.net.Functional)
    (timely : ∀ transition ∈ graph.net.sweep transitions,
      fits session.engine.config.taskTimeout (graph.net.delay transition) = true) {board : Board}
    (played : graph.net.playAll (graph.net.sweep transitions) session.engine.board = some board)
    (within : graph.net.sweep transitions = [] ∨
      fired + (graph.net.sweep transitions).length ≤ limit) :
    ∃ tally, firePass limit transitions fired session =
      (.ok (fired + (graph.net.sweep transitions).length),
        ⟨session.engine.withCircuit (graph.net.firedAll (graph.net.sweep transitions)) board,
          tally⟩) := by
  induction transitions generalizing fired session graph with
  | nil =>
      cases played
      refine ⟨session.tally, ?_⟩
      simp [firePass, Net.sweep, Net.firedAll, Engine.withCircuit_self held]
  | cons transition rest ih =>
      unfold Net.sweep at played within timely ⊢
      cases enabled : graph.net.isEnabled transition with
      | false =>
          simp only [enabled, Bool.false_eq_true, ↓reduceIte] at played within timely ⊢
          obtain ⟨tally, answered⟩ := request_blocked held enabled
          have stage : (Session.mk session.engine tally).engine.graph = some graph := held
          obtain ⟨last, passed⟩ := ih fired stage functional timely played within
          exact ⟨last, by rw [firePass, answered]; exact passed⟩
      | true =>
          simp only [enabled, ↓reduceIte, List.length_cons, reduceCtorEq, false_or] at played within ⊢
          simp only [enabled, ↓reduceIte, List.forall_mem_cons] at timely
          rw [Circuit.playAll_cons, Option.bind_eq_some_iff] at played
          obtain ⟨next, first, others⟩ := played
          obtain ⟨tally, answered⟩ : ∃ tally, session.request (Task.firing transition) =
              (.ok (.bool true),
                ⟨session.engine.withCircuit (graph.net.fired transition) next, tally⟩) := by
            rcases request_enabled held enabled with
              ⟨board, tally, played, answered, -⟩ | ⟨_, _, _, _, _, _, failed⟩
            · obtain rfl : board = next := Option.some.inj (played.symm.trans first)
              exact ⟨tally, answered⟩
            · rw [first] at failed
              cases failed functional timely.1
          have same := graph.net.bare_fired transition
          rw [← Circuit.playAll_of_bare same] at others
          rw [← Circuit.delay_of_bare same] at timely
          have rest' : fired + 1 + ((graph.net.fired transition).sweep rest).length ≤ limit := by
            omega
          have stage : (Session.mk (session.engine.withCircuit (graph.net.fired transition) next)
              tally).engine.graph = some { graph with net := graph.net.fired transition } :=
            Engine.graph_withCircuit held _ _
          obtain ⟨last, passed⟩ := ih (fired + 1) stage (functional.of_bare same.symm) timely.2 others
            (.inr rest')
          refine ⟨last, ?_⟩
          rw [firePass, answered]
          simp only [hasFired, ↓reduceIte, show ¬limit < fired + 1 by omega]
          rw [passed, Engine.withCircuit_withCircuit, Nat.add_right_comm]
          rfl

/-- In a pass that succeeds just those transitions fire that the net fires, and their actions
succeed and do not take too long. -/
theorem playAll_of_firePass {limit fired total : Nat} {transitions : List String}
    {after : Session} (held : session.engine.graph = some graph)
    (passed : firePass limit transitions fired session = (.ok total, after)) :
    graph.net.playAll (graph.net.sweep transitions) session.engine.board =
        some after.engine.board ∧
      total = fired + (graph.net.sweep transitions).length ∧
      (graph.net.sweep transitions = [] ∨ total ≤ limit) ∧
      after.engine = session.engine.withCircuit
        (graph.net.firedAll (graph.net.sweep transitions)) after.engine.board ∧
      firedInPass limit transitions fired session = graph.net.sweep transitions ∧
      (graph.net.Functional → ∀ transition ∈ graph.net.sweep transitions,
        fits session.engine.config.taskTimeout (graph.net.delay transition) = true) := by
  induction transitions generalizing fired session graph with
  | nil =>
      cases passed
      simp [Net.sweep, Net.firedAll, Engine.withCircuit_self held, firedInPass]
  | cons transition rest ih =>
      unfold Net.sweep firedInPass
      cases enabled : graph.net.isEnabled transition with
      | false =>
          obtain ⟨tally, answered⟩ := request_blocked held enabled
          rw [firePass, answered] at passed
          rw [answered]
          have stage : (Session.mk session.engine tally).engine.graph = some graph := held
          exact ih stage passed
      | true =>
          rcases request_enabled held enabled with
            ⟨next, tally, first, answered, timely⟩ | ⟨_, _, _, _, answered, -⟩
          · rw [firePass, answered] at passed
            rw [answered]
            simp only [hasFired, ↓reduceIte] at passed ⊢
            split at passed
            · cases passed
            · next notOver =>
                obtain ⟨others, length, within, same, log, prompt⟩ :=
                  ih (Engine.graph_withCircuit held _ _) passed
                rw [Circuit.playAll_of_bare (graph.net.bare_fired transition)] at others
                dsimp only at length within
                rw [Circuit.delay_of_bare (graph.net.bare_fired transition)] at prompt
                refine ⟨?_, ?_, .inr ?_, ?_, ?_, fun functional => ?_⟩
                · rw [Circuit.playAll_cons, first]
                  exact others
                · rw [length, List.length_cons]
                  omega
                · rcases within with none | le
                  · rw [length, none, List.length_nil]
                    omega
                  · exact le
                · rw [same, Engine.withCircuit_withCircuit]
                  rfl
                · rw [if_neg notOver, log]
                · exact List.forall_mem_cons.mpr ⟨timely functional,
                    prompt (functional.of_bare (graph.net.bare_fired transition).symm)⟩
          · rw [firePass, answered] at passed
            cases passed

/-- However a pass ends, of the engine it changes tokens and the board only. -/
theorem firePass_frame (limit fired : Nat) (transitions : List String)
    (held : session.engine.graph = some graph) :
    ∃ net board, (firePass limit transitions fired session).2.engine =
        session.engine.withCircuit net board ∧ net.bare = graph.net.bare := by
  induction transitions generalizing fired session graph with
  | nil => exact ⟨graph.net, session.engine.board, (Engine.withCircuit_self held).symm, rfl⟩
  | cons transition rest ih =>
      cases enabled : graph.net.isEnabled transition with
      | false =>
          obtain ⟨tally, answered⟩ := request_blocked held enabled
          rw [firePass, answered]
          have stage : (Session.mk session.engine tally).engine.graph = some graph := held
          exact ih fired stage
      | true =>
          rcases request_enabled held enabled with
            ⟨next, tally, first, answered, -⟩ | ⟨failure, net, board, tally, answered, same, -⟩
          · rw [firePass, answered]
            simp only [hasFired, ↓reduceIte]
            split
            · exact ⟨_, _, rfl, graph.net.bare_fired transition⟩
            · have stage : (Session.mk (session.engine.withCircuit (graph.net.fired transition) next)
                  tally).engine.graph = some { graph with net := graph.net.fired transition } :=
                Engine.graph_withCircuit held _ _
              obtain ⟨net, board, same, bare⟩ := ih (fired + 1) stage
              refine ⟨net, board, ?_, bare.trans (graph.net.bare_fired transition)⟩
              rw [same, Engine.withCircuit_withCircuit]
          · rw [firePass, answered]
            exact ⟨net, board, rfl, same⟩

theorem transitions_eq (held : session.engine.graph = some graph) :
    session.engine.transitions = .ok graph.net.transitions.names := by
  rw [Engine.transitions, Engine.bench_eq held]
  rfl

/-- The passes succeed when the actions do that exhaust the net, stay within the limit, and do not
take too long. -/
theorem firePasses_of_exhausts (limit fired : Nat) {trace : List String}
    (held : session.engine.graph = some graph) (functional : graph.net.Functional)
    (timely : ∀ transition ∈ trace,
      fits session.engine.config.taskTimeout (graph.net.delay transition) = true)
    (exhausts : graph.net.Exhausts trace) {board : Board}
    (played : graph.net.playAll trace session.engine.board = some board)
    (within : fired + trace.length ≤ limit) :
    ∃ tally, firePasses limit fired session = (.ok (fired + trace.length),
      ⟨session.engine.withCircuit (graph.net.firedAll trace) board, tally⟩) := by
  generalize same : graph.net = net at exhausts
  induction exhausts generalizing fired session graph with
  | still still =>
      subst same
      cases played
      obtain ⟨tally, passed⟩ := firePass_of_playAll limit fired held functional
        (by rw [still]; exact timely) (still ▸ rfl : graph.net.playAll (graph.net.sweep graph.net.transitions.names)
          session.engine.board = some session.engine.board) (.inl still)
      refine ⟨tally, ?_⟩
      unfold firePasses
      rw [transitions_eq held]
      dsimp only
      split
      · next stopped => rw [passed] at stopped; cases stopped
      · next done =>
          rw [passed, still] at done
          cases done
          simp
  | @pass net trace rest fires moving exhausts ih =>
      subst same fires
      rw [Circuit.playAll_append, Option.bind_eq_some_iff] at played
      obtain ⟨middle, first, others⟩ := played
      rw [List.length_append] at within
      have positive := List.length_pos_iff.mpr moving
      rw [List.forall_mem_append] at timely
      obtain ⟨tally, passed⟩ := firePass_of_playAll limit fired held functional timely.1 first (.inr (by omega))
      have same := graph.net.bare_firedAll (graph.net.sweep graph.net.transitions.names)
      rw [← Circuit.playAll_of_bare same] at others
      rw [← Circuit.delay_of_bare same] at timely
      have stage : (Session.mk (session.engine.withCircuit (graph.net.firedAll
          (graph.net.sweep graph.net.transitions.names)) middle) tally).engine.graph =
            some { graph with
              net := graph.net.firedAll (graph.net.sweep graph.net.transitions.names) } :=
        Engine.graph_withCircuit held _ _
      obtain ⟨last, done⟩ := ih (fired + (graph.net.sweep graph.net.transitions.names).length) stage
        (functional.of_bare same.symm) timely.2 others (by omega) rfl
      refine ⟨last, ?_⟩
      unfold firePasses
      rw [transitions_eq held]
      dsimp only
      split
      · next stopped => rw [passed] at stopped; cases stopped
      · next total after went =>
          rw [passed] at went
          cases went
          rw [dif_neg (by omega), done, Engine.withCircuit_withCircuit, List.length_append,
            Net.firedAll_append, Nat.add_assoc]

/-- When the passes succeed, the transitions that they fire exhaust the net, and their actions
succeed and do not take too long. -/
theorem exhausts_of_firePasses {limit fired total : Nat} {after : Session}
    (held : session.engine.graph = some graph)
    (done : firePasses limit fired session = (.ok total, after)) :
    graph.net.Exhausts (firedInPasses limit fired session) ∧
      graph.net.playAll (firedInPasses limit fired session) session.engine.board =
        some after.engine.board ∧
      total = fired + (firedInPasses limit fired session).length ∧
      (firedInPasses limit fired session = [] ∨ total ≤ limit) ∧
      after.engine = session.engine.withCircuit
        (graph.net.firedAll (firedInPasses limit fired session)) after.engine.board ∧
      (graph.net.Functional → ∀ transition ∈ firedInPasses limit fired session,
        fits session.engine.config.taskTimeout (graph.net.delay transition) = true) := by
  fun_induction firePasses limit fired session generalizing graph with
  | case1 fired session failure none => cases done
  | case2 fired session transitions listed failure next stopped => cases done
  | case3 session transitions listed fired next passed =>
      have log := firedInPasses_of_still listed passed
      cases done
      rw [transitions_eq held, Except.ok.injEq] at listed
      subst listed
      obtain ⟨played, length, -, same, fires, -⟩ := playAll_of_firePass held passed
      have still : graph.net.sweep graph.net.transitions.names = [] :=
        List.length_eq_zero_iff.mp (by omega)
      rw [log, fires]
      rw [still] at played same ⊢
      exact ⟨.still still, played, rfl, .inl rfl, same, fun _ => List.forall_mem_nil _⟩
  | case4 fired session transitions listed total next passed moved ih =>
      have log := firedInPasses_of_moved listed moved passed
      rw [transitions_eq held, Except.ok.injEq] at listed
      subst listed
      obtain ⟨played, length, within, same, fires, timely⟩ := playAll_of_firePass held passed
      have moving : graph.net.sweep graph.net.transitions.names ≠ [] := by
        intro still
        rw [still] at length
        exact moved length
      have stage := Engine.graph_withCircuit held (graph.net.firedAll
        (graph.net.sweep graph.net.transitions.names)) next.engine.board
      rw [← same] at stage
      obtain ⟨exhausts, others, count, bound, last, prompt⟩ := ih stage done
      have bare := graph.net.bare_firedAll (graph.net.sweep graph.net.transitions.names)
      rw [Circuit.playAll_of_bare bare] at others
      rw [Circuit.delay_of_bare bare, same] at prompt
      rw [log, fires]
      refine ⟨.pass rfl moving exhausts, ?_, ?_, .inr ?_, ?_, fun functional => ?_⟩
      · rw [Circuit.playAll_append, played]
        exact others
      · rw [count, length, List.length_append, Nat.add_assoc]
      · rcases bound with none | le
        · rw [count, none, List.length_nil]
          exact within.resolve_left moving
        · exact le
      · rw [last, same, Engine.withCircuit_withCircuit, Net.firedAll_append]
        rfl
      · exact List.forall_mem_append.mpr ⟨timely functional, prompt (functional.of_bare bare.symm)⟩

/-- However the passes end, of the engine they change tokens and the board only. -/
theorem firePasses_frame (limit fired : Nat) (held : session.engine.graph = some graph) :
    ∃ net board, (firePasses limit fired session).2.engine =
        session.engine.withCircuit net board ∧ net.bare = graph.net.bare := by
  fun_induction firePasses limit fired session generalizing graph with
  | case1 fired session failure none =>
      rw [transitions_eq held] at none
      cases none
  | case2 fired session transitions listed failure next stopped =>
      have frame := firePass_frame limit fired transitions held
      rwa [stopped] at frame
  | case3 session transitions listed fired next passed =>
      have frame := firePass_frame limit fired transitions held
      rwa [passed] at frame
  | case4 fired session transitions listed total next passed moved ih =>
      obtain ⟨net, board, same, bare⟩ := firePass_frame limit fired transitions held
      rw [passed] at same
      have stage := Engine.graph_withCircuit held net board
      rw [← same] at stage
      obtain ⟨last, final, equal, kept⟩ := ih stage
      exact ⟨last, final, by rw [equal, same, Engine.withCircuit_withCircuit], kept.trans bare⟩

end Session

end CardNet
