import CardNet.Proofs.Engine.Firings
import CardNet.Proofs.Graph.FailedEdits
import CardNet.Proofs.Net.Firing

/-!
# How runs by firings end

A run by firings ends, whatever the circuit, its marking and the limit: each pass but the last one
fires something, and no pass begins when more has fired than may. When it ends well nothing may
fire any more; otherwise it stops behind firings that it has done, because they are one more than
may be (`Session.Stops`), or because one more was tried and failed (`Session.Misfires`). Whichever
way it ends, the tokens lie where the firings that succeeded have put them
(`Session.firePasses_ends`).
-/

namespace CardNet

namespace Session

variable {session after : Session} {graph : Graph} {transition : String} {failure : Failure}
variable {limit fired : Nat} {transitions trace : List String}

/-! ## Firings that fail -/

/-- A transition may fire, but its action fails or takes too long. Of the engine only the board
changes. -/
structure Misfires (session : Session) (graph : Graph) (transition : String) (failure : Failure)
    (after : Session) : Prop where
  enabled : graph.net.isEnabled transition = true
  answered : session.request (Task.firing transition) = (.error failure, after)
  cause : ∃ action, graph.net.transitions.get? transition = some action ∧
    if fits session.engine.config.taskTimeout (action.begin [] session.engine.board).1.delay then
      ∃ message, (action.act session.engine.board).1 = .error message ∧
        failure = .firing (.actionFailed transition message)
    else ∃ milliseconds, session.engine.config.taskTimeout = some milliseconds ∧
      failure = .timeout transition milliseconds
  engine : after.engine = { session.engine with board := after.engine.board }

theorem Misfires.ne_runaway (misfires : session.Misfires graph transition failure after)
    (limit : Nat) : failure ≠ .runaway limit := by
  obtain ⟨action, -, cause⟩ := misfires.cause
  split at cause
  · obtain ⟨message, -, rfl⟩ := cause
    exact nofun
  · obtain ⟨milliseconds, -, rfl⟩ := cause
    exact nofun

theorem withCircuit_board (held : session.engine.graph = some graph) (board : Board) :
    session.engine.withCircuit graph.net board = { session.engine with board := board } := by
  rw [Engine.withCircuit, held]
  simp [held]

/-- A firing that fails leaves the tokens as they were, since those that it took go back. -/
theorem misfires_of_request (held : session.engine.graph = some graph)
    (indexed : graph.net.Indexed) (enabled : graph.net.isEnabled transition = true)
    (failed : session.request (Task.firing transition) = (.error failure, after)) :
    session.Misfires graph transition failure after := by
  obtain ⟨action, found⟩ := get?_of_isEnabled enabled
  have answer := failed
  simp only [request, Task.firing, Engine.perform_fire held _ enabled found,
    indexed.refund_deduct enabled, withCircuit_board held] at answer
  by_cases timely : fits session.engine.config.taskTimeout
      (action.begin [] session.engine.board).1.delay = true
  · rw [if_pos timely] at answer
    rcases done : action.act session.engine.board with ⟨message | value, board⟩
    · rw [done] at answer
      cases answer
      exact ⟨enabled, failed, ⟨action, found, by rw [if_pos timely, done]; exact ⟨_, rfl, rfl⟩⟩, rfl⟩
    · rw [done] at answer
      cases answer
  · rw [if_neg timely] at answer
    cases answer
    refine ⟨enabled, failed, ⟨action, found, ?_⟩, rfl⟩
    rw [if_neg timely]
    cases given : session.engine.config.taskTimeout with
    | none => exact absurd (by rw [given]; rfl) timely
    | some milliseconds => exact ⟨milliseconds, rfl, rfl⟩

/-! ## Runs that stop -/

/-- A run stops behind firings of a trace: they are one more than may be, or the next one fails. -/
structure Stops (session : Session) (graph : Graph) (limit fired : Nat) (trace : List String)
    (failure : Failure) (after : Session) : Prop where
  fireable : graph.net.Fireable trace
  stage : ∃ board tally, graph.net.playAll trace session.engine.board = some board ∧
    let net := graph.net.firedAll trace
    let stage : Session := ⟨session.engine.withCircuit net board, tally⟩
    failure = .runaway limit ∧ fired + trace.length = limit + 1 ∧ after = stage ∨
      fired + trace.length ≤ limit ∧
        ∃ transition, stage.Misfires { graph with net := net } transition failure after

/-- Firings before those behind which a run stops. -/
theorem Stops.behind {board : Board} {tally : Tally} {first rest : List String}
    (stops : Stops ⟨session.engine.withCircuit (graph.net.firedAll first) board, tally⟩
      { graph with net := graph.net.firedAll first } limit (fired + first.length) rest failure
      after)
    (fireable : graph.net.Fireable first)
    (played : graph.net.playAll first session.engine.board = some board) :
    session.Stops graph limit fired (first ++ rest) failure after := by
  obtain ⟨later, last, end', others, ends⟩ := stops
  rw [Circuit.playAll_of_bare (graph.net.bare_firedAll first)] at others
  refine ⟨Net.fireable_append.mpr ⟨fireable, later⟩, last, end', ?_, ?_⟩
  · rw [Circuit.playAll_append, played]
    exact others
  · simp only [Engine.withCircuit_withCircuit] at ends
    rw [Net.firedAll_append, List.length_append, ← Nat.add_assoc]
    exact ends

/-- A pass that does not succeed stops behind the firings that it has done. -/
theorem stops_of_firePass (held : session.engine.graph = some graph)
    (indexed : graph.net.Indexed) (within : fired ≤ limit)
    (stopped : firePass limit transitions fired session = (.error failure, after)) :
    session.Stops graph limit fired (firedInPass limit transitions fired session) failure
      after := by
  induction transitions generalizing fired session graph with
  | nil => cases stopped
  | cons transition rest ih =>
      unfold firedInPass
      cases enabled : graph.net.isEnabled transition with
      | false =>
          obtain ⟨tally, answered⟩ := request_blocked held enabled
          rw [firePass, answered] at stopped
          rw [answered]
          have stage : (Session.mk session.engine tally).engine.graph = some graph := held
          have later := ih stage indexed within stopped
          exact ⟨later.fireable, later.stage⟩
      | true =>
          rcases request_enabled held enabled with
            ⟨board, tally, played, answered, -⟩ | ⟨other, net, board, tally, answered, -⟩
          · rw [firePass, answered] at stopped
            rw [answered]
            simp only [hasFired, ↓reduceIte] at stopped ⊢
            have first : graph.net.playAll [transition] session.engine.board = some board := by
              rw [Circuit.playAll_cons, played]
              rfl
            split at stopped
            · next beyond =>
                rw [if_pos beyond]
                cases stopped
                refine ⟨⟨enabled, trivial⟩, board, tally, first, .inl ⟨rfl, ?_, rfl⟩⟩
                rw [List.length_singleton]
                omega
            · next notOver =>
                rw [if_neg notOver]
                have later := ih (Engine.graph_withCircuit held _ board)
                  (indexed.of_bare (graph.net.bare_fired transition)) (by omega) stopped
                have enabled' : graph.net.Fireable [transition] := ⟨enabled, trivial⟩
                exact Stops.behind later enabled' first
          · rw [firePass, answered] at stopped
            rw [answered]
            cases stopped
            refine ⟨trivial, session.engine.board, session.tally, rfl, .inr ⟨within, transition, ?_⟩⟩
            simp only [Net.firedAll, List.foldl_nil, Engine.withCircuit_self held]
            exact misfires_of_request held indexed enabled answered

/-- Passes that do not succeed stop behind the firings that they have done. -/
theorem stops_of_firePasses (held : session.engine.graph = some graph)
    (indexed : graph.net.Indexed) (within : fired ≤ limit)
    (stopped : firePasses limit fired session = (.error failure, after)) :
    session.Stops graph limit fired (firedInPasses limit fired session) failure after := by
  fun_induction firePasses limit fired session generalizing graph with
  | case1 fired session failure none =>
      rw [transitions_eq held] at none
      cases none
  | case2 fired session transitions listed other next failed =>
      rw [firedInPasses_of_stopped listed failed]
      cases stopped
      exact stops_of_firePass held indexed within failed
  | case3 session transitions listed fired next passed => cases stopped
  | case4 fired session transitions listed total next passed moved ih =>
      rw [firedInPasses_of_moved listed moved passed]
      rw [transitions_eq held, Except.ok.injEq] at listed
      subst listed
      obtain ⟨played, length, bound, same, fires, -⟩ := playAll_of_firePass held passed
      have moving : graph.net.sweep graph.net.transitions.names ≠ [] := fun still =>
        moved (by rw [length, still]; rfl)
      have stage := Engine.graph_withCircuit held (graph.net.firedAll
        (graph.net.sweep graph.net.transitions.names)) next.engine.board
      rw [← same] at stage
      have later := ih stage (indexed.of_bare (graph.net.bare_firedAll _))
        (bound.resolve_left moving) stopped
      subst length
      rw [fires]
      have whole : next = ⟨session.engine.withCircuit (graph.net.firedAll
          (graph.net.sweep graph.net.transitions.names)) next.engine.board, next.tally⟩ := by
        rw [← same]
      generalize firedInPasses limit _ next = rest at later ⊢
      rw [whole] at later
      exact Stops.behind later (graph.net.fireable_sweep _) played

/-! ## The length of a run -/

theorem submitted_request (session : Session) (request : Request Task) :
    (session.request request).2.tally.submitted = session.tally.submitted + 1 := by
  unfold Session.request
  dsimp only
  cases ((session.engine.perform session.engine.config.taskTimeout request.task).1.getD _) <;> rfl

/-- A pass makes at most one request for each transition. -/
theorem submitted_firePass (limit fired : Nat) (transitions : List String) (session : Session) :
    (firePass limit transitions fired session).2.tally.submitted ≤
      session.tally.submitted + transitions.length := by
  induction transitions generalizing fired session with
  | nil => exact Nat.le_refl _
  | cons transition rest ih =>
      have one := session.submitted_request (Task.firing transition)
      unfold firePass
      rcases answered : session.request (Task.firing transition) with ⟨failure | answer, next⟩ <;>
        rw [answered] at one <;> dsimp only at one ⊢
      · rw [one, List.length_cons]
        omega
      · have fires := ih (fired + 1) next
        have skips := ih fired next
        rw [List.length_cons]
        split
        · split
          · dsimp only
            omega
          · omega
        · omega

/-- Each pass but the last one fires something, so their number is limited too. -/
theorem submitted_firePasses (held : session.engine.graph = some graph) (within : fired ≤ limit) :
    (firePasses limit fired session).2.tally.submitted ≤
      session.tally.submitted + (limit + 1 - fired) * graph.net.transitions.names.length := by
  fun_induction firePasses limit fired session generalizing graph with
  | case1 fired session failure none => exact Nat.le_add_right _ _
  | case2 fired session transitions listed other next failed =>
      rw [transitions_eq held, Except.ok.injEq] at listed
      have pass := submitted_firePass limit fired transitions session
      rw [failed] at pass
      subst listed
      refine Nat.le_trans pass (Nat.add_le_add_left (Nat.le_mul_of_pos_left _ ?_) _)
      omega
  | case3 session transitions listed fired next passed =>
      rw [transitions_eq held, Except.ok.injEq] at listed
      have pass := submitted_firePass limit fired transitions session
      rw [passed] at pass
      subst listed
      refine Nat.le_trans pass (Nat.add_le_add_left (Nat.le_mul_of_pos_left _ ?_) _)
      omega
  | case4 fired session transitions listed total next passed moved ih =>
      rw [transitions_eq held, Except.ok.injEq] at listed
      have pass := submitted_firePass limit fired transitions session
      rw [passed] at pass
      have more := (firePass_le passed).resolve_left moved
      subst listed
      obtain ⟨-, -, -, same, -, -⟩ := playAll_of_firePass held passed
      have stage := Engine.graph_withCircuit held (graph.net.firedAll
        (graph.net.sweep graph.net.transitions.names)) next.engine.board
      rw [← same] at stage
      have rest := ih stage more.2
      rw [Net.transitions_of_bare (graph.net.bare_firedAll _)] at rest
      -- The passes that are left are at least one fewer.
      have fewer : (limit + 1 - total) * graph.net.transitions.names.length +
          graph.net.transitions.names.length ≤
            (limit + 1 - fired) * graph.net.transitions.names.length := by
        rw [← Nat.succ_mul]
        exact Nat.mul_le_mul_right _ (by omega)
      dsimp only at pass
      omega

/-! ## The three ends of a run -/

/-- A run of the transitions of a graph that was built, and edited and run since, whatever its
marking, its board and the limit: it makes a limited number of requests. The transitions that fire
could fire when they did, and their actions succeeded. When the run ends well, it answers with
their number, which is within the limit, and nothing may fire any more. It is given up as over
the limit exactly when one more than the limit have fired. Otherwise one more may fire but fails,
with the failure of the run. In each case the tokens lie as the transitions that fired have left
them. -/
theorem firePasses_ends (held : session.engine.graph = some graph)
    (reached : (⟨graph, session.engine.board⟩ : Bench).Reached) (limit : Nat) :
    let trace := firedInPasses limit 0 session
    let net := graph.net.firedAll trace
    let done := firePasses limit 0 session
    done.2.tally.submitted ≤
        session.tally.submitted + (limit + 1) * graph.net.transitions.names.length ∧
      done.2.engine = session.engine.withCircuit net done.2.engine.board ∧
      graph.net.Fireable trace ∧
      ∃ board tally, graph.net.playAll trace session.engine.board = some board ∧
        let stage : Session := ⟨session.engine.withCircuit net board, tally⟩
        (∀ number, done.1 = .ok number → number = trace.length ∧ number ≤ limit ∧
          (∀ transition, net.isEnabled transition = false) ∧ done.2 = stage) ∧
        (done.1 = .error (.runaway limit) ↔ trace.length = limit + 1) ∧
        ∀ failure, done.1 = .error failure →
          failure = .runaway limit ∧ done.2 = stage ∨
            trace.length ≤ limit ∧
              ∃ transition, stage.Misfires { graph with net := net } transition failure done.2 := by
  intro trace net done
  have indexed : graph.net.Indexed := reached.seated.tidy.plain.indexed
  refine ⟨submitted_firePasses held (Nat.zero_le limit), ?_⟩
  rcases ends : done with ⟨failure | number, after⟩
  · have stops := stops_of_firePasses held indexed (Nat.zero_le limit) ends
    obtain ⟨fireable, board, tally, played, ends⟩ := stops
    rw [Nat.zero_add] at ends
    rcases ends with ⟨rfl, length, rfl⟩ | ⟨within, transition, misfires⟩
    · refine ⟨rfl, fireable, board, tally, played, nofun, iff_of_true rfl length, ?_⟩
      rintro _ same
      exact .inl ⟨(Except.error.inj same).symm, rfl⟩
    · refine ⟨?_, fireable, board, tally, played, nofun, ?_, ?_⟩
      · rw [misfires.engine]
        rfl
      · refine iff_of_false (fun same => misfires.ne_runaway limit (Except.error.inj same)) ?_
        show trace.length ≠ limit + 1
        have bound : trace.length ≤ limit := within
        omega
      · rintro _ same
        obtain rfl := Except.error.inj same
        exact .inr ⟨within, transition, misfires⟩
  · obtain ⟨exhausts, played, count, bound, engine, -⟩ := exhausts_of_firePasses held ends
    have length : number = trace.length := by rw [count, Nat.zero_add]
    have within : trace.length ≤ limit := by
      rcases bound with none | le
      · show (firedInPasses limit 0 session).length ≤ limit
        rw [none]
        exact Nat.zero_le _
      · omega
    refine ⟨engine, exhausts.fireable, after.engine.board, after.tally, played, ?_, ?_, nofun⟩
    · rintro _ same
      obtain rfl := Except.ok.inj same
      refine ⟨length, length ▸ within, exhausts.quiet, ?_⟩
      rw [← engine]
    · refine iff_of_false nofun ?_
      omega

end Session

/-! ## A circuit that could go on for ever -/

namespace Carousel

/-- Two cards that feed one another. -/
def seated : List Card × Board :=
  Board.empty.seatAll [Overheard.design "a" (Overheard.anchor "in" .input),
    Overheard.design "b" (Overheard.anchor "in" .input)]

def built : Except Failure Graph × Board :=
  Graph.build .visual ⟨"carousel", [⟨⟨"a", "out"⟩, ⟨"b", "in"⟩⟩, ⟨⟨"b", "out"⟩, ⟨"a", "in"⟩⟩]⟩
    seated.1 none seated.2

/-- A token lies behind the first card. -/
def started (graph : Graph) : Graph :=
  { graph with net := (graph.net.setTokens "place_a_out" 1).2 }

def session : Session := ⟨⟨.standard, built.1.toOption.map started, built.2, .blank⟩, .zero⟩

end Carousel

namespace Session

/-- A run with a limit of one is given up in the middle of its first pass, with two firings done. -/
theorem firePasses_ends_carousel :
    (firePasses 1 0 Carousel.session).1 = .error (.runaway 1) ∧
      (firedInPasses 1 0 Carousel.session).length = 2 := by
  have succeeds : Carousel.built.1.toOption.isSome = true := by decide +kernel
  have passes : (Carousel.session.engine.transitions.toOption.map fun transitions =>
      (firePass 1 transitions 0 Carousel.session).1) = some (.error (.runaway 1)) := by
    decide +kernel
  rcases result : Carousel.built with ⟨failure | graph, board⟩
  · rw [result] at succeeds
    cases succeeds
  · have held : Carousel.session.engine.graph = some (Carousel.started graph) := by
      rw [Carousel.session, result]
      rfl
    have reached : (⟨Carousel.started graph, Carousel.session.engine.board⟩ : Bench).Reached :=
      .run _ (Net.bare_modifyTokens graph.net "place_a_out" fun _ => 1) (.build result)
    rw [transitions_eq held] at passes
    have given : (firePass 1 (Carousel.started graph).net.transitions.names 0
        Carousel.session).1 = .error (.runaway 1) := Option.some.inj passes
    have ends : (firePasses 1 0 Carousel.session).1 = .error (.runaway 1) := by
      rw [firePasses, transitions_eq held]
      dsimp only
      split
      · next stopped =>
          rw [stopped] at given
          exact given
      · next passed =>
          rw [passed] at given
          cases given
    obtain ⟨-, -, -, -, -, -, -, exceeded, -⟩ := firePasses_ends held reached 1
    exact ⟨ends, exceeded.mp ends⟩

end Session

end CardNet
