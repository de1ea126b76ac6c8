import CardNet.Proofs.Engine.Answers
import CardNet.Proofs.Graph.Rewiring

/-!
# Histories

A session in which a graph is built, run, given values and rewired, one call after the other
(`Session.History`). The circuit of the graph always draws connections that are known
(`Graph.Sound`), and what is recorded, if it may be used again, is always what the last run left
(`Session.History.remembered`).
-/

namespace CardNet

variable {cards : List Card} {connections : List Connection}

/-! ## Graphs that are edited -/

/-- A graph of some cards that draws some of the connections that are known, and is ready to be
run. -/
structure Graph.Sound (graph : Graph) (cards : List Card) (connections : List Connection) :
    Prop where
  known : graph.cards = cards
  registered : ∀ id connection, graph.connections.get? id = some connection →
    connection ∈ connections
  ready : ∃ laid : List Connection, (∀ connection ∈ laid, connection ∈ connections) ∧
    graph.Ready cards connections laid

namespace Graph

variable {graph : Graph}

/-- Tokens do not matter for whether a graph is sound. -/
theorem Sound.of_bare (sound : graph.Sound cards connections) {net : Circuit}
    (same : net.bare = graph.net.bare) :
    ({ graph with net := net } : Graph).Sound cards connections where
  known := sound.known
  registered := sound.registered
  ready := by
    obtain ⟨laid, known, ready⟩ := sound.ready
    exact ⟨laid, known, ready.draws.of_bare same.symm, ready.compiled.of_bare same⟩

/-- A graph whose circuit draws known connections is sound once its plans are made. -/
theorem sound_of_recompile (graph : Graph) {after : Graph} (known : graph.cards = cards)
    (registered : ∀ id connection, graph.connections.get? id = some connection →
      connection ∈ connections)
    {laid : List Connection} (members : ∀ connection ∈ laid, connection ∈ connections)
    (draws : graph.net.Draws cards connections graph.channel laid)
    (made : graph.recompile = (.ok (), after)) : after.Sound cards connections := by
  obtain ⟨⟨paths, plan, rfl⟩, compiled⟩ := recompile_spec made
  exact ⟨known, registered, laid, members, draws, compiled rfl⟩

/-- A graph that was built is sound. -/
theorem sound_of_build (distinct : DistinctNames cards connections)
    (quiet : Eventless cards connections) {config : GraphConfig}
    (known : ∀ connection ∈ config.connections, connection ∈ connections) {mode : Mode}
    {globals : Option Values} {board start : Board}
    (built : build mode config cards globals board = (.ok graph, start)) :
    graph.Sound cards connections := by
  obtain ⟨net, shows, builds⟩ := build_eq distinct known
    (fun connection member => quiet connection (known connection member)) board
  obtain ⟨registry, warnings, registered, same⟩ := builds mode globals
  rw [same, Bench.recompile] at built
  rcases made : Graph.recompile (Bench.mk (assembled mode net cards board.nextSlot globals.isSome
    registry warnings) (groundwork board globals)).seed.graph with ⟨failure | _, after⟩
  · rw [made] at built
    cases built
  · rw [made] at built
    cases built
    exact sound_of_recompile _ rfl
      (fun id connection found => known _ (registered id connection found)) known
      (shows.of_bare (net.bare_seedAll net.seedPlaces).symm) made

end Graph

namespace Bench

variable {bench after : Bench} {connection : Connection}

/-- A graph to which a connection was added is sound. -/
theorem sound_of_addConnection (sound : bench.graph.Sound cards connections)
    (distinct : DistinctNames cards connections) (quiet : Eventless cards connections)
    (member : connection ∈ connections) {id : String}
    (added : bench.addConnection connection = (.ok id, after)) :
    after.graph.Sound cards connections := by
  obtain ⟨laid, known, ready⟩ := sound.ready
  obtain ⟨net, warnings, connected, draws⟩ :=
    connect_draws ready.draws distinct quiet known member sound.known
  have registered : ∀ id other,
      (bench.graph.connections.insert connection.id connection).get? id = some other →
        other ∈ connections := by
    intro id other found
    rw [Registry.get?_insert] at found
    split at found
    · exact Option.some.inj found ▸ member
    · exact sound.registered id other found
  simp only [addConnection, connected, recompile] at added
  rcases made : Graph.recompile (bench.relaid net
    (bench.graph.connections.insert connection.id connection) warnings).graph with
    ⟨failure | _, graph⟩
  · rw [made] at added
    cases added
  · rw [made] at added
    cases added
    exact Graph.sound_of_recompile (bench.relaid net _ warnings).graph sound.known
      registered (List.forall_mem_cons.mpr ⟨member, known⟩) draws made

/-- A graph from which a connection was removed is sound; when there was none of the id, nothing
has changed. -/
theorem sound_of_removeConnection (sound : bench.graph.Sound cards connections)
    (distinct : DistinctNames cards connections) {id : String} {found : Bool}
    (removed : bench.removeConnection id = (.ok found, after)) :
    after.graph.Sound cards connections ∧ (found = false → after = bench) := by
  unfold removeConnection at removed
  split at removed
  · cases removed
    exact ⟨sound, fun _ => rfl⟩
  · next connection held =>
      have member := sound.registered id connection held
      obtain ⟨laid, known, ready⟩ := sound.ready
      have registered : ∀ other found,
          (bench.graph.connections.erase id).get? other = some found → found ∈ connections := by
        intro other found held
        rw [Registry.get?_erase] at held
        split at held
        · cases held
        · exact sound.registered other found held
      obtain ⟨net, uprooted, draws⟩ := uproot_draws ⟨{ bench.graph with
        connections := bench.graph.connections.erase id }, bench.board⟩ ready.draws distinct known
        member
      simp only [uprooted, recompile] at removed
      rcases made : Graph.recompile { bench.graph with
        connections := bench.graph.connections.erase id, net := net } with ⟨failure | _, graph⟩
      · rw [made] at removed
        cases removed
      · rw [made] at removed
        cases removed
        refine ⟨Graph.sound_of_recompile { bench.graph with
          connections := bench.graph.connections.erase id, net := net } sound.known registered
          (fun other inside => known other (List.mem_filter.mp inside).1) draws made, nofun⟩

end Bench

/-! ## Records -/

namespace Engine

variable {engine : Engine} {graph : Graph} {laid : List Connection} {inputs : Values}
  {trace : List String} {start finish : Board}

/-- Setting the value of a place changes at most the value of the anchor that the place shows. -/
theorem setPlace_cases (held : engine.graph = some graph) (place : String) (value : Value) :
    (engine.setPlace place value).2 = engine ∨
      ∃ content slot, graph.net.content? place = some content ∧ content.anchor? = some slot ∧
        (engine.setPlace place value).2 =
          { engine with board := engine.board.write slot value } := by
  have same : engine.withBench ⟨graph, engine.board⟩ = engine := by
    cases engine
    cases held
    rfl
  simp only [setPlace, bench_eq held]
  unfold Bench.setPlace
  dsimp only
  cases found : graph.net.place? place with
  | none => exact .inl same
  | some known =>
      cases shown : known.content with
      | none =>
          simp only [shown, Option.map_none]
          exact .inl same
      | some content =>
          cases content with
          | anchor card slot =>
              refine .inr ⟨.anchor card slot, slot, ?_, rfl, ?_⟩
              · rw [Net.content?, found, Option.bind_some, shown]
              · cases engine
                cases held
                simp only [shown]
                rfl
          | event | trigger | relay =>
              simp only [shown]
              exact .inl same

/-- What is recorded stays what the last run left when the value of an entry is set. -/
theorem Remembered.setPlace (remembered : engine.Remembered graph cards inputs trace start finish)
    (held : engine.graph = some graph) (ready : graph.Ready cards connections laid)
    (slots : DistinctSlots cards) {place : String} (entry : place ∈ graph.net.entryPlaces)
    (value : Value) :
    (engine.setPlace place value).2.Remembered graph cards inputs trace start finish := by
  rcases setPlace_cases held place value with same | ⟨content, slot, found, shows, same⟩
  · rw [same]
    exact remembered
  · rw [same]
    refine { remembered with kept := fun card known other member inner => ?_ }
    obtain ⟨owner, known', member', rfl⟩ := ready.draws.anchor_of_content found shows
    rw [Board.read_write, if_neg, remembered.kept card known other member inner]
    intro equal
    obtain ⟨rfl, rfl⟩ := slots owner known' slot member' card known other member equal
    exact inner entry

/-- What a run that succeeded has recorded is what it left. -/
theorem Recorded.remembered {last : Engine} {merged : Values}
    (recorded : last.Recorded
      (((Bench.mk graph engine.board).opened merged).finished trace finish) merged)
    (config : last.config = engine.config)
    (course : ((Bench.mk graph engine.board).opened merged).graph.Course engine.config trace)
    (played : graph.net.playAll trace ((Bench.mk graph engine.board).opened merged).board =
      some finish)
    (ready : graph.Ready cards connections laid) (distinct : DistinctNames cards connections)
    (slots : DistinctSlots cards) :
    last.Remembered (((Bench.mk graph engine.board).opened merged).finished trace finish).graph
      cards merged trace ((Bench.mk graph engine.board).opened merged).board finish := by
  refine ⟨recorded.memo, recorded.outputs, fun board other => ?_, ?_, ?_, ?_, ?_⟩
  · rw [config]
    exact course.reopened ready.draws distinct board other
  · have left := (Graph.bare_spent (Bench.opened ⟨graph, engine.board⟩ merged).graph trace).trans
      (Bench.bare_opened ⟨graph, engine.board⟩ merged)
    exact (congrFun (congrFun (Circuit.playAll_of_bare left) trace) _).trans played
  · exact Bench.inputs_opened ⟨graph, engine.board⟩ merged
  · intro card known slot member value default
    rw [Bench.read_opened ready.draws slots known member, default,
      Option.getD_some]
  · intro card known slot member inner
    rw [recorded.board]
    rfl

/-- An engine with a sound graph, whose records are not used or are what the last run left. -/
def Settled (engine : Engine) (cards : List Card) (connections : List Connection) : Prop :=
  ∃ graph, engine.graph = some graph ∧ graph.Sound cards connections ∧
    (engine.records.memo = none ∨
      ∃ inputs trace start finish, engine.Remembered graph cards inputs trace start finish)

variable {after : Engine} {connection : Connection} {id : String}

theorem Settled.addConnection (settled : engine.Settled cards connections)
    (distinct : DistinctNames cards connections) (quiet : Eventless cards connections)
    (member : connection ∈ connections)
    (added : engine.addConnection connection = (.ok id, after)) :
    after.Settled cards connections := by
  obtain ⟨graph, held, sound, -⟩ := settled
  simp only [Engine.addConnection, bench_eq held] at added
  rcases done : Bench.addConnection ⟨graph, engine.board⟩ connection with ⟨failure | id, bench⟩
  · rw [done] at added
    cases added
  · rw [done] at added
    cases added
    exact ⟨bench.graph, rfl, Bench.sound_of_addConnection sound distinct quiet member done,
      .inl rfl⟩

theorem Settled.removeConnection (settled : engine.Settled cards connections)
    (distinct : DistinctNames cards connections) {found : Bool}
    (removed : engine.removeConnection id = (.ok found, after)) :
    after.Settled cards connections := by
  obtain ⟨graph, held, sound, recorded⟩ := settled
  simp only [Engine.removeConnection, bench_eq held] at removed
  rcases done : Bench.removeConnection ⟨graph, engine.board⟩ id with ⟨failure | found, bench⟩
  · rw [done] at removed
    cases removed
  · obtain ⟨still, same⟩ := Bench.sound_of_removeConnection sound distinct done
    rw [done] at removed
    cases found with
    | true =>
        cases removed
        exact ⟨bench.graph, rfl, still, .inl rfl⟩
    | false =>
        cases removed
        obtain rfl := same rfl
        have unchanged : engine.withBench ⟨graph, engine.board⟩ = engine := by
          cases engine
          cases held
          rfl
        rw [unchanged]
        exact ⟨graph, held, sound, recorded⟩

theorem Settled.setPlace (settled : engine.Settled cards connections)
    (slots : DistinctSlots cards) (held : engine.graph = some graph) {place : String}
    (entry : place ∈ graph.net.entryPlaces) (value : Value) :
    (engine.setPlace place value).2.Settled cards connections := by
  obtain ⟨other, held', sound, recorded⟩ := settled
  obtain rfl : other = graph := Option.some.inj (held'.symm.trans held)
  obtain ⟨laid, -, ready⟩ := sound.ready
  have stage : (engine.setPlace place value).2.graph = some other ∧
      (engine.setPlace place value).2.records = engine.records := by
    rcases setPlace_cases held place value with same | ⟨_, _, _, _, same⟩ <;>
      exact ⟨by rw [same]; exact held, by rw [same]⟩
  refine ⟨other, stage.1, sound, ?_⟩
  rw [stage.2]
  refine recorded.imp_right ?_
  rintro ⟨inputs, trace, start, finish, remembered⟩
  exact ⟨inputs, trace, start, finish, remembered.setPlace held ready slots entry value⟩

end Engine

/-! ## Sessions -/

namespace Session

variable {session after : Session}

/-- A session in which a graph of some cards is built and then run, given values on its entry
places, and rewired with known connections, one call after the other. -/
inductive History (cards : List Card) (connections : List Connection) : Session → Prop where
  | build {config : GraphConfig} {settings : EngineConfig} {board : Board}
      {globals : Option Values} {report : Report} {session : Session} :
      (∀ connection ∈ config.connections, connection ∈ connections) →
      (idle settings board).build config cards globals = (.ok report, session) →
      History cards connections session
  | exec {session : Session} (inputs : Values) (force : Bool) :
      History cards connections session →
      History cards connections (session.exec inputs force).2
  | add {session after : Session} {connection : Connection} {id : String} :
      History cards connections session → connection ∈ connections →
      session.addConnection connection = (.ok id, after) → History cards connections after
  | remove {session after : Session} {id : String} {found : Bool} :
      History cards connections session →
      session.removeConnection id = (.ok found, after) → History cards connections after
  | input {session : Session} {graph : Graph} {place : String} (value : Value) :
      History cards connections session → session.engine.graph = some graph →
      place ∈ graph.net.entryPlaces →
      History cards connections (session.setInput place value).2

/-- A graph that could be built begins a history. -/
theorem History.of_build {config : GraphConfig} {settings : EngineConfig} {board : Board}
    {globals : Option Values} (known : ∀ connection ∈ config.connections, connection ∈ connections)
    (built : ((idle settings board).build config cards globals).1.toOption.isSome = true) :
    History cards connections ((idle settings board).build config cards globals).2 := by
  rcases made : (idle settings board).build config cards globals with ⟨failure | report, session⟩
  · rw [made] at built
    cases built
  · exact .build known made

/-- Setting the value of an entry place of the graph continues a history. -/
theorem History.of_input {place : String} (history : History cards connections session)
    (entry : (session.engine.graph.any fun graph => graph.net.entryPlaces.contains place) = true)
    (value : Value) : History cards connections (session.setInput place value).2 := by
  obtain ⟨graph, held, contains⟩ := (Option.any_eq_true _ _).mp entry
  exact .input value history held (List.contains_iff_mem.mp contains)

/-- Running a graph leaves an engine settled. -/
theorem settled_exec (settled : session.engine.Settled cards connections)
    (distinct : DistinctNames cards connections) (slots : DistinctSlots cards)
    (functions : ∀ card ∈ cards, ∃ run, card.work = .function run) (inputs : Values)
    (force : Bool) : (session.exec inputs force).2.engine.Settled cards connections := by
  obtain ⟨graph, held, sound, recorded⟩ := settled
  cases fresh : session.engine.answers graph inputs force with
  | true =>
      rw [exec_recorded held fresh]
      exact ⟨graph, held, sound, recorded⟩
  | false =>
      obtain ⟨laid, -, ready⟩ := sound.ready
      obtain ⟨net, kept, bare, -⟩ := exec_frame held inputs force
      have still := sound.of_bare bare
      rcases ran : session.exec inputs force with ⟨failure | outputs, after⟩
      · rw [ran] at kept
        exact ⟨_, kept, still, .inl (memo_of_exec_error ran)⟩
      · rw [ran] at kept
        obtain ⟨finish, course, played, -, last, config⟩ := course_of_exec held ready.compiled
          (fun id action => ready.draws.functional functions) fresh ran
        have remembered := last.remembered config course played ready distinct slots
        have same := Option.some.inj (kept.symm.trans last.graph)
        exact ⟨_, last.graph, same ▸ still, .inr ⟨_, _, _, _, remembered⟩⟩

/-- Whatever the history of a session, its engine is settled. -/
theorem History.settled (history : History cards connections session)
    (distinct : DistinctNames cards connections) (quiet : Eventless cards connections)
    (slots : DistinctSlots cards)
    (functions : ∀ card ∈ cards, ∃ run, card.work = .function run) :
    session.engine.Settled cards connections := by
  induction history with
  | @build config settings board globals report session known built =>
      simp only [Session.build, Engine.build, idle, Engine.idle] at built
      rcases made : Graph.build settings.mode config cards globals board with
        ⟨failure | graph, start⟩
      · rw [made] at built
        cases built
      · rw [made] at built
        cases built
        exact ⟨graph, rfl, Graph.sound_of_build distinct quiet known made, .inl rfl⟩
  | exec inputs force _ ih => exact settled_exec ih distinct slots functions inputs force
  | @add session after connection id _ member added ih =>
      obtain ⟨result, same⟩ := Prod.mk.inj added
      rw [← same]
      exact ih.addConnection distinct quiet member (Prod.ext result rfl)
  | @remove session after id found _ removed ih =>
      obtain ⟨result, same⟩ := Prod.mk.inj removed
      rw [← same]
      exact ih.removeConnection distinct (Prod.ext result rfl)
  | input value _ held entry ih => exact ih.setPlace slots held entry value

end Session

end CardNet
