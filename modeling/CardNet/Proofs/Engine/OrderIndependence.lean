import CardNet.Proofs.Engine.MemoizedAnswers
import CardNet.Proofs.Engine.ModeAgreement
import CardNet.Proofs.Graph.Rearranging

/-!
# The order of cards and connections

Function cards that are joined without a cycle answer the same whatever order cards and connections
are listed in, as long as of each id that a connection names the same card comes first
(`Session.replies_rearranged`). For two sessions with such graphs stay twins when they are run with
the same inputs (`Session.Twins.exec`). If another card of an id comes first, a connection may lead
elsewhere or be left out (`Session.replies_differ`).
-/

namespace CardNet

theorem Circuit.Alike.playAll_eq {first second : Circuit} (alike : first.Alike second) :
    first.playAll = second.playAll := by
  have plays : first.play = second.play := by
    funext transition board
    rw [play, play, alike.actions]
  funext trace board
  rw [playAll, playAll, plays]

theorem Graph.Ready.of_bare {graph : Graph} {cards : List Card} {connections laid : List Connection}
    (ready : graph.Ready cards connections laid) {net : Circuit}
    (same : net.bare = graph.net.bare) :
    ({ graph with net := net } : Graph).Ready cards connections laid :=
  ⟨ready.draws.of_bare same.symm, ready.compiled.of_bare same⟩

namespace Session

/-- The outputs of runs one after the other, up to the first that fails. -/
def replies (session : Session) : List (Values × Bool) → List (Option Values)
  | [] => []
  | (inputs, force) :: rest =>
      match session.exec inputs force with
      | (.ok outputs, after) => some outputs :: after.replies rest
      | (.error _, _) => [none]

/-- Sessions with graphs of the same cards and connections on the same board, with the same
records. -/
structure Twins (cards : List Card) (connections : List Connection) (first second : Session)
    (one two : Graph) : Prop where
  left : first.engine.graph = some one
  right : second.engine.graph = some two
  ready : one.Ready cards connections connections
  ready' : two.Ready cards connections connections
  channel : one.channel = two.channel
  supplies : one.suppliesGlobals = two.suppliesGlobals
  board : first.engine.board = second.engine.board
  config : first.engine.config = second.engine.config
  memo : first.engine.records.memo = second.engine.records.memo
  outputs : first.engine.records.outputs = second.engine.records.outputs

namespace Twins

variable {cards : List Card} {connections : List Connection} {first second : Session}
  {one two : Graph} {inputs : Values} {force : Bool}

theorem alike (twins : Twins cards connections first second one two) : one.net.Alike two.net :=
  twins.ready.draws.alike (twins.channel ▸ twins.ready'.draws)

theorem merged (twins : Twins cards connections first second one two) (inputs : Values) :
    one.mergeGlobals first.engine.board inputs = two.mergeGlobals second.engine.board inputs := by
  simp only [Graph.mergeGlobals, Graph.globals?, twins.board, twins.channel, twins.supplies]

/-- Whatever tokens lie on the places, runs of twins depend on the same values. -/
theorem entryValues (twins : Twins cards connections first second one two) {left right : Bench}
    (bare : left.graph.net.bare = one.net.bare) (bare' : right.graph.net.bare = two.net.bare)
    (board : left.board = right.board) : left.entryValues = right.entryValues := by
  have drawn := twins.ready.draws.of_bare bare.symm
  have drawn' := twins.ready'.draws.of_bare bare'.symm
  exact Bench.entryValues_alike (Circuit.Draws.alike drawn (twins.channel ▸ drawn')) board

/-- Twins are answered from the records together. -/
theorem answers (twins : Twins cards connections first second one two) (inputs : Values)
    (force : Bool) :
    first.engine.answers one inputs force = second.engine.answers two inputs force := by
  have entries : (Bench.mk one first.engine.board).entryValues =
      (Bench.mk two second.engine.board).entryValues := twins.entryValues rfl rfl twins.board
  simp only [Engine.answers, Engine.remembers, Bench.memoKey, entries, twins.merged, twins.memo]

/-- A run of twins starts from one board. -/
theorem opened (twins : Twins cards connections first second one two) (slots : DistinctSlots cards)
    (inputs : Values) :
    (first.engine.opened one inputs).board = (second.engine.opened two inputs).board := by
  rw [Engine.opened, Engine.opened, twins.merged]
  exact Bench.board_opened_alike twins.alike twins.ready.draws slots twins.board twins.channel _

/-- Twins answer the same. -/
theorem toOption_exec_eq (twins : Twins cards connections first second one two)
    (feed : FeedForward cards connections) (patient : first.engine.config.taskTimeout = none)
    (enough : one.net.transitions.size ≤ first.engine.config.maxFirings)
    (fresh : first.engine.answers one inputs force = false) :
    (second.exec inputs force).1.toOption = (first.exec inputs force).1.toOption := by
  have alike := twins.alike
  obtain ⟨order, all, arranged⟩ := feed.exists_order twins.ready.draws
  have outputs : (fun board => (Bench.mk two board).outputs) =
      fun board => (Bench.mk one board).outputs := by
    funext board
    have same : (Bench.mk one board).outputs = (Bench.mk two board).outputs :=
      Bench.outputs_alike alike twins.ready.draws rfl
    exact same.symm
  rw [toOption_exec twins.left twins.ready feed patient enough fresh all arranged,
    toOption_exec twins.right twins.ready' feed (twins.config ▸ patient)
      (by rwa [← twins.config, ← alike.size_transitions]) (twins.answers inputs force ▸ fresh)
      (all.trans alike.transitions) (alike.feeds_eq ▸ arranged),
    alike.playAll_eq, twins.opened feed.slots, outputs]

/-- Twins stay twins when they are run with success. -/
theorem exec (twins : Twins cards connections first second one two)
    (feed : FeedForward cards connections) (fresh : first.engine.answers one inputs force = false)
    {outputs : Values} {after after' : Session}
    (ran : first.exec inputs force = (.ok outputs, after))
    (ran' : second.exec inputs force = (.ok outputs, after')) :
    ∃ net net' : Circuit, net.bare = one.net.bare ∧
      Twins cards connections after after' { one with net := net } { two with net := net' } := by
  have alike := twins.alike
  obtain ⟨order, all, arranged⟩ := feed.exists_order twins.ready.draws
  obtain ⟨board, course, played, shown, recorded, -⟩ := course_of_exec twins.left
    twins.ready.compiled (fun id action => twins.ready.draws.functional feed.functions) fresh ran
  obtain ⟨board', course', played', shown', recorded', -⟩ := course_of_exec twins.right
    twins.ready'.compiled (fun id action => twins.ready'.draws.functional feed.functions)
    (twins.answers inputs force ▸ fresh) ran'
  obtain ⟨net, held, bare, config⟩ := exec_frame twins.left inputs force
  obtain ⟨net', held', bare', config'⟩ := exec_frame twins.right inputs force
  rw [ran] at held config
  rw [ran'] at held' config'
  -- Both runs leave the board that a common order of the transitions leaves.
  rw [playAll_of_course twins.ready feed all arranged course, alike.playAll_eq,
    twins.opened feed.slots] at played
  rw [playAll_of_course twins.ready' feed (all.trans alike.transitions)
    (alike.feeds_eq ▸ arranged) course', played] at played'
  obtain rfl := Option.some.inj played'
  refine ⟨net, net', bare, held, held', twins.ready.of_bare bare, twins.ready'.of_bare bare',
    twins.channel, twins.supplies, ?_, ?_, ?_, ?_⟩
  · rw [recorded.board, recorded'.board]
    rfl
  · exact config.trans (twins.config.trans config'.symm)
  · have entries : ((first.engine.opened one inputs).finished (first.enacted inputs force)
          board).entryValues =
        ((second.engine.opened two inputs).finished (second.enacted inputs force)
          board).entryValues :=
      twins.entryValues ((Graph.bare_spent ..).trans (first.engine.bare_opened one inputs))
        ((Graph.bare_spent ..).trans (second.engine.bare_opened two inputs)) rfl
    rw [recorded.memo, recorded'.memo, Bench.memoKey, Bench.memoKey, twins.merged, entries]
  · rw [recorded.outputs, recorded'.outputs, ← shown, ← shown']

/-- Twins answer the same run after run. -/
theorem replies_eq (twins : Twins cards connections first second one two)
    (feed : FeedForward cards connections) (patient : first.engine.config.taskTimeout = none)
    (enough : one.net.transitions.size ≤ first.engine.config.maxFirings)
    (calls : List (Values × Bool)) : second.replies calls = first.replies calls := by
  induction calls generalizing first second one two with
  | nil => rfl
  | cons call rest ih =>
      obtain ⟨inputs, force⟩ := call
      cases recorded : first.engine.answers one inputs force with
      | true =>
          have recorded' := twins.answers inputs force ▸ recorded
          simp only [replies, exec_recorded twins.left recorded, exec_recorded twins.right recorded',
            twins.outputs, ih twins patient enough]
      | false =>
          have same := twins.toOption_exec_eq feed patient enough recorded
          rcases ran : first.exec inputs force with ⟨failure | outputs, after⟩
          · rw [ran] at same
            rcases ran' : second.exec inputs force with ⟨failure' | outputs', after'⟩
            · simp only [replies, ran, ran']
            · rw [ran'] at same
              cases same
          · rw [ran] at same
            rcases ran' : second.exec inputs force with ⟨failure' | outputs', after'⟩
            · rw [ran'] at same
              cases same
            · rw [ran'] at same
              obtain rfl : outputs' = outputs := Option.some.inj same
              obtain ⟨net, net', bare, still⟩ := twins.exec feed recorded ran ran'
              obtain ⟨-, -, -, config⟩ := exec_frame twins.left inputs force
              rw [ran] at config
              simp only [replies, ran, ran']
              rw [ih still (config ▸ patient)
                (by rw [config, Net.transitions_of_bare bare]; exact enough)]

end Twins

/-- The order in which cards and connections are listed does not matter. Function cards that are
joined without a cycle are built on one board from two lists in different orders; then the same
runs, one after the other, have the same outputs, and fail at the same point if they do. -/
theorem replies_rearranged {config config' : GraphConfig} {cards cards' : List Card}
    (feed : FeedForward cards config.connections)
    (same : Rearranged cards config.connections cards' config'.connections)
    {settings : EngineConfig} (patient : settings.taskTimeout = none) (globals : Option Values)
    (board : Board) :
    ∃ report report' session session',
      (idle settings board).build config cards globals = (.ok report, session) ∧
      (idle settings board).build config' cards' globals = (.ok report', session') ∧
      report'.transitions = report.transitions ∧
      (report.transitions ≤ settings.maxFirings →
        ∀ calls, session'.replies calls = session.replies calls) := by
  have feed' := same.feedForward feed
  obtain ⟨net, builds⟩ := Graph.build_seeded feed globals board
  obtain ⟨net', builds'⟩ := Graph.build_seeded feed' globals board
  obtain ⟨one, built, ready, -, rfl, channel, supplies⟩ := builds settings.mode
  obtain ⟨two, built', ready', -, rfl, channel', supplies'⟩ := builds' settings.mode
  have drawn := same.draws ready'.draws
  have channels : one.channel = two.channel := channel.trans channel'.symm
  have alike := ready.draws.alike (channels ▸ drawn)
  have twins : Twins cards config.connections
      ⟨⟨settings, some one, one.net.seedPlaces.foldl one.net.applyDefault
        (Graph.groundwork board globals), .blank⟩, .zero⟩
      ⟨⟨settings, some two, two.net.seedPlaces.foldl two.net.applyDefault
        (Graph.groundwork board globals), .blank⟩, .zero⟩ one two :=
    ⟨rfl, rfl, ready, ⟨drawn, ready'.compiled⟩, channels, supplies.trans supplies'.symm,
      alike.defaults_eq ready.draws feed.slots _, rfl, rfl, rfl⟩
  exact ⟨_, _, _, _, build_idle settings built, build_idle settings built',
    alike.size_transitions.symm, twins.replies_eq feed patient⟩

/-- The triangle of cards with all lists turned round. -/
theorem replies_rearranged_triangle :
    FeedForward Triangle.seated.1 Triangle.config.connections ∧
      Rearranged Triangle.seated.1 Triangle.config.connections Triangle.seated.1.reverse
        Triangle.config.connections.reverse ∧
      (EngineConfig.standard.withTaskTimeout none).taskTimeout = none ∧
      ∃ report report' session session',
        (idle (EngineConfig.standard.withTaskTimeout none) Triangle.seated.2).build Triangle.config
          Triangle.seated.1 none = (.ok report, session) ∧
        (idle (EngineConfig.standard.withTaskTimeout none) Triangle.seated.2).build
          ⟨"turned", Triangle.config.connections.reverse⟩ Triangle.seated.1.reverse none =
            (.ok report', session') ∧
        report'.transitions = report.transitions ∧
        (report.transitions ≤ 10000 → ∀ calls, session'.replies calls = session.replies calls) := by
  have same : Rearranged Triangle.seated.1 Triangle.config.connections Triangle.seated.1.reverse
      Triangle.config.connections.reverse :=
    .of_nodup (by decide +kernel) (List.reverse_perm _) (List.reverse_perm _)
  exact ⟨Triangle.feedForward, same, rfl,
    replies_rearranged Triangle.feedForward same rfl none Triangle.seated.2⟩

end Session

/-! ## Two cards of one id -/

namespace Namesakes

/-- A card with some inputs and one output, to which it brings a value. -/
def design (id title : String) (inputs : List String) (output : String)
    (value : Values → Value) : CardDesign where
  id := id
  title := title
  anchors := inputs.map (⟨·, .input, none, none, false⟩) ++ [⟨output, .output, none, none, false⟩]
  delay := 0
  work := .function fun arguments => .ok ((∅ : Values).insert output (value arguments))
  runtime := none

/-- Two cards of one id with different outputs, and one that passes its input on. -/
def seated : List Card × Board :=
  Board.empty.seatAll [design "x" "t1" [] "b" fun _ => .ofNat 1,
    design "x" "t2" [] "a" fun _ => .ofNat 2,
    design "y" "t" ["in"] "out" fun arguments => arguments.getD "in" .null]

/-- The same cards with the first two in the other order. -/
def swapped : List Card :=
  match seated.1 with
  | first :: second :: rest => second :: first :: rest
  | cards => cards

/-- A connection from the output that only one of the two has. -/
def config : GraphConfig := ⟨"namesakes", [⟨⟨"x", "b"⟩, ⟨"y", "in"⟩⟩]⟩

def settings : EngineConfig := EngineConfig.standard.withTaskTimeout none

/-- The number of transitions of the graph of some cards, and the outputs of its first run. -/
def run (cards : List Card) : Option (Nat × List (String × String)) :=
  match (Session.idle settings seated.2).build config cards none with
  | (.ok report, session) =>
      (session.exec ∅ false).1.toOption.map fun outputs => (report.transitions, outputs.texts)
  | (.error _, _) => none

theorem functions : ∀ card ∈ seated.1, ∃ run, card.work = .function run := by
  intro card member
  simp only [seated, Board.seatAll, Board.seat, design, List.mem_cons, List.not_mem_nil,
    or_false] at member
  rcases member with rfl | rfl | rfl <;> exact ⟨_, rfl⟩

theorem swapped_perm : swapped.Perm seated.1 := .swap ..

/-- Connections lead from the cards of the one id to the third card. -/
def depth (card : Card) : Nat := if card.id = "x" then 0 else 1

theorem feedForward : FeedForward seated.1 config.connections := by
  refine .of_lists depth ?_ functions ?_ ?_ ?_ ?_ ?_ ?_ ?_ <;> decide +kernel

theorem feedForward_swapped : FeedForward swapped config.connections := by
  refine .of_lists depth ?_ (fun card member => functions card (swapped_perm.subset member)) ?_ ?_ ?_
    ?_ ?_ ?_ ?_ <;> decide +kernel

end Namesakes

/-- Two orders of cards, all generated names of which are distinct: in one order the connection
leads from the output that it names, in the other it is left out, because another card of the id
comes first. -/
theorem Session.replies_differ :
    Namesakes.swapped.Perm Namesakes.seated.1 ∧
    FeedForward Namesakes.seated.1 Namesakes.config.connections ∧
    FeedForward Namesakes.swapped Namesakes.config.connections ∧
    Namesakes.settings.taskTimeout = none ∧ Namesakes.settings.maxFirings = 10000 ∧
    Namesakes.run Namesakes.seated.1 = some (5, [("x_a", "2"), ("y_out", "1")]) ∧
    Namesakes.run Namesakes.swapped =
      some (3, [("x_a", "2"), ("x_b", "1"), ("y_out", "null")]) := by
  refine ⟨Namesakes.swapped_perm, Namesakes.feedForward, Namesakes.feedForward_swapped, rfl, rfl, ?_⟩
  decide +kernel

end CardNet
