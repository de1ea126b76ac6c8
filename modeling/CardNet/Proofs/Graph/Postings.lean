import CardNet.Proofs.Graph.Outlets

/-!
# Where events are sent

A graph has each of its event anchors that takes listeners send its events to the channel of the
graph under the name of the event place. However often the anchor is to be listened to, each event is
sent there once (`Graph.ready_of_build`), and until the graph is run nothing has been sent and no
place but start places holds tokens.
-/

namespace CardNet

namespace Board

/-- How often an event of the anchor at a slot is sent to a listener. -/
def posts (board : Board) (slot : Nat) (listener : Listener) : Nat :=
  ((board.bells.getD slot .silent).listeners.map Prod.snd).count listener

/-- How many events have been sent to a listener and not fetched. -/
def letters (board : Board) (listener : Listener) : Nat :=
  (board.channel listener.channel).mail.countP (·.1 = listener.label)

theorem posts_subscribe {board after : Board} {anchor : Anchor} {listener : Listener} {number : Nat}
    (subscribed : board.subscribe anchor listener = (some number, after)) (slot : Nat)
    (other : Listener) : after.posts slot other =
      board.posts slot other + if anchor.slot = slot ∧ listener = other then 1 else 0 := by
  unfold subscribe at subscribed
  split at subscribed
  · cases subscribed
    simp only [posts, Std.ExtTreeMap.getD_insert, Std.LawfulEqCmp.compare_eq_iff_eq]
    by_cases same : anchor.slot = slot
    · subst same
      simp [bell, List.count_singleton]
    · simp [same]
  · cases subscribed

/-- Sending a value changes the mail of one channel. -/
theorem letters_send (board : Board) (listener other : Listener) (value : Value) :
    (board.send listener value).letters other =
      board.letters other + if listener = other then 1 else 0 := by
  obtain ⟨channel, label⟩ := listener
  obtain ⟨there, name⟩ := other
  simp only [letters, send, modifyChannel, Board.channel, Std.ExtTreeMap.getD_insert,
    Std.LawfulEqCmp.compare_eq_iff_eq, Listener.mk.injEq]
  by_cases same : channel = there
  · subst same
    simp [List.countP_append, List.countP_singleton]
  · simp [same]

/-- An event is sent to each listener as often as the listener is on the bell of the anchor. -/
theorem letters_emit (board : Board) (anchor : Anchor) (value : Value) (listener : Listener) :
    (board.emit anchor value).letters listener =
      board.letters listener + board.posts anchor.slot listener := by
  have sending : ∀ (listeners : List Listener) (board : Board),
      (listeners.foldl (fun board listener => board.send listener value) board).letters listener =
        board.letters listener + listeners.count listener := by
    intro listeners
    induction listeners with
    | nil => exact fun _ => rfl
    | cons first rest ih =>
        intro board
        rw [List.foldl_cons, ih, letters_send, List.count_cons, Nat.add_assoc]
        simp only [beq_iff_eq, Nat.add_comm]
  exact sending _ (board.write anchor value)

@[simp] theorem bells_emit (board : Board) (anchor : Anchor) (value : Value) :
    (board.emit anchor value).bells = board.bells := by
  have sending : ∀ (listeners : List Listener) (board : Board),
      (listeners.foldl (fun board listener => board.send listener value) board).bells =
        board.bells := by
    intro listeners
    induction listeners with
    | nil => exact fun _ => rfl
    | cons first rest ih => exact fun board => ih (board.send first value)
  exact sending _ (board.write anchor value)

end Board

/-- A listener that is to hear an anchor, and places that are to be empty, agree with an edit. -/
def Edit.Suits (listener : Listener) (slot : Nat) : Edit → Prop
  | .listen card anchor =>
      Endpoint.eventPlace ⟨card, anchor.id⟩ = listener.label → anchor.slot = slot
  | .place _ held => held.tokens = 0 ∨ held.kind = .start
  | _ => True

/-- No place but start places holds tokens. -/
def Circuit.Fresh (net : Circuit) : Prop :=
  ∀ id place, net.place? id = some place → place.tokens = 0 ∨ place.kind = .start

/-- A graph under construction that has heard nothing yet. A listener of its channel is on the bell
of one anchor, once, when the graph has subscribed, and else on none. -/
structure Bench.Posted (bench : Bench) (listener : Listener) (slot : Nat) : Prop where
  channel : bench.graph.channel = listener.channel
  posts : ∀ other, bench.board.posts other listener =
    if listener.label ∈ bench.graph.subscriptions.names ∧ other = slot then 1 else 0
  letters : bench.board.letters listener = 0
  fresh : bench.graph.net.Fresh

namespace Circuit

variable {net after : Circuit}

theorem Fresh.insert (fresh : net.Fresh) {id : String} {held : Place Content}
    (empty : held.tokens = 0 ∨ held.kind = .start) :
    Fresh { net with places := net.places.insert id held } := by
  intro other place found
  rw [Net.place?, Registry.get?_insert] at found
  split at found
  · exact Option.some.inj found ▸ empty
  · exact fresh other place found

theorem Fresh.addPlace (fresh : net.Fresh) {id : String} {held : Place Content}
    (empty : held.tokens = 0 ∨ held.kind = .start)
    (added : (net.addPlace id held).mapError Failure.net = .ok after) : after.Fresh := by
  unfold Net.addPlace at added
  split at added
  · cases added
  · cases added
    exact fresh.insert empty

theorem Fresh.bindPlace (fresh : net.Fresh) {id : String} {content : Content} {wanted : Endpoint}
    (bound : net.bindPlace id content wanted = .ok after) : after.Fresh := by
  unfold Circuit.bindPlace at bound
  split at bound
  · exact fresh.addPlace (.inl rfl) bound
  · dsimp only at bound
    split at bound
    · cases bound
      exact fresh
    · cases bound

/-- An edit that suits puts tokens on start places alone. -/
theorem Fresh.change (fresh : net.Fresh) {edit : Edit} {listener : Listener} {slot : Nat}
    (suits : edit.Suits listener slot) (changed : edit.change net = .ok after) : after.Fresh := by
  cases edit with
  | anchorPlace card anchor => exact fresh.bindPlace changed
  | eventPlace card anchor => exact fresh.bindPlace changed
  | listen card anchor =>
      cases changed
      exact fresh
  | place id held =>
      simp only [Edit.change, ensurePlace] at changed
      split at changed
      · cases changed
        exact fresh
      · exact fresh.addPlace suits changed
  | transition id action =>
      simp only [Edit.change, ensureTransition, Net.addTransition] at changed
      split at changed
      · cases changed
        exact fresh
      · split at changed
        · cases changed
        · cases changed
          exact fresh
  | arc source target =>
      simp only [Edit.change, ensureArc] at changed
      split at changed
      · cases changed
        exact fresh
      · simp only [Net.addArc] at changed
        repeat' split at changed
        all_goals cases changed
        exact fresh

end Circuit

namespace Bench

variable {bench after : Bench} {listener : Listener} {slot : Nat} {edit : Edit} {edits : List Edit}
  {connection : Connection} {connections : List Connection} {cards : List Card}

theorem Posted.withNet (posted : bench.Posted listener slot) (edit : Edit)
    (suits : edit.Suits listener slot)
    (changed : bench.withNet (edit.change bench.graph.net) = .ok after) :
    after.Posted listener slot := by
  cases made : edit.change bench.graph.net with
  | error failure =>
      rw [made] at changed
      cases changed
  | ok net =>
      rw [made] at changed
      cases changed
      exact ⟨posted.channel, posted.posts, posted.letters, posted.fresh.change suits made⟩

/-- A graph that has subscribed already does not subscribe again. -/
theorem Posted.listen (posted : bench.Posted listener slot) {place : String} {anchor : Anchor}
    (suits : place = listener.label → anchor.slot = slot) :
    (bench.listen place anchor).Posted listener slot := by
  unfold Bench.listen
  split
  · exact posted
  · next unheard =>
      have absent := mt Registry.contains_eq_true.mpr unheard
      split
      · next number board subscribed =>
          have mail : board.channels = bench.board.channels := by
            unfold Board.subscribe at subscribed
            split at subscribed <;> cases subscribed
            rfl
          refine ⟨posted.channel, fun other => ?_, ?_, posted.fresh⟩
          · rw [Board.posts_subscribe subscribed, posted.posts]
            simp only [Registry.mem_names_insert, posted.channel]
            by_cases same : place = listener.label
            · have here := suits same
              subst same here
              simp [absent, eq_comm]
            · have differ : (⟨listener.channel, place⟩ : Listener) ≠ listener :=
                fun equal => same (congrArg Listener.label equal)
              simp [differ, Ne.symm same]
          · rw [← posted.letters, Board.letters, Board.letters, Board.channel, Board.channel, mail]
      · next board refused =>
          unfold Board.subscribe at refused
          split at refused <;> cases refused
          exact ⟨posted.channel, posted.posts, posted.letters, posted.fresh⟩

theorem Posted.apply (posted : bench.Posted listener slot) (suits : edit.Suits listener slot)
    (applied : edit.apply bench = .ok after) : after.Posted listener slot := by
  cases edit with
  | listen card anchor =>
      cases applied
      exact posted.listen suits
  | anchorPlace card anchor => exact posted.withNet (.anchorPlace card anchor) suits applied
  | eventPlace card anchor => exact posted.withNet (.eventPlace card anchor) suits applied
  | place id held => exact posted.withNet (.place id held) suits applied
  | transition id action => exact posted.withNet (.transition id action) suits applied
  | arc source target => exact posted.withNet (.arc source target) suits applied

theorem Posted.applyAll (posted : bench.Posted listener slot)
    (suit : ∀ edit ∈ edits, edit.Suits listener slot)
    (applied : bench.applyAll edits = (.ok (), after)) : after.Posted listener slot := by
  induction edits generalizing bench with
  | nil =>
      cases applied
      exact posted
  | cons edit rest ih =>
      rw [Bench.applyAll] at applied
      obtain ⟨first, others⟩ := List.forall_mem_cons.mp suit
      split at applied
      · next middle made => exact ih (posted.apply first made) others applied
      · cases applied

theorem Posted.connect (posted : bench.Posted listener slot)
    (suit : ∀ edit ∈ connection.draft bench.graph.cards bench.graph.channel,
      edit.Suits listener slot) {id : String}
    (connected : bench.connect connection = (.ok id, after)) : after.Posted listener slot := by
  unfold Bench.connect at connected
  unfold Connection.draft at suit
  dsimp only at connected
  split at connected
  · cases connected
    exact ⟨posted.channel, posted.posts, posted.letters, posted.fresh⟩
  · next parties found =>
      rw [found] at suit
      split at connected
      · cases connected
      · next laid applied =>
          cases connected
          obtain ⟨channel, posts, letters, fresh⟩ := posted.applyAll suit applied
          exact ⟨channel, posts, letters, fresh⟩

theorem Posted.connectAll (posted : bench.Posted listener slot)
    (suit : ∀ edit ∈ connections.flatMap fun connection =>
      connection.draft bench.graph.cards bench.graph.channel, edit.Suits listener slot)
    (connected : bench.connectAll connections = (.ok (), after)) :
    after.Posted listener slot := by
  induction connections generalizing bench with
  | nil =>
      cases connected
      exact posted
  | cons connection rest ih =>
      rw [Bench.connectAll] at connected
      rw [List.flatMap_cons] at suit
      split at connected
      · next id middle made =>
          obtain ⟨-, grown, warnings, grows, same⟩ := grows_of_connect made
          have cards : middle.graph.cards = bench.graph.cards := by rw [same, grows.graph]
          have channel : middle.graph.channel = bench.graph.channel := by rw [same, grows.graph]
          refine ih (posted.connect (fun edit member => suit edit ?_) made) ?_ connected
          · exact List.mem_append_left _ member
          · rw [cards, channel]
            exact fun edit member => suit edit (List.mem_append_right _ member)
      · cases connected

end Bench

/-! ## Whole graphs -/

/-- Every draft for connections and cards suits an anchor with connections of its own. -/
theorem Edit.suits_of_mem_drafts {cards : List Card} {connections : List Connection} {channel : Nat}
    (clear : ClearNames cards connections) {connection : Connection}
    {parties : Connection.Parties} (found : connection.parties cards = .ok parties)
    (kind : parties.source.kind = .event) {edit : Edit}
    (member : edit ∈ drafts cards connections channel) :
    edit.Suits ⟨channel, connection.source.eventPlace⟩ parties.source.slot := by
  have ends := Connection.resolved_of_parties found
  rcases mem_drafts.mp member with ⟨card, -, brings⟩ | ⟨other, -, others, resolves, brings⟩
  · cases brings with
    | start => exact .inr rfl
    | _ => trivial
  · cases brings with
    | listen event =>
        intro same
        have far := Connection.resolved_of_parties resolves
        rw [far.sourceEnd, ends.sourceEnd] at same
        rw [(clear.event_of_place far.sourceCard far.source event ends.sourceCard ends.source kind
          same).2]
    | relay => exact .inl rfl
    | _ => trivial

/-- A graph that has been built and has heard nothing yet. -/
structure Bench.Ready (bench : Bench) (listener : Listener) (slot : Nat) : Prop where
  posts : ∀ other, bench.board.posts other listener =
    if listener.label ∈ bench.graph.subscriptions.names ∧ other = slot then 1 else 0
  letters : bench.board.letters listener = 0
  empty : ∀ id place, bench.graph.net.place? id = some place → place.kind ≠ .start →
    bench.graph.net.collectsEvents id = true ∨ id ∉ bench.graph.net.entryPlaces → place.tokens = 0

/-- A place that processes is empty, unless it is an entry that collects no events. -/
theorem Bench.Ready.tokens_eq_zero {bench : Bench} {listener : Listener} {slot : Nat}
    (ready : bench.Ready listener slot) {id : String}
    (known : id ∈ bench.graph.net.places.names)
    (process : ∀ fixture, bench.graph.net.fixture? (.place id) = some fixture →
      ∃ content, fixture = .place .process content)
    (spared : bench.graph.net.collectsEvents id = true ∨ id ∉ bench.graph.net.entryPlaces) :
    bench.graph.net.tokens id = 0 := by
  obtain ⟨place, found⟩ := Registry.exists_get?_of_mem_names known
  have held : bench.graph.net.place? id = some place := found
  obtain ⟨content, same⟩ := process (.place place.kind place.content)
    (by rw [Circuit.fixture?, held]; rfl)
  have other : place.kind ≠ .start := by
    rw [(Fixture.place.inj same).1]
    decide
  rw [Net.tokens, Net.tokens?, held]
  exact ready.empty id place held other spared

/-- Seeding a graph sends nothing and leaves all bells as they are. -/
theorem Bench.seed_board (bench : Bench) : bench.seed.board.bells = bench.board.bells ∧
    bench.seed.board.channels = bench.board.channels := by
  have defaults : ∀ (ids : List String) (board : Board),
      (ids.foldl bench.graph.net.applyDefault board).bells = board.bells ∧
        (ids.foldl bench.graph.net.applyDefault board).channels = board.channels := by
    intro ids
    induction ids with
    | nil => exact fun _ => ⟨rfl, rfl⟩
    | cons id rest ih =>
        intro board
        have first : (bench.graph.net.applyDefault board id).bells = board.bells ∧
            (bench.graph.net.applyDefault board id).channels = board.channels := by
          unfold Circuit.applyDefault Board.resetAnchor
          repeat' split
          all_goals exact ⟨rfl, rfl⟩
        rw [List.foldl_cons, (ih _).1, (ih _).2]
        exact first
  exact defaults _ _

/-- Seeding a graph puts tokens on entries alone. -/
theorem Bench.Posted.seed {bench : Bench} {listener : Listener} {slot : Nat}
    (posted : bench.Posted listener slot) : bench.seed.Ready listener slot := by
  obtain ⟨bells, channels⟩ := bench.seed_board
  have same : bench.seed.graph.net.bare = bench.graph.net.bare := Net.bare_seedAll _ _
  refine ⟨fun other => ?_, ?_, fun id place found kind spared => ?_⟩
  · rw [Board.posts, bells]
    exact posted.posts other
  · rw [Board.letters, Board.channel, channels]
    exact posted.letters
  · rw [Circuit.collectsEvents_of_bare same, Net.entryPlaces_of_bare same] at spared
    have known : id ∈ bench.graph.net.places.names := by
      rw [← Net.placeNames_of_bare same]
      exact Registry.mem_names_of_get? found
    have unseeded : id ∉ bench.graph.net.seedPlaces := by
      rw [Circuit.mem_seedPlaces]
      rintro ⟨entry, quiet⟩
      rcases spared with collects | inner
      · cases quiet.symm.trans collects
      · exact inner entry
    obtain ⟨held, before⟩ := Registry.exists_get?_of_mem_names known
    have tokens := Net.tokens_seedAll bench.graph.net bench.graph.net.seedPlaces known
    rw [if_neg unseeded] at tokens
    have fixtures := congrFun (Circuit.fixture?_of_bare same) (.place id)
    simp only [Circuit.fixture?, Net.place?] at fixtures found
    simp only [found, before, Option.map_some, Option.some.injEq, Fixture.place.injEq] at fixtures
    have empty := (posted.fresh id held before).resolve_right (fixtures.1 ▸ kind)
    calc place.tokens = bench.seed.graph.net.tokens id := by
          rw [Net.tokens, Net.tokens?, Net.place?, found]
          rfl
      _ = bench.graph.net.tokens id := tokens
      _ = held.tokens := by
          rw [Net.tokens, Net.tokens?, Net.place?, before]
          rfl
      _ = 0 := empty

/-- What is laid out on an empty graph and seeded is ready. -/
theorem Bench.ready_of_construct {bench done : Bench} {cards : List Card}
    {connections : List Connection} {supplies : Bool} {name : String} {listener : Listener}
    {slot : Nat}
    (start : bench.graph = .blank .visual ⟨name, .empty, .empty, .empty, .empty, .empty⟩ cards
      listener.channel supplies)
    (unheard : ∀ other, bench.board.posts other listener = 0)
    (letters : bench.board.letters listener = 0)
    (suit : ∀ edit ∈ drafts cards connections listener.channel, edit.Suits listener slot)
    (constructed : bench.construct connections = (.ok (), done)) : done.Ready listener slot := by
  unfold Bench.construct at constructed
  split at constructed
  · cases constructed
  · next middle connected =>
      dsimp only at constructed
      split at constructed
      · cases constructed
      · next laid applied =>
          have visual := (Graph.built_of_laid start connected applied).2
          obtain ⟨graph, board⟩ := bench
          obtain rfl := start
          obtain ⟨grown, warnings, grows, same⟩ := grows_of_connectAll connected
          have known : middle.graph.cards = cards := by rw [same, grows.graph]; rfl
          have channel : middle.graph.channel = listener.channel := by rw [same, grows.graph]; rfl
          have begun : Posted ⟨.blank .visual ⟨name, .empty, .empty, .empty, .empty, .empty⟩ cards
              listener.channel supplies, board⟩ listener slot :=
            ⟨rfl, fun other => by rw [unheard]; simp [Graph.blank], letters,
              fun id place found => nomatch found⟩
          have connecting := begun.connectAll
            (fun edit member => suit edit (List.mem_append_left _ member)) connected
          rw [known, channel] at applied
          have finished := (connecting.applyAll
            (fun edit member => suit edit (List.mem_append_right _ member)) applied).seed
          rw [Bench.recompile, Graph.recompile, visual] at constructed
          cases constructed
          exact finished

/-- A graph that is run by firings has been built: each event of an anchor with connections is sent
to it once, and it has heard nothing yet. -/
theorem Graph.ready_of_build {config : GraphConfig} {cards : List Card} {globals : Option Values}
    {board after : Board} {graph : Graph}
    (built : Graph.build .visual config cards globals board = (.ok graph, after))
    (clear : ClearNames cards config.connections)
    (issued : ∀ slot listener, board.posts slot listener ≠ 0 → listener.channel < board.nextSlot)
    {connection : Connection} {parties : Connection.Parties}
    (found : connection.parties cards = .ok parties) (kind : parties.source.kind = .event) :
    Bench.Ready ⟨graph, after⟩ ⟨graph.channel, connection.source.eventPlace⟩ parties.source.slot := by
  have channels := (Graph.built_of_build built).1.channel_eq
  unfold Graph.build at built
  split at built
  · cases built
  · next net created =>
      unfold Net.create at created
      split at created
      · cases created
      · cases created
        dsimp only at built
        split at built
        · next bench constructed =>
            cases built
            rw [channels]
            refine Bench.ready_of_construct rfl (fun other => ?_) ?_
              (fun edit member => edit.suits_of_mem_drafts clear found kind member) constructed
            · by_contra heard
              exact Nat.lt_irrefl _ (issued other _ heard)
            · simp [Board.letters, Board.channel, Board.modifyChannel, Board.allocate]
        · cases built

end CardNet
