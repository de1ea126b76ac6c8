import CardNet.Proofs.Graph.Attention
import CardNet.Proofs.Graph.Postings

/-!
# Who is on the bells

The listeners on the bell of an anchor are just those of given subscriptions, under numbers of their
own (`Board.Rings`). Building and editing a graph keeps to this, also when it fails: what is
subscribed is held by the graph, or was given up again (`Bench.Tuned`, `Graph.tuned_of_build`). So
an anchor has one listener for a graph that attends to its events, or none
(`Graph.listenerCount_eq`).
-/

namespace CardNet

/-! ## Bells -/

/-- The listeners of a bell have just the given numbers, none of them twice, and none of them will be
given out again. -/
structure Bell.Serves (bell : Bell) (numbers : List Nat) : Prop where
  listeners : (bell.listeners.map Prod.fst).Perm numbers
  distinct : numbers.Nodup
  fresh : ∀ number ∈ numbers, number < bell.next

/-- The numbers under which subscriptions are on the bell at a slot. -/
def numbersAt (slot : Nat) (held : List Subscription) : List Nat :=
  (held.filter fun subscription => subscription.anchor.slot == slot).map Subscription.number

theorem mem_numbersAt {slot number : Nat} {held : List Subscription} :
    number ∈ numbersAt slot held ↔
      ∃ subscription ∈ held, subscription.anchor.slot = slot ∧ subscription.number = number := by
  simp [numbersAt, and_assoc]

theorem numbersAt_cons (slot : Nat) (subscription : Subscription) (held : List Subscription) :
    numbersAt slot (subscription :: held) =
      if subscription.anchor.slot = slot then subscription.number :: numbersAt slot held
      else numbersAt slot held := by
  by_cases same : subscription.anchor.slot = slot <;> simp [numbersAt, same]

namespace Board

/-- The listeners on the bell at a slot are those of the given subscriptions. -/
def Rings (board : Board) (slot : Nat) (held : List Subscription) : Prop :=
  (board.bells.getD slot .silent).Serves (numbersAt slot held)

variable {board after : Board} {slot : Nat} {held others : List Subscription}

/-- Nobody listens to an anchor. -/
theorem rings_nil_iff {anchor : Anchor} :
    board.Rings anchor.slot [] ↔ board.listenerCount anchor = 0 := by
  constructor
  · intro rings
    exact List.length_eq_zero_iff.mpr (List.map_eq_nil_iff.mp rings.listeners.eq_nil)
  · intro alone
    have silent : (board.bells.getD anchor.slot .silent).listeners = [] :=
      List.length_eq_zero_iff.mp alone
    refine ⟨?_, List.nodup_nil, nofun⟩
    rw [silent]
    exact List.Perm.nil

theorem Rings.perm (rings : board.Rings slot held) (same : held.Perm others) :
    board.Rings slot others := by
  have numbers : (numbersAt slot held).Perm (numbersAt slot others) := (same.filter _).map _
  obtain ⟨listeners, distinct, fresh⟩ := rings
  exact ⟨listeners.trans numbers, numbers.nodup_iff.mp distinct,
    fun number member => fresh number (numbers.mem_iff.mpr member)⟩

theorem Rings.of_bells (rings : board.Rings slot held) (same : after.bells = board.bells) :
    after.Rings slot held := by
  unfold Rings
  rw [same]
  exact rings

theorem bell_insert (board : Board) (other : Nat) (bell : Bell) :
    (board.bells.insert other bell).getD slot .silent =
      if other = slot then bell else board.bells.getD slot .silent := by
  rw [Std.ExtTreeMap.getD_insert]
  by_cases same : other = slot
  · subst same
    simp
  · have differ : ¬compare other slot = .eq :=
      fun equal => same (Std.LawfulEqCmp.compare_eq_iff_eq.mp equal)
    rw [if_neg differ, if_neg same]

/-- Who subscribes gets a number that nobody on the bell has. -/
theorem Rings.subscribe (rings : board.Rings slot held) {anchor : Anchor} {listener : Listener}
    {number : Nat} (subscribed : board.subscribe anchor listener = (some number, after)) :
    after.Rings slot (⟨anchor, number⟩ :: held) := by
  unfold Board.subscribe at subscribed
  split at subscribed
  · cases subscribed
    unfold Rings
    rw [numbersAt_cons, bell_insert]
    by_cases same : anchor.slot = slot
    · subst same
      rw [if_pos rfl, if_pos rfl]
      obtain ⟨listeners, distinct, fresh⟩ := rings
      have unknown : (board.bell anchor).next ∉ numbersAt anchor.slot held :=
        fun member => Nat.lt_irrefl _ (fresh _ member)
      refine ⟨?_, List.nodup_cons.mpr ⟨unknown, distinct⟩, fun other member => ?_⟩
      · rw [List.map_append]
        exact (listeners.append_right _).trans List.perm_append_comm
      · rcases List.mem_cons.mp member with rfl | known
        · exact Nat.lt_succ_self _
        · exact Nat.lt_succ_of_lt (fresh other known)
    · rw [if_neg same, if_neg same]
      exact rings
  · cases subscribed

/-- Who gives a subscription up takes nobody else off the bell. -/
theorem Rings.unsubscribe {subscription : Subscription}
    (rings : board.Rings slot (subscription :: held)) :
    (board.unsubscribe subscription.anchor subscription.number).Rings slot held := by
  unfold Rings at rings ⊢
  rw [numbersAt_cons] at rings
  rw [Board.unsubscribe, bell_insert]
  by_cases same : subscription.anchor.slot = slot
  · subst same
    rw [if_pos rfl] at rings ⊢
    obtain ⟨listeners, distinct, fresh⟩ := rings
    obtain ⟨absent, apart⟩ := List.nodup_cons.mp distinct
    refine ⟨?_, apart, fun number member => fresh number (List.mem_cons_of_mem _ member)⟩
    have others : ∀ number ∈ numbersAt subscription.anchor.slot held,
        decide (number ≠ subscription.number) = true := by
      intro number member
      apply decide_eq_true
      rintro rfl
      exact absent member
    have left := listeners.filter (· ≠ subscription.number)
    rw [List.filter_map, List.filter_cons_of_neg (by simp), List.filter_eq_self.mpr others] at left
    exact left
  · rw [if_neg same] at rings ⊢
    exact rings

/-- Who gives some subscriptions up one after the other takes nobody else off the bell. -/
theorem Rings.release {given : List Subscription} (rings : board.Rings slot (given ++ held)) :
    Rings (given.foldl (fun board held => board.unsubscribe held.anchor held.number) board) slot
      held := by
  induction given generalizing board with
  | nil => exact rings
  | cons first rest ih => exact ih rings.unsubscribe

end Board

/-! ## Graphs and their subscriptions -/

/-- A subscription that stands under the place of its event. -/
def Subscription.Answers (held : Subscription) (cards : List Card) (place : String) : Prop :=
  ∃ card ∈ cards, held.anchor ∈ card.anchors ∧ held.anchor.kind = .event ∧
    held.anchor.listens = true ∧ Endpoint.eventPlace ⟨card.id, held.anchor.id⟩ = place

/-- A graph under construction. The listeners on the bell at a slot are those of its subscriptions,
which all stand under the places of their events, and of others. -/
structure Bench.Tuned (bench : Bench) (cards : List Card) (slot : Nat)
    (others : List Subscription) : Prop where
  cards_eq : bench.graph.cards = cards
  rings : bench.board.Rings slot (bench.graph.subscriptions.values ++ others)
  answers : ∀ place held, bench.graph.subscriptions.get? place = some held →
    held.Answers cards place

/-- An edit that listens to nothing but events of the cards. -/
def Edit.Attends (cards : List Card) : Edit → Prop
  | listen card anchor =>
      ∃ owner ∈ cards, owner.id = card ∧ anchor ∈ owner.anchors ∧ anchor.kind = .event
  | _ => True

theorem Connection.attends_layout {connection : Connection} {cards : List Card}
    {parties : Connection.Parties} (found : connection.parties cards = .ok parties)
    (channel : Nat) : ∀ edit ∈ connection.layout parties channel, edit.Attends cards := by
  have ends := Connection.resolved_of_parties found
  intro edit member
  simp only [layout, List.mem_append, Card.mem_blueprint, Connection.mem_blueprint] at member
  rcases member with (own | ofSource) | ofTarget
  · cases own with
    | listen kind =>
        refine ⟨parties.sourceCard, ends.sourceCard, ?_, ends.source, kind⟩
        rw [ends.sourceEnd]
    | _ => trivial
  · cases ofSource <;> trivial
  · cases ofTarget <;> trivial

namespace Bench.Tuned

variable {bench after : Bench} {cards : List Card} {slot : Nat} {others : List Subscription}
  {connection : Connection}

/-- What is neither a bell nor a subscription does not matter. -/
theorem of_same (tuned : bench.Tuned cards slot others)
    (cards_eq : after.graph.cards = bench.graph.cards)
    (bells : after.board.bells = bench.board.bells)
    (subscriptions : after.graph.subscriptions = bench.graph.subscriptions) :
    after.Tuned cards slot others where
  cards_eq := cards_eq.trans tuned.cards_eq
  rings := by
    rw [subscriptions]
    exact tuned.rings.of_bells bells
  answers := by
    rw [subscriptions]
    exact tuned.answers

theorem listen (tuned : bench.Tuned cards slot others) {card : String} {anchor : Anchor}
    (attends : (Edit.listen card anchor).Attends cards) :
    (bench.listen (Endpoint.eventPlace ⟨card, anchor.id⟩) anchor).Tuned cards slot others := by
  obtain ⟨owner, known, rfl, member, kind⟩ := attends
  unfold Bench.listen
  split
  · exact tuned
  · next unheard =>
      have absent := mt Registry.contains_eq_true.mpr unheard
      split
      · next number board subscribed =>
          have takes : anchor.listens = true := by
            by_contra deaf
            rw [Board.subscribe, if_neg deaf] at subscribed
            cases subscribed
          refine ⟨tuned.cards_eq, ?_, fun place held found => ?_⟩
          · rw [Registry.values_insert_of_not_mem _ absent]
            refine (tuned.rings.subscribe subscribed).perm ?_
            rw [List.append_assoc]
            exact List.perm_middle.symm
          · rw [Registry.get?_insert] at found
            split at found
            · next same =>
                cases found
                exact ⟨owner, known, member, kind, takes, same.symm⟩
            · exact tuned.answers place held found
      · next board refused =>
          unfold Board.subscribe at refused
          split at refused <;> cases refused
          exact tuned.of_same rfl rfl rfl

theorem withNet (tuned : bench.Tuned cards slot others) {net : Except Failure Circuit}
    (applied : bench.withNet net = .ok after) : after.Tuned cards slot others := by
  cases net with
  | error failure => cases applied
  | ok circuit =>
      cases applied
      exact tuned.of_same rfl rfl rfl

theorem apply (tuned : bench.Tuned cards slot others) {edit : Edit} (attends : edit.Attends cards)
    (applied : edit.apply bench = .ok after) : after.Tuned cards slot others := by
  cases edit with
  | listen card anchor =>
      cases applied
      exact tuned.listen attends
  | _ => exact tuned.withNet applied

/-- Edits keep to this, and so does what is left when one of them fails. -/
theorem applyAll (tuned : bench.Tuned cards slot others) {edits : List Edit}
    (attend : ∀ edit ∈ edits, edit.Attends cards) :
    (bench.applyAll edits).2.Tuned cards slot others := by
  induction edits generalizing bench with
  | nil => exact tuned
  | cons edit rest ih =>
      obtain ⟨first, later⟩ := List.forall_mem_cons.mp attend
      rw [Bench.applyAll]
      split
      · next middle applied => exact ih (tuned.apply first applied) later
      · exact tuned

theorem connect (tuned : bench.Tuned cards slot others) (connection : Connection) :
    (bench.connect connection).2.Tuned cards slot others := by
  unfold Bench.connect
  dsimp only
  split
  · exact tuned.of_same rfl rfl rfl
  · next parties found =>
      rw [tuned.cards_eq] at found
      have laid := tuned.applyAll (connection.attends_layout found bench.graph.channel)
      split
      · next failure middle applied =>
          rw [applied] at laid
          exact laid
      · next middle applied =>
          rw [applied] at laid
          exact laid.of_same rfl rfl rfl

theorem connectAll (tuned : bench.Tuned cards slot others) (connections : List Connection) :
    (bench.connectAll connections).2.Tuned cards slot others := by
  induction connections generalizing bench with
  | nil => exact tuned
  | cons connection rest ih =>
      have first := tuned.connect connection
      rw [Bench.connectAll]
      split
      · next middle connected =>
          rw [connected] at first
          exact ih first
      · next failure middle connected =>
          rw [connected] at first
          exact first

theorem recompile (tuned : bench.Tuned cards slot others) :
    bench.recompile.2.Tuned cards slot others := by
  have made : bench.graph.recompile = (bench.graph.recompile.1, bench.graph.recompile.2) := rfl
  obtain ⟨paths, plan, same⟩ := Graph.recompile_frame made
  have planned : bench.recompile.2.graph = _ := same
  refine tuned.of_same ?_ rfl ?_ <;> rw [planned]

theorem construct (tuned : bench.Tuned cards slot others) (connections : List Connection) :
    (bench.construct connections).2.Tuned cards slot others := by
  have connected := tuned.connectAll connections
  unfold Bench.construct
  split
  · next failure middle failed =>
      rw [failed] at connected
      exact connected
  · next middle done =>
      rw [done] at connected
      have quiet : ∀ edit ∈ middle.graph.cards.flatMap fun card =>
          card.blueprint middle.graph.channel, edit.Attends cards := by
        intro edit member
        obtain ⟨card, -, brings⟩ := List.mem_flatMap.mp member
        cases Card.mem_blueprint.mp brings <;> trivial
      have laid := connected.applyAll quiet
      dsimp only
      split
      · next failure last failed =>
          rw [failed] at laid
          exact laid
      · next last applied =>
          rw [applied] at laid
          have seeded : last.seed.Tuned cards slot others :=
            laid.of_same rfl last.seed_board.1 rfl
          exact seeded.recompile

theorem addConnection (tuned : bench.Tuned cards slot others) (connection : Connection) :
    (bench.addConnection connection).2.Tuned cards slot others := by
  have connected := tuned.connect connection
  unfold Bench.addConnection
  split
  · next failed =>
      rw [failed] at connected
      exact connected
  · next done =>
      rw [done] at connected
      exact connected.recompile

theorem unlisten (tuned : bench.Tuned cards slot others) (place : String) :
    (bench.unlisten place).Tuned cards slot others := by
  unfold Bench.unlisten
  split
  · exact tuned
  · next held found =>
      refine ⟨tuned.cards_eq, ?_, fun other kept there => ?_⟩
      · have rings := tuned.rings.perm
          ((Registry.values_perm_erase found).append_right others)
        exact rings.unsubscribe
      · rw [Registry.get?_erase] at there
        split at there
        · cases there
        · exact tuned.answers other kept there

theorem uproot (tuned : bench.Tuned cards slot others) (connection : Connection) :
    (bench.uproot connection).Tuned cards slot others := by
  have bare : ∀ net, Bench.Tuned ⟨{ bench.graph with net := net }, bench.board⟩ cards slot others :=
    fun net => tuned.of_same rfl rfl rfl
  unfold Bench.uproot
  dsimp only
  split <;> split
  · exact (bare _).unlisten _
  · exact bare _
  · exact bare _
  · exact bare _

theorem removeConnection (tuned : bench.Tuned cards slot others) (id : String) :
    (bench.removeConnection id).2.Tuned cards slot others := by
  unfold Bench.removeConnection
  split
  · exact tuned
  · next connection found =>
      have erased : Bench.Tuned { bench with
          graph.connections := bench.graph.connections.erase id } cards slot others :=
        tuned.of_same rfl rfl rfl
      exact (erased.uproot connection).recompile

end Bench.Tuned

namespace Graph

variable {mode : Mode} {config : GraphConfig} {cards : List Card} {globals : Option Values}
  {board after : Board} {slot : Nat} {others : List Subscription}

private theorem tuned_blank (rings : board.Rings slot others) (mode : Mode) (net : Circuit)
    (globals : Option Values) :
    Bench.Tuned ⟨.blank mode net cards board.allocate.1 globals.isSome,
      board.allocate.2.modifyChannel board.allocate.1 fun _ =>
        ⟨globals.getD ∅, globals.getD ∅, []⟩⟩ cards slot others where
  cards_eq := rfl
  rings := rings.of_bells rfl
  answers := nofun

/-- A graph that is built listens beside those that listened before. -/
theorem tuned_of_build (rings : board.Rings slot others) {graph : Graph}
    (built : build mode config cards globals board = (.ok graph, after)) :
    Bench.Tuned ⟨graph, after⟩ cards slot others := by
  unfold build at built
  split at built
  · cases built
  · next net _ =>
      have done := (@tuned_blank cards board slot others rings mode net globals).construct
        config.connections
      dsimp only at built
      split at built
      · next bench constructed =>
          cases built
          rw [constructed] at done
          exact done
      · cases built

/-- A graph that cannot be built leaves no listener behind. -/
theorem rings_of_build_error (rings : board.Rings slot others) {failure : Failure}
    (failed : build mode config cards globals board = (.error failure, after)) :
    after.Rings slot others := by
  unfold build at failed
  split at failed
  · cases failed
    exact rings
  · next net _ =>
      have done := (@tuned_blank cards board slot others rings mode net globals).construct
        config.connections
      dsimp only at failed
      split at failed
      · cases failed
      · next bench constructed =>
          cases failed
          rw [constructed] at done
          exact done.rings.release

/-- Whether some connection that the graph lists, and has not left out, starts from an anchor that
takes listeners. -/
def hears (graph : Graph) (anchor : Anchor) : Bool :=
  graph.connections.values.any fun connection =>
    (connection.parties graph.cards).toOption.any fun parties =>
      parties.source.kind == .event && parties.source.listens && parties.source.slot == anchor.slot

theorem hears_eq_true {graph : Graph} {anchor : Anchor} : graph.hears anchor = true ↔
    ∃ connection ∈ graph.connections.values, ∃ parties,
      connection.parties graph.cards = .ok parties ∧ parties.source.kind = .event ∧
        parties.source.listens = true ∧ parties.source.slot = anchor.slot := by
  simp only [hears, List.any_eq_true]
  refine exists_congr fun connection => and_congr_right fun _ => ?_
  cases connection.parties graph.cards with
  | error reason => simp [Except.toOption]
  | ok parties => simp [Except.toOption, and_assoc]

private theorem length_le_one {numbers : List Nat} (distinct : numbers.Nodup)
    (alone : ∀ one ∈ numbers, ∀ two ∈ numbers, one = two) : numbers.length ≤ 1 := by
  match numbers with
  | [] | [_] => simp
  | one :: two :: rest =>
      obtain rfl := alone one (by simp) two (by simp)
      simp at distinct

variable {graph : Graph} {known : List Connection} {anchor : Anchor}

/-- Where nobody else listens, an anchor has one listener when the graph hears it, and else none. -/
theorem listenerCount_eq (attends : graph.Attends known) (discerned : Discerned graph.cards known)
    (tuned : Bench.Tuned ⟨graph, board⟩ graph.cards anchor.slot []) :
    board.listenerCount anchor = if graph.hears anchor then 1 else 0 := by
  obtain ⟨-, ⟨listeners, distinct, -⟩, answers⟩ := tuned
  rw [List.append_nil] at listeners distinct
  have counted : board.listenerCount anchor =
      (numbersAt anchor.slot graph.subscriptions.values).length := by
    rw [← listeners.length_eq, List.length_map]
    rfl
  -- The slot tells the anchor, the anchor the place, and the place the subscription.
  have alone : ∀ one ∈ numbersAt anchor.slot graph.subscriptions.values,
      ∀ two ∈ numbersAt anchor.slot graph.subscriptions.values, one = two := by
    intro one left two right
    obtain ⟨first, heldFirst, slotFirst, rfl⟩ := mem_numbersAt.mp left
    obtain ⟨second, heldSecond, slotSecond, rfl⟩ := mem_numbersAt.mp right
    obtain ⟨place, foundFirst⟩ := Registry.mem_values_iff.mp heldFirst
    obtain ⟨other, foundSecond⟩ := Registry.mem_values_iff.mp heldSecond
    obtain ⟨card, member, own, -, takes, rfl⟩ := answers place first foundFirst
    obtain ⟨owner, known, slots, -, listens, rfl⟩ := answers other second foundSecond
    obtain ⟨rfl, same⟩ := discerned.own card member _ own owner known _ slots takes listens
      (slotFirst.trans slotSecond.symm)
    rw [same, foundSecond] at foundFirst
    rw [Option.some.inj foundFirst]
  have heard : graph.hears anchor = true ↔
      ∃ number, number ∈ numbersAt anchor.slot graph.subscriptions.values := by
    rw [hears_eq_true]
    constructor
    · rintro ⟨connection, member, parties, found, kind, listens, slot⟩
      have place : connection.source.eventPlace ∈ graph.subscriptions.names :=
        (attends.heard _).mpr ⟨connection, member, parties, found, kind, listens, rfl⟩
      obtain ⟨held, there⟩ := Registry.exists_get?_of_mem_names place
      obtain ⟨card, known, own, event, -, same⟩ := answers _ held there
      have ends := Connection.resolved_of_parties found
      rw [ends.sourceEnd] at same
      obtain ⟨-, equal⟩ := discerned.clear.event_of_place known own event ends.sourceCard
        ends.source kind same
      exact ⟨held.number, mem_numbersAt.mpr
        ⟨held, Registry.mem_values_iff.mpr ⟨_, there⟩, equal ▸ slot, rfl⟩⟩
    · rintro ⟨number, member⟩
      obtain ⟨held, inside, slot, -⟩ := mem_numbersAt.mp member
      obtain ⟨place, there⟩ := Registry.mem_values_iff.mp inside
      obtain ⟨card, known, own, event, -, same⟩ := answers place held there
      obtain ⟨connection, listed, parties, found, kind, listens, named⟩ :=
        (attends.heard place).mp (Registry.mem_names_of_get? there)
      have ends := Connection.resolved_of_parties found
      rw [← same, ends.sourceEnd] at named
      obtain ⟨-, equal⟩ := discerned.clear.event_of_place ends.sourceCard ends.source kind known
        own event named
      exact ⟨connection, listed, parties, found, kind, listens, equal ▸ slot⟩
  rw [counted]
  split
  · next hears =>
      obtain ⟨number, member⟩ := heard.mp hears
      have few : (numbersAt anchor.slot graph.subscriptions.values).length ≤ 1 :=
        length_le_one distinct alone
      have some := List.length_pos_of_mem member
      omega
  · next deaf =>
      rw [List.length_eq_zero_iff, List.eq_nil_iff_forall_not_mem]
      exact fun number member => deaf (heard.mpr ⟨number, member⟩)

end Graph

end CardNet
