import CardNet.Proofs.Graph.FailedBuilds
import CardNet.Proofs.Graph.Provenance
import CardNet.Proofs.Graph.Rearranging
import CardNet.Proofs.Net.Firing

/-!
# Fresh starts

Before a run all places are reset and the entry places seeded (`Bench.restarted`). What this leaves
does not depend on what earlier runs have left: the tokens that wait for events stay, every other
place has one token if nothing leads to it and none otherwise, and an anchor that a place is bound
to holds its default, if it declares one (`Bench.restarted_spec`). An anchor may be bound to several
places, and an entry place is brought to its default twice; as long as a slot belongs to one anchor
(`Circuit.Singular`) this makes no difference.
-/

namespace CardNet

/-! ## Values and records -/

/-- The default that the first of some anchors with a slot declares. -/
def Anchor.settled? (anchors : List Anchor) (slot : Nat) : Option Value :=
  (anchors.find? fun anchor => anchor.slot == slot).bind Anchor.default

/-- Anchors no two of which have one slot, unless they are the same. -/
def Anchor.Single (anchors : List Anchor) : Prop :=
  ∀ one ∈ anchors, ∀ two ∈ anchors, one.slot = two.slot → one = two

namespace Anchor

variable {anchors others : List Anchor} {anchor : Anchor} {slot : Nat} {value : Value}

theorem Single.subset (single : Single anchors) (inside : ∀ anchor ∈ others, anchor ∈ anchors) :
    Single others := by
  intro one left two right
  exact single one (inside one left) two (inside two right)

theorem settled?_eq_some (single : Single anchors) : settled? anchors slot = some value ↔
    ∃ anchor ∈ anchors, anchor.slot = slot ∧ anchor.default = some value := by
  unfold settled?
  cases found : anchors.find? fun anchor => anchor.slot == slot with
  | none =>
      rw [List.find?_eq_none] at found
      constructor
      · exact nofun
      · intro ⟨anchor, member, here, _⟩
        exact absurd (beq_iff_eq.mpr here) (found anchor member)
  | some first =>
      have member := List.mem_of_find?_eq_some found
      have here : first.slot = slot := by simpa using List.find?_some found
      constructor
      · intro declared
        exact ⟨first, member, here, declared⟩
      · intro ⟨anchor, inside, same, declared⟩
        rw [single first member anchor inside (here.trans same.symm)]
        exact declared

/-- An anchor of its slot declares what is declared at the slot. -/
theorem settled?_of_mem (single : Single anchors) (member : anchor ∈ anchors) :
    settled? anchors anchor.slot = anchor.default := by
  apply Option.ext
  intro value
  rw [settled?_eq_some single]
  constructor
  · intro ⟨other, inside, same, declared⟩
    rw [← single other inside anchor member same]
    exact declared
  · intro declared
    exact ⟨anchor, member, rfl, declared⟩

end Anchor

namespace Board

variable {first second third : Board} {anchors : List Anchor}

theorem getElem?_resetAnchor (board : Board) (anchor : Anchor) (slot : Nat) :
    (board.resetAnchor anchor).values[slot]? =
      if anchor.slot = slot then anchor.default.or board.values[slot]?
      else board.values[slot]? := by
  unfold resetAnchor
  split
  · next value declared =>
      rw [write, Std.ExtTreeMap.getElem?_insert, declared]
      simp only [Std.LawfulEqCmp.compare_eq_iff_eq, Option.some_or]
  · next none => rw [none, Option.none_or, ite_self]

/-- After anchors were brought to their defaults each slot holds the default declared for it, or
what it has held. -/
theorem getElem?_resetAll (single : Anchor.Single anchors) (board : Board) (slot : Nat) :
    (board.resetAll anchors).values[slot]? =
      (Anchor.settled? anchors slot).or board.values[slot]? := by
  induction anchors generalizing board with
  | nil => rfl
  | cons anchor rest ih =>
      have later := single.subset fun other member => List.mem_cons_of_mem anchor member
      rw [resetAll, List.foldl_cons, ← resetAll, ih later, getElem?_resetAnchor]
      by_cases here : anchor.slot = slot
      · subst here
        rw [if_pos rfl, Anchor.settled?_of_mem single (List.mem_cons_self ..), ← Option.or_assoc]
        congr 1
        cases other : Anchor.settled? rest anchor.slot with
        | none => rw [Option.none_or]
        | some value =>
            obtain ⟨same, member, slot, declared⟩ := (Anchor.settled?_eq_some later).mp other
            rw [← single same (List.mem_cons_of_mem _ member) anchor (List.mem_cons_self ..) slot,
              declared, Option.some_or]
      · rw [if_neg here, Anchor.settled?, Anchor.settled?,
          List.find?_cons_of_neg (by simpa using here)]

theorem read_eq_getElem? (board : Board) (anchor : Anchor) :
    board.read anchor = (board.values[anchor.slot]?).getD .null :=
  Std.ExtTreeMap.getD_eq_getD_getElem?

/-- A board that is another one but for how often cards were reset. -/
structure Recounted (first second : Board) : Prop where
  frame : second = { first with records := second.records }
  record : ∀ slot, second.record slot =
    { first.record slot with resets := (second.record slot).resets }

namespace Recounted

theorem refl (board : Board) : board.Recounted board :=
  ⟨rfl, fun _ => rfl⟩

theorem values (recounted : first.Recounted second) : second.values = first.values := by
  rw [recounted.frame]

theorem resetAnchor (recounted : first.Recounted second) (anchor : Anchor) :
    (first.resetAnchor anchor).Recounted (second.resetAnchor anchor) := by
  obtain ⟨frame, record⟩ := recounted
  refine ⟨?_, ?_⟩
  · unfold Board.resetAnchor
    cases anchor.default with
    | none => exact frame
    | some value => rw [frame]; rfl
  · intro slot
    rw [record_resetAnchor, record_resetAnchor]
    exact record slot

theorem resetAll (recounted : first.Recounted second) (anchors : List Anchor) :
    (first.resetAll anchors).Recounted (second.resetAll anchors) := by
  induction anchors generalizing first second with
  | nil => exact recounted
  | cons anchor rest ih => exact ih (recounted.resetAnchor anchor)

/-- Resetting a card counts. -/
theorem trigger (recounted : first.Recounted second) (card : Card) :
    first.Recounted ((Content.trigger card).reset second) := by
  obtain ⟨frame, record⟩ := recounted
  refine ⟨?_, ?_⟩
  · rw [Content.reset, modifyRecord, frame]
  · intro slot
    rw [Content.reset, record_modifyRecord]
    split
    · next same => rw [same, record slot]
    · exact record slot

/-- Resetting contents comes down to bringing their anchors to their defaults. -/
theorem reset (recounted : first.Recounted second) (contents : List Content) :
    (first.resetAll (contents.filterMap Content.anchor?)).Recounted
      (contents.foldl (fun board content => content.reset board) second) := by
  induction contents generalizing first second with
  | nil => exact recounted
  | cons content rest ih =>
      cases content with
      | anchor card slot => exact ih (recounted.resetAnchor slot)
      | event card slot => exact ih (recounted.resetAnchor slot)
      | trigger card => exact ih (recounted.trigger card)
      | relay => exact ih recounted

end Recounted

end Board

/-! ## Starting afresh -/

/-- The anchors that places of a circuit are bound to. -/
def Circuit.anchors (net : Circuit) : List Anchor := net.contents.filterMap Content.anchor?

/-- A circuit in which the places bound to a slot are bound to one anchor. -/
def Circuit.Singular (net : Circuit) : Prop := Anchor.Single net.anchors

theorem Circuit.mem_anchors {net : Circuit} {anchor : Anchor} :
    anchor ∈ net.anchors ↔
      ∃ id content, net.content? id = some content ∧ content.anchor? = some anchor := by
  simp only [anchors, List.mem_filterMap, mem_contents]
  constructor
  · intro ⟨content, ⟨id, held⟩, shows⟩
    exact ⟨id, content, held, shows⟩
  · intro ⟨id, content, held, shows⟩
    exact ⟨content, ⟨id, held⟩, shows⟩

theorem Circuit.anchors_of_bare {net other : Circuit} (same : other.bare = net.bare) :
    other.anchors = net.anchors := by
  rw [anchors, anchors, contents_eq, contents_eq, Net.placeNames_of_bare same,
    Net.content?_of_bare same]

/-- In a graph that can be reached a slot belongs to one anchor, if it does so among the anchors of
the cards. -/
theorem Graph.Furnished.singular {graph : Graph} (furnished : graph.Furnished)
    (single : Anchor.Single (graph.cards.flatMap Card.anchors)) : graph.net.Singular := by
  refine single.subset fun anchor member => ?_
  obtain ⟨id, content, held, shows⟩ := Circuit.mem_anchors.mp member
  exact List.mem_flatMap.mpr (furnished.anchor_of_content held shows)

namespace Bench

/-- A graph after all places were reset and the entry places seeded. -/
def restarted (bench : Bench) : Bench := bench.reset.seed

/-- What a graph starts a run from. -/
structure StartsAt (bench after : Bench) : Prop where
  graph : after.graph = { bench.graph with net := after.graph.net }
  bare : after.graph.net.bare = bench.graph.net.bare
  event : ∀ place, bench.graph.net.collectsEvents place = true →
    after.graph.net.tokens? place = bench.graph.net.tokens? place
  entry : ∀ place ∈ bench.graph.net.places.names, bench.graph.net.collectsEvents place = false →
    bench.graph.net.arcsInto place = [] → after.graph.net.tokens? place = some 1
  inner : ∀ place ∈ bench.graph.net.places.names, bench.graph.net.collectsEvents place = false →
    bench.graph.net.arcsInto place ≠ [] → after.graph.net.tokens? place = some 0
  board : Board.Recounted { bench.board with values := after.board.values } after.board
  declared : ∀ anchor ∈ bench.graph.net.anchors, ∀ value, anchor.default = some value →
    after.board.read anchor = value
  other : ∀ anchor, (∀ bound ∈ bench.graph.net.anchors, bound.slot = anchor.slot →
    bound.default = none) → after.board.read anchor = bench.board.read anchor

variable {bench : Bench}

theorem graph_restarted (bench : Bench) : bench.restarted.graph = { bench.graph with
    net := bench.graph.net.clearTokens.seedAll bench.graph.net.seedPlaces } :=
  graph_opened bench ∅

@[simp] theorem bare_restarted (bench : Bench) :
    bench.restarted.graph.net.bare = bench.graph.net.bare :=
  bench.bare_opened ∅

/-- What a run is opened with is a fresh start with the inputs. -/
theorem opened_eq (bench : Bench) (inputs : Values) :
    bench.opened inputs = (bench.supply inputs).restarted := rfl

theorem tokens?_restarted (bench : Bench) {place : String}
    (known : place ∈ bench.graph.net.places.names) : bench.restarted.graph.net.tokens? place =
      if bench.graph.net.collectsEvents place then bench.graph.net.tokens? place
      else some (if bench.graph.net.arcsInto place = [] then 1 else 0) := by
  have kept : place ∈ bench.restarted.graph.net.places.names := by
    rwa [Net.placeNames_of_bare bench.bare_restarted]
  have entry : place ∈ bench.graph.net.entryPlaces ↔ bench.graph.net.arcsInto place = [] := by
    rw [Net.entryPlaces, List.mem_filter, List.isEmpty_iff]
    exact and_iff_right known
  rw [Net.tokens?_of_mem kept, Net.tokens?_of_mem known]
  refine (congrArg some (bench.tokens_opened ∅ known)).trans ?_
  rw [apply_ite some]
  simp only [entry]

/-- The anchors of entry places are among those that places are bound to. -/
theorem mem_anchors_of_seedAnchors {anchor : Anchor} (member : anchor ∈ bench.seedAnchors) :
    anchor ∈ bench.graph.net.anchors := by
  obtain ⟨id, -, shown⟩ := List.mem_filterMap.mp member
  obtain ⟨content, held, settable⟩ := Option.bind_eq_some_iff.mp shown
  exact Circuit.mem_anchors.mpr ⟨id, content, held, Content.anchor?_of_settable? settable⟩

/-- The anchors that are brought to their defaults at a fresh start, in order. -/
def startAnchors (bench : Bench) : List Anchor := bench.graph.net.anchors ++ bench.seedAnchors

theorem mem_startAnchors {anchor : Anchor} :
    anchor ∈ bench.startAnchors ↔ anchor ∈ bench.graph.net.anchors := by
  rw [startAnchors, List.mem_append]
  exact or_iff_left_of_imp mem_anchors_of_seedAnchors

theorem single_startAnchors (singular : bench.graph.net.Singular) :
    Anchor.Single bench.startAnchors :=
  singular.subset fun _ member => mem_startAnchors.mp member

theorem seedAnchors_of_bare {other : Bench} (same : other.graph.net.bare = bench.graph.net.bare) :
    other.seedAnchors = bench.seedAnchors := by
  rw [seedAnchors, seedAnchors, Circuit.seedPlaces_of_bare same, Net.content?_of_bare same]

theorem startAnchors_of_bare {other : Bench} (same : other.graph.net.bare = bench.graph.net.bare) :
    other.startAnchors = bench.startAnchors := by
  rw [startAnchors, startAnchors, Circuit.anchors_of_bare same, seedAnchors_of_bare same]

theorem recounted_restarted (bench : Bench) :
    (bench.board.resetAll bench.startAnchors).Recounted bench.restarted.board := by
  have seeds : bench.reset.seedAnchors = bench.seedAnchors :=
    seedAnchors_of_bare bench.graph.net.bare_clearTokens
  have cleared := (Board.Recounted.refl bench.board).reset bench.graph.net.contents
  rw [restarted, board_seed, seeds, startAnchors, Board.resetAll, List.foldl_append]
  exact cleared.resetAll bench.seedAnchors

/-- After a fresh start each slot holds the default of the anchor of a place, or what it has
held. -/
theorem getElem?_restarted (singular : bench.graph.net.Singular) (slot : Nat) :
    bench.restarted.board.values[slot]? =
      (Anchor.settled? bench.startAnchors slot).or bench.board.values[slot]? := by
  rw [bench.recounted_restarted.values, Board.getElem?_resetAll (single_startAnchors singular)]

theorem startsAt_restarted (singular : bench.graph.net.Singular) :
    bench.StartsAt bench.restarted where
  graph := by rw [graph_restarted]
  bare := bench.bare_restarted
  event := by
    intro place events
    by_cases known : place ∈ bench.graph.net.places.names
    · rw [tokens?_restarted bench known, if_pos events]
    · have absent : bench.graph.net.place? place = none := Registry.get?_eq_none_iff.mpr known
      rw [Circuit.collectsEvents, Net.content?, absent] at events
      cases events
  entry := by
    intro place known quiet free
    rw [tokens?_restarted bench known, quiet, if_pos free]
    rfl
  inner := by
    intro place known quiet led
    rw [tokens?_restarted bench known, quiet, if_neg led]
    rfl
  board := by
    have recounted := bench.recounted_restarted
    rw [Board.resetAll_eq, ← recounted.values] at recounted
    exact recounted
  declared := by
    intro anchor member value declared
    rw [Board.read_eq_getElem?, getElem?_restarted singular,
      Anchor.settled?_of_mem (single_startAnchors singular) (mem_startAnchors.mpr member), declared]
    rfl
  other := by
    intro anchor undeclared
    have settled : Anchor.settled? bench.startAnchors anchor.slot = none := by
      apply Option.eq_none_iff_forall_not_mem.mpr
      intro value found
      obtain ⟨bound, member, same, declared⟩ :=
        (Anchor.settled?_eq_some (single_startAnchors singular)).mp found
      cases (undeclared bound (mem_startAnchors.mp member) same).symm.trans declared
    rw [Board.read_eq_getElem?, getElem?_restarted singular, settled, Option.none_or,
      ← Board.read_eq_getElem?]

/-- A fresh start of the same circuit is the same, if it agrees on what is left alone. -/
theorem restarted_congr {other : Bench} (singular : bench.graph.net.Singular)
    (same : other.graph.net.bare = bench.graph.net.bare)
    (events : ∀ place, bench.graph.net.collectsEvents place = true →
      other.graph.net.tokens? place = bench.graph.net.tokens? place)
    (values : ∀ anchor ∈ bench.graph.net.anchors, anchor.default = none →
      other.board.read anchor = bench.board.read anchor) :
    other.restarted.graph.net = bench.restarted.graph.net ∧
      ∀ anchor ∈ bench.graph.net.anchors,
        other.restarted.board.read anchor = bench.restarted.board.read anchor := by
  have anchors := Circuit.anchors_of_bare same
  have start := startsAt_restarted singular
  have startOther : other.StartsAt other.restarted :=
    startsAt_restarted (by rw [Circuit.Singular, anchors]; exact singular)
  constructor
  · refine Net.eq_of_tokens (startOther.bare.trans (same.trans start.bare.symm)) ?_
    intro place known
    rw [Net.placeNames_of_bare startOther.bare] at known
    have known' : place ∈ bench.graph.net.places.names := by rwa [← Net.placeNames_of_bare same]
    suffices agree : other.restarted.graph.net.tokens? place =
        bench.restarted.graph.net.tokens? place by rw [Net.tokens, Net.tokens, agree]
    have quiet := congrFun (Circuit.collectsEvents_of_bare same) place
    have led : other.graph.net.arcsInto place = bench.graph.net.arcsInto place := by
      rw [Net.arcsInto_of_bare same]
    rw [tokens?_restarted other known, tokens?_restarted bench known', quiet, led]
    by_cases collects : bench.graph.net.collectsEvents place = true
    · rw [if_pos collects, if_pos collects, events place collects]
    · rw [if_neg collects, if_neg collects]
  · intro anchor member
    cases declared : anchor.default with
    | some value =>
        rw [start.declared anchor member value declared,
          startOther.declared anchor (anchors ▸ member) value declared]
    | none =>
        have alone : ∀ bound ∈ bench.graph.net.anchors, bound.slot = anchor.slot →
            bound.default = none := by
          intro bound inside slot
          rw [singular bound inside anchor member slot]
          exact declared
        rw [start.other anchor alone, startOther.other anchor (anchors ▸ alone)]
        exact values anchor member declared

/-- Two fresh starts in a row are one. -/
theorem restarted_restarted (singular : bench.graph.net.Singular) :
    bench.restarted.restarted.graph = bench.restarted.graph ∧
      bench.restarted.board.Recounted bench.restarted.restarted.board := by
  have start := startsAt_restarted singular
  have again : bench.restarted.graph.net.Singular := by
    rw [Circuit.Singular, Circuit.anchors_of_bare bench.bare_restarted]
    exact singular
  constructor
  · have net := (restarted_congr singular start.bare start.event fun anchor member declared =>
      start.other anchor fun bound inside slot => by
        rw [singular bound inside anchor member slot]
        exact declared).1
    rw [(startsAt_restarted again).graph, net]
  · -- The values are those already there, slot by slot.
    have still : (bench.restarted.board.resetAll bench.restarted.startAnchors).values =
        bench.restarted.board.values := by
      apply Std.ExtTreeMap.ext_getElem?
      intro slot
      rw [Board.getElem?_resetAll (single_startAnchors again),
        startAnchors_of_bare bench.bare_restarted, getElem?_restarted singular, ← Option.or_assoc,
        Option.or_self]
    have recounted := bench.restarted.recounted_restarted
    rw [Board.resetAll_eq, still] at recounted
    exact recounted

/-- Whatever the state of a graph is, it starts a run from the same marking and the same values of
the anchors that its places are bound to, as long as the tokens that wait for events and the values
without a default are the same; and to start afresh twice is to do so once. -/
theorem restarted_spec (bench : Bench) (singular : bench.graph.net.Singular) :
    bench.StartsAt bench.restarted ∧
    (bench.restarted.restarted.graph = bench.restarted.graph ∧
      bench.restarted.board.Recounted bench.restarted.restarted.board) ∧
    ∀ other : Bench, other.graph.net.bare = bench.graph.net.bare →
      (∀ place, bench.graph.net.collectsEvents place = true →
        other.graph.net.tokens? place = bench.graph.net.tokens? place) →
      (∀ anchor ∈ bench.graph.net.anchors, anchor.default = none →
        other.board.read anchor = bench.board.read anchor) →
      other.restarted.graph.net = bench.restarted.graph.net ∧
        ∀ anchor ∈ bench.graph.net.anchors,
          other.restarted.board.read anchor = bench.restarted.board.read anchor :=
  ⟨startsAt_restarted singular, restarted_restarted singular,
    fun _ same events values => restarted_congr singular same events values⟩

end Bench

/-! ## A state with leftovers -/

namespace Afresh

def input : Anchor := ⟨1, "in", .input, some (.ofInt 3), false⟩

def output : Anchor := ⟨2, "out", .output, none, false⟩

def ring : Anchor := ⟨3, "ring", .event, none, true⟩

def card (slot : Nat) (id : String) : Card where
  slot := slot
  id := id
  title := "card"
  anchors := [input, output, ring]
  delay := 0
  work := .function fun arguments => .ok arguments

/-- Two cards that have their anchors in common. -/
def cards : List Card := [card 0 "hub", card 4 "twin"]

/-- The events of one card set off the other one. -/
def built : Except Failure Graph × Board :=
  Graph.build .visual ⟨"afresh", [⟨⟨"hub", "ring"⟩, ⟨"twin", "in"⟩⟩]⟩ cards none
    { Board.empty with nextSlot := 5 }

theorem single : Anchor.Single (cards.flatMap Card.anchors) := by
  have listed : ∀ anchor ∈ cards.flatMap Card.anchors,
      anchor = input ∨ anchor = output ∨ anchor = ring := by
    simp [cards, card]
  intro one left two right same
  rcases listed one left with rfl | rfl | rfl <;>
    rcases listed two right with rfl | rfl | rfl <;> first | rfl | cases same

/-- A state in which tokens have piled up and the common input is overwritten. -/
def leftOver (bench : Bench) : Bench where
  graph := { bench.graph with net := bench.graph.net.modifyTokens "place_hub_in" fun _ => 7 }
  board := bench.board.write input (.text "left over")

end Afresh

namespace Bench

/-- Tokens that have piled up and a value that was overwritten make no difference, although the
anchor of the value is bound to an entry place and to an inner place. -/
theorem restarted_spec_afresh : ∃ bench : Bench, bench.Reached ∧ bench.graph.net.Singular ∧
    (Afresh.leftOver bench).graph.net.tokens? "place_hub_in" = some 7 ∧
    (Afresh.leftOver bench).board.read Afresh.input = .text "left over" ∧
    (Afresh.leftOver bench).restarted.graph.net = bench.restarted.graph.net ∧
    bench.restarted.graph.net.tokens? "place_hub_in" = some 1 ∧
    bench.restarted.graph.net.tokens? "place_twin_in" = some 0 ∧
    (Afresh.leftOver bench).restarted.board.read Afresh.input = .ofInt 3 := by
  have seen : Afresh.built.1.toOption.any (fun graph =>
      ((graph.net.content? "place_hub_in").bind Content.anchor?).map Anchor.slot == some 1 &&
        graph.net.tokens? "place_hub_in" == some 1 && !graph.net.collectsEvents "place_hub_in" &&
        (graph.net.arcsInto "place_hub_in").isEmpty && graph.net.places.contains "place_twin_in" &&
        !graph.net.collectsEvents "place_twin_in" &&
        !(graph.net.arcsInto "place_twin_in").isEmpty) = true := by
    decide +kernel
  rcases result : Afresh.built with ⟨failure | graph, board⟩
  · rw [result] at seen
    cases seen
  · rw [result] at seen
    simp only [Except.toOption, Option.any_some, Bool.and_eq_true, Bool.not_eq_true', beq_iff_eq,
      List.isEmpty_iff, List.isEmpty_eq_false_iff, Registry.contains_eq_true] at seen
    obtain ⟨⟨⟨⟨⟨⟨slot, one⟩, quiet⟩, free⟩, twin⟩, quietTwin⟩, led⟩ := seen
    have reached : Reached ⟨graph, board⟩ := .build result
    have cards : graph.cards = Afresh.cards := (Graph.built_of_build result).1.cards_eq
    have singular := reached.furnished.singular (cards ▸ Afresh.single)
    obtain ⟨place, held, -⟩ := Option.map_eq_some_iff.mp one
    have hub : "place_hub_in" ∈ graph.net.places.names := Registry.mem_names_of_get? held
    have shown : Afresh.input ∈ graph.net.anchors := by
      obtain ⟨anchor, shows, here⟩ := Option.map_eq_some_iff.mp slot
      obtain ⟨content, found, shows⟩ := Option.bind_eq_some_iff.mp shows
      obtain ⟨card, known, member⟩ := reached.furnished.anchor_of_content found shows
      have same : anchor = Afresh.input :=
        Afresh.single anchor (List.mem_flatMap.mpr ⟨card, cards ▸ known, member⟩) Afresh.input
          (List.mem_cons_self ..) here
      exact same ▸ Circuit.mem_anchors.mpr ⟨_, content, found, shows⟩
    obtain ⟨start, -, alike⟩ := restarted_spec ⟨graph, board⟩ singular
    obtain ⟨net, values⟩ := alike (Afresh.leftOver ⟨graph, board⟩)
      (Net.bare_modifyTokens graph.net _ _)
      (by
        intro place events
        refine (Net.tokens?_modifyTokens graph.net _ place _).trans (if_neg fun same => ?_)
        rw [same] at events
        cases quiet.symm.trans events)
      (by
        intro anchor member undeclared
        refine (Board.read_write ..).trans (if_neg fun same => ?_)
        cases singular _ shown anchor member same ▸ undeclared)
    refine ⟨⟨graph, board⟩, reached, singular, ?_, ?_, net, ?_, ?_, ?_⟩
    · rw [Afresh.leftOver, Net.tokens?_modifyTokens, if_pos rfl, one]
      rfl
    · exact (Board.read_write ..).trans (if_pos rfl)
    · exact start.entry _ hub quiet free
    · exact start.inner _ twin quietTwin led
    · rw [values Afresh.input shown]
      exact start.declared Afresh.input shown (.ofInt 3) rfl

end Bench

end CardNet
