import CardNet.Engine.Basic
import CardNet.Proofs.Graph.FeedForward

/-!
# The opening of a run

Before a run all places are reset and the entry places seeded (`Bench.opened`). This changes
tokens and values only: one token lies on each entry afterwards and none on any other place,
events apart (`Bench.tokens_opened`), and each anchor holds its default, if it declares one, and
else what it held before (`Bench.read_opened`).
-/

namespace CardNet

/-! ## Tokens -/

namespace Net

variable {κ α : Type}

theorem tokens_modifyTokens (net : Net κ α) (id : String) (change : Nat → Nat) {place : String}
    (known : place ∈ net.places.names) :
    (net.modifyTokens id change).tokens place =
      if place = id then change (net.tokens place) else net.tokens place := by
  obtain ⟨held, found⟩ := Registry.exists_get?_of_mem_names known
  have present : net.tokens? place = some held.tokens := by
    rw [tokens?, place?, found]
    rfl
  rw [tokens, tokens?_modifyTokens, tokens, present]
  split <;> rfl

/-- Put one token on each of some places. -/
def seedAll (net : Net κ α) (ids : List String) : Net κ α :=
  ids.foldl (fun net id => net.modifyTokens id fun _ => 1) net

@[simp] theorem bare_seedAll (net : Net κ α) (ids : List String) :
    (net.seedAll ids).bare = net.bare := by
  induction ids generalizing net with
  | nil => rfl
  | cons id rest ih => exact (ih (net.modifyTokens id fun _ => 1)).trans (bare_modifyTokens ..)

theorem tokens_seedAll (net : Net κ α) (ids : List String) {place : String}
    (known : place ∈ net.places.names) :
    (net.seedAll ids).tokens place = if place ∈ ids then 1 else net.tokens place := by
  induction ids generalizing net with
  | nil => simp [seedAll]
  | cons id rest ih =>
      have kept : place ∈ (net.modifyTokens id fun _ => 1).places.names := by
        rwa [placeNames_of_bare (bare_modifyTokens net id fun _ => 1)]
      refine (ih (net.modifyTokens id fun _ => 1) kept).trans ?_
      rw [tokens_modifyTokens net id _ known]
      by_cases same : place = id
      · simp [same]
      · simp [same, List.mem_cons]

end Net

namespace Circuit

variable {net : Circuit}

theorem collectsEvents_of_bare {first second : Circuit} (same : first.bare = second.bare) :
    first.collectsEvents = second.collectsEvents := by
  funext id
  rw [collectsEvents, collectsEvents, Net.content?_of_bare same]

theorem seedPlaces_of_bare {first second : Circuit} (same : first.bare = second.bare) :
    first.seedPlaces = second.seedPlaces := by
  rw [seedPlaces, seedPlaces, Net.entryPlaces_of_bare same, collectsEvents_of_bare same]

theorem applyDefault_of_bare {first second : Circuit} (same : first.bare = second.bare) :
    first.applyDefault = second.applyDefault := by
  funext board id
  rw [applyDefault, applyDefault, Net.content?_of_bare same]

theorem mem_seedPlaces {id : String} :
    id ∈ net.seedPlaces ↔ id ∈ net.entryPlaces ∧ net.collectsEvents id = false := by
  rw [seedPlaces, List.mem_filter, Bool.not_eq_true']

@[simp] theorem bare_clearTokens (net : Circuit) : net.clearTokens.bare = net.bare := by
  rw [Net.bare, clearTokens, Net.bare, Registry.map_map]
  congr 1
  refine congrArg (Registry.map · net.places) (funext fun _ => funext fun place => ?_)
  split
  · split <;> rfl
  · rfl

theorem tokens_clearTokens (net : Circuit) {place : String} (known : place ∈ net.places.names) :
    net.clearTokens.tokens place = if net.collectsEvents place then net.tokens place else 0 := by
  obtain ⟨held, found⟩ := Registry.exists_get?_of_mem_names known
  simp only [Net.tokens, Net.tokens?, Net.place?, clearTokens, Registry.get?_map, found,
    collectsEvents, Net.content?, Option.map_some, Option.bind_some, Option.getD_some]
  cases held.content with
  | none => rfl
  | some content =>
      cases events : content.isEvent with
      | true => simp [events]
      | false => simp [events]

end Circuit

/-! ## Values -/

namespace Board

theorem read_write (board : Board) (other anchor : Anchor) (value : Value) :
    (board.write other value).read anchor =
      if other.slot = anchor.slot then value else board.read anchor := by
  simp only [write, read, Std.ExtTreeMap.getD_insert, Std.LawfulEqCmp.compare_eq_iff_eq]

theorem record_modifyRecord (board : Board) (slot other : Nat)
    (change : CardRecord → CardRecord) : (board.modifyRecord slot change).record other =
      if slot = other then change (board.record slot) else board.record other := by
  simp only [modifyRecord, record, Std.ExtTreeMap.getD_insert,
    Std.LawfulEqCmp.compare_eq_iff_eq]

theorem read_resetAnchor (board : Board) (other anchor : Anchor) :
    (board.resetAnchor other).read anchor =
      if other.slot = anchor.slot then other.default.getD (board.read anchor)
      else board.read anchor := by
  unfold resetAnchor
  split
  · next value declared => rw [read_write, declared, Option.getD_some]
  · next none =>
      rw [none, Option.getD_none]
      split <;> rfl

@[simp] theorem channel_resetAnchor (board : Board) (anchor : Anchor) :
    (board.resetAnchor anchor).channel = board.channel := by
  unfold resetAnchor
  split <;> rfl

@[simp] theorem record_resetAnchor (board : Board) (anchor : Anchor) :
    (board.resetAnchor anchor).record = board.record := by
  unfold resetAnchor
  split <;> rfl

/-- Steps that leave an anchor alone or bring it to its default do so together. -/
theorem read_foldl_of_steps {β : Type} {step : Board → β → Board} {items : List β}
    {anchor : Anchor} (own : ∀ item ∈ items, ∀ board,
      (step board item).read anchor = board.read anchor ∨
        (step board item).read anchor = anchor.default.getD (board.read anchor))
    (board : Board) :
    (items.foldl step board).read anchor = board.read anchor ∨
      (items.foldl step board).read anchor = anchor.default.getD (board.read anchor) := by
  have twice : ∀ value, anchor.default.getD (anchor.default.getD value) =
      anchor.default.getD value := fun value => by cases anchor.default <;> rfl
  induction items generalizing board with
  | nil => exact .inl rfl
  | cons item rest ih =>
      have one := own item (List.mem_cons_self ..) board
      have others := ih (fun other member => own other (List.mem_cons_of_mem _ member))
        (step board item)
      rw [List.foldl_cons]
      rcases one with one | one <;> rcases others with others | others <;>
        simp only [others, one, twice, true_or, or_true]

end Board

namespace Content

theorem read_reset_of_anchor? {content : Content} {other : Anchor}
    (shows : content.anchor? = some other) (board : Board) (anchor : Anchor) :
    (content.reset board).read anchor = (board.resetAnchor other).read anchor := by
  cases content with
  | anchor card slot =>
      cases shows
      rfl
  | event card slot =>
      cases shows
      rfl
  | trigger => cases shows
  | relay => cases shows

theorem read_reset_of_none {content : Content} (shows : content.anchor? = none) (board : Board) :
    (content.reset board).read = board.read := by
  cases content with
  | anchor => cases shows
  | event => cases shows
  | trigger => rfl
  | relay => rfl

@[simp] theorem channel_reset (content : Content) (board : Board) :
    (content.reset board).channel = board.channel := by
  cases content with
  | anchor => simp [reset]
  | event => simp [reset]
  | trigger => rfl
  | relay => rfl

/-- Resetting a content counts no call. -/
theorem calls_reset (content : Content) (board : Board) (slot : Nat) :
    ((content.reset board).record slot).calls = (board.record slot).calls := by
  cases content with
  | anchor => simp [reset]
  | event => simp [reset]
  | relay => rfl
  | trigger card =>
      rw [reset, Board.record_modifyRecord]
      split
      · next same => rw [same]
      · rfl

end Content

namespace Circuit

variable {net : Circuit} {cards : List Card} {connections laid : List Connection} {channel : Nat}

theorem mem_contents {content : Content} :
    content ∈ net.contents ↔ ∃ id, net.content? id = some content := by
  simp only [contents, List.mem_filterMap, Registry.mem_values_iff, Net.content?, Net.place?,
    Option.bind_eq_some_iff]
  constructor
  · rintro ⟨place, ⟨name, found⟩, holds⟩
    exact ⟨name, place, found, holds⟩
  · rintro ⟨name, place, found, holds⟩
    exact ⟨place, ⟨name, found⟩, holds⟩

/-- The names of the contents of places are among the names of the places. -/
theorem contentsOf_sublist (net : Circuit) (ids : List String) :
    ((net.contentsOf ids).map Prod.fst).Sublist ids := by
  induction ids with
  | nil => exact .slnil
  | cons id rest ih =>
      unfold contentsOf at ih ⊢
      rw [List.filterMap_cons]
      cases net.content? id with
      | none => exact ih.cons id
      | some content => exact ih.cons_cons id

namespace Draws

/-- What a place shows is an anchor of a card. -/
theorem anchor_of_content (draws : net.Draws cards connections channel laid) {id : String}
    {content : Content} (found : net.content? id = some content) {slot : Anchor}
    (shows : content.anchor? = some slot) :
    ∃ card ∈ cards, slot ∈ card.anchors ∧ id = card.anchorPlace slot := by
  obtain ⟨part, present, rfl, holds⟩ := (draws.place id content).mp found
  cases present with
  | @anchor card slot known member kind =>
      cases holds
      cases shows
      exact ⟨card, known, member, (if_neg kind).symm⟩
  | @event card slot known member kind =>
      cases holds
      cases shows
      exact ⟨card, known, member, (if_pos kind).symm⟩
  | start =>
      cases holds
      cases shows
  | relay =>
      cases holds
      cases shows
  | internal => cases holds
  | split => cases holds
  | transfer => cases holds

/-- What starts a card starts one of the cards. -/
theorem card_of_trigger (draws : net.Draws cards connections channel laid) {id : String}
    {card : Card} (found : net.content? id = some (.trigger card)) : card ∈ cards := by
  obtain ⟨part, present, rfl, holds⟩ := (draws.place id _).mp found
  cases present with
  | start known => cases holds; exact known
  | anchor | event | relay | internal | split | transfer => cases holds

/-- The place of an anchor shows it. -/
theorem content?_anchorPlace (draws : net.Draws cards connections channel laid) {card : Card}
    {slot : Anchor} (known : card ∈ cards) (member : slot ∈ card.anchors) :
    net.content? (card.anchorPlace slot) =
      some (if slot.kind = .event then .event card.id slot else .anchor card.id slot) := by
  rw [draws.place]
  refine ⟨.ofAnchor card slot, .ofAnchor known member, Part.name_ofAnchor card slot, ?_⟩
  unfold Part.ofAnchor
  split <;> rfl

/-- No arc touches a place that collects events. -/
theorem not_joins_event (draws : net.Draws cards connections channel laid)
    (distinct : DistinctNames cards connections) {place : String}
    (events : net.collectsEvents place = true) (other : String) :
    ¬net.Joins place other ∧ ¬net.Joins other place := by
  unfold collectsEvents at events
  split at events
  · next content found =>
      obtain ⟨part, present, rfl, holds⟩ := (draws.place _ content).mp found
      cases part with
      | event card slot =>
          constructor
          · intro joined
            obtain ⟨first, second, linked, same, -⟩ := (draws.arc _ _).mp joined
            obtain rfl := Part.eq_of_name distinct
              (draws.present _ (draws.ends _ _ linked).1) (draws.present _ present) same
            cases linked
          · intro joined
            obtain ⟨first, second, linked, -, same⟩ := (draws.arc _ _).mp joined
            obtain rfl := Part.eq_of_name distinct
              (draws.present _ (draws.ends _ _ linked).2) (draws.present _ present) same
            cases linked
      | anchor | start | relay =>
          cases holds
          cases events
      | internal | split | transfer => cases holds
  · cases events

end Draws

end Circuit

/-! ## Opening -/

namespace Bench

/-- A bench at the opening of a run with merged inputs. -/
def opened (bench : Bench) (inputs : Values) : Bench := (bench.supply inputs).reset.seed

variable {bench : Bench} {inputs : Values}

theorem graph_opened (bench : Bench) (inputs : Values) :
    (bench.opened inputs).graph =
      { bench.graph with net := bench.graph.net.clearTokens.seedAll bench.graph.net.seedPlaces } := by
  have same := Circuit.seedPlaces_of_bare bench.graph.net.bare_clearTokens
  rw [← same]
  rfl

@[simp] theorem bare_opened (bench : Bench) (inputs : Values) :
    (bench.opened inputs).graph.net.bare = bench.graph.net.bare := by
  rw [graph_opened, Net.bare_seedAll, Circuit.bare_clearTokens]

/-- After the opening one token lies on each entry and none on any other place, events apart. -/
theorem tokens_opened (bench : Bench) (inputs : Values) {place : String}
    (known : place ∈ bench.graph.net.places.names) :
    (bench.opened inputs).graph.net.tokens place =
      if bench.graph.net.collectsEvents place then bench.graph.net.tokens place
      else if place ∈ bench.graph.net.entryPlaces then 1 else 0 := by
  have kept : place ∈ bench.graph.net.clearTokens.places.names := by
    rwa [Net.placeNames_of_bare bench.graph.net.bare_clearTokens]
  rw [graph_opened, Net.tokens_seedAll _ _ kept, Circuit.tokens_clearTokens _ known]
  simp only [Circuit.mem_seedPlaces]
  cases bench.graph.net.collectsEvents place <;> simp

theorem board_opened (bench : Bench) (inputs : Values) :
    (bench.opened inputs).board =
      bench.graph.net.seedPlaces.foldl bench.graph.net.applyDefault
        (bench.graph.net.contents.foldl (fun board content => content.reset board)
          (bench.supply inputs).board) := by
  have same := bench.graph.net.bare_clearTokens
  rw [← Circuit.seedPlaces_of_bare same, ← Circuit.applyDefault_of_bare same]
  rfl

@[simp] theorem channel_opened (bench : Bench) (inputs : Values) :
    (bench.opened inputs).board.channel = (bench.supply inputs).board.channel := by
  have contents : ∀ (contents : List Content) (board : Board),
      (contents.foldl (fun board content => content.reset board) board).channel =
        board.channel := by
    intro contents
    induction contents with
    | nil => exact fun _ => rfl
    | cons content rest ih =>
        exact fun board => (ih (content.reset board)).trans (content.channel_reset board)
  have defaults : ∀ (net : Circuit) (ids : List String) (board : Board),
      (ids.foldl net.applyDefault board).channel = board.channel := by
    intro net ids
    induction ids with
    | nil => exact fun _ => rfl
    | cons id rest ih =>
        refine fun board => (ih (net.applyDefault board id)).trans ?_
        unfold Circuit.applyDefault
        split
        · exact board.channel_resetAnchor _
        · rfl
  exact (defaults ..).trans (contents ..)

/-- The run gets the merged inputs. -/
theorem inputs_opened (bench : Bench) (inputs : Values) :
    ((bench.opened inputs).board.channel bench.graph.channel).inputs = inputs := by
  rw [channel_opened]
  simp [supply, Board.channel, Board.modifyChannel]

/-- Opening a run counts no call. -/
theorem calls_opened (bench : Bench) (inputs : Values) (slot : Nat) :
    ((bench.opened inputs).board.record slot).calls = (bench.board.record slot).calls := by
  have contents : ∀ (contents : List Content) (board : Board),
      ((contents.foldl (fun board content => content.reset board) board).record slot).calls =
        (board.record slot).calls := by
    intro contents
    induction contents with
    | nil => exact fun _ => rfl
    | cons content rest ih =>
        exact fun board => (ih (content.reset board)).trans (content.calls_reset board slot)
  have defaults : ∀ (net : Circuit) (ids : List String) (board : Board),
      ((ids.foldl net.applyDefault board).record slot).calls = (board.record slot).calls := by
    intro net ids
    induction ids with
    | nil => exact fun _ => rfl
    | cons id rest ih =>
        refine fun board => (ih (net.applyDefault board id)).trans ?_
        unfold Circuit.applyDefault
        split
        · rw [board.record_resetAnchor]
        · rfl
  exact (defaults ..).trans (contents ..)

variable {cards : List Card} {connections laid : List Connection} {channel : Nat}

/-- After the opening each anchor holds its default, if it declares one, and else what it held
before. -/
theorem read_opened (draws : bench.graph.net.Draws cards connections channel laid)
    (slots : DistinctSlots cards) {card : Card} {slot : Anchor} (known : card ∈ cards)
    (member : slot ∈ card.anchors) :
    (bench.opened inputs).board.read slot = slot.default.getD (bench.board.read slot) := by
  have twice : ∀ value, slot.default.getD (slot.default.getD value) = slot.default.getD value :=
    fun value => by cases slot.default <;> rfl
  have own : ∀ id content, bench.graph.net.content? id = some content →
      ∀ other, content.anchor? = some other → other.slot = slot.slot → other = slot := by
    intro id content found other shows same
    obtain ⟨card', known', member', -⟩ := draws.anchor_of_content found shows
    exact (slots card' known' other member' card known slot member same).2
  have resets : ∀ content ∈ bench.graph.net.contents, ∀ board : Board,
      (content.reset board).read slot = board.read slot ∨
        (content.reset board).read slot = slot.default.getD (board.read slot) := by
    intro content inside board
    obtain ⟨id, found⟩ := Circuit.mem_contents.mp inside
    cases shows : content.anchor? with
    | none => exact .inl (congrFun (Content.read_reset_of_none shows board) slot)
    | some other =>
        rw [Content.read_reset_of_anchor? shows, Board.read_resetAnchor]
        split
        · next same => exact .inr (by rw [own id content found other shows same])
        · exact .inl rfl
  have defaults : ∀ id ∈ bench.graph.net.seedPlaces, ∀ board : Board,
      (bench.graph.net.applyDefault board id).read slot = board.read slot ∨
        (bench.graph.net.applyDefault board id).read slot =
          slot.default.getD (board.read slot) := by
    intro id _ board
    unfold Circuit.applyDefault
    split
    · next other settable =>
        obtain ⟨content, found, shows⟩ := Option.bind_eq_some_iff.mp settable
        have anchor : content.anchor? = some other := by
          cases content with
          | anchor => exact shows
          | event | trigger | relay => cases shows
        rw [Board.read_resetAnchor]
        split
        · next same => exact .inr (by rw [own id content found other anchor same])
        · exact .inl rfl
    · exact .inl rfl
  -- The place of the anchor itself is among those that are reset.
  have shown := draws.content?_anchorPlace known member
  obtain ⟨front, rest, split⟩ := List.append_of_mem (Circuit.mem_contents.mpr ⟨_, shown⟩)
  rw [split] at resets
  rw [board_opened, split, List.foldl_append, List.foldl_cons]
  have before := Board.read_foldl_of_steps
    (fun content inside => resets content (List.mem_append_left _ inside))
    (bench.supply inputs).board
  generalize front.foldl (fun board content => content.reset board)
    (bench.supply inputs).board = first at before
  have here : ((if slot.kind = .event then Content.event card.id slot
      else .anchor card.id slot).reset first).read slot =
        slot.default.getD (bench.board.read slot) := by
    rw [Content.read_reset_of_anchor? (by split <;> rfl),
      Board.read_resetAnchor, if_pos rfl]
    rcases before with same | same
    · rw [same]
      rfl
    · rw [same]
      exact twice _
  have after := Board.read_foldl_of_steps
    (fun content inside => resets content
      (List.mem_append_right _ (List.mem_cons_of_mem _ inside)))
    ((if slot.kind = .event then Content.event card.id slot
      else .anchor card.id slot).reset first)
  rw [here, twice, or_self] at after
  have last := Board.read_foldl_of_steps defaults
    (rest.foldl (fun board content => content.reset board)
      ((if slot.kind = .event then Content.event card.id slot
        else .anchor card.id slot).reset first))
  rw [after, twice, or_self] at last
  exact last

/-- The opening puts one token in front of the transitions that nothing feeds. -/
theorem seeded_opened (draws : bench.graph.net.Draws cards connections channel laid)
    (distinct : DistinctNames cards connections) : (bench.opened inputs).graph.net.Seeded := by
  have same := bench.bare_opened inputs
  have joins := Net.joins_of_bare same
  constructor
  · intro place known free ⟨transition, joined⟩
    rw [Net.placeNames_of_bare same] at known
    rw [joins] at joined
    have entry : place ∈ bench.graph.net.entryPlaces :=
      draws.plain.mem_entryPlaces.mpr ⟨known, fun source => joins ▸ free source⟩
    have quiet : ¬bench.graph.net.collectsEvents place = true := fun events =>
      (draws.not_joins_event distinct events transition).1 joined
    rw [tokens_opened bench inputs known, if_neg quiet, if_pos entry]
  · intro place known transition joined
    rw [Net.placeNames_of_bare same] at known
    rw [joins] at joined
    have inner : place ∉ bench.graph.net.entryPlaces := fun entry =>
      (draws.plain.mem_entryPlaces.mp entry).2 transition joined
    have quiet : ¬bench.graph.net.collectsEvents place = true := fun events =>
      (draws.not_joins_event distinct events transition).2 joined
    rw [tokens_opened bench inputs known, if_neg quiet, if_neg inner]

end Bench

end CardNet
