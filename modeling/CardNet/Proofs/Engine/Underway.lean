import CardNet.Proofs.Engine.Replay
import CardNet.Proofs.Graph.Opening

/-!
# Runs under way

While a run is under way, values may be set on entries between its actions. The run goes as if
each entry had held, from the outset, the value that the run found on it
(`Circuit.Underway`): a value that is set before the run looks at it might as well have been there
at the start (`Circuit.Underway.write`), and one that is set later does not matter to the run. As
long as the values that were found still hold, the board is the one that such a run leaves
(`Circuit.Underway.read_eq`).
-/

namespace CardNet

/-! ## What a run has found -/

/-- Anchors, with the values that were found on them. -/
abbrev Findings := List (Anchor × Value)

namespace Findings

variable {findings more : Findings} {board : Board}

/-- No anchor was found with two values. -/
def Consistent (findings : Findings) : Prop :=
  ∀ one ∈ findings, ∀ two ∈ findings, one.1.slot = two.1.slot → one.2 = two.2

/-- Anchors hold the values that were found on them. -/
def Hold (findings : Findings) (board : Board) : Prop :=
  ∀ found ∈ findings, board.read found.1 = found.2

/-- An anchor was looked at. -/
def Covers (findings : Findings) (anchor : Anchor) : Prop :=
  ∃ found ∈ findings, found.1.slot = anchor.slot

theorem Consistent.left (consistent : Consistent (findings ++ more)) : findings.Consistent :=
  fun one first two second => consistent one (List.mem_append_left _ first) two
    (List.mem_append_left _ second)

theorem read_congr {one two : Anchor} (same : one.slot = two.slot) :
    board.read one = board.read two := by
  rw [Board.read, Board.read, same]

theorem Hold.consistent (hold : findings.Hold board) : findings.Consistent := by
  intro one first two second same
  rw [← hold one first, ← hold two second, read_congr same]

end Findings

/-! ## Plays between which values are set -/

namespace Action

theorem records_count_congr (action : Action) {first second : Board}
    (same : first.records = second.records) :
    (action.count first).records = (action.count second).records := by
  unfold count
  cases action.card? with
  | none => exact same
  | some card =>
      simp only [Board.countCall, Board.modifyRecord, Board.record, same]

/-- An action goes the same way when a value is set that it neither reads nor writes. -/
theorem play_write {action : Action} (functional : action.Functional) {board after : Board}
    {anchor : Anchor} (value : Value) (unread : ∀ other ∈ action.reads, other.slot ≠ anchor.slot)
    (unwritten : ∀ other ∈ action.writes, other.slot ≠ anchor.slot)
    (played : action.play board = some after) :
    action.play (board.write anchor value) = some (after.write anchor value) := by
  rw [play_eq functional] at played ⊢
  obtain ⟨writes, outcome, rfl⟩ := Option.map_eq_some_iff.mp played
  have same : action.outcome (board.write anchor value) = some writes := by
    rw [← outcome]
    refine outcome_congr (fun other read => ?_) rfl
    rw [Board.read_write, if_neg (unread other read).symm]
  rw [same, Option.map_some, Option.some.injEq]
  have apart := @Board.writeAll_comm board [(anchor.slot, value)] writes (by
    rintro slot only inside
    obtain rfl := List.mem_singleton.mp only
    obtain ⟨other, written, equal⟩ := slot_of_mem_outcome outcome _ inside
    exact unwritten other written equal)
  calc action.count ((board.write anchor value).writeAll writes)
      = action.count ((board.writeAll [(anchor.slot, value)]).writeAll writes) := rfl
    _ = action.count ((board.writeAll writes).writeAll [(anchor.slot, value)]) := by rw [apart]
    _ = (action.count (board.writeAll writes)).writeAll [(anchor.slot, value)] :=
        (writeAll_count ..).symm

end Action

namespace Circuit

/-- Whether an anchor is shown by an entry place. -/
def takesIn (net : Circuit) (anchor : Anchor) : Bool :=
  net.entryPlaces.any fun place =>
    ((net.content? place).bind Content.anchor?).any fun shown => shown.slot == anchor.slot

/-- What is found when anchors are looked at that entry places show. -/
def findings (net : Circuit) (anchors : List Anchor) (board : Board) : Findings :=
  (anchors.filter net.takesIn).map fun anchor => (anchor, board.read anchor)

theorem takesIn_of_bare {first second : Circuit} (same : first.bare = second.bare) :
    first.takesIn = second.takesIn := by
  funext anchor
  rw [takesIn, takesIn, Net.entryPlaces_of_bare same, Net.content?_of_bare same]

theorem findings_of_bare {first second : Circuit} (same : first.bare = second.bare) :
    first.findings = second.findings := by
  funext anchors board
  rw [findings, findings, takesIn_of_bare same]

/-- A board in the middle of a run that has found some values on entries and done the actions of
some transitions. The actions lead from one board, on which the entries hold the values that were
found, to another, from which the board differs at most on entries that were looked at. -/
structure Underway (net : Circuit) (cards : List Card) (channel : Nat) (inputs : Values)
    (found : Findings) (done : List String) (board start finish : Board) : Prop where
  played : net.playAll done start = some finish
  inputs : (start.channel channel).inputs = inputs
  channels : board.channel = finish.channel
  records : board.records = finish.records
  defaults : ∀ card ∈ cards, ∀ slot ∈ card.anchors, ∀ value, slot.default = some value →
    start.read slot = value
  inner : ∀ card ∈ cards, ∀ slot ∈ card.anchors,
    card.anchorPlace slot ∉ net.entryPlaces → board.read slot = finish.read slot
  fresh : ∀ card ∈ cards, ∀ slot ∈ card.anchors, card.anchorPlace slot ∈ net.entryPlaces →
    ¬found.Covers slot → board.read slot = start.read slot
  held : found.Hold start
  looked : ∀ transition ∈ done, ∀ action, net.transitions.get? transition = some action →
    ∀ slot ∈ action.reads, net.takesIn slot = true → found.Covers slot
  settled : ∀ card ∈ cards, ∀ slot ∈ card.anchors, card.anchorPlace slot ∈ net.entryPlaces →
    slot.default ≠ none → found.Covers slot

namespace Draws

variable {net : Circuit} {cards : List Card} {connections laid : List Connection} {channel : Nat}

/-- An anchor is taken in when its place is an entry. -/
theorem takesIn_iff (draws : net.Draws cards connections channel laid)
    (slots : DistinctSlots cards) {card : Card} {slot : Anchor} (known : card ∈ cards)
    (member : slot ∈ card.anchors) :
    net.takesIn slot = true ↔ card.anchorPlace slot ∈ net.entryPlaces := by
  have shown : (net.content? (card.anchorPlace slot)).bind Content.anchor? = some slot := by
    rw [draws.content?_anchorPlace known member]
    split <;> rfl
  constructor
  · intro taken
    obtain ⟨place, entry, shows⟩ := List.any_eq_true.mp taken
    obtain ⟨other, held, same⟩ := (Option.any_eq_true _ _).mp shows
    obtain ⟨content, found, anchor⟩ := Option.bind_eq_some_iff.mp held
    obtain ⟨owner, known', member', rfl⟩ := draws.anchor_of_content found anchor
    obtain ⟨rfl, rfl⟩ := slots owner known' other member' card known slot member (beq_iff_eq.mp same)
    exact entry
  · intro entry
    refine List.any_eq_true.mpr ⟨_, entry, ?_⟩
    rw [shown]
    exact beq_self_eq_true _

/-- No transition writes an anchor whose place is an entry. -/
theorem not_written_of_entry (draws : net.Draws cards connections channel laid)
    (distinct : DistinctNames cards connections) (slots : DistinctSlots cards) {transition : String}
    {action : Action} (found : net.transitions.get? transition = some action) {card : Card}
    {slot : Anchor} (known : card ∈ cards) (member : slot ∈ card.anchors)
    (entry : card.anchorPlace slot ∈ net.entryPlaces) :
    ∀ other ∈ action.writes, other.slot ≠ slot.slot := fun other written same =>
  (draws.plain.mem_entryPlaces.mp entry).2 transition
    ((draws.writes_iff distinct slots found known member).mp ⟨other, written, same⟩)

end Draws

namespace Underway

variable {net : Circuit} {cards : List Card} {connections laid : List Connection} {channel : Nat}
  {inputs : Values} {found : Findings} {done : List String} {board start finish : Board}

/-- A play goes the same way when a value is set on an entry that it does not look at. -/
private theorem playAll_write (draws : net.Draws cards connections channel laid)
    (distinct : DistinctNames cards connections) (slots : DistinctSlots cards)
    (functions : ∀ card ∈ cards, ∃ run, card.work = .function run) {card : Card} {slot : Anchor}
    (known : card ∈ cards) (member : slot ∈ card.anchors)
    (entry : card.anchorPlace slot ∈ net.entryPlaces) (value : Value) {trace : List String}
    (unread : ∀ transition ∈ trace, ∀ action, net.transitions.get? transition = some action →
      ∀ other ∈ action.reads, other.slot ≠ slot.slot) {first after : Board}
    (played : net.playAll trace first = some after) :
    net.playAll trace (first.write slot value) = some (after.write slot value) := by
  induction trace generalizing first with
  | nil =>
      cases played
      rfl
  | cons transition rest ih =>
      rw [playAll_cons] at played ⊢
      obtain ⟨next, here, others⟩ := Option.bind_eq_some_iff.mp played
      obtain ⟨action, held, acted⟩ := Option.bind_eq_some_iff.mp here
      have again := Action.play_write (draws.functional functions held) value
        (unread transition List.mem_cons_self action held)
        (draws.not_written_of_entry distinct slots held known member entry) acted
      rw [play, held, Option.bind_some, again, Option.bind_some]
      exact ih (fun other inside => unread other (List.mem_cons_of_mem _ inside)) others

/-- A value that is set on an entry might as well have been there from the outset, if the run has
not looked at it yet; and if it has, the value does not matter to the run. -/
theorem write (underway : net.Underway cards channel inputs found done board start finish)
    (draws : net.Draws cards connections channel laid)
    (distinct : DistinctNames cards connections) (slots : DistinctSlots cards)
    (functions : ∀ card ∈ cards, ∃ run, card.work = .function run) {card : Card} {slot : Anchor}
    (known : card ∈ cards) (member : slot ∈ card.anchors)
    (entry : card.anchorPlace slot ∈ net.entryPlaces) (value : Value) :
    ∃ start finish,
      net.Underway cards channel inputs found done (board.write slot value) start finish := by
  have other : ∀ owner ∈ cards, ∀ anchor ∈ owner.anchors,
      owner.anchorPlace anchor ∉ net.entryPlaces → slot.slot ≠ anchor.slot := by
    intro owner known' anchor member' inner same
    obtain ⟨rfl, rfl⟩ := slots card known slot member owner known' anchor member' same
    exact inner entry
  by_cases covered : found.Covers slot
  · refine ⟨start, finish, { underway with inner := ?_, fresh := ?_ }⟩
    · intro owner known' anchor member' inner
      rw [Board.read_write, if_neg (other owner known' anchor member' inner)]
      exact underway.inner owner known' anchor member' inner
    · intro owner known' anchor member' entry' uncovered
      have differ : slot.slot ≠ anchor.slot := by
        intro same
        obtain ⟨pair, inside, equal⟩ := covered
        exact uncovered ⟨pair, inside, equal.trans same⟩
      rw [Board.read_write, if_neg differ]
      exact underway.fresh owner known' anchor member' entry' uncovered
  · refine ⟨start.write slot value, finish.write slot value, ?_, underway.inputs,
      underway.channels, underway.records, ?_, ?_, ?_, ?_, underway.looked, underway.settled⟩
    · refine playAll_write draws distinct slots functions known member entry value ?_
        underway.played
      intro transition inside action held read reads same
      refine covered ?_
      have taken : net.takesIn read = true := by
        rw [takesIn, same]
        exact (draws.takesIn_iff slots known member).mpr entry
      obtain ⟨pair, among, equal⟩ := underway.looked transition inside action held read reads taken
      exact ⟨pair, among, equal.trans same⟩
    · intro owner known' anchor member' default declared
      have differ : slot.slot ≠ anchor.slot := by
        intro same
        obtain ⟨rfl, rfl⟩ := slots card known slot member owner known' anchor member' same
        exact covered (underway.settled card known slot member entry (by simp [declared]))
      rw [Board.read_write, if_neg differ]
      exact underway.defaults owner known' anchor member' default declared
    · intro owner known' anchor member' inner
      rw [Board.read_write, Board.read_write, if_neg (other owner known' anchor member' inner),
        if_neg (other owner known' anchor member' inner)]
      exact underway.inner owner known' anchor member' inner
    · intro owner known' anchor member' entry' uncovered
      rw [Board.read_write, Board.read_write]
      split
      · rfl
      · exact underway.fresh owner known' anchor member' entry' uncovered
    · intro pair inside
      have differ : slot.slot ≠ pair.1.slot := fun same => covered ⟨pair, inside, same.symm⟩
      rw [Board.read_write, if_neg differ]
      exact underway.held pair inside

/-- The entries hold on the last board what they hold on the first. -/
theorem read_finish (underway : net.Underway cards channel inputs found done board start finish)
    (draws : net.Draws cards connections channel laid)
    (distinct : DistinctNames cards connections) (slots : DistinctSlots cards)
    (functions : ∀ card ∈ cards, ∃ run, card.work = .function run) {card : Card} {slot : Anchor}
    (known : card ∈ cards) (member : slot ∈ card.anchors)
    (entry : card.anchorPlace slot ∈ net.entryPlaces) : finish.read slot = start.read slot :=
  draws.read_playAll distinct slots functions known member
    (fun other _ => (draws.plain.mem_entryPlaces.mp entry).2 other) underway.played

/-- A board on which the values still hold that were found is one that the run leaves. -/
theorem read_eq (underway : net.Underway cards channel inputs found done board start finish)
    (draws : net.Draws cards connections channel laid)
    (distinct : DistinctNames cards connections) (slots : DistinctSlots cards)
    (functions : ∀ card ∈ cards, ∃ run, card.work = .function run) (hold : found.Hold board)
    {card : Card} {slot : Anchor} (known : card ∈ cards) (member : slot ∈ card.anchors) :
    board.read slot = finish.read slot := by
  by_cases entry : card.anchorPlace slot ∈ net.entryPlaces
  · rw [underway.read_finish draws distinct slots functions known member entry]
    by_cases covered : found.Covers slot
    · obtain ⟨pair, inside, same⟩ := covered
      rw [← Findings.read_congr same, hold pair inside, ← underway.held pair inside,
        Findings.read_congr same]
    · exact underway.fresh card known slot member entry covered
  · exact underway.inner card known slot member entry

/-- An action that succeeds goes as in a run that held the values from the outset that are found
now. -/
theorem act (underway : net.Underway cards channel inputs found done board start finish)
    (draws : net.Draws cards connections channel laid)
    (distinct : DistinctNames cards connections) (slots : DistinctSlots cards)
    (functions : ∀ card ∈ cards, ∃ run, card.work = .function run) {transition : String}
    {action : Action} (held : net.transitions.get? transition = some action)
    (consistent : Findings.Consistent (found ++ net.findings action.reads board)) {after : Board}
    (played : action.play board = some after) :
    ∃ last, net.Underway cards channel inputs (found ++ net.findings action.reads board)
      (done ++ [transition]) after start last := by
  have functional := draws.functional functions held
  have covers : ∀ slot ∈ action.reads, net.takesIn slot = true →
      (slot, board.read slot) ∈ found ++ net.findings action.reads board := by
    intro slot reads taken
    exact List.mem_append_right _ (List.mem_map.mpr ⟨slot, List.mem_filter.mpr ⟨reads, taken⟩, rfl⟩)
  -- What the action looks at is the same on the board and on those at both ends of the play.
  have before : ∀ slot ∈ action.reads, net.takesIn slot = true →
      board.read slot = start.read slot := by
    intro slot reads taken
    obtain ⟨card, known, member, -⟩ := draws.supplies distinct held reads
    by_cases covered : found.Covers slot
    · obtain ⟨pair, inside, equal⟩ := covered
      have agree : pair.2 = board.read slot := consistent pair (List.mem_append_left _ inside) _
        (covers slot reads taken) equal
      rw [← agree, ← underway.held pair inside, Findings.read_congr equal]
    · exact underway.fresh card known slot member
        ((draws.takesIn_iff slots known member).mp taken) covered
  have looks : ∀ slot ∈ action.reads, board.read slot = finish.read slot := by
    intro slot reads
    obtain ⟨card, known, member, -⟩ := draws.supplies distinct held reads
    by_cases entry : card.anchorPlace slot ∈ net.entryPlaces
    · rw [before slot reads ((draws.takesIn_iff slots known member).mpr entry),
        underway.read_finish draws distinct slots functions known member entry]
    · exact underway.inner card known slot member entry
  rw [Action.play_eq functional] at played
  obtain ⟨writes, outcome, rfl⟩ := Option.map_eq_some_iff.mp played
  have again : action.outcome finish = some writes := by
    rw [← outcome]
    exact (Action.outcome_congr looks underway.channels).symm
  have unwritten : ∀ card ∈ cards, ∀ slot ∈ card.anchors,
      card.anchorPlace slot ∈ net.entryPlaces → slot.slot ∉ writes.map Prod.fst := by
    intro card known slot member entry inside
    obtain ⟨other, written, same⟩ := Action.slot_of_mem_outcome outcome _ inside
    exact draws.not_written_of_entry distinct slots held known member entry other written same
  have wider : ∀ slot, found.Covers slot →
      Findings.Covers (found ++ net.findings action.reads board) slot := fun slot =>
    fun ⟨pair, inside, same⟩ => ⟨pair, List.mem_append_left _ inside, same⟩
  refine ⟨action.count (finish.writeAll writes), ?_, underway.inputs, ?_, ?_, underway.defaults,
    ?_, ?_, ?_, ?_, fun card known slot member entry declared =>
      wider slot (underway.settled card known slot member entry declared)⟩
  · rw [playAll_append, underway.played, Option.bind_some, playAll_cons, play, held,
      Option.bind_some, Action.play_eq functional, again, Option.map_some, Option.bind_some,
      playAll_nil]
  · rw [Action.channel_count, Action.channel_count, Board.channel_writeAll, Board.channel_writeAll]
    exact underway.channels
  · exact Action.records_count_congr action underway.records
  · intro card known slot member inner
    rw [Action.read_count, Action.read_count, Board.read_writeAll, Board.read_writeAll,
      underway.inner card known slot member inner]
  · intro card known slot member entry uncovered
    rw [Action.read_count, Board.read_writeAll_of_not_mem (unwritten card known slot member entry)]
    exact underway.fresh card known slot member entry fun covered => uncovered (wider slot covered)
  · intro pair inside
    rcases List.mem_append.mp inside with before | now
    · exact underway.held pair before
    · obtain ⟨slot, picked, rfl⟩ := List.mem_map.mp now
      obtain ⟨reads, taken⟩ := List.mem_filter.mp picked
      exact (before slot reads taken).symm
  · intro other inside work found' slot reads taken
    rcases List.mem_append.mp inside with before | last
    · exact wider slot (underway.looked other before work found' slot reads taken)
    · obtain rfl := List.mem_singleton.mp last
      obtain rfl := Option.some.inj (held.symm.trans found')
      exact ⟨_, covers slot reads taken, rfl⟩

end Underway

end Circuit

namespace Bench

/-- The anchors with defaults that entry places show. -/
def settledAnchors (bench : Bench) : List Anchor :=
  (bench.graph.cards.flatMap Card.anchors).filter fun slot => slot.default.isSome

variable {bench : Bench} {cards : List Card} {connections laid : List Connection}

/-- At the opening of a run nothing is done, and the run depends on the defaults of its entries. -/
theorem underway_opened (draws : bench.graph.net.Draws cards connections bench.graph.channel laid)
    (slots : DistinctSlots cards) (known : bench.graph.cards = cards) (inputs : Values) :
    bench.graph.net.Underway cards bench.graph.channel inputs
      (bench.graph.net.findings bench.settledAnchors (bench.opened inputs).board) []
      (bench.opened inputs).board (bench.opened inputs).board (bench.opened inputs).board where
  played := rfl
  inputs := bench.inputs_opened inputs
  channels := rfl
  records := rfl
  defaults := by
    intro card inside slot member value declared
    rw [read_opened draws slots inside member, declared, Option.getD_some]
  inner := fun _ _ _ _ _ => rfl
  fresh := fun _ _ _ _ _ _ => rfl
  held := by
    intro pair inside
    obtain ⟨slot, -, rfl⟩ := List.mem_map.mp inside
    rfl
  looked := by
    intro transition inside
    cases inside
  settled := by
    intro card inside slot member entry declared
    refine ⟨_, List.mem_map.mpr ⟨slot, List.mem_filter.mpr ⟨List.mem_filter.mpr ⟨?_, ?_⟩, ?_⟩, rfl⟩,
      rfl⟩
    · exact List.mem_flatMap.mpr ⟨card, known ▸ inside, member⟩
    · exact Option.isSome_iff_ne_none.mpr declared
    · exact (draws.takesIn_iff slots inside member).mpr entry

end Bench

end CardNet
