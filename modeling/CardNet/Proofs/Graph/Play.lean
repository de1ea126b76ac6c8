import CardNet.Graph.Plan
import CardNet.Proofs.Value.Lookup

/-!
# What actions do to the board

An action of a card graph reads some anchors, and when it succeeds it writes others and counts
the call of its card (`Action.play`). What it writes depends on what it reads and on the inputs
of the run (`Action.outcome_congr`), so two actions can be exchanged when neither writes what the
other one reads or writes (`Action.play_comm`).
-/

namespace CardNet

namespace Board

/-- Count a call of the card at a slot. -/
def countCall (board : Board) (slot : Nat) : Board :=
  board.modifyRecord slot fun record => { record with calls := record.calls + 1 }

/-- Write values at slots, in order. -/
def writeAll (board : Board) (writes : List (Nat × Value)) : Board :=
  { board with
    values := writes.foldl (fun values write => values.insert write.1 write.2) board.values }

@[simp] theorem writeAll_nil (board : Board) : board.writeAll [] = board := rfl

@[simp] theorem channel_writeAll (board : Board) (writes : List (Nat × Value)) :
    (board.writeAll writes).channel = board.channel := rfl

@[simp] theorem records_writeAll (board : Board) (writes : List (Nat × Value)) :
    (board.writeAll writes).records = board.records := rfl

@[simp] theorem channel_countCall (board : Board) (slot : Nat) :
    (board.countCall slot).channel = board.channel := rfl

@[simp] theorem read_countCall (board : Board) (slot : Nat) :
    (board.countCall slot).read = board.read := rfl

private theorem lookup_eq_none {writes : List (Nat × Value)} {slot : Nat}
    (absent : slot ∉ writes.map Prod.fst) : writes.reverse.lookup slot = none := by
  rw [List.lookup_eq_none_iff]
  intro write member
  rw [bne_iff_ne]
  rintro rfl
  exact absent (List.mem_map.mpr ⟨write, List.mem_reverse.mp member, rfl⟩)

/-- A written anchor holds what was written last, and every other one what it held. -/
theorem read_writeAll (board : Board) (writes : List (Nat × Value)) (anchor : Anchor) :
    (board.writeAll writes).read anchor =
      (writes.reverse.lookup anchor.slot).getD (board.read anchor) := by
  simp only [read, writeAll, Std.ExtTreeMap.getD_eq_getD_getElem?, getElem?_foldl_insert]
  cases writes.reverse.lookup anchor.slot <;> rfl

/-- An anchor that is not written keeps its value. -/
theorem read_writeAll_of_not_mem {board : Board} {writes : List (Nat × Value)} {anchor : Anchor}
    (absent : anchor.slot ∉ writes.map Prod.fst) :
    (board.writeAll writes).read anchor = board.read anchor := by
  rw [read_writeAll, lookup_eq_none absent, Option.getD_none]

/-- Writes at different slots can be exchanged. -/
theorem writeAll_comm (board : Board) {first second : List (Nat × Value)}
    (apart : ∀ slot ∈ first.map Prod.fst, slot ∉ second.map Prod.fst) :
    (board.writeAll first).writeAll second = (board.writeAll second).writeAll first := by
  unfold writeAll
  congr 1
  refine Std.ExtTreeMap.ext_getElem? fun slot => ?_
  simp only [getElem?_foldl_insert]
  by_cases left : slot ∈ first.map Prod.fst
  · rw [lookup_eq_none (apart slot left), Option.none_or, ← Option.or_assoc, Option.or_none]
  · rw [lookup_eq_none left, Option.none_or, Option.none_or]

/-- The calls of cards can be counted in any order. -/
theorem countCall_comm (board : Board) (first second : Nat) :
    (board.countCall first).countCall second = (board.countCall second).countCall first := by
  by_cases same : first = second
  · rw [same]
  · unfold countCall modifyRecord record
    congr 1
    refine Std.ExtTreeMap.ext_getElem? fun slot => ?_
    simp only [Std.ExtTreeMap.getElem?_insert, Std.ExtTreeMap.getD_insert, 
      Std.LawfulEqCmp.compare_eq_iff_eq, same, Ne.symm same, if_false]
    by_cases one : first = slot
    · by_cases two : second = slot
      · exact absurd (one.trans two.symm) same
      · simp [one, two]
    · simp [one]

end Board

namespace Card

/-- The writes of results to the output anchors of their names. -/
def written (card : Card) (results : Values) : List (Nat × Value) :=
  (card.anchorsOf .output).filterMap fun anchor =>
    (results.get? anchor.id).map fun value => (anchor.slot, value)

theorem publish_eq (card : Card) (results : Values) (board : Board) :
    card.publish results board = board.writeAll (card.written results) := by
  unfold publish written
  induction card.anchorsOf .output generalizing board with
  | nil => rfl
  | cons anchor rest ih =>
      rw [List.foldl_cons, ih, List.filterMap_cons]
      cases results.get? anchor.id <;> rfl

@[simp] theorem read_enter (card : Card) (board : Board) :
    (card.enter board).read = board.read := by
  unfold enter
  cases card.work <;> rfl

/-- A call of a card leaves alone what is no output of the card. -/
theorem read_call {card : Card} {inputs globals : Option Values} {board : Board}
    {anchor : Anchor} (untouched : ∀ output ∈ card.anchorsOf .output, output.slot ≠ anchor.slot) :
    (card.call inputs globals board).2.read anchor = board.read anchor := by
  unfold call
  dsimp only
  split
  · rw [read_enter]
  · next results _ =>
      rw [publish_eq, Board.read_writeAll_of_not_mem, read_enter]
      intro member
      obtain ⟨write, inside, same⟩ := List.mem_map.mp member
      obtain ⟨output, known, found⟩ := List.mem_filterMap.mp inside
      obtain ⟨value, -, rfl⟩ := Option.map_eq_some_iff.mp found
      exact untouched output known same

/-- The writes of a call of a function card with some arguments, if it succeeds. -/
def yields (card : Card) (arguments : Values) : Option (List (Nat × Value)) :=
  match card.work with
  | .function run => (run arguments).toOption.map card.written
  | .script _ => none

end Card

namespace Action

/-- Do an action from beginning to end. -/
def act (action : Action) (board : Board) : Except String Value × Board :=
  (action.begin [] board).1.finish (action.begin [] board).2

/-- The board after an action, if the action succeeds. -/
def play (action : Action) (board : Board) : Option Board :=
  match action.act board with
  | (.ok _, board) => some board
  | (.error _, _) => none

/-- The anchors whose values an action looks at. -/
def reads : Action → List Anchor
  | transfer source _ => [source]
  | call card => card.anchorsOf .input
  | start card _ => card.anchorsOf .input
  | _ => []

/-- The anchors that an action may write. -/
def writes : Action → List Anchor
  | transfer _ target => [target]
  | call card => card.anchorsOf .output
  | start card _ => card.anchorsOf .output
  | _ => []

/-- The card that an action calls. -/
def card? : Action → Option Card
  | call card => some card
  | start card _ => some card
  | _ => none

/-- An action that is not scripted and calls no scripted card. -/
def Functional : Action → Prop
  | call card => ∃ run, card.work = .function run
  | start card _ => ∃ run, card.work = .function run
  | scripted _ _ _ => False
  | _ => True

/-- How long an action that is not scripted waits before it can be ended. -/
def delay : Action → Nat
  | call card => card.delay
  | start card _ => card.delay
  | _ => 0

theorem delay_begin {action : Action} (functional : action.Functional) (board : Board) :
    (action.begin [] board).1.delay = action.delay := by
  cases action with
  | scripted slot failOn move => exact functional.elim
  | _ => rfl

/-- The writes of an action, if it succeeds. -/
def outcome (board : Board) : Action → Option (List (Nat × Value))
  | split => some []
  | transfer source target => some [(target.slot, board.read source)]
  | call card => card.yields (card.arguments none none board)
  | start card channel =>
      card.yields (card.arguments none (some (board.channel channel).inputs) board)
  | scripted _ _ _ => none

/-- Count the call that an action makes. -/
def count (action : Action) (board : Board) : Board :=
  match action.card? with
  | some card => board.countCall card.slot
  | none => board

private theorem call_eq {card : Card} {run : Values → Except String Values}
    (work : card.work = .function run) (globals : Option Values) (board : Board) :
    (match card.call none globals board with
      | (.ok _, board) => some board
      | (.error _, _) => none) =
    (card.yields (card.arguments none globals board)).map fun writes =>
      (board.writeAll writes).countCall card.slot := by
  unfold Card.call Card.yields Card.compute Card.enter
  simp only [work]
  cases run (card.arguments none globals board) with
  | error message => rfl
  | ok results => exact congrArg some (card.publish_eq results _)

/-- An action that succeeds makes its writes and counts the call that it makes. -/
theorem play_eq {action : Action} (functional : action.Functional) (board : Board) :
    action.play board =
      (action.outcome board).map fun writes => action.count (board.writeAll writes) := by
  cases action with
  | split => rfl
  | transfer source target => rfl
  | call card =>
      obtain ⟨run, work⟩ := functional
      exact call_eq work none board
  | start card channel =>
      obtain ⟨run, work⟩ := functional
      exact call_eq work _ board
  | scripted slot failOn move => exact functional.elim

/-- What an action writes depends on the values that it looks at and on the channels only. -/
theorem outcome_congr {action : Action} {board other : Board}
    (same : ∀ anchor ∈ action.reads, board.read anchor = other.read anchor)
    (channels : board.channel = other.channel) :
    action.outcome board = action.outcome other := by
  have gathered : ∀ card : Card,
      (∀ anchor ∈ card.anchorsOf .input, board.read anchor = other.read anchor) →
      card.gather board = card.gather other := by
    intro card reads
    unfold Card.gather
    refine congrArg Values.ofPairs (List.map_congr_left fun anchor member => ?_)
    rw [reads anchor member]
  cases action with
  | split => rfl
  | transfer source target =>
      simp only [outcome]
      rw [same source (List.mem_singleton_self source)]
  | call card => simp only [outcome, Card.arguments, Option.getD_none, gathered card same]
  | start card channel =>
      simp only [outcome, Card.arguments, Option.getD_none, gathered card same, channels]
  | scripted slot failOn move => rfl

private theorem slot_of_mem_yields {card : Card} {arguments : Values}
    {writes : List (Nat × Value)} (yields : card.yields arguments = some writes) :
    ∀ slot ∈ writes.map Prod.fst, ∃ anchor ∈ card.anchorsOf .output, anchor.slot = slot := by
  unfold Card.yields at yields
  split at yields
  · obtain ⟨results, -, rfl⟩ := Option.map_eq_some_iff.mp yields
    intro slot member
    obtain ⟨write, inside, rfl⟩ := List.mem_map.mp member
    obtain ⟨anchor, output, found⟩ := List.mem_filterMap.mp inside
    obtain ⟨value, -, rfl⟩ := Option.map_eq_some_iff.mp found
    exact ⟨anchor, output, rfl⟩
  · cases yields

/-- An action writes its own anchors only. -/
theorem slot_of_mem_outcome {action : Action} {board : Board} {writes : List (Nat × Value)}
    (outcome : action.outcome board = some writes) :
    ∀ slot ∈ writes.map Prod.fst, ∃ anchor ∈ action.writes, anchor.slot = slot := by
  cases action with
  | split =>
      cases outcome
      simp
  | transfer source target =>
      cases outcome
      simp [Action.writes]
  | call card => exact slot_of_mem_yields outcome
  | start card channel => exact slot_of_mem_yields outcome
  | scripted slot failOn move => cases outcome

@[simp] theorem read_count (action : Action) (board : Board) :
    (action.count board).read = board.read := by
  unfold count
  split <;> rfl

@[simp] theorem channel_count (action : Action) (board : Board) :
    (action.count board).channel = board.channel := by
  unfold count
  split <;> rfl

theorem writeAll_count (action : Action) (board : Board) (writes : List (Nat × Value)) :
    (action.count board).writeAll writes = action.count (board.writeAll writes) := by
  unfold count
  split <;> rfl

theorem count_comm (first second : Action) (board : Board) :
    first.count (second.count board) = second.count (first.count board) := by
  unfold count
  cases first.card? with
  | none => rfl
  | some one =>
      cases second.card? with
      | none => rfl
      | some two => exact Board.countCall_comm board two.slot one.slot

/-- An action leaves the anchors alone that it does not write. -/
theorem read_play {action : Action} (functional : action.Functional) {board after : Board}
    (played : action.play board = some after) {anchor : Anchor}
    (untouched : ∀ other ∈ action.writes, other.slot ≠ anchor.slot) :
    after.read anchor = board.read anchor := by
  rw [play_eq functional] at played
  obtain ⟨writes, outcome, rfl⟩ := Option.map_eq_some_iff.mp played
  rw [read_count]
  refine Board.read_writeAll_of_not_mem fun member => ?_
  obtain ⟨other, inside, same⟩ := slot_of_mem_outcome outcome _ member
  exact untouched other inside same

/-- Neither of two actions writes an anchor that the other one reads or writes. -/
structure Apart (first second : Action) : Prop where
  reads : ∀ one ∈ first.writes, ∀ two ∈ second.reads, one.slot ≠ two.slot
  writes : ∀ one ∈ first.writes, ∀ two ∈ second.writes, one.slot ≠ two.slot
  readsBack : ∀ one ∈ first.reads, ∀ two ∈ second.writes, one.slot ≠ two.slot

/-- Actions that do not touch each other's anchors can be exchanged. -/
theorem play_comm {first second : Action} (left : first.Functional) (right : second.Functional)
    (apart : first.Apart second) (board : Board) :
    (first.play board).bind second.play = (second.play board).bind first.play := by
  have one : ∀ writes, first.outcome board = some writes →
      second.outcome (first.count (board.writeAll writes)) = second.outcome board := by
    intro writes outcome
    refine outcome_congr (fun anchor read => ?_) (by simp)
    rw [read_count]
    refine Board.read_writeAll_of_not_mem fun member => ?_
    obtain ⟨other, inside, same⟩ := slot_of_mem_outcome outcome _ member
    exact apart.reads other inside anchor read same
  have two : ∀ writes, second.outcome board = some writes →
      first.outcome (second.count (board.writeAll writes)) = first.outcome board := by
    intro writes outcome
    refine outcome_congr (fun anchor read => ?_) (by simp)
    rw [read_count]
    refine Board.read_writeAll_of_not_mem fun member => ?_
    obtain ⟨other, inside, same⟩ := slot_of_mem_outcome outcome _ member
    exact apart.readsBack anchor read other inside same.symm
  rw [play_eq left, play_eq right]
  cases firstOutcome : first.outcome board with
  | none =>
      cases secondOutcome : second.outcome board with
      | none => rfl
      | some writes =>
          simp [play_eq left, two writes secondOutcome, firstOutcome]
  | some firstWrites =>
      cases secondOutcome : second.outcome board with
      | none => simp [play_eq right, one firstWrites firstOutcome, secondOutcome]
      | some secondWrites =>
          have slots : ∀ slot ∈ firstWrites.map Prod.fst, slot ∉ secondWrites.map Prod.fst := by
            intro slot inFirst inSecond
            obtain ⟨anchor, write, same⟩ := slot_of_mem_outcome firstOutcome slot inFirst
            obtain ⟨other, written, equal⟩ := slot_of_mem_outcome secondOutcome slot inSecond
            exact apart.writes anchor write other written (same.trans equal.symm)
          simp [play_eq left, play_eq right, one firstWrites firstOutcome,
            two secondWrites secondOutcome, firstOutcome, secondOutcome, writeAll_count,
            Board.writeAll_comm board slots, count_comm first second]

end Action

end CardNet
