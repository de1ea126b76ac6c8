import CardNet.Proofs.Graph.Bells

/-!
# Numbers that nobody sees

Channels and the listeners of a bell go under numbers that are given out in ascending order. Two
boards that differ in these numbers alone match (`Board.Matches`), and whatever cards, places and
transitions do to matching boards comes to the same and leaves them matching. What refers to a number
refers to one that was given out (`Extent`); only where a number is given out does the extent of a
board grow.
-/

namespace CardNet

/-- The numbers that stand for those of channels, and at each bell for those of listeners. -/
structure Renumbering where
  channel : Nat → Nat
  number : Nat → Nat → Nat
  channel_injective : Function.Injective channel
  number_injective : ∀ slot, Function.Injective (number slot)

/-- How far numbers were given out: those of channels, and at each bell those of listeners. -/
structure Extent where
  slots : Nat
  numbers : Nat → Nat

instance : LE Extent where
  le first second :=
    first.slots ≤ second.slots ∧ ∀ slot, first.numbers slot ≤ second.numbers slot

namespace Extent

theorem le_refl (extent : Extent) : extent ≤ extent := ⟨Nat.le_refl _, fun _ => Nat.le_refl _⟩

theorem le_trans {first second third : Extent} (left : first ≤ second) (right : second ≤ third) :
    first ≤ third :=
  ⟨Nat.le_trans left.1 right.1, fun slot => Nat.le_trans (left.2 slot) (right.2 slot)⟩

end Extent

/-- What two operations come to when they have the same result and leave what matches, after they may
have given out more numbers. -/
def Concur {α β : Type} (agree : Extent → β → β → Prop) (extent : Extent) (first second : α × β) :
    Prop :=
  ∃ result one two wider, first = (result, one) ∧ second = (result, two) ∧ extent ≤ wider ∧
    agree wider one two

namespace Concur

variable {α β : Type} {agree : Extent → β → β → Prop} {extent wider : Extent}

theorem intro {result : α} {one two : β} (same : agree extent one two) :
    Concur agree extent (result, one) (result, two) :=
  ⟨result, one, two, extent, rfl, rfl, extent.le_refl, same⟩

theorem widen {first second : α × β} (concur : Concur agree wider first second)
    (grows : extent ≤ wider) : Concur agree extent first second := by
  obtain ⟨result, one, two, widest, left, right, further, same⟩ := concur
  exact ⟨result, one, two, widest, left, right, Extent.le_trans grows further, same⟩

end Concur

/-- How far the numbers of a board were given out. -/
def Board.extent (board : Board) : Extent :=
  ⟨board.nextSlot, fun slot => (board.bells.getD slot .silent).next⟩

namespace Renumbering

/-- The numbers that were given out stand for themselves. -/
structure Keeps (renumber : Renumbering) (extent : Extent) : Prop where
  channel : ∀ slot < extent.slots, renumber.channel slot = slot
  number : ∀ slot, ∀ number < extent.numbers slot, renumber.number slot number = number

/-- Every number stands for itself. -/
def same : Renumbering := ⟨id, fun _ => id, Function.injective_id, fun _ => Function.injective_id⟩

def listener (renumber : Renumbering) (listener : Listener) : Listener :=
  { listener with channel := renumber.channel listener.channel }

/-- A listener with its number at the bell at a slot. -/
def held (renumber : Renumbering) (slot : Nat) (held : Nat × Listener) : Nat × Listener :=
  (renumber.number slot held.1, renumber.listener held.2)

end Renumbering

/-- A listener whose number and whose channel were given out. -/
def Listener.Within (extent : Extent) (slot : Nat) (held : Nat × Listener) : Prop :=
  held.1 < extent.numbers slot ∧ held.2.channel < extent.slots

/-- Every listener has a number that the bell gave out, and a channel that the board gave out. -/
def Board.Numbered (board : Board) : Prop :=
  ∀ slot, ∀ held ∈ (board.bells.getD slot .silent).listeners,
    Listener.Within board.extent slot held

/-- Boards that differ in the numbers of channels and of listeners alone. Numbers that are given out
from now on stand for each other. -/
structure Board.Matches (renumber : Renumbering) (extent : Extent) (first second : Board) :
    Prop where
  values : second.values = first.values
  records : second.records = first.records
  counters : second.counters = first.counters
  log : second.log = first.log
  given : first.extent = extent
  slots : ∀ more, renumber.channel (first.nextSlot + more) = second.nextSlot + more
  numbers : ∀ slot more, renumber.number slot ((first.bells.getD slot .silent).next + more) =
    (second.bells.getD slot .silent).next + more
  listeners : ∀ slot, (second.bells.getD slot .silent).listeners =
    (first.bells.getD slot .silent).listeners.map (renumber.held slot)
  within : ∀ slot, ∀ held ∈ (first.bells.getD slot .silent).listeners,
    Listener.Within extent slot held
  channels : ∀ slot < extent.slots, second.channel (renumber.channel slot) = first.channel slot

namespace Board.Matches

variable {renumber : Renumbering} {extent : Extent} {first second one two : Board}

/-! ## What is read off boards -/

theorem read (boards : first.Matches renumber extent second) : second.read = first.read := by
  funext anchor
  rw [Board.read, Board.read, boards.values]

theorem record (boards : first.Matches renumber extent second) :
    second.record = first.record := by
  funext slot
  rw [Board.record, Board.record, boards.records]

theorem gather (boards : first.Matches renumber extent second) (card : Card) :
    card.gather second = card.gather first := by
  rw [Card.gather, Card.gather, boards.read]

theorem runtimeInput (boards : first.Matches renumber extent second) (card : Card) :
    card.runtimeInput second = card.runtimeInput first := by
  rw [Card.runtimeInput, Card.runtimeInput, boards.record, boards.gather]

theorem value? (boards : first.Matches renumber extent second) (content : Content) :
    content.value? second = content.value? first := by
  rw [Content.value?, Content.value?, boards.read]

theorem observed (boards : first.Matches renumber extent second) (content : Content) :
    content.observed second = content.observed first := by
  cases content <;> simp only [Content.observed, boards.read, boards.runtimeInput]

theorem listenerCount (boards : first.Matches renumber extent second) (anchor : Anchor) :
    second.listenerCount anchor = first.listenerCount anchor := by
  rw [Board.listenerCount, Board.bell, boards.listeners, List.length_map]
  rfl

/-! ## What cards do -/

/-- Changes that have nothing to do with channels and bells. -/
theorem change (boards : first.Matches renumber extent second)
    (firstFrame : (one.bells, one.channels, one.nextSlot) =
      (first.bells, first.channels, first.nextSlot))
    (secondFrame : (two.bells, two.channels, two.nextSlot) =
      (second.bells, second.channels, second.nextSlot))
    (values : two.values = one.values) (records : two.records = one.records)
    (counters : two.counters = one.counters) (log : two.log = one.log) :
    one.Matches renumber extent two := by
  obtain ⟨oneValues, oneBells, oneRecords, oneChannels, oneCounters, oneLog, oneSlot⟩ := one
  obtain ⟨twoValues, twoBells, twoRecords, twoChannels, twoCounters, twoLog, twoSlot⟩ := two
  simp only [Prod.mk.injEq] at firstFrame secondFrame
  obtain ⟨rfl, rfl, rfl⟩ := firstFrame
  obtain ⟨rfl, rfl, rfl⟩ := secondFrame
  exact ⟨values, records, counters, log, boards.given, boards.slots, boards.numbers,
    boards.listeners, boards.within, boards.channels⟩

theorem write (boards : first.Matches renumber extent second) (anchor : Anchor) (value : Value) :
    (first.write anchor value).Matches renumber extent (second.write anchor value) :=
  boards.change rfl rfl (by rw [Board.write, Board.write, boards.values]) boards.records
    boards.counters boards.log

theorem resetAnchor (boards : first.Matches renumber extent second) (anchor : Anchor) :
    (first.resetAnchor anchor).Matches renumber extent (second.resetAnchor anchor) := by
  unfold Board.resetAnchor
  split
  · exact boards.write anchor _
  · exact boards

theorem modifyRecord (boards : first.Matches renumber extent second) (slot : Nat)
    (change : CardRecord → CardRecord) :
    (first.modifyRecord slot change).Matches renumber extent (second.modifyRecord slot change) :=
  boards.change rfl rfl boards.values
    (by rw [Board.modifyRecord, Board.modifyRecord, boards.record, boards.records])
    boards.counters boards.log

/-- Whatever is done step by step leaves matching boards when each step does. -/
theorem foldl {β : Type} {step other : Board → β → Board} (items : List β)
    (each : ∀ {one two : Board}, one.Matches renumber extent two → ∀ item,
      (step one item).Matches renumber extent (other two item))
    (boards : first.Matches renumber extent second) :
    (items.foldl step first).Matches renumber extent (items.foldl other second) := by
  induction items generalizing first second with
  | nil => exact boards
  | cons item rest ih => exact ih (each boards item)

theorem enter (boards : first.Matches renumber extent second) (card : Card) :
    (card.enter first).Matches renumber extent (card.enter second) := by
  have counted := boards.modifyRecord card.slot fun record =>
    { record with calls := record.calls + 1 }
  unfold Card.enter
  dsimp only
  split
  · exact counted
  · exact counted.change rfl rfl counted.values counted.records counted.counters
      (congrArg (card.id :: ·) counted.log)

theorem publish (boards : first.Matches renumber extent second) (card : Card) (results : Values) :
    (card.publish results first).Matches renumber extent (card.publish results second) := by
  refine foldl _ (fun boards anchor => ?_) boards
  split
  · exact boards.write anchor _
  · exact boards

/-- A call of a card comes to the same on boards that match. -/
theorem call (boards : first.Matches renumber extent second) (card : Card)
    (inputs globals : Option Values) :
    (card.call inputs globals second).1 = (card.call inputs globals first).1 ∧
      (card.call inputs globals first).2.Matches renumber extent
        (card.call inputs globals second).2 := by
  have entered := boards.enter card
  have arguments : card.arguments inputs globals second = card.arguments inputs globals first := by
    rw [Card.arguments, Card.arguments, boards.gather]
  have computed : ∀ arguments,
      card.compute arguments (card.enter second) = card.compute arguments (card.enter first) := by
    intro arguments
    unfold Card.compute
    rw [entered.record]
  simp only [Card.call, arguments, computed]
  split
  · exact ⟨rfl, entered⟩
  · exact ⟨rfl, entered.publish card _⟩

/-! ## What places and jobs do -/

theorem reset (boards : first.Matches renumber extent second) (content : Content) :
    (content.reset first).Matches renumber extent (content.reset second) := by
  cases content with
  | anchor card slot => exact boards.resetAnchor slot
  | event card slot => exact boards.resetAnchor slot
  | trigger card =>
      exact boards.modifyRecord card.slot fun record => { record with resets := record.resets + 1 }
  | relay => exact boards

theorem finish (boards : first.Matches renumber extent second) (job : Job) :
    (job.finish second).1 = (job.finish first).1 ∧
      (job.finish first).2.Matches renumber extent (job.finish second).2 := by
  cases job with
  | settled delay result => exact ⟨rfl, boards⟩
  | visit card inputs globals => exact boards.call card inputs globals

theorem beginMove (boards : first.Matches renumber extent second) (move : Move) (call : Nat)
    (arguments : List Value) :
    (move.begin call arguments second).1 = (move.begin call arguments first).1 ∧
      (move.begin call arguments first).2.Matches renumber extent
        (move.begin call arguments second).2 := by
  cases move with
  | copy source target =>
      simp only [Move.begin, Move.carry, boards.read]
      exact ⟨trivial, boards.write _ _⟩
  | double source target =>
      simp only [Move.begin, Move.carry, boards.read]
      exact ⟨trivial, boards.write _ _⟩
  | _ => exact ⟨rfl, boards⟩

theorem applyDefault (boards : first.Matches renumber extent second) (net : Circuit)
    (id : String) :
    (net.applyDefault first id).Matches renumber extent (net.applyDefault second id) := by
  unfold Circuit.applyDefault
  split
  · exact boards.resetAnchor _
  · exact boards

/-! ## Channels and bells -/

theorem slots_eq (boards : first.Matches renumber extent second) :
    first.nextSlot = extent.slots :=
  congrArg Extent.slots boards.given

theorem next_eq (boards : first.Matches renumber extent second) (slot : Nat) :
    (first.bells.getD slot .silent).next = extent.numbers slot :=
  congrFun (congrArg Extent.numbers boards.given) slot

theorem modifyChannel (boards : first.Matches renumber extent second) {slot : Nat}
    (within : slot < extent.slots) (change : Channel → Channel) :
    (first.modifyChannel slot change).Matches renumber extent
      (second.modifyChannel (renumber.channel slot) change) where
  values := boards.values
  records := boards.records
  counters := boards.counters
  log := boards.log
  given := boards.given
  slots := boards.slots
  numbers := boards.numbers
  listeners := boards.listeners
  within := boards.within
  channels := by
    intro other known
    simp only [Board.modifyChannel, Board.channel, Std.ExtTreeMap.getD_insert,
      Std.LawfulEqCmp.compare_eq_iff_eq, renumber.channel_injective.eq_iff]
    split
    · exact congrArg change (boards.channels slot within)
    · exact boards.channels other known

theorem emit (boards : first.Matches renumber extent second) (anchor : Anchor) (value : Value) :
    (first.emit anchor value).Matches renumber extent (second.emit anchor value) := by
  have sending : ∀ (listeners : List Listener) {one two : Board},
      (∀ listener ∈ listeners, listener.channel < extent.slots) →
      one.Matches renumber extent two →
      (listeners.foldl (fun board listener => board.send listener value) one).Matches renumber
        extent ((listeners.map renumber.listener).foldl
          (fun board listener => board.send listener value) two) := by
    intro listeners
    induction listeners with
    | nil => exact fun _ boards => boards
    | cons listener rest ih =>
        intro one two known boards
        obtain ⟨own, others⟩ := List.forall_mem_cons.mp known
        exact ih others (boards.modifyChannel own _)
  have renumbered : (second.bell anchor).listeners.map Prod.snd =
      ((first.bell anchor).listeners.map Prod.snd).map renumber.listener := by
    rw [Board.bell, boards.listeners, List.map_map, List.map_map]
    rfl
  unfold Board.emit
  rw [renumbered]
  refine sending _ (fun listener member => ?_) (boards.write anchor value)
  obtain ⟨held, there, rfl⟩ := List.mem_map.mp member
  exact (boards.within _ held there).2

/-- The channel of a graph about to be built. -/
theorem groundwork (boards : first.Matches renumber extent second) (globals : Option Values) :
    (Graph.groundwork first globals).Matches renumber
      { extent with slots := extent.slots + 1 } (Graph.groundwork second globals) where
  values := boards.values
  records := boards.records
  counters := boards.counters
  log := boards.log
  given := by
    rw [← boards.given]
    rfl
  slots := by
    intro more
    have later := boards.slots (1 + more)
    rwa [← Nat.add_assoc, ← Nat.add_assoc] at later
  numbers := boards.numbers
  listeners := boards.listeners
  within := fun slot held member =>
    have known := boards.within slot held member
    ⟨known.1, Nat.lt_succ_of_lt known.2⟩
  channels := by
    intro slot known
    have own : renumber.channel first.nextSlot = second.nextSlot := boards.slots 0
    simp only [Graph.groundwork, Board.modifyChannel, Board.channel, Board.allocate,
      Std.ExtTreeMap.getD_insert, Std.LawfulEqCmp.compare_eq_iff_eq, ← own,
      renumber.channel_injective.eq_iff]
    split
    · rfl
    · next other =>
        rw [boards.slots_eq] at other
        exact boards.channels slot (by simp only at known; omega)

/-- A bell that is put in the place of that at a slot. -/
theorem ring (boards : first.Matches renumber extent second) {slot : Nat} {wider : Extent}
    {before after : Bell} (grows : extent ≤ wider) (sameSlots : wider.slots = extent.slots)
    (own : wider.numbers slot = before.next)
    (others : ∀ other ≠ slot, wider.numbers other = extent.numbers other)
    (numbers : ∀ more, renumber.number slot (before.next + more) = after.next + more)
    (listeners : after.listeners = before.listeners.map (renumber.held slot))
    (within : ∀ held ∈ before.listeners, Listener.Within wider slot held) :
    Board.Matches renumber wider { first with bells := first.bells.insert slot before }
      { second with bells := second.bells.insert slot after } := by
  refine ⟨boards.values, boards.records, boards.counters, boards.log, ?_, boards.slots, ?_, ?_, ?_,
    fun other known => boards.channels other (sameSlots ▸ known)⟩
  · obtain ⟨slots, given⟩ := wider
    refine congrArg₂ Extent.mk (boards.slots_eq.trans sameSlots.symm) (funext fun other => ?_)
    rw [Board.bell_insert]
    split
    · next same => exact same ▸ own.symm
    · next differ =>
        exact (boards.next_eq other).trans (others other (Ne.symm differ)).symm
  · intro other more
    rw [Board.bell_insert, Board.bell_insert]
    split
    · next same => exact same ▸ numbers more
    · exact boards.numbers other more
  · intro other
    rw [Board.bell_insert, Board.bell_insert]
    split
    · next same => exact same ▸ listeners
    · exact boards.listeners other
  · intro other held
    rw [Board.bell_insert]
    split
    · next same => exact same ▸ within held
    · intro member
      obtain ⟨number, channel⟩ := boards.within other held member
      exact ⟨Nat.lt_of_lt_of_le number (grows.2 other), Nat.lt_of_lt_of_le channel grows.1⟩

theorem unsubscribe (boards : first.Matches renumber extent second) (anchor : Anchor)
    (number : Nat) : (first.unsubscribe anchor number).Matches renumber extent
      (second.unsubscribe anchor (renumber.number anchor.slot number)) := by
  refine boards.ring extent.le_refl rfl (boards.next_eq _).symm (fun _ _ => rfl)
    (boards.numbers anchor.slot) ?_ fun held member =>
      boards.within anchor.slot held (List.mem_filter.mp member).1
  change (second.bell anchor).listeners.filter _ = _
  rw [Board.bell, boards.listeners, List.filter_map]
  refine congrArg _ (List.filter_congr fun held _ => ?_)
  simp [Renumbering.held, (renumber.number_injective anchor.slot).eq_iff]

/-- Who subscribes gets a number that was not given out before. -/
theorem subscribe (boards : first.Matches renumber extent second) (anchor : Anchor)
    (listener : Listener) (known : listener.channel < extent.slots) :
    (second.subscribe anchor (renumber.listener listener)).1 =
        (first.subscribe anchor listener).1.map (renumber.number anchor.slot) ∧
      ∃ wider, extent ≤ wider ∧ (∀ number, (first.subscribe anchor listener).1 = some number →
          number < wider.numbers anchor.slot) ∧
        (first.subscribe anchor listener).2.Matches renumber wider
          (second.subscribe anchor (renumber.listener listener)).2 := by
  unfold Board.subscribe
  split
  · have next : (first.bell anchor).next = extent.numbers anchor.slot := boards.next_eq _
    have fresh : renumber.number anchor.slot (first.bell anchor).next = (second.bell anchor).next :=
      boards.numbers anchor.slot 0
    let wider : Extent :=
      ⟨extent.slots, Function.update extent.numbers anchor.slot ((first.bell anchor).next + 1)⟩
    have own : wider.numbers anchor.slot = (first.bell anchor).next + 1 := Function.update_self ..
    have grows : extent ≤ wider := by
      refine ⟨Nat.le_refl _, fun slot => ?_⟩
      by_cases same : slot = anchor.slot
      · rw [same, own, next]
        exact Nat.le_succ _
      · exact Nat.le_of_eq (Function.update_of_ne same ..).symm
    refine ⟨congrArg some fresh.symm, wider, grows, ?_, ?_⟩
    · rintro _ ⟨⟩
      exact own ▸ Nat.lt_succ_self _
    · refine boards.ring grows rfl own (fun other differ => Function.update_of_ne differ ..) ?_ ?_ ?_
      · intro more
        have later := boards.numbers anchor.slot (1 + more)
        rwa [← Nat.add_assoc, ← Nat.add_assoc] at later
      · change (second.bell anchor).listeners ++ _ = _
        rw [← fresh, List.map_append, Board.bell, boards.listeners]
        rfl
      · intro held member
        rcases List.mem_append.mp member with before | new
        · obtain ⟨number, channel⟩ := boards.within _ held before
          exact ⟨Nat.lt_of_lt_of_le number (grows.2 _), channel⟩
        · cases List.mem_singleton.mp new
          exact ⟨own ▸ Nat.lt_succ_self _, known⟩
  · refine ⟨rfl, extent, extent.le_refl, ?_, boards⟩
    rintro number ⟨⟩

end Board.Matches

end CardNet
