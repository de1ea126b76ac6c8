import CardNet.Card.Anchor

/-!
# The board

The board holds everything that cards, nets and graphs share and change: the values of anchors,
the listeners of event anchors, a record per card, the channels through which a graph gets its
inputs and its events, and the counters of scripted actions. Each of these lies at a slot of
its own, and slots are given out in ascending order.

Emitting stores the value and then sends it, under the label of the listener, to the channel of
every listener in the order of their subscriptions (`Board.emit`).
-/

namespace CardNet

/-- Where an emitted value goes, and under which label. -/
structure Listener where
  channel : Nat
  label : String
deriving DecidableEq, Inhabited

/-- The listeners of an event anchor by ascending number, and the number of the next one. -/
structure Bell where
  listeners : List (Nat × Listener)
  next : Nat
deriving Inhabited

/-- The bell that nobody ever listened to. -/
def Bell.silent : Bell := ⟨[], 0⟩

/-- What is remembered of a card. -/
structure CardRecord where
  calls : Nat
  resets : Nat
  /-- The text with which every call fails for the time being. -/
  fault : Option String
  /-- What stands in for the gathered inputs when changes are looked for. -/
  runtime : Option Value
deriving Inhabited

/-- The record of a card that was never called. -/
def CardRecord.fresh : CardRecord := ⟨0, 0, none, none⟩

/-- What a graph shares with its source cards, its supplier of globals and its event anchors. -/
structure Channel where
  /-- The inputs of the present run. -/
  inputs : Values
  /-- The globals as they are supplied at present. -/
  globals : Values
  /-- The values that were emitted and not yet fetched, oldest first, with their labels. -/
  mail : List (String × Value)
deriving Inhabited

/-- The channel that nothing was sent to. -/
def Channel.fresh : Channel := ⟨∅, ∅, []⟩

/-- All that cards and graphs share. -/
structure Board where
  values : Std.ExtTreeMap Nat Value
  bells : Std.ExtTreeMap Nat Bell
  records : Std.ExtTreeMap Nat CardRecord
  channels : Std.ExtTreeMap Nat Channel
  counters : Std.ExtTreeMap Nat Nat
  /-- The ids of the scripted cards that were called, latest first. -/
  log : List String
  nextSlot : Nat

namespace Board

/-- The board with nothing on it. -/
def empty : Board := ⟨∅, ∅, ∅, ∅, ∅, [], 0⟩

instance : Inhabited Board := ⟨empty⟩

/-- A slot that was never given out. -/
def allocate (board : Board) : Nat × Board :=
  (board.nextSlot, { board with nextSlot := board.nextSlot + 1 })

/-- The value of an anchor. -/
def read (board : Board) (anchor : Anchor) : Value := board.values.getD anchor.slot .null

/-- Set the value of an anchor. -/
def write (board : Board) (anchor : Anchor) (value : Value) : Board :=
  { board with values := board.values.insert anchor.slot value }

/-- Bring an anchor back to its default, if it declares one. -/
def resetAnchor (board : Board) (anchor : Anchor) : Board :=
  match anchor.default with
  | some value => board.write anchor value
  | none => board

/-- The bell of an anchor. -/
def bell (board : Board) (anchor : Anchor) : Bell := board.bells.getD anchor.slot .silent

/-- The number of listeners of an anchor. -/
def listenerCount (board : Board) (anchor : Anchor) : Nat := (board.bell anchor).listeners.length

/-- Add a listener to an anchor that takes listeners; answers with its number. -/
def subscribe (board : Board) (anchor : Anchor) (listener : Listener) : Option Nat × Board :=
  if anchor.listens then
    let bell := board.bell anchor
    let rung : Bell := ⟨bell.listeners ++ [(bell.next, listener)], bell.next + 1⟩
    (some bell.next, { board with bells := board.bells.insert anchor.slot rung })
  else (none, board)

/-- Take a listener off an anchor by its number. -/
def unsubscribe (board : Board) (anchor : Anchor) (number : Nat) : Board :=
  let bell := board.bell anchor
  let rest : Bell := { bell with listeners := bell.listeners.filter fun held => held.1 ≠ number }
  { board with bells := board.bells.insert anchor.slot rest }

/-- The channel at a slot. -/
def channel (board : Board) (slot : Nat) : Channel := board.channels.getD slot .fresh

/-- Change the channel at a slot. -/
def modifyChannel (board : Board) (slot : Nat) (change : Channel → Channel) : Board :=
  { board with channels := board.channels.insert slot (change (board.channel slot)) }

/-- Send a value to the channel of a listener. -/
def send (board : Board) (listener : Listener) (value : Value) : Board :=
  board.modifyChannel listener.channel fun channel =>
    { channel with mail := channel.mail ++ [(listener.label, value)] }

/-- Fetch all that was sent to a channel, oldest first. -/
def fetch (board : Board) (slot : Nat) : List (String × Value) × Board :=
  ((board.channel slot).mail, board.modifyChannel slot fun channel => { channel with mail := [] })

/-- Change the globals that a channel supplies. -/
def supplyGlobals (board : Board) (slot : Nat) (globals : Values) : Board :=
  board.modifyChannel slot fun channel => { channel with globals := globals }

/-- Take the log, oldest entry first. -/
def takeLog (board : Board) : List String × Board :=
  (board.log.reverse, { board with log := [] })

/-- Emit a value on an anchor: the anchor holds it, and each of its listeners is sent it. -/
def emit (board : Board) (anchor : Anchor) (value : Value) : Board :=
  ((board.bell anchor).listeners.map Prod.snd).foldl
    (fun board listener => board.send listener value) (board.write anchor value)

/-- The record of the card at a slot. -/
def record (board : Board) (slot : Nat) : CardRecord := board.records.getD slot .fresh

/-- Change the record of the card at a slot. -/
def modifyRecord (board : Board) (slot : Nat) (change : CardRecord → CardRecord) : Board :=
  { board with records := board.records.insert slot (change (board.record slot)) }

/-- Put an anchor on the board. -/
def seatAnchor (board : Board) (design : AnchorDesign) : Anchor × Board :=
  let (slot, board) := board.allocate
  let anchor := design.toAnchor slot
  (anchor, board.write anchor design.initialValue)

/-- Put anchors on the board, in order. -/
def seatAnchors (board : Board) : List AnchorDesign → List Anchor × Board
  | [] => ([], board)
  | design :: rest =>
      let (anchor, board) := board.seatAnchor design
      let (anchors, board) := board.seatAnchors rest
      (anchor :: anchors, board)

end Board

end CardNet
