import CardNet.Connection.Basic
import CardNet.Net.Firing

/-!
# Circuits

A circuit is the net of a card graph: its places hold anchors, events, or the trigger of a card
without inputs, and its transitions split tokens, carry values over, or call cards. An action
does part of its work at once (`Action.begin`); what is left is a job, which may have to wait
before it can be ended (`Job.finish`).
-/

namespace CardNet

/-- What a place of a circuit holds. -/
inductive Content where
  /-- An anchor of a card. -/
  | anchor (card : String) (anchor : Anchor)
  /-- An event anchor of a card. Its tokens are events that were not handed on, and stay. -/
  | event (card : String) (anchor : Anchor)
  /-- What starts a card without inputs. -/
  | trigger (card : Card)
  /-- Nothing: a place between a split and a transfer. -/
  | relay

namespace Content

/-- The endpoint that a place is bound to. -/
def endpoint? : Content → Option Endpoint
  | anchor card slot => some ⟨card, slot.id⟩
  | event card slot => some ⟨card, slot.id⟩
  | _ => none

/-- Whether a place collects events. -/
def isEvent : Content → Bool
  | event _ _ => true
  | _ => false

/-- The anchor that a place shows. -/
def anchor? : Content → Option Anchor
  | anchor _ slot => some slot
  | event _ slot => some slot
  | _ => none

/-- The value that a place shows. -/
def value? (content : Content) (board : Board) : Option Value :=
  content.anchor?.map board.read

/-- The anchor whose value can be set through a place. -/
def settable? : Content → Option Anchor
  | anchor _ slot => some slot
  | _ => none

/-- The default that a place declares. -/
def default? (content : Content) : Option Value := content.settable?.bind Anchor.default

/-- Set the value of a place; answers whether it can be set. -/
def setValue (content : Content) (value : Value) (board : Board) : Bool × Board :=
  match content.settable? with
  | some slot => (true, board.write slot value)
  | none => (false, board)

/-- Bring what a place holds back to its start. -/
def reset (content : Content) (board : Board) : Board :=
  match content with
  | anchor _ slot => board.resetAnchor slot
  | event _ slot => board.resetAnchor slot
  | trigger card =>
      board.modifyRecord card.slot fun record => { record with resets := record.resets + 1 }
  | relay => board

/-- Whether a plan reads the place. -/
def isReadable (content : Content) : Bool := content.anchor?.isSome

/-- The value by which a change of the place is noticed. -/
def observed (content : Content) (board : Board) : Value :=
  match content with
  | anchor _ slot => board.read slot
  | event _ slot => board.read slot
  | trigger card => card.runtimeInput board
  | relay => .null

/-- The name under which the value of the place appears among outputs. Events are none. -/
def outputKey? : Content → Option String
  | anchor card slot => some (Endpoint.outputKey ⟨card, slot.id⟩)
  | _ => none

end Content

/-- What a scripted action does at a call that does not fail. -/
inductive Move where
  | nothing
  | arguments
  | constant (value : Value)
  | count
  | copy (source target : Anchor)
  | double (source target : Anchor)
  | fail (message : String)
  | sleep (milliseconds : Nat) (value : Value)

/-- What a transition of a circuit does. -/
inductive Action where
  /-- Hand tokens on. -/
  | split
  /-- Carry the value of one anchor over to another. -/
  | transfer (source target : Anchor)
  /-- Call a card. -/
  | call (card : Card)
  /-- Call a card without inputs with the run inputs of a channel. -/
  | start (card : Card) (channel : Nat)
  /-- Act by a script that counts its calls at a slot and fails at some of them. -/
  | scripted (slot : Nat) (failOn : List Nat) (move : Move)

/-- What is left of an action that has begun. -/
inductive Job where
  /-- Nothing but to wait and to answer. -/
  | settled (delay : Nat) (result : Except String Value)
  /-- A call of a card. -/
  | visit (card : Card) (inputs globals : Option Values)

namespace Job

/-- How long a job waits before it can be ended. -/
def delay : Job → Nat
  | settled delay _ => delay
  | visit card _ _ => card.delay

/-- End a job. -/
def finish (job : Job) (board : Board) : Except String Value × Board :=
  match job with
  | settled _ result => (result, board)
  | visit card inputs globals => card.call inputs globals board

end Job

namespace Move

/-- Carry a changed value from one anchor to another. -/
def carry (source target : Anchor) (change : Value → Value) (board : Board) : Job × Board :=
  let value := change (board.read source)
  (.settled 0 (.ok value), board.write target value)

/-- Begin the move of a call with a number and arguments. -/
def begin (move : Move) (call : Nat) (arguments : List Value) (board : Board) : Job × Board :=
  match move with
  | nothing => (.settled 0 (.ok .null), board)
  | .arguments => (.settled 0 (.ok (.list arguments)), board)
  | constant value => (.settled 0 (.ok value), board)
  | count => (.settled 0 (.ok (.ofNat call)), board)
  | copy source target => carry source target id board
  | double source target =>
      carry source target (fun value => .ofInt (wrapSigned ((value.toInt?.getD 0) * 2))) board
  | fail message => (.settled 0 (.error message), board)
  | sleep milliseconds value => (.settled milliseconds (.ok value), board)

end Move

/-- Begin an action: do what happens at once. -/
def Action.begin (action : Action) (arguments : List Value) (board : Board) : Job × Board :=
  match action with
  | .split => (.settled 0 (.ok .null), board)
  | .transfer source target => Move.carry source target id board
  | .call card => (.visit card none none, board)
  | .start card channel => (.visit card none (some (board.channel channel).inputs), board)
  | .scripted slot failOn move =>
      let call := board.counters.getD slot 0 + 1
      let board := { board with counters := board.counters.insert slot call }
      match Script.failed? failOn call with
      | some message => (.settled 0 (.error message), board)
      | none => move.begin call arguments board

/-- The net of a card graph. -/
abbrev Circuit := Net Content Action

/-- A firing whose action has begun. -/
structure Flight where
  firing : Firing Action
  job : Job

/-- Begin to fire a transition: take its tokens, and begin its action. -/
def Circuit.launch (net : Circuit) (board : Board) (transition : String)
    (arguments : List Value) : Except FiringError (Flight × Circuit × Board) :=
  match net.begin transition with
  | .error error => .error error
  | .ok (firing, taken) =>
      let (job, board) := firing.action.begin arguments board
      .ok (⟨firing, job⟩, taken, board)

/-- End a firing: end its action, then put tokens down or give them back. -/
def Circuit.land (net : Circuit) (board : Board) (flight : Flight) :
    Except FiringError Value × Circuit × Board :=
  match flight.job.finish board with
  | (.ok value, board) => (.ok value, net.commit flight.firing, board)
  | (.error message, board) =>
      let error := .actionFailed flight.firing.transition message
      (.error error, net.rollback flight.firing, board)

/-- Give a firing up. -/
def Circuit.callOff (net : Circuit) (flight : Flight) : Circuit := net.rollback flight.firing

/-- How a firing ends: with a value, with an error, or given up before its end. -/
inductive Shot where
  | fired (value : Value)
  | failed (error : FiringError)
  | dropped
deriving Inhabited

/-- The end of a firing that was not given up. -/
def Shot.ofResult : Except FiringError Value → Shot
  | .ok value => .fired value
  | .error error => .failed error

/-- Whether a wait fits into a time limit. -/
def fits (limit : Option Nat) (delay : Nat) : Bool :=
  match limit with
  | none => true
  | some milliseconds => delay ≤ milliseconds

/-- Fire a transition of a circuit within a time limit. -/
def Circuit.fire (net : Circuit) (board : Board) (transition : String) (arguments : List Value)
    (limit : Option Nat) : Shot × Circuit × Board :=
  match net.launch board transition arguments with
  | .error error => (.failed error, net, board)
  | .ok (flight, taken, board) =>
      if fits limit flight.job.delay then
        let (result, net, board) := Circuit.land taken board flight
        (.ofResult result, net, board)
      else (.dropped, Circuit.callOff taken flight, board)

end CardNet
