import CardNet.Card.Board
import CardNet.Card.Script

/-!
# Cards

A card has anchors and a computation on named values. A call takes the values of the input
anchors, or the arguments handed over, and fills names that are still free from the globals;
each result is written to the output anchors of its name (`Card.call`).
-/

namespace CardNet

/-- What a card computes: a function of its arguments, or a script that also sees the number of
the call and the fault that is set. -/
inductive Work where
  | function (run : Values → Except String Values)
  | script (script : Script)

/-- A card. -/
structure Card where
  /-- The place of the card's record on the board. -/
  slot : Nat
  id : String
  title : String
  anchors : List Anchor
  /-- How long a call waits before it computes, in milliseconds. -/
  delay : Nat
  work : Work

/-- A card before it has slots. -/
structure CardDesign where
  id : String
  title : String
  anchors : List AnchorDesign
  delay : Nat
  work : Work
  runtime : Option Value

/-- Put a card and its anchors on the board. -/
def Board.seat (board : Board) (design : CardDesign) : Card × Board :=
  let (slot, board) := board.allocate
  let (anchors, board) := board.seatAnchors design.anchors
  let card : Card := ⟨slot, design.id, design.title, anchors, design.delay, design.work⟩
  (card, board.modifyRecord slot fun record => { record with runtime := design.runtime })

/-- Put cards on the board, in order. -/
def Board.seatAll (board : Board) : List CardDesign → List Card × Board
  | [] => ([], board)
  | design :: rest =>
      let (card, board) := board.seat design
      let (cards, board) := board.seatAll rest
      (card :: cards, board)

namespace Card

/-- The first anchor of an id. -/
def anchor? (card : Card) (id : String) : Option Anchor :=
  card.anchors.find? fun anchor => anchor.id == id

/-- The anchors of a kind, in order. -/
def anchorsOf (card : Card) (kind : AnchorKind) : List Anchor :=
  card.anchors.filter fun anchor => anchor.kind == kind

/-- The values of the input anchors by id; of two anchors of one id the later counts. -/
def gather (card : Card) (board : Board) : Values :=
  Values.ofPairs ((card.anchorsOf .input).map fun anchor => (anchor.id, board.read anchor))

/-- What is looked at to find out whether a source card has changed. -/
def runtimeInput (card : Card) (board : Board) : Value :=
  ((board.record card.slot).runtime).getD (.ofValues (card.gather board))

/-- Write each result to the output anchors of its name. -/
def publish (card : Card) (results : Values) (board : Board) : Board :=
  (card.anchorsOf .output).foldl (fun board anchor =>
    match results.get? anchor.id with
    | some value => board.write anchor value
    | none => board) board

/-- The arguments of a call. -/
def arguments (card : Card) (inputs globals : Option Values) (board : Board) : Values :=
  (inputs.getD (card.gather board)).fill (globals.getD ∅)

/-- Enter a call in the card's record; a scripted card also goes into the log. -/
def enter (card : Card) (board : Board) : Board :=
  let board := board.modifyRecord card.slot fun record => { record with calls := record.calls + 1 }
  match card.work with
  | .function _ => board
  | .script _ => { board with log := card.id :: board.log }

/-- The results of a call that has been entered. -/
def compute (card : Card) (arguments : Values) (board : Board) : Except String Values :=
  match card.work with
  | .function run => run arguments
  | .script script =>
      let record := board.record card.slot
      script.run record.calls record.fault arguments

/-- Call a card: enter the call, compute, and publish the results. -/
def call (card : Card) (inputs globals : Option Values) (board : Board) :
    Except String Value × Board :=
  let arguments := card.arguments inputs globals board
  let board := card.enter board
  match card.compute arguments board with
  | .error message => (.error message, board)
  | .ok results => (.ok (.ofValues results), card.publish results board)

end Card

end CardNet
