import CardNet.Card.Basic
import CardNet.Text.Blank
import CardNet.Value.Printer

/-!
# Built-in cards

The cards that a document can declare: constants, arithmetic, joined text, wires and global
inputs. A declaration that cannot work is refused (`CardDef.design`); arithmetic is on doubles,
and a whole result that a double holds exactly is a whole number again.
-/

namespace CardNet

/-- The operations of built-in cards. -/
inductive Operation where
  | constant
  | add
  | mul
  | double
  | concat
  | passthrough
  | global
deriving DecidableEq, Inhabited

namespace Operation

/-- The name of an operation with a capital letter. -/
def title : Operation → String
  | constant => "Const"
  | add => "Add"
  | mul => "Mul"
  | double => "Double"
  | concat => "Concat"
  | passthrough => "Passthrough"
  | global => "Global"

/-- The name of an operation in documents. -/
def name (operation : Operation) : String := Text.lowerAscii operation.title

/-- The operations in order. -/
def all : List Operation := [constant, add, mul, double, concat, passthrough, global]

/-- The operation of a name. -/
def ofName? (name : String) : Option Operation := all.find? fun op => op.name == name

end Operation

/-- A card as a document declares it. -/
structure CardDef where
  id : String
  title : Option String
  op : Operation
  inputs : List String
  outputs : List String
  defaults : Values
  value : Value
  key : Option String

/-- Why a declared card cannot be made. -/
inductive CardDefError where
  | doubleWithoutInput (card : String)
  | unevenPassthrough (card : String)
  | sourceWithInputs (card : String) (op : Operation)
deriving DecidableEq

/-- The text of a declaration error. -/
def CardDefError.message : CardDefError → String
  | doubleWithoutInput card => s!"card {card}: double needs an input"
  | unevenPassthrough card => s!"card {card}: passthrough needs as many outputs as inputs"
  | sourceWithInputs card op => s!"card {card}: {op.title} cards take no inputs"

/-- Why a built-in card fails at a call. -/
inductive OperationError where
  | notANumber (card input : String)
  | noGlobal (card key : String)
deriving DecidableEq

/-- The text of a failed call. -/
def OperationError.message : OperationError → String
  | notANumber card input => s!"card {card}: input {input} is not a number"
  | noGlobal card key => s!"card {card}: no global input {key}"

namespace CardDef

/-- The reason why a declaration is refused, if there is one. -/
def refusal? (card : CardDef) : Option CardDefError :=
  match card.op with
  | .double => if card.inputs.isEmpty then some (.doubleWithoutInput card.id) else none
  | .passthrough =>
      if card.inputs.length ≠ card.outputs.length then some (.unevenPassthrough card.id) else none
  | .constant | .global =>
      if card.inputs.isEmpty then none else some (.sourceWithInputs card.id card.op)
  | _ => none

/-- The inputs as numbers; the first that is none is reported. -/
def numbers (card : CardDef) (arguments : Values) : Except OperationError (List Float) :=
  card.inputs.mapM fun name =>
    match (arguments.get? name).bind Value.toFloat? with
    | some x => .ok x
    | none => .error (.notANumber card.id name)

/-- A value as a part of joined text: a text as it is, null as nothing. -/
def part : Option Value → String
  | some (.text s) => s
  | some .null => ""
  | none => ""
  | some value => value.compact

/-- The value that all outputs of a card get. -/
def result (card : CardDef) (arguments : Values) : Except OperationError Value :=
  match card.op with
  | .constant => .ok card.value
  | .add => (card.numbers arguments).map fun xs => .ofResult (xs.foldl (· + ·) 0)
  | .mul => (card.numbers arguments).map fun xs => .ofResult (xs.foldl (· * ·) 1)
  | .double => (card.numbers arguments).map fun xs => .ofResult (xs.headD 0 * 2)
  | .concat =>
      .ok (.text (String.join (card.inputs.map fun name => part (arguments.get? name))))
  | .passthrough | .global => .ok .null

/-- The results of a call by output name. -/
def apply (card : CardDef) (arguments : Values) : Except OperationError Values :=
  match card.op with
  | .passthrough =>
      .ok (Values.ofPairs ((card.inputs.zip card.outputs).map fun wire =>
        (wire.2, arguments.getD wire.1 .null)))
  | .global =>
      (card.outputs.mapM fun output =>
        let key := card.key.getD output
        match arguments.get? key with
        | some value => Except.ok (output, value)
        | none => .error (OperationError.noGlobal card.id key)).map Values.ofPairs
  | _ =>
      (card.result arguments).map fun value =>
        Values.ofPairs (card.outputs.map fun output => (output, value))

/-- The anchors of a declared card: the inputs with their defaults, then the outputs. -/
def anchors (card : CardDef) : List AnchorDesign :=
  (card.inputs.map fun name => ⟨name, .input, card.defaults.get? name, none, false⟩) ++
    card.outputs.map fun name => ⟨name, .output, none, none, false⟩

/-- The card of a declaration; its title is the name of the operation unless one is given. -/
def design (card : CardDef) : Except CardDefError CardDesign :=
  match card.refusal? with
  | some reason => .error reason
  | none =>
      .ok {
        id := card.id
        title := card.title.getD card.op.name
        anchors := card.anchors
        delay := 0
        work := .function fun arguments =>
          (card.apply arguments).mapError OperationError.message
        runtime := none }

end CardDef

end CardNet
