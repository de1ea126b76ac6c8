import CardNet.Document.Shapes
import CardNet.Engine.Session

/-!
# Sessions on documents

How the graph of a document is brought to run: its cards are made, its settings are chosen, and a
session is started on the graph that it describes.
-/

namespace CardNet

namespace Document

/-- The cards of a document, or the first declaration that is refused. -/
def designs (document : Document) : Except CardDefError (List CardDesign) :=
  document.cards.mapM CardDef.design

/-- The globals of a document, if it has any. -/
def suppliedGlobals (document : Document) : Option Values :=
  if document.globals.isEmpty then none else some document.globals

/-- The settings of a document, or those of the environment when it has none; a mode that is
asked for goes before both. -/
def settings (document : Document) (environment : List (String × String)) (mode : Option Mode) :
    Except Failure EngineConfig :=
  let config :=
    match document.engine with
    | some config => .ok config
    | none => EngineConfig.ofEnvironment environment
  match mode with
  | some mode => config.map fun config => config.withMode mode
  | none => config

/-- Build the graph of a document in a session of its own. -/
def start (document : Document) (config : EngineConfig) (designs : List CardDesign) :
    Except Failure Report × Session :=
  let (cards, board) := Board.empty.seatAll designs
  (Session.idle config board).build document.graph cards document.suppliedGlobals

end Document

/-- Run the graph several times, up to the first failure; answers with the outputs of each
run and with the failure that ended them. -/
def Session.execTimes (inputs : Values) (force : Bool) :
    Nat → Session → List Values × Option Failure × Session
  | 0, session => ([], none, session)
  | times + 1, session =>
      match session.exec inputs force with
      | (.error failure, session) => ([], some failure, session)
      | (.ok outputs, session) =>
          let (others, failure, session) := execTimes inputs force times session
          (outputs :: others, failure, session)

end CardNet
