import CardNet.Engine.Turns
import CardNet.Main
import CardNet.Schedule.Errand
import CardNet.Proofs.Net.Arcs
import CardNet.Proofs.Confluence
import CardNet.Proofs.Engine.Answers
import CardNet.Proofs.Engine.CardCalls
import CardNet.Proofs.Engine.Conservation
import CardNet.Proofs.Engine.MemoizedAnswers
import CardNet.Proofs.Engine.EventDelivery
import CardNet.Proofs.Engine.ModeAgreement
import CardNet.Proofs.Engine.LateInputs
import CardNet.Proofs.Graph.Merging
import CardNet.Proofs.Graph.FailedEdits
import CardNet.Proofs.Graph.Rebuilding
import CardNet.Proofs.Net.Operations
import CardNet.Proofs.Net.Firing
import CardNet.Proofs.Schedule.Desks
import CardNet.Proofs.Schedule.Order
import CardNet.Proofs.Schedule.Stability
import CardNet.Proofs.Graph.Anatomy
import CardNet.Proofs.Graph.Housing
import CardNet.Proofs.Engine.OrderIndependence
import CardNet.Proofs.Engine.PlanAgreement
import CardNet.Proofs.Engine.Logs
import CardNet.Proofs.Engine.Isolation
import CardNet.Proofs.Engine.Severance
import CardNet.Proofs.Engine.Subscribers
import CardNet.Proofs.Engine.Quiescence
import CardNet.Proofs.Graph.Cycles
import CardNet.Proofs.Engine.FailedRebuilds
import CardNet.Proofs.Net.ArcTexts
import CardNet.Proofs.Graph.Accounting
import CardNet.Proofs.Net.Restoration
import CardNet.Proofs.Graph.Undoing
import CardNet.Proofs.Graph.Aims
import CardNet.Proofs.Engine.PlanResults
import CardNet.Proofs.Graph.FreshStarts
import CardNet.Proofs.Graph.ExitOutputs
import CardNet.Proofs.Engine.StartPlaces
import CardNet.Proofs.Engine.Tickers
import CardNet.Proofs.Net.BreadthFirst
import CardNet.Proofs.Card.Audience
import CardNet.Proofs.Card.BuiltIn
import CardNet.Proofs.CommandLine.Checks
