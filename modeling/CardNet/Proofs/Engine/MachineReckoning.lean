import CardNet.Proofs.Engine.Incidents
import CardNet.Proofs.Engine.Firings
import CardNet.Proofs.Graph.Reckoning

/-!
# Unfoldings by bounded searches

What becomes of a machine in function mode cannot be reckoned step by step, since the searches for
plans end for a reason that a reckoning does not see. With a bound on these searches it can, and
what happens within the bound is what happens (`Machine.unfold_of_within`).
-/

namespace CardNet

namespace Engine

/-- An engine whose graph has lost a connection, the plans made by searches of at most so many
steps. -/
def removeWithin (steps : Nat) (engine : Engine) (id : String) : Option Engine :=
  engine.graph.bind fun graph =>
    (graph.connections.get? id).bind fun connection =>
      let cleared := { graph with connections := graph.connections.erase id }
      let uprooted := (Bench.mk cleared engine.board).uproot connection
      if uprooted.graph.mode = .function then
        (uprooted.graph.compileWithin steps).map fun planned =>
          (engine.withBench ⟨planned, uprooted.board⟩).forget
      else none

theorem removeConnection_of_within {steps : Nat} {engine after : Engine} {id : String}
    (found : engine.removeWithin steps id = some after) :
    engine.removeConnection id = (.ok true, after) := by
  obtain ⟨graph, present, rest⟩ := Option.bind_eq_some_iff.mp found
  obtain ⟨connection, listed, rest⟩ := Option.bind_eq_some_iff.mp rest
  dsimp only at rest
  split at rest
  · next mode =>
      obtain ⟨planned, made, rfl⟩ := Option.map_eq_some_iff.mp rest
      have edited : (Bench.mk graph engine.board).removeConnection id = (.ok true,
          ⟨planned, ((Bench.mk { graph with connections := graph.connections.erase id }
            engine.board).uproot connection).board⟩) := by
        simp only [Bench.removeConnection, listed, Bench.recompile, Graph.recompile, mode,
          Graph.compile_of_within made]
        rfl
      simp only [removeConnection, bench_eq present, edited]
  · cases rest

end Engine

namespace Machine

/-- One step of a worker. In function mode graphs are built, and rid of connections, by searches of
at most so many steps. -/
def stepWithin (steps : Nat) (machine : Machine) (worker : Nat) : Option Machine :=
  if worker = server then machine.step worker
  else
    match machine.workers.get? worker with
    | some (.caller (.building config cards none restart)) =>
        let gate := machine.runGate.claim worker
        if machine.engine.config.mode = .function ∧ gate.holder? = some worker then
          (Graph.buildWithin steps config cards machine.engine.board).map fun bench =>
            { machine with
              runGate := gate
              engine := { machine.engine with board := bench.board } }.setWorker worker
                (.caller (.installing bench.graph restart))
        else none
    | some (.caller (.splicing (.remove id))) =>
        let gate := machine.graphGate.claim worker
        if gate.holder? = some worker then
          (machine.engine.removeWithin steps id).map fun engine =>
            ({ machine with graphGate := gate, engine := engine }.leaveGraph worker).setWorker worker
              (.caller (.leaving (.ok (.flag true)) false))
        else none
    | _ => machine.step worker

theorem step_of_within {steps : Nat} {machine after : Machine} {worker : Nat}
    (found : machine.stepWithin steps worker = some after) : machine.step worker = some after := by
  rw [stepWithin] at found
  split at found
  · exact found
  · next other =>
      split at found
      · next config cards restart held =>
          dsimp only at found
          split at found
          · next ready =>
              obtain ⟨bench, within, rfl⟩ := Option.map_eq_some_iff.mp found
              have built := Graph.build_of_within within
              rw [← ready.1] at built
              simp only [step, if_neg other, held, stepCall, atRunGate, if_pos ready.2, buildGraph,
                Engine.build, built, Option.map_some]
          · cases found
      · next id held =>
          dsimp only at found
          split at found
          · next inside =>
              obtain ⟨engine, within, rfl⟩ := Option.map_eq_some_iff.mp found
              have removed := Engine.removeConnection_of_within within
              simp only [step, if_neg other, held, stepCall, atGraphGate, if_pos inside, splice,
                Machine.within, rewire, removed, Option.map_some]
              rfl
          · cases found
      · exact found

/-- The machine after an incident, with bounded searches. -/
def undergoWithin (steps : Nat) (machine : Machine) : Incident → Option Machine
  | .step worker => machine.stepWithin steps worker
  | incident => machine.undergo incident

theorem undergo_of_within {steps : Nat} {machine after : Machine} {incident : Incident}
    (found : machine.undergoWithin steps incident = some after) :
    machine.undergo incident = some after := by
  cases incident with
  | step worker => exact step_of_within found
  | _ => exact found

/-- What becomes of a machine when incidents happen in order, with bounded searches. -/
def unfoldWithin (steps : Nat) (allowed : Machine → Incident → Bool) :
    Machine → List Incident → Option Machine
  | machine, [] => some machine
  | machine, incident :: rest =>
      if allowed machine incident then
        (machine.undergoWithin steps incident).bind fun after => unfoldWithin steps allowed after rest
      else none

theorem unfold_of_within {steps : Nat} {allowed : Machine → Incident → Bool}
    {machine last : Machine} {incidents : List Incident}
    (found : unfoldWithin steps allowed machine incidents = some last) :
    unfold allowed (fun _ _ _ _ => ()) machine () incidents = some (last, ()) := by
  induction incidents generalizing machine with
  | nil =>
      cases found
      rfl
  | cons incident rest ih =>
      rw [unfoldWithin] at found
      split at found
      · next allows =>
          obtain ⟨after, now, later⟩ := Option.bind_eq_some_iff.mp found
          rw [unfold, if_pos allows, undergo_of_within now]
          exact ih later
      · cases found

end Machine

end CardNet
