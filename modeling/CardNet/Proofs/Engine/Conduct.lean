import CardNet.Proofs.Engine.Promises

/-!
# How workers keep to the gates

What matters of a worker to others is whether it is inside the run gate, whether it is about to
change the graph, which answer it waits for and which plan it is about to have run
(`Worker.stance`). A step of any worker other than worker zero keeps to the gates, in either mode
and at any stage of any call (`Machine.Conduct`): the graph is changed, and records are, only by a
worker that is inside the run gate, and nobody comes in while another is inside.
-/

namespace CardNet

/-! ## Stances -/

/-- What a task has to run. -/
def Task.plan? : Task → Option Plan
  | walk plan _ => some plan
  | _ => none

/-- What matters of a worker to others. -/
structure Stance where
  /-- Whether it has entered the run gate and not left it. -/
  inside : Bool
  /-- Whether it is in a run that has reset the graph and has neither stored its outputs nor
  failed. -/
  underway : Bool
  /-- Whether it is about to change the connections of the graph or to replace the graph. -/
  edits : Bool
  /-- The ticket of the answer that it waits for. -/
  ticket : Option Nat
  /-- The plan that it is about to have run. -/
  plan : Option Plan

namespace Stance

/-- Outside of the run gate, and waiting for no answer. -/
def idle : Stance := ⟨false, false, false, none, none⟩

/-- Inside the run gate, and waiting for no answer. -/
def within : Stance := ⟨true, false, false, none, none⟩

/-- In a run that is under way, and waiting for no answer. -/
def running : Stance := ⟨true, true, false, none, none⟩

/-- It comes to nothing more than another. -/
def Within (next stance : Stance) : Prop :=
  (next.inside = true → stance.inside = true) ∧ (next.underway = true → stance.underway = true)

/-- Outside of the run gate it comes to nothing. -/
theorem within_of_outside {next stance : Stance} (inside : next.inside = false)
    (underway : next.underway = false) : next.Within stance := by
  rw [Within, inside, underway]
  exact ⟨fun enters => absurd enters Bool.false_ne_true, fun goes => absurd goes Bool.false_ne_true⟩

end Stance

def RunStage.stance : RunStage → Stance
  | arriving _ _ | «over» _ => .idle
  | opening _ _ | leaving _ => .within
  | firing _ _ _ _ ticket | walking _ ticket => { Stance.running with ticket := some ticket }
  | planned _ plan => { Stance.running with plan := some plan }
  | _ => .running

def CallStage.stance : CallStage → Stance
  | installing _ _ | splicing _ | clearing => { Stance.within with edits := true }
  | assigning _ _ | dismissing _ _ _ | leaving _ _ => .within
  | running stage _ => stage.stance
  | requesting request => { Stance.idle with plan := request.task.plan? }
  | awaiting ticket => { Stance.idle with ticket := some ticket }
  | _ => .idle

def TickStage.stance : TickStage → Stance
  | running stage => stage.stance
  | _ => .idle

def CourierStage.stance : CourierStage → Stance
  | recording ticket => { Stance.idle with ticket := some ticket }
  | running stage => stage.stance
  | _ => .idle

namespace Worker

def stance : Worker → Stance
  | caller stage => stage.stance
  | ticker held => held.stage.stance
  | courier held => held.stage.stance

theorem stance_of_run? {held : Worker} {stage : RunStage} (running : held.run? = some stage) :
    held.stance = stage.stance := by
  unfold run? at running
  split at running <;> cases running <;> rfl

/-- A worker that edits is inside the run gate. -/
theorem inside_of_edits {held : Worker} (edits : held.stance.edits = true) :
    held.stance.inside = true := by
  have ofStage : ∀ stage : RunStage, stage.stance.edits = true → stage.stance.inside = true := by
    intro stage edits
    cases stage <;> cases edits
  cases held with
  | caller stage =>
      cases stage with
      | installing | splicing | clearing => rfl
      | running stage restart => exact ofStage stage edits
      | _ => cases edits
  | ticker ticker =>
      obtain ⟨interval, inputs, due, stopped, ticks, stage⟩ := ticker
      cases stage with
      | running stage => exact ofStage stage edits
      | _ => cases edits
  | courier courier =>
      obtain ⟨channel, dismissed, stage⟩ := courier
      cases stage with
      | running stage => exact ofStage stage edits
      | _ => cases edits

/-- A worker in a run that is under way is inside the run gate, and edits nothing. -/
theorem stance_of_underway {held : Worker} (underway : held.stance.underway = true) :
    held.stance.inside = true ∧ held.stance.edits = false ∧
      ∃ stage, held.run? = some stage ∧ held.stance = stage.stance := by
  have ofStage : ∀ stage : RunStage, stage.stance.underway = true →
      stage.stance.inside = true ∧ stage.stance.edits = false := by
    intro stage goes
    cases stage with
    | arriving | opening | leaving | «over» => cases goes
    | _ => exact ⟨rfl, rfl⟩
  cases held with
  | caller stage =>
      cases stage with
      | running stage restart => exact ⟨(ofStage stage underway).1, (ofStage stage underway).2,
          stage, rfl, rfl⟩
      | _ => cases underway
  | ticker ticker =>
      obtain ⟨interval, inputs, due, stopped, ticks, stage⟩ := ticker
      cases stage with
      | running stage => exact ⟨(ofStage stage underway).1, (ofStage stage underway).2,
          stage, rfl, rfl⟩
      | _ => cases underway
  | courier courier =>
      obtain ⟨channel, dismissed, stage⟩ := courier
      cases stage with
      | running stage => exact ⟨(ofStage stage underway).1, (ofStage stage underway).2,
          stage, rfl, rfl⟩
      | _ => cases underway

/-- What others may do to a worker: tell a ticker to stop, and dismiss a courier. -/
inductive Told : Worker → Worker → Prop
  | same (held : Worker) : Told held held
  | stopped (held : Ticker) : Told (.ticker held) (.ticker { held with stopped := true })
  | dismissed (held : Courier) : Told (.courier held) (.courier { held with dismissed := true })

theorem Told.stance {held told : Worker} (tells : held.Told told) : told.stance = held.stance := by
  cases tells <;> rfl

theorem Told.run? {held told : Worker} (tells : held.Told told) : told.run? = held.run? := by
  cases tells with
  | same => rfl
  | stopped ticker =>
      obtain ⟨interval, inputs, due, stopped, ticks, stage⟩ := ticker
      cases stage <;> rfl
  | dismissed courier =>
      obtain ⟨channel, dismissed, stage⟩ := courier
      cases stage <;> rfl

/-- Whether a worker was dismissed. -/
def isDismissed : Worker → Bool
  | courier held => held.dismissed
  | _ => false

/-- A worker that has not begun to do anything. -/
inductive IsNew : Worker → Prop
  | caller (call : Call) : IsNew (.caller (.fresh call))
  | ticker {held : Ticker} : held.stage = .waiting → IsNew (.ticker held)
  | courier {held : Courier} : held.stage = .waiting → IsNew (.courier held)

theorem IsNew.stance {held : Worker} (new : held.IsNew) : held.stance = .idle := by
  cases new with
  | caller call => rfl
  | ticker waits => rw [Worker.stance, waits]; rfl
  | courier waits => rw [Worker.stance, waits]; rfl

theorem IsNew.told {held told : Worker} (new : held.IsNew) (tells : held.Told told) :
    told.IsNew := by
  cases new with
  | caller call =>
      cases tells
      exact .caller call
  | ticker waits => cases tells <;> exact .ticker waits
  | courier waits => cases tells <;> exact .courier waits

theorem Told.trans {first second third : Worker} (one : first.Told second)
    (two : second.Told third) : first.Told third := by
  cases one with
  | same => exact two
  | stopped ticker =>
      cases two with
      | same => exact .stopped ticker
      | stopped => exact .stopped ticker
  | dismissed courier =>
      cases two with
      | same => exact .dismissed courier
      | dismissed => exact .dismissed courier

end Worker

/-- A plan is one of those of the present graph. -/
def Engine.Offers (engine : Engine) (plan : Plan) : Prop :=
  ∃ graph, engine.graph = some graph ∧
    (graph.plan = some plan ∨ ∃ id, graph.paths.get? id = some plan)

/-- The plan that the work of a node runs is one of the graph. -/
theorem Engine.offers_of_nodeRequest {engine : Engine} {id : String} {inputs : Values}
    {request : Request Task} (found : engine.nodeRequest id inputs = .ok request) {plan : Plan}
    (runs : request.task.plan? = some plan) : engine.Offers plan := by
  unfold nodeRequest at found
  cases held : engine.graph with
  | none =>
      rw [Engine.bench, bench?, held] at found
      cases found
  | some graph =>
      rw [bench_eq held] at found
      cases known : graph.paths.get? id with
      | none =>
          simp only [Except.map, known] at found
          cases found
          cases runs
      | some path =>
          simp only [Except.map, known] at found
          cases found
          cases runs
          exact ⟨graph, held, .inr ⟨id, known⟩⟩

namespace Machine

variable {machine middle after : Machine} {worker : Nat}

theorem config_rewire (engine : Engine) (change : Rewiring) :
    (rewire engine change).2.config = engine.config := by
  cases change with
  | add connection =>
      simp only [rewire, Engine.addConnection]
      split
      · rfl
      · split <;> rfl
  | remove id =>
      simp only [rewire, Engine.removeConnection]
      split
      · rfl
      · split <;> rfl

/-! ## Company -/

/-- Other workers stay as they are but for what they are told, and new ones may join. -/
structure Company (before after : Machine) : Prop where
  count : before.nextWorker ≤ after.nextWorker
  kept : ∀ number held, before.workers.get? number = some held →
    ∃ told, after.workers.get? number = some told ∧ held.Told told
  known : ∀ number told, after.workers.get? number = some told →
    (∃ held, before.workers.get? number = some held ∧ held.Told told) ∨
      before.nextWorker ≤ number ∧ number < after.nextWorker ∧ told.IsNew

theorem company_of_workers (workers : after.workers = machine.workers)
    (count : after.nextWorker = machine.nextWorker) : Company machine after where
  count := Nat.le_of_eq count.symm
  kept := fun _ held found => ⟨held, workers ▸ found, .same held⟩
  known := fun _ held found => .inl ⟨held, workers ▸ found, .same held⟩

/-- The workers of a machine have numbers that were given out, and none has that of worker
zero. -/
structure Numbered (machine : Machine) : Prop where
  positive : server < machine.nextWorker
  known : ∀ number held, machine.workers.get? number = some held →
    server < number ∧ number < machine.nextWorker

theorem Company.trans (one : Company machine middle) (two : Company middle after) :
    Company machine after where
  count := Nat.le_trans one.count two.count
  kept := by
    intro number held found
    obtain ⟨told, there, tells⟩ := one.kept number held found
    obtain ⟨last, now, tells'⟩ := two.kept number told there
    exact ⟨last, now, tells.trans tells'⟩
  known := by
    intro number last now
    rcases two.known number last now with ⟨told, there, tells⟩ | ⟨least, most, new⟩
    · rcases one.known number told there with ⟨held, found, tells'⟩ | ⟨least, most, new⟩
      · exact .inl ⟨held, found, tells'.trans tells⟩
      · exact .inr ⟨least, Nat.lt_of_lt_of_le most two.count, new.told tells⟩
    · exact .inr ⟨Nat.le_trans one.count least, most, new⟩

theorem Company.numbered (company : Company machine after) (numbered : machine.Numbered) :
    after.Numbered where
  positive := Nat.lt_of_lt_of_le numbered.positive company.count
  known := by
    intro number told now
    rcases company.known number told now with ⟨held, found, -⟩ | ⟨least, most, -⟩
    · obtain ⟨above, below⟩ := numbered.known number held found
      exact ⟨above, Nat.lt_of_lt_of_le below company.count⟩
    · exact ⟨Nat.lt_of_lt_of_le numbered.positive least, most⟩

theorem company_setWorker {number : Nat} {held told : Worker}
    (found : machine.workers.get? number = some held) (tells : held.Told told) :
    Company machine (machine.setWorker number told) where
  count := Nat.le_refl _
  kept := by
    intro other known there
    rw [get?_setWorker]
    split
    · next same =>
        subst same
        obtain rfl := Option.some.inj (found.symm.trans there)
        exact ⟨told, rfl, tells⟩
    · exact ⟨known, there, .same known⟩
  known := by
    intro other known there
    rw [get?_setWorker] at there
    split at there
    · next same =>
        subst same
        cases there
        exact .inl ⟨held, found, tells⟩
    · exact .inl ⟨known, there, .same known⟩

/-- A new worker has a number that was not given out before. -/
theorem company_enlist (numbered : machine.Numbered) {new : Worker} (blank : new.IsNew) :
    Company machine (machine.enlist new).2 where
  count := Nat.le_succ _
  kept := by
    intro other held there
    refine ⟨held, ?_, .same held⟩
    have differs : other ≠ machine.nextWorker := Nat.ne_of_lt (numbered.known other held there).2
    exact (get?_setWorker ..).trans ((if_neg differs).trans there)
  known := by
    intro other held there
    have set : (machine.setWorker machine.nextWorker new).workers.get? other = some held := there
    rw [get?_setWorker] at set
    split at set
    · next same =>
        cases set
        exact .inr ⟨Nat.le_of_eq same.symm, same ▸ Nat.lt_succ_self _, blank⟩
    · exact .inl ⟨held, set, .same held⟩

theorem company_stopTicker (machine : Machine) : Company machine machine.stopTicker := by
  rw [stopTicker]
  split
  · exact company_of_workers rfl rfl
  · dsimp only
    split
    · next found =>
        obtain ⟨count, kept, known⟩ := company_setWorker found (.stopped _)
        exact ⟨count, kept, known⟩
    · exact company_of_workers rfl rfl

theorem company_startTicker (numbered : machine.Numbered) (interval : Option Nat)
    (inputs : Values) : Company machine (machine.startTicker interval inputs).2 := by
  rw [startTicker]
  split
  · exact company_of_workers rfl rfl
  · have new : (Worker.ticker ⟨max (interval.getD machine.engine.config.interval) 1, inputs,
        machine.clock, false, 0, .waiting⟩).IsNew := .ticker rfl
    obtain ⟨count, kept, known⟩ := company_enlist numbered new
    exact ⟨count, kept, known⟩

theorem company_dismiss (machine : Machine) (number : Option Nat) :
    Company machine (machine.dismiss number) := by
  rw [dismiss]
  split
  · next found =>
      obtain ⟨number, rfl, held⟩ := Option.bind_eq_some_iff.mp found
      obtain ⟨other, there, same⟩ := Option.map_eq_some_iff.mp held
      cases same
      exact company_setWorker there (.dismissed _)
  · exact company_of_workers rfl rfl

theorem runGate_startTicker (machine : Machine) (interval : Option Nat) (inputs : Values) :
    (machine.startTicker interval inputs).2.runGate = machine.runGate := by
  rw [startTicker]
  split <;> rfl

theorem runGate_dismiss (machine : Machine) (number : Option Nat) :
    (machine.dismiss number).runGate = machine.runGate := by
  rw [dismiss]
  split <;> rfl

theorem company_assign (numbered : machine.Numbered) (channel : Nat) :
    Company machine (machine.assign channel) := by
  have new : (Worker.courier ⟨channel, false, .waiting⟩).IsNew := .courier rfl
  obtain ⟨count, kept, known⟩ := company_enlist numbered new
  exact ⟨count, kept, known⟩

/-! ## Conduct -/

/-- How a worker deals with the scheduler in a step: the last index tells whether it gives up an
answer that it has waited for. -/
inductive Exchange (before after : Machine) (stance next : Stance) : Bool → Prop
  | keep : after.scheduler = before.scheduler →
      (∀ ticket, next.ticket = some ticket → stance.ticket = some ticket) →
      (∀ ticket, stance.ticket = some ticket →
        next.ticket = some ticket ∨ (before.scheduler.result? ticket).isSome = true) →
      (∀ plan, next.plan = some plan →
        stance.plan = some plan ∨ before.engine.Offers plan) → Exchange before after stance next false
  | send {request : Request Task} {ticket : Nat} :
      before.scheduler.send request = .ok (ticket, after.scheduler) →
      request.task.plan? = stance.plan → stance.ticket = none →
      next = { next with ticket := some ticket, plan := none } →
      Exchange before after stance next false
  | quit : after.scheduler = before.scheduler → next = .idle →
      Exchange before after stance next true

theorem Exchange.congr {stance next : Stance} {quits : Bool}
    (exchange : Exchange machine middle stance next quits)
    (same : after.scheduler = middle.scheduler) : Exchange machine after stance next quits := by
  cases exchange with
  | keep scheduler asks heard plans => exact .keep (same.trans scheduler) asks heard plans
  | send sent task free waits => exact .send (same ▸ sent) task free waits
  | quit scheduler idle => exact .quit (same.trans scheduler) idle

/-- A worker that waits for nothing has nothing to deal with the scheduler. -/
theorem Exchange.rest {stance next : Stance} (scheduler : after.scheduler = machine.scheduler)
    (before : stance.ticket = none) (ticket : next.ticket = none) (plan : next.plan = none) :
    Exchange machine after stance next false :=
  .keep scheduler (fun _ waits => nomatch ticket.symm.trans waits)
    (fun _ waits => nomatch before.symm.trans waits) fun _ has => nomatch plan.symm.trans has

/-- A worker that has its answer no longer waits for it. -/
theorem Exchange.heard {stance next : Stance} {ticket : Nat} {result : Except Failure Value}
    (scheduler : after.scheduler = machine.scheduler) (waits : stance.ticket = some ticket)
    (found : machine.scheduler.result? ticket = some result) (none : next.ticket = none)
    (plan : next.plan = Option.none) : Exchange machine after stance next false := by
  refine .keep scheduler (fun _ waits => nomatch none.symm.trans waits) (fun other same => ?_)
    fun _ has => nomatch plan.symm.trans has
  obtain rfl := Option.some.inj (waits.symm.trans same)
  exact .inr (Option.isSome_of_eq_some found)

theorem Exchange.refl (stance : Stance) (scheduler : after.scheduler = machine.scheduler) :
    Exchange machine after stance stance false :=
  .keep scheduler (fun _ waits => waits) (fun _ waits => .inl waits) fun _ has => .inl has

/-- What a step of a worker other than worker zero keeps to, from one stance to the next. -/
structure Conduct (worker : Nat) (stance next : Stance) (before after : Machine) (quits : Bool) :
    Prop where
  config : after.engine.config = before.engine.config
  layout : stance.edits = false →
    after.engine.graph.map Graph.bare = before.engine.graph.map Graph.bare
  records : stance.inside = false → after.engine.records = before.engine.records
  others : ∀ holder, holder ≠ worker → before.runGate.holder? = some holder →
    after.runGate.holder? = some holder
  inside : next.inside = true →
    stance.inside = true ∧ after.runGate = before.runGate ∨ after.runGate.holder? = some worker
  underway : next.underway = true →
    stance.underway = true ∨
      stance.edits = false ∧ stance.ticket = none ∧ before.engine.graph.isSome = true
  company : Company before after
  exchange : Exchange before after stance next quits

section

variable {stance next : Stance} {quits : Bool}

/-- A step that changes tokens, values and records alone. -/
theorem conduct_of_frame (frame : after.engine.frame = machine.engine.frame)
    (records : stance.inside = false → after.engine.records = machine.engine.records)
    (gate : after.runGate = machine.runGate) (calm : next.Within stance)
    (company : Company machine after) (exchange : Exchange machine after stance next quits) :
    Conduct worker stance next machine after quits where
  config := congrArg Engine.Frame.config frame
  layout := fun _ => congrArg Engine.Frame.layout frame
  records := records
  others := fun _ _ held => gate ▸ held
  inside := fun enters => .inl ⟨calm.1 enters, gate⟩
  underway := fun goes => .inl (calm.2 goes)
  company := company
  exchange := exchange

/-- A step that leaves the engine and the run gate as they are. -/
theorem conduct_of_same (engine : after.engine = machine.engine)
    (gate : after.runGate = machine.runGate) (calm : next.Within stance)
    (company : Company machine after) (exchange : Exchange machine after stance next quits) :
    Conduct worker stance next machine after quits :=
  conduct_of_frame (by rw [engine]) (fun _ => by rw [engine]) gate calm company exchange

/-- A step of a worker that has nothing to do with a run and deals with nobody. -/
theorem conduct_rest (same : after = { machine with graphGate := after.graphGate })
    (waits : stance.ticket = none) (rests : next = .idle) :
    Conduct worker stance next machine after false := by
  subst rests
  rw [same]
  exact conduct_of_same rfl rfl (Stance.within_of_outside rfl rfl) (company_of_workers rfl rfl)
    (.rest rfl waits rfl rfl)

/-- A worker that edits does so inside the run gate. -/
theorem conduct_of_edit (edits : stance = { Stance.within with edits := true })
    (config : after.engine.config = machine.engine.config)
    (gate : after.runGate = machine.runGate) (company : Company machine after)
    (scheduler : after.scheduler = machine.scheduler) (goes : next = .within) :
    Conduct worker stance next machine after false where
  config := config
  layout := by
    subst edits
    exact nofun
  records := by
    subst edits
    exact nofun
  others := fun _ _ held => gate ▸ held
  inside := fun _ => .inl ⟨by rw [edits]; rfl, gate⟩
  underway := by
    subst goes
    exact nofun
  company := company
  exchange := .rest scheduler (by rw [edits]; rfl) (by rw [goes]; rfl) (by rw [goes]; rfl)

/-- A worker at the run gate stands in line, or goes inside when nobody else is there; but for the
board the engine stays as it is. -/
theorem conduct_of_claim (board : Board) (ticket : next.ticket = none) (plan : next.plan = none)
    (underway : next.underway = false)
    (inside : next.inside = true → (machine.runGate.claim worker).holder? = some worker) :
    Conduct worker .idle next machine { machine with
      runGate := machine.runGate.claim worker, engine := { machine.engine with board := board } }
      false where
  config := rfl
  layout := fun _ => rfl
  records := fun _ => rfl
  others := fun _ _ held => Gate.holder?_claim held worker
  inside := fun enters => .inr (inside enters)
  underway := fun goes => absurd (underway.symm.trans goes) Bool.false_ne_true
  company := company_of_workers rfl rfl
  exchange := .rest rfl rfl ticket plan

/-- A worker stands in line at the graph gate. -/
theorem conduct_of_queue (machine : Machine) (worker : Nat) (stance : Stance) :
    Conduct worker stance stance machine
      { machine with graphGate := machine.graphGate.claim worker } false :=
  conduct_of_same rfl rfl ⟨fun inside => inside, fun goes => goes⟩ (company_of_workers rfl rfl)
    (.refl _ rfl)

end

/-! ## Runs -/

/-- What a run does inside the run gate without having waited for an answer. -/
theorem conduct_within {stance next : Stance} (frame : after.engine.frame = machine.engine.frame)
    (gate : after.runGate = machine.runGate) (workers : after.workers = machine.workers)
    (count : after.nextWorker = machine.nextWorker)
    (scheduler : after.scheduler = machine.scheduler)
    (inside : stance.inside = true ∧ stance.edits = false ∧ stance.ticket = none)
    (underway : next.underway = true →
      stance.underway = true ∨ machine.engine.graph.isSome = true) (ticket : next.ticket = none)
    (plan : ∀ plan, next.plan = some plan → machine.engine.Offers plan) :
    Conduct worker stance next machine after false where
  config := congrArg Engine.Frame.config frame
  layout := fun _ => congrArg Engine.Frame.layout frame
  records := fun outside => nomatch inside.1.symm.trans outside
  others := fun _ _ held => gate ▸ held
  inside := fun _ => .inl ⟨inside.1, gate⟩
  underway := fun goes => (underway goes).imp_right fun built => ⟨inside.2.1, inside.2.2, built⟩
  company := company_of_workers workers count
  exchange := .keep scheduler (fun _ waits => nomatch ticket.symm.trans waits)
    (fun _ waits => nomatch inside.2.2.symm.trans waits) fun _ has => .inr (plan _ has)

/-- What a run does inside the run gate when it is not about to have a plan run. -/
theorem conduct_unplanned {stance next : Stance}
    (frame : after.engine.frame = machine.engine.frame)
    (aside : after = { machine with graphGate := after.graphGate, engine := after.engine })
    (inside : stance.inside = true ∧ stance.edits = false ∧ stance.ticket = none)
    (underway : next.underway = true →
      stance.underway = true ∨ machine.engine.graph.isSome = true)
    (ticket : next.ticket = none) (plan : next.plan = none) :
    Conduct worker stance next machine after false := by
  refine conduct_within frame ?_ ?_ ?_ ?_ inside underway ticket fun offered has => ?_
  · rw [aside]
  · rw [aside]
  · rw [aside]
  · rw [aside]
  · cases plan.symm.trans has

/-- A worker leaves the run gate. -/
theorem conduct_leave {engine : Engine} (frame : engine.frame = machine.engine.frame) :
    Conduct worker .within .idle machine ({ machine with engine := engine }.leaveRun worker)
      false where
  config := congrArg Engine.Frame.config frame
  layout := fun _ => congrArg Engine.Frame.layout frame
  records := nofun
  others := fun _ other held => Gate.holder?_leave held (Ne.symm other)
  inside := nofun
  underway := nofun
  company := company_of_workers rfl rfl
  exchange := .rest rfl rfl rfl rfl

end Machine

namespace RunStage

variable {machine after : Machine} {worker : Nat} {stage next : RunStage}

/-- A run that is about to enter the graph gate is inside the run gate, and waits for no answer. -/
theorem stance_of_isLooking (looking : stage.isLooking = true) :
    stage.stance.inside = true ∧ stage.stance.edits = false ∧ stage.stance.ticket = none := by
  cases stage with
  | opening | listing | planning | closing => exact ⟨rfl, rfl, rfl⟩
  | _ => cases looking

/-- A run that has its answer waits for none, and is not about to have a plan run. -/
theorem Hears.stance {limit ticket : Nat} {result : Except Failure Value}
    (hears : stage.Hears limit result ticket next) :
    next.stance.ticket = none ∧ next.stance.plan = none := by
  cases hears with
  | firing =>
      unfold Machine.afterFiring
      split
      · exact ⟨rfl, rfl⟩
      · split <;> exact ⟨rfl, rfl⟩
      · exact ⟨rfl, rfl⟩
  | plan => cases result <;> exact ⟨rfl, rfl⟩

/-- What a run does inside the graph gate keeps to the gates. -/
theorem Works.conduct {engine : Engine} (works : stage.Works machine.engine next engine)
    (gate : Gate) :
    Machine.Conduct worker stage.stance next.stance machine
      { machine with engine := engine, graphGate := gate } false := by
  have rests : ∀ {p : Prop}, false = true → p := fun goes => absurd goes Bool.false_ne_true
  cases works with
  | unbuilt looking =>
      exact Machine.conduct_unplanned rfl rfl (stance_of_isLooking looking) rests rfl rfl
  | recalled => exact Machine.conduct_unplanned rfl rfl ⟨rfl, rfl, rfl⟩ rests rfl rfl
  | opened held | prepared held =>
      exact Machine.conduct_unplanned (Engine.frame_opened held _) rfl ⟨rfl, rfl, rfl⟩
        (fun _ => .inr (Option.isSome_of_eq_some held)) rfl rfl
  | listed | planless =>
      exact Machine.conduct_unplanned rfl rfl ⟨rfl, rfl, rfl⟩ (fun _ => .inl rfl) rfl rfl
  | planned held offers =>
      refine Machine.conduct_within rfl rfl rfl rfl rfl ⟨rfl, rfl, rfl⟩ (fun _ => .inl rfl) rfl ?_
      rintro _ ⟨⟩
      exact ⟨_, held, .inl offers⟩
  | closed =>
      exact Machine.conduct_unplanned (Engine.frame_close ..) rfl ⟨rfl, rfl, rfl⟩ rests rfl rfl

/-- A step of a run keeps to the gates. -/
theorem Advances.conduct (advances : stage.Advances worker machine next after) :
    Machine.Conduct worker stage.stance next.stance machine after false := by
  have company : Machine.Company machine machine := Machine.company_of_workers rfl rfl
  cases advances with
  | waits => exact Machine.conduct_of_claim machine.engine.board rfl rfl rfl nofun
  | enters holds => exact Machine.conduct_of_claim machine.engine.board rfl rfl rfl fun _ => holds
  | queues => exact machine.conduct_of_queue worker _
  | works _ works => exact works.conduct _
  | again | spent =>
      exact Machine.conduct_of_same rfl rfl ⟨fun _ => rfl, fun _ => rfl⟩ company
        (.rest rfl rfl rfl rfl)
  | sends asks sent =>
      cases asks <;>
        exact Machine.conduct_of_same rfl rfl ⟨fun _ => rfl, fun _ => rfl⟩
          (Machine.company_of_workers rfl rfl) (.send sent rfl rfl rfl)
  | refused asks =>
      cases asks <;>
        exact Machine.conduct_of_same rfl rfl ⟨fun _ => rfl, fun _ => rfl⟩ company
          (.rest rfl rfl rfl rfl)
  | hears found hears =>
      obtain ⟨ticket, plan⟩ := hears.stance
      cases hears <;>
        exact Machine.conduct_of_same rfl rfl ⟨fun _ => rfl, fun _ => rfl⟩ company
          (.heard rfl rfl found ticket plan)
  | @leaves result =>
      have frame : (machine.endRun worker result).2.engine.frame = machine.engine.frame := by
        cases result <;> rfl
      exact Machine.conduct_leave frame

end RunStage

namespace Machine

variable {machine middle after : Machine} {worker : Nat}

/-! ## Calls -/

theorem stance_afterRun (machine : Machine) (restart : Bool) (stage : RunStage) :
    (machine.afterRun restart stage).1.stance = stage.stance := by
  cases stage with
  | «over» result => cases result <;> rfl
  | _ => rfl

/-- What becomes of a machine after a step of a run of a call: a ticker may join. -/
theorem Conduct.afterRun {stance : Stance} {quits : Bool} {stage : RunStage}
    (numbered : machine.Numbered) (restart : Bool)
    (conduct : Conduct worker stance stage.stance machine middle quits) :
    Conduct worker stance (middle.afterRun restart stage).1.stance machine
      (middle.afterRun restart stage).2 quits := by
  rw [stance_afterRun]
  have joined (inputs : Values) : Conduct worker stance stage.stance machine
      (middle.startTicker none inputs).2 quits := by
    have aside := aside_startTicker middle none inputs
    have company := company_startTicker (conduct.company.numbered numbered) none inputs
    refine ⟨?_, ?_, ?_, ?_, ?_, conduct.underway, conduct.company.trans company, ?_⟩
    · rw [aside.engine]
      exact conduct.config
    · rw [aside.engine]
      exact conduct.layout
    · rw [aside.engine]
      exact conduct.records
    · rw [runGate_startTicker]
      exact conduct.others
    · rw [runGate_startTicker]
      exact conduct.inside
    · exact conduct.exchange.congr aside.scheduler
  cases stage with
  | «over» result =>
      cases result with
      | error failure => exact conduct
      | ok outputs =>
          cases restart with
          | false => exact conduct
          | true => exact joined ∅
  | _ => exact conduct

end Machine

namespace CallStage

variable {machine after : Machine} {worker : Nat} {stage next : CallStage}

/-- What a call does inside the graph gate keeps to the gates. -/
theorem Works.conduct {engine : Engine} (works : stage.Works machine.engine next engine)
    (gate : Gate) :
    Machine.Conduct worker stage.stance next.stance machine
      { machine with engine := engine, graphGate := gate } false := by
  have company : Machine.Company machine { machine with engine := engine, graphGate := gate } :=
    Machine.company_of_workers rfl rfl
  cases works with
  | installed | cleared => exact Machine.conduct_of_edit rfl rfl rfl company rfl rfl
  | spliced =>
      exact Machine.conduct_of_edit rfl (Machine.config_rewire ..) rfl company rfl rfl
  | resolved found =>
      refine Machine.conduct_of_same rfl rfl (Stance.within_of_outside rfl rfl) company ?_
      exact .keep rfl (fun _ waits => waits) (fun _ waits => .inl waits) fun _ has =>
        .inr (Engine.offers_of_nodeRequest found has)
  | unresolved | looked => exact Machine.conduct_rest rfl rfl rfl

theorem stance_beginCall (machine : Machine) (call : Call) :
    (machine.beginCall call).1.stance.inside = false ∧
      (machine.beginCall call).1.stance.underway = false ∧
      (machine.beginCall call).1.stance.ticket = none ∧
      (machine.beginCall call).1.stance.plan = none := by
  cases call with
  | pause milliseconds => cases milliseconds <;> exact ⟨rfl, rfl, rfl, rfl⟩
  | _ => exact ⟨rfl, rfl, rfl, rfl⟩

/-- A step of a call keeps to the gates. -/
theorem Advances.conduct (numbered : machine.Numbered)
    (advances : stage.Advances worker machine next after) :
    Machine.Conduct worker stage.stance next.stance machine after false := by
  cases advances with
  | @begins call =>
      obtain ⟨inside, underway, ticket, plan⟩ := stance_beginCall machine call
      exact Machine.conduct_of_same rfl rfl (Stance.within_of_outside inside underway)
        (Machine.company_of_workers rfl rfl) (.rest rfl rfl ticket plan)
  | @halts call =>
      obtain ⟨inside, underway, ticket, plan⟩ := stance_beginCall machine call
      exact Machine.conduct_of_same machine.aside_stopTicker.engine
        machine.stopTicker_frame.2.2.1 (Stance.within_of_outside inside underway)
        machine.company_stopTicker (.rest machine.aside_stopTicker.scheduler rfl ticket plan)
  | waits arriving =>
      cases stage with
      | building | rewiring | discarding =>
          exact Machine.conduct_of_claim machine.engine.board rfl rfl rfl nofun
      | _ => cases arriving
  | enters holds enters =>
      cases enters <;> exact Machine.conduct_of_claim _ rfl rfl rfl fun _ => holds
  | queues => exact machine.conduct_of_queue worker _
  | works _ works => exact works.conduct _
  | assigns =>
      exact Machine.conduct_of_same rfl rfl
        ⟨fun _ => rfl, fun goes => absurd goes Bool.false_ne_true⟩
        (Machine.company_assign numbered _) (.rest rfl rfl rfl rfl)
  | @dismisses old =>
      exact Machine.conduct_of_same (machine.aside_dismiss old).engine (machine.runGate_dismiss old)
        ⟨fun _ => rfl, fun goes => absurd goes Bool.false_ne_true⟩ (machine.company_dismiss old)
        (.rest (machine.aside_dismiss old).scheduler rfl rfl rfl)
  | runs moves => exact (Machine.advances_stepRun moves).conduct.afterRun numbered _
  | sends sent =>
      exact Machine.conduct_of_same rfl rfl (Stance.within_of_outside rfl rfl)
        (Machine.company_of_workers rfl rfl) (.send sent rfl rfl rfl)
  | hears found =>
      exact Machine.conduct_of_same rfl rfl (Stance.within_of_outside rfl rfl)
        (Machine.company_of_workers rfl rfl) (.heard rfl rfl found rfl rfl)
  | closesDown =>
      obtain ⟨count, kept, known⟩ := machine.company_dismiss machine.courier
      exact Machine.conduct_of_same machine.aside_closeDown.engine
        (machine.runGate_dismiss machine.courier) (Stance.within_of_outside rfl rfl)
        ⟨count, kept, known⟩ (.rest machine.aside_closeDown.scheduler rfl rfl rfl)
  | refused | wakes => exact Machine.conduct_rest rfl rfl rfl
  | @leaves _ restart => cases restart <;> exact Machine.conduct_leave rfl

end CallStage

/-! ## Tickers and couriers -/

section

variable {machine after : Machine} {worker : Nat}

theorem Ticker.Advances.conduct {ticker next : Ticker}
    (advances : ticker.Advances worker machine next after) :
    Machine.Conduct worker ticker.stage.stance next.stage.stance machine after false := by
  cases advances with
  | ends waits =>
      rw [waits]
      exact Machine.conduct_rest rfl rfl rfl
  | begins waits =>
      rw [waits]
      exact Machine.conduct_rest rfl rfl rfl
  | @runs run reached _ running moves =>
      have conduct := (Machine.advances_stepRun moves).conduct
      rw [running]
      cases reached with
      | «over» result => cases result <;> exact conduct
      | _ => exact conduct

/-- A courier keeps to the gates; when it was dismissed, it gives up whatever it has waited for. -/
theorem Courier.Advances.conduct {courier next : Courier}
    (advances : courier.Advances worker machine next after) :
    Machine.Conduct worker courier.stage.stance next.stage.stance machine after
        courier.dismissed ∧ next.dismissed = courier.dismissed := by
  have company : Machine.Company machine machine := Machine.company_of_workers rfl rfl
  refine ⟨?_, by cases advances <;> rfl⟩
  cases advances with
  | fetches fetched =>
      obtain ⟨board, rfl⟩ := Machine.board_of_fetch fetched
      exact {
        config := rfl
        layout := fun _ => rfl
        records := fun _ => rfl
        others := fun _ _ held => held
        inside := nofun
        underway := nofun
        company := Machine.company_of_workers rfl rfl
        exchange := .rest rfl rfl rfl rfl }
  | sends sent =>
      exact Machine.conduct_of_same rfl rfl (Stance.within_of_outside rfl rfl)
        (Machine.company_of_workers rfl rfl) (.send sent rfl rfl rfl)
  | refused => exact Machine.conduct_rest rfl rfl rfl
  | noted found | missed found =>
      exact Machine.conduct_of_same rfl rfl (Stance.within_of_outside rfl rfl) company
        (.heard rfl rfl found rfl rfl)
  | @runs channel run reached _ moves =>
      have conduct := (Machine.advances_stepRun moves).conduct
      cases reached <;> exact conduct
  | withdraws =>
      exact Machine.conduct_of_same rfl rfl (Stance.within_of_outside rfl rfl)
        (Machine.company_of_workers rfl rfl) (.quit rfl rfl)
  | ends =>
      exact {
        config := rfl
        layout := fun _ => rfl
        records := fun _ => rfl
        others := fun _ other held => Gate.holder?_leave held (Ne.symm other)
        inside := nofun
        underway := nofun
        company := Machine.company_of_workers rfl rfl
        exchange := .quit rfl rfl }

end

/-! ## All workers -/

/-- A step of a worker other than worker zero keeps to the gates, and only a courier that was
dismissed gives up what it has waited for. -/
theorem Worker.Advances.conduct {machine after : Machine} {number : Nat} {held next : Worker}
    (numbered : machine.Numbered) (advances : held.Advances number machine next after) :
    ∃ quits, Machine.Conduct number held.stance next.stance machine after quits ∧
      (quits = true → next.isDismissed = true) ∧
      (held.isDismissed = true → next.isDismissed = true) := by
  have stays : ∀ {p : Prop}, false = true → p := fun quits => absurd quits Bool.false_ne_true
  cases advances with
  | caller advances => exact ⟨false, advances.conduct numbered, stays, stays⟩
  | ticker advances => exact ⟨false, advances.conduct, stays, stays⟩
  | @courier courier later _ advances =>
      obtain ⟨conduct, same⟩ := advances.conduct
      exact ⟨courier.dismissed, conduct, same.trans, same.trans⟩

namespace Machine

variable {machine middle after : Machine} {worker : Nat}

/-- What a step of a worker other than worker zero does: it keeps to the gates, and only a courier
that was dismissed gives up what it has waited for. -/
theorem conduct_step (numbered : machine.Numbered) (other : worker ≠ server)
    (stepped : machine.step worker = some after) :
    ∃ held next middle quits, machine.workers.get? worker = some held ∧
      after = setWorker middle worker next ∧
      Conduct worker held.stance next.stance machine middle quits ∧
      (quits = true → next.isDismissed = true) ∧
      (held.isDismissed = true → next.isDismissed = true) := by
  obtain ⟨held, next, middle, found, rfl, advances⟩ := advances_step other stepped
  obtain ⟨quits, conduct, dismissed⟩ := advances.conduct numbered
  exact ⟨held, next, middle, quits, found, rfl, conduct, dismissed⟩

/-! ## All incidents -/

/-- What always holds of a machine: its workers have numbers, whoever is inside the run gate holds
it, and every ticket is in one place. -/
structure InOrder (machine : Machine) : Prop where
  numbered : machine.Numbered
  gated : ∀ number held, machine.workers.get? number = some held → held.stance.inside = true →
    machine.runGate.holder? = some number
  orderly : machine.scheduler.Orderly

/-- Nobody else is inside the run gate. -/
theorem InOrder.alone (order : machine.InOrder) {number other : Nat} {held beside : Worker}
    (found : machine.workers.get? number = some held) (inside : held.stance.inside = true)
    (there : machine.workers.get? other = some beside) (differ : other ≠ number) :
    beside.stance.inside = false := by
  by_contra enters
  have one := order.gated number held found inside
  have two := order.gated other beside there (by simpa using enters)
  exact differ (Option.some.inj (two.symm.trans one))

theorem inOrder_idle (config : EngineConfig) (board : Board) : (idle config board).InOrder where
  numbered := ⟨Nat.lt_succ_self _, by simp [idle]⟩
  gated := by simp [idle]
  orderly := Scheduler.orderly_fresh _

/-- Workers that join or are told something leave a machine in order. -/
theorem InOrder.company (order : machine.InOrder) (company : Company machine after)
    (gate : after.runGate = machine.runGate) (scheduler : after.scheduler = machine.scheduler) :
    after.InOrder where
  numbered := company.numbered order.numbered
  gated := by
    intro number told now inside
    rw [gate]
    rcases company.known number told now with ⟨held, found, tells⟩ | ⟨-, -, new⟩
    · exact order.gated number held found (tells.stance ▸ inside)
    · rw [new.stance] at inside
      cases inside
  orderly := scheduler ▸ order.orderly

theorem Exchange.orderly {stance next : Stance} {quits : Bool}
    (exchange : Exchange machine after stance next quits)
    (orderly : machine.scheduler.Orderly) : after.scheduler.Orderly := by
  cases exchange with
  | keep scheduler => exact scheduler ▸ orderly
  | send sent => exact orderly.send sent
  | quit scheduler => exact scheduler ▸ orderly

/-- A step of a worker other than worker zero leaves a machine in order. -/
theorem InOrder.work (order : machine.InOrder) {held next : Worker} {quits : Bool}
    (found : machine.workers.get? worker = some held)
    (conduct : Conduct worker held.stance next.stance machine middle quits) :
    (setWorker middle worker next).InOrder where
  numbered := by
    have numbered := conduct.company.numbered order.numbered
    refine ⟨numbered.positive, fun number other now => ?_⟩
    rw [get?_setWorker] at now
    split at now
    · next same =>
        obtain ⟨above, below⟩ := order.numbered.known worker held found
        rw [same]
        exact ⟨above, Nat.lt_of_lt_of_le below conduct.company.count⟩
    · exact numbered.known number other now
  gated := by
    intro number other now inside
    rw [get?_setWorker] at now
    split at now
    · next same =>
        obtain rfl := Option.some.inj now
        rw [same]
        rcases conduct.inside inside with ⟨before, gate⟩ | holds
        · exact (congrArg Gate.holder? gate).trans (order.gated worker held found before)
        · exact holds
    · next differ =>
        rcases conduct.company.known number other now with ⟨known, there, tells⟩ | ⟨-, -, new⟩
        · exact conduct.others number differ
            (order.gated number known there (tells.stance ▸ inside))
        · rw [new.stance] at inside
          cases inside
  orderly := conduct.exchange.orderly order.orderly

theorem InOrder.of_same (order : machine.InOrder) (gate : after.runGate = machine.runGate)
    (workers : after.workers = machine.workers) (count : after.nextWorker = machine.nextWorker)
    (orderly : after.scheduler.Orderly) : after.InOrder where
  numbered := ⟨count ▸ order.numbered.positive, count ▸ workers ▸ order.numbered.known⟩
  gated := by
    rw [workers, gate]
    exact order.gated
  orderly := orderly

theorem InOrder.serve (order : machine.InOrder) (serving : machine.Serving after) :
    after.InOrder := by
  cases serving with
  | turn turned => exact order.of_same rfl rfl rfl (order.orderly.turn turned)
  | @work service next middle served begun serves frame becomes =>
      refine order.of_same serves.runGate serves.workers serves.nextWorker ?_
      rw [proceed, serves.scheduler]
      exact order.orderly.proceed next
  | answer served ended => exact order.of_same rfl rfl rfl (order.orderly.conclude served _)

/-- Whatever happens leaves a machine in order. -/
theorem InOrder.undergo (order : machine.InOrder) {incident : Incident}
    (happened : machine.undergo incident = some after) : after.InOrder := by
  cases incident with
  | call call =>
      cases happened
      exact order.company (company_enlist order.numbered (.caller call)) rfl rfl
  | tick interval inputs =>
      cases happened
      exact order.company (company_startTicker order.numbered interval inputs)
        (machine.runGate_startTicker interval inputs) (aside_startTicker ..).scheduler
  | halt =>
      cases happened
      exact order.company machine.company_stopTicker machine.stopTicker_frame.2.2.1
        machine.stopTicker_frame.2.1
  | wait time =>
      rw [Machine.undergo] at happened
      split at happened
      · cases happened
        exact order.of_same rfl rfl rfl order.orderly
      · cases happened
  | board change =>
      cases happened
      exact order.of_same rfl rfl rfl order.orderly
  | step worker =>
      by_cases zero : worker = server
      · subst zero
        exact order.serve (serving_of_stepServer happened)
      · obtain ⟨held, next, middle, quits, found, rfl, conduct, -⟩ :=
          conduct_step order.numbered zero happened
        exact order.work found conduct

end Machine

end CardNet
