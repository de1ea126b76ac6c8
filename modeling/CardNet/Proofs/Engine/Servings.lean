import CardNet.Proofs.Engine.Posts

/-!
# Steps of worker zero

What becomes of a task in one step of its service (`Progress.Passes`), and what a step of worker
zero does: it takes the next request into service, goes on with the one that is served or gives it up
when it is overdue, or answers it (`Machine.Serving`). Nothing but tokens, values and records changes
on the engine meanwhile.
-/

namespace CardNet

namespace Progress

/-- Whether a task that has begun fires no transition. -/
def isCalm : Progress → Bool
  | walking _ _ | acting _ _ _ _ _ | visiting _ _ _ | ended _ => true
  | fresh _ | firing _ _ _ => false

/-- Whether a task has neither a firing to do nor an event to note. -/
def isPlain : Progress → Bool
  | fresh (.fire _) | fresh (.event _) | firing _ _ _ => false
  | _ => true

/-- What may become of a task in a step of its service, when there is a graph or none. -/
inductive Passes (graph : Option Graph) : Progress → Progress → Prop where
  /-- It waits for the graph gate. -/
  | wait (task : Task) : Passes graph (.fresh task) (.fresh task)
  /-- A transition begins to fire. -/
  | launch {transition : String} {flight : Flight} {wake : Nat} :
      flight.firing.transition = transition →
      Passes graph (.fresh (.fire transition)) (.firing flight wake (some (.bool true)))
  /-- A transition may not fire. -/
  | skip {transition : String} :
      (∀ held, graph = some held → held.net.isEnabled transition = false) →
      Passes graph (.fresh (.fire transition)) (.ended (.ok (.bool false)))
  /-- A node is a transition, which begins to fire. -/
  | node {id : String} {inputs : Values} {flight : Flight} {wake : Nat} :
      flight.firing.transition = id →
      Passes graph (.fresh (.node id inputs)) (.firing flight wake none)
  /-- A firing succeeds. -/
  | land {flight : Flight} {wake : Nat} {answer : Option Value} (value : Value) :
      Passes graph (.firing flight wake answer) (.ended (.ok (answer.getD value)))
  /-- An event is noted. -/
  | note {place : String} {value : Value} :
      (∀ held, graph = some held → held.net.collectsEvents place = true) →
      Passes graph (.fresh (.event place)) (.ended (.ok value))
  /-- An event is not noted, as its place collects none. -/
  | refuse {place : String} {failure : Failure} :
      (∀ held, graph = some held → held.net.collectsEvents place = false) →
      Passes graph (.fresh (.event place)) (.ended (.error failure))
  | fail {progress : Progress} {failure : Failure} :
      (∀ place, progress ≠ .fresh (.event place)) → Passes graph progress (.ended (.error failure))
  /-- Anything else that is neither a firing nor an event. -/
  | plain {progress next : Progress} : progress.isPlain = true → next.isCalm = true →
      Passes graph progress next

/-- What may become of a task in a step of its service: when it is overdue, it may be given up. -/
def Becomes (graph : Option Graph) (overdue : Bool) (progress next : Progress) : Prop :=
  progress.Passes graph next ∨ overdue = true ∧ ∃ failure, next = .ended (.error failure)

end Progress

/-- An event is noted just when its place collects events. -/
theorem Engine.collects_of_noteEvent {engine : Engine} {graph : Graph}
    (held : engine.graph = some graph) {place : String} {result : Except Failure Value}
    (noted : (engine.noteEvent place).1 = result) :
    ∀ other, engine.graph = some other →
      other.net.collectsEvents place = result.toOption.isSome := by
  intro other there
  obtain rfl := Option.some.inj (held.symm.trans there)
  simp only [noteEvent, bench_eq held, Bench.noteEvent, Bench.recordEvent] at noted
  subst noted
  cases graph.net.collectsEvents place with
  | false => rfl
  | true => cases graph.mode <;> simp [Except.map, Except.toOption]

namespace Machine

variable {machine after : Machine}

/-! ## One step of a task -/

/-- What a step of a task that was begun on a machine does. -/
def Attends (machine : Machine) (progress : Progress) (moved : Progress × Machine) : Prop :=
  moved.2.engine.frame = machine.engine.frame ∧ progress.Passes machine.engine.graph moved.1

end Machine

/-- A node that stands for a firing is the transition itself. -/
theorem Bench.eq_of_nodeWork_fire {bench : Bench} {id transition : String} {inputs : Values}
    (worked : bench.nodeWork id inputs = .ok (.fire transition)) : transition = id := by
  unfold nodeWork at worked
  dsimp only at worked
  split at worked
  · cases worked
    rfl
  · split at worked
    · cases worked
    · split at worked <;> cases worked

/-- What is done for a task inside the graph gate when nothing begins to fire. -/
theorem Task.Works.attends {engine after : Engine} {clock : Nat} {task : Task} {next : Progress}
    (works : task.Works engine clock next after) :
    after.frame = engine.frame ∧ (Progress.fresh task).Passes engine.graph next := by
  cases works with
  | unbuilt lost =>
      refine ⟨rfl, ?_⟩
      cases task with
      | event place => exact .refuse fun _ held => by cases lost.symm.trans held
      | fire | walk | node | input => exact .fail (by rintro _ ⟨⟩)
  | grounded _ fires => exact ⟨rfl, .fail (by cases fires <;> rintro _ ⟨⟩)⟩
  | disabled held blocked =>
      refine ⟨rfl, .skip fun other there => ?_⟩
      obtain rfl := Option.some.inj (held.symm.trans there)
      exact blocked
  | refused => exact ⟨rfl, .fail (by rintro _ ⟨⟩)⟩
  | answered | visits => exact ⟨rfl, .plain rfl rfl⟩
  | sets => exact ⟨Engine.frame_setPlace .., .plain rfl rfl⟩
  | @notes place graph held =>
      refine ⟨Engine.frame_noteEvent .., ?_⟩
      cases noted : (engine.noteEvent place).1 with
      | ok value => exact .note (Engine.collects_of_noteEvent held noted)
      | error failure => exact .refuse (Engine.collects_of_noteEvent held noted)

/-- What one step of a task does. -/
theorem Progress.Advances.attends {machine after : Machine} {progress next : Progress}
    (advances : progress.Advances machine next after) :
    machine.Attends progress (next, after) := by
  cases advances with
  | queues => exact ⟨rfl, .wait _⟩
  | @launches task transition _ graph flight _ _ held fires launched =>
      have same := (Engine.launch_spec held launched).2.1
      refine ⟨Engine.frame_launch (Engine.bench_eq held) launched, ?_⟩
      cases fires with
      | fire => exact .launch same
      | node worked => exact .node (same.trans (Bench.eq_of_nodeWork_fire worked))
  | works _ works => exact works.attends
  | departs | arrives | reads | skips => exact ⟨rfl, .plain rfl rfl⟩
  | @lands flight =>
      refine ⟨Engine.frame_land .., ?_⟩
      cases (machine.engine.land flight).1 with
      | ok value => exact .land value
      | error failure => exact .fail (by rintro _ ⟨⟩)
  | @acts id action =>
      exact ⟨congrArg (Engine.Frame.mk _ _) (action.post_begin [] machine.engine.board),
        .plain rfl rfl⟩
  | @acted _ job _ _ _ _ _ _ finished | @failed _ _ job _ _ _ _ _ finished =>
      have post := job.post_finish machine.engine.board
      rw [finished] at post
      exact ⟨congrArg (Engine.Frame.mk _ _) post, .plain rfl rfl⟩
  | visited => exact ⟨Engine.frame_visit .., .plain rfl rfl⟩

namespace Machine

variable {machine after : Machine}

theorem frame_giveUp (machine : Machine) (service : Service Progress) :
    (machine.giveUp service).2.engine.frame = machine.engine.frame := by
  obtain ⟨ticket, label, deadline, progress⟩ := service
  cases progress with
  | firing flight wake answer => exact Engine.frame_callOff ..
  | _ => rfl

/-! ## Worker zero -/

/-- What a step of worker zero does. -/
inductive Serving (machine : Machine) : Machine → Prop where
  | turn {scheduler : Scheduler Task Progress} :
      machine.scheduler.turn Progress.fresh machine.clock = some scheduler →
      Serving machine { machine with scheduler := scheduler }
  | work {service : Service Progress} {next : Progress} {middle : Machine} :
      machine.scheduler.service = some service →
      (∀ result, service.progress ≠ .ended result) → Serves machine middle →
      middle.engine.frame = machine.engine.frame →
      service.progress.Becomes machine.engine.graph (service.isOverdue machine.clock) next →
      Serving machine (proceed (next, middle))
  | answer {service : Service Progress} {result : Except Failure Value} :
      machine.scheduler.service = some service → service.progress = .ended result →
      Serving machine { machine with scheduler := machine.scheduler.conclude result }

theorem serving_of_stepServer (stepped : machine.stepServer = some after) :
    machine.Serving after := by
  cases tends_stepServer stepped with
  | turns _ turned => exact .turn turned
  | answers served ended => exact .answer served ended
  | works served begun worked =>
      have advances := advances_workOn worked
      obtain ⟨frame, passes⟩ := advances.attends
      exact .work served begun advances.serves frame (.inl passes)
  | @givesUp service served begun overdue =>
      exact .work served begun (serves_giveUp machine service) (machine.frame_giveUp service)
        (.inr ⟨overdue, _, rfl⟩)

end Machine

end CardNet
