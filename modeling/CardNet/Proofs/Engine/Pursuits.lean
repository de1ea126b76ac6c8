import CardNet.Proofs.Engine.Promises
import CardNet.Proofs.Engine.Services

/-!
# Requests that runs wait for

What is known of the engine while a run waits for a request, however far the request has come
(`Engine.Pursues`): before it is served, while it is served, and when it has a result, of which the
run may not have heard. Serving the request keeps this (`Engine.Pursues.work`), and so does setting the
value of an entry before or after (`Engine.Pursues.setPlace`). A request that is served is in time: what
has been spent on it and what is left add up to what a task may take (`Service.InTime`).
-/

namespace CardNet

/-! ## How far a request has come -/

namespace Scheduler

variable {scheduler after : OfTasks} {request : Request Task} {ticket other : Nat}
  {progress : Progress} {service : Service Progress} {result : Except Failure Value}

/-- How far a request has come: one that waits has not begun, and one that was answered has
ended. -/
def Comes (scheduler : OfTasks) (ticket : Nat) (progress : Progress) : Prop :=
  (∃ request, (ticket, request) ∈ scheduler.requests ∧ progress = .fresh request.task) ∨
    (∃ service, scheduler.service = some service ∧ service.ticket = ticket ∧
      progress = service.progress) ∨
    ∃ result, scheduler.result? ticket = some result ∧ progress = .ended result

theorem Comes.send (comes : scheduler.Comes other progress)
    (sent : scheduler.send request = .ok (ticket, after)) : after.Comes other progress := by
  obtain ⟨service, fates, -⟩ := send_frame sent
  rcases comes with ⟨known, waits, same⟩ | served | answered
  · exact .inl ⟨known, (mem_requests_of_send sent).mpr (.inr waits), same⟩
  · rw [Comes, service]
    exact .inr (.inl served)
  · rw [Comes, result?, fates]
    exact .inr (.inr answered)

theorem comes_of_send (sent : scheduler.send request = .ok (ticket, after)) :
    after.Comes ticket (.fresh request.task) :=
  .inl ⟨request, (mem_requests_of_send sent).mpr (.inl rfl), rfl⟩

theorem Comes.turn (comes : scheduler.Comes ticket progress) (orderly : scheduler.Orderly) {now : Nat}
    (turned : scheduler.turn Progress.fresh now = some after) : after.Comes ticket progress := by
  obtain ⟨first, request, free, split, service, -, fates, -⟩ := turn_spec orderly turned
  rcases comes with ⟨known, waits, rfl⟩ | ⟨held, served, -⟩ | ⟨result, found, same⟩
  · rw [split, List.mem_cons] at waits
    rcases waits with same | later
    · cases same
      exact .inr (.inl ⟨_, service, rfl, rfl⟩)
    · exact .inl ⟨known, later, rfl⟩
  · cases free.symm.trans served
  · exact .inr (.inr ⟨result, by rw [Scheduler.result?, fates]; exact found, same⟩)

section

variable (served : scheduler.service = some service)

include served

/-- Going on with a request leaves the others where they are. -/
theorem Comes.proceed (comes : scheduler.Comes ticket progress) (differ : service.ticket ≠ ticket)
    (next : Progress) : (scheduler.proceed next).Comes ticket progress := by
  rcases comes with waits | ⟨held, there, same, -⟩ | answered
  · exact .inl waits
  · obtain rfl := Option.some.inj (served.symm.trans there)
    exact absurd same differ
  · exact .inr (.inr answered)

theorem comes_of_proceed (next : Progress) :
    (scheduler.proceed next).Comes service.ticket next :=
  .inr (.inl ⟨_, service_proceed served next, rfl, rfl⟩)

theorem Comes.conclude (comes : scheduler.Comes ticket progress) (orderly : scheduler.Orderly)
    (ended : service.progress = .ended result) :
    (scheduler.conclude result).Comes ticket progress := by
  obtain ⟨-, requests, -, fates⟩ := conclude_spec served result
  rcases comes with ⟨known, waits, same⟩ | ⟨held, there, rfl, same⟩ | ⟨known, found, same⟩
  · exact .inl ⟨known, requests ▸ waits, same⟩
  · obtain rfl := Option.some.inj (served.symm.trans there)
    refine .inr (.inr ⟨result, ?_, same.trans ended⟩)
    rw [Scheduler.result?, fates, if_pos rfl]
  · refine .inr (.inr ⟨known, ?_, same⟩)
    rw [Scheduler.result?, fates, if_neg]
    · exact found
    · rintro rfl
      have unanswered : scheduler.result? service.ticket = none := orderly.result?_eq_none (by
        rw [tickets, served]
        exact List.mem_cons_self ..)
      cases unanswered.symm.trans found

/-- A request that is served has come as far as its service. -/
theorem Comes.eq_progress (comes : scheduler.Comes service.ticket progress)
    (orderly : scheduler.Orderly) : progress = service.progress := by
  have inside : service.ticket ∈ scheduler.service.toList.map Service.ticket := by
    rw [served]
    exact List.mem_singleton_self _
  rcases comes with ⟨known, waits, -⟩ | ⟨held, there, -, same⟩ | ⟨known, found, -⟩
  · have distinct := orderly.distinct
    rw [tickets, List.nodup_append] at distinct
    exact absurd rfl (distinct.2.2 _ inside _ (List.mem_map_of_mem waits))
  · obtain rfl := Option.some.inj (served.symm.trans there)
    exact same
  · cases (orderly.result?_eq_none (List.mem_append_left _ inside)).symm.trans found

end

/-- A request that was answered has ended. -/
theorem Comes.eq_ended (comes : scheduler.Comes ticket progress) (orderly : scheduler.Orderly)
    (found : scheduler.result? ticket = some result) : progress = .ended result := by
  rcases comes with ⟨known, waits, -⟩ | ⟨held, there, rfl, -⟩ | ⟨known, there, same⟩
  · have unanswered : scheduler.result? ticket = none :=
      orderly.result?_eq_none (List.mem_append_right _ (List.mem_map_of_mem waits))
    cases unanswered.symm.trans found
  · have unanswered : scheduler.result? held.ticket = none := orderly.result?_eq_none (by
      rw [tickets, there]
      exact List.mem_cons_self ..)
    cases unanswered.symm.trans found
  · rw [same, Option.some.inj (there.symm.trans found)]

end Scheduler

/-! ## How much time is left -/

namespace Service

variable {service : Service Progress} {clock wake delay : Nat} {left : Option Nat}

/-- A request that is served waits for a time, and was left some time when it began to wait. -/
def Awaits (service : Service Progress) (clock : Nat) (left : Option Nat) (wake delay : Nat) : Prop :=
  ∃ begun, wake = begun + delay ∧ service.deadline = left.map (begun + ·) ∧ clock ≤ wake ∧
    service.deadline.all (clock ≤ ·) = true

/-- A request that is served has some time left, or had when it began to wait. -/
def InTime (service : Service Progress) (clock : Nat) (left : Option Nat) : Prop :=
  match service.progress with
  | .fresh _ => service.deadline = left.map (clock + ·)
  | .walking _ _ => service.deadline = left.map (clock + ·)
  | .firing flight wake _ => service.Awaits clock left wake flight.job.delay
  | .acting _ job wake _ _ => service.Awaits clock left wake job.delay
  | _ => True

/-- What waits from now on is not yet late. -/
theorem awaits_now (ready : service.deadline = left.map (clock + ·)) (delay : Nat) :
    service.Awaits clock left (clock + delay) delay := by
  refine ⟨clock, rfl, ready, Nat.le_add_right .., ?_⟩
  rw [ready]
  cases left with
  | none => rfl
  | some milliseconds => exact decide_eq_true (Nat.le_add_right ..)

/-- When a request wakes up, the time for which it has waited is spent. -/
theorem Awaits.spend (awaits : service.Awaits clock left wake delay) (due : wake ≤ clock) :
    ∃ rest, CardNet.spend left delay = some rest ∧ service.deadline = rest.map (clock + ·) := by
  obtain ⟨begun, rfl, deadline, early, within⟩ := awaits
  obtain rfl : clock = begun + delay := Nat.le_antisymm early due
  cases left with
  | none => exact ⟨none, rfl, deadline⟩
  | some milliseconds =>
      rw [deadline] at within
      have bound : begun + delay ≤ begun + milliseconds := of_decide_eq_true within
      have fits : delay ≤ milliseconds := Nat.le_of_add_le_add_left bound
      refine ⟨some (milliseconds - delay), if_pos fits, ?_⟩
      rw [deadline, Option.map_some, Option.map_some, Option.some.injEq]
      omega

theorem Awaits.fits (awaits : service.Awaits clock left wake delay) (due : wake ≤ clock) :
    CardNet.fits left delay = true := by
  obtain ⟨rest, spent, -⟩ := awaits.spend due
  cases left with
  | none => rfl
  | some milliseconds =>
      simp only [CardNet.spend] at spent
      split at spent
      · next fits => exact decide_eq_true fits
      · cases spent

end Service

/-! ## What a run waits for -/

/-- The ticket of the request that a run waits for. -/
def RunStage.ticket? : RunStage → Option Nat
  | firing _ _ _ _ ticket => some ticket
  | walking _ ticket => some ticket
  | _ => none

namespace Engine

/-- What is known of the engine while a run waits for a request that has come so far and has some
time left. -/
inductive Pursues (engine : Engine) (layout : Circuit) (cards : List Card)
    (connections : List Connection) (watch : Watch) : RunStage → Option Nat → Progress → Prop where
  | fire {bench : Bench} {inputs : Values} {done rest : List String} {progressed : Bool}
      {ticket : Nat} {transition : String} :
      engine.InPasses layout cards connections watch.found bench inputs done →
      (bench.opened inputs).graph.net.Passing done progressed (transition :: rest) →
      Pursues engine layout cards connections watch
        (.firing inputs done.length progressed rest ticket) engine.config.taskTimeout
        (.fresh (.fire transition))
  | fly {bench : Bench} {inputs : Values} {done rest : List String} {progressed : Bool}
      {ticket wake : Nat} {transition : String} {flight : Flight} :
      Launched layout cards connections bench inputs done transition engine watch.found flight →
      (bench.opened inputs).graph.net.Passing done progressed (transition :: rest) →
      Pursues engine layout cards connections watch
        (.firing inputs done.length progressed rest ticket) engine.config.taskTimeout
        (.firing flight wake (some (.bool true)))
  | fired {inputs : Values} {fired ticket : Nat} {progressed : Bool} {rest : List String}
      {left : Option Nat} {result : Except Failure Value} :
      engine.At layout cards connections watch
        (Machine.afterFiring engine.config.maxFirings inputs fired progressed rest result) →
      Pursues engine layout cards connections watch (.firing inputs fired progressed rest ticket)
        left (.ended result)
  | plan {bench : Bench} {inputs : Values} {plan : Plan} {ticket : Nat} :
      engine.OnPlan layout cards connections watch.found bench inputs [] engine.config.taskTimeout
        plan.steps →
      Pursues engine layout cards connections watch (.walking inputs ticket)
        engine.config.taskTimeout (.fresh (.walk plan inputs))
  | walk {bench : Bench} {inputs results : Values} {done : List String} {left : Option Nat}
      {steps : List PlanStep} {ticket : Nat} :
      engine.OnPlan layout cards connections watch.found bench inputs done left steps →
      Pursues engine layout cards connections watch (.walking inputs ticket) left
        (.walking steps results)
  | act {bench : Bench} {inputs results : Values} {done : List String} {left : Option Nat}
      {steps : List PlanStep} {ticket wake : Nat} {id : String} {job : Job} :
      Acting layout cards connections bench inputs done left engine watch.found id job steps →
      Pursues engine layout cards connections watch (.walking inputs ticket) left
        (.acting id job wake steps results)
  | walked {inputs : Values} {ticket : Nat} {left : Option Nat} {result : Except Failure Value} :
      engine.At layout cards connections watch (Machine.afterPlan inputs result) →
      Pursues engine layout cards connections watch (.walking inputs ticket) left (.ended result)

variable {engine : Engine} {layout : Circuit} {cards : List Card} {connections : List Connection}
  {watch : Watch} {stage : RunStage} {left : Option Nat} {progress : Progress}

theorem Pursues.keeps (pursues : engine.Pursues layout cards connections watch stage left progress) :
    engine.Keeps layout cards connections := by
  cases pursues with
  | fire passes => exact passes.keeps
  | fly launched => exact launched.keeps
  | plan onPlan => exact onPlan.keeps
  | walk onPlan => exact onPlan.keeps
  | act acting => exact acting.keeps
  | fired known => exact known.keeps
  | walked known => exact known.keeps

/-- A failure is all that a run can be told when its request is given up. -/
theorem Pursues.of_failure {after : Engine}
    (pursues : engine.Pursues layout cards connections watch stage left progress)
    (keeps : after.Keeps layout cards connections) (failure : Failure) (rest : Option Nat) :
    after.Pursues layout cards connections watch stage rest (.ended (.error failure)) := by
  cases pursues with
  | fire | fly | fired => exact .fired keeps
  | plan | walk | act | walked => exact .walked keeps

theorem OnPlan.setPlace (setting : Setting cards connections) {found : Findings} {bench : Bench}
    {inputs : Values} {done : List String} {steps : List PlanStep}
    (onPlan : engine.OnPlan layout cards connections found bench inputs done left steps)
    {place : String} (entry : place ∈ layout.entryPlaces) (value : Value) :
    (engine.setPlace place value).2.OnPlan layout cards connections found bench inputs done left
      steps := by
  refine ⟨onPlan.toEngaged.setPlace setting entry value, onPlan.function, ?_, onPlan.path⟩
  rw [(onPlan.keeps.setPlace_frame place value).1]
  exact onPlan.spent

/-- Setting the value of an entry changes nothing that is known while a run waits for a request that
is not being served. -/
theorem Pursues.setPlace (setting : Setting cards connections)
    (pursues : engine.Pursues layout cards connections watch stage left progress)
    (outside : (∃ task, progress = .fresh task) ∨ ∃ result, progress = .ended result)
    {place : String} (entry : place ∈ layout.entryPlaces) (value : Value) :
    (engine.setPlace place value).2.Pursues layout cards connections watch stage left progress := by
  have config := (pursues.keeps.setPlace_frame place value).1
  cases pursues with
  | fire passes passing => exact config ▸ .fire (passes.setPlace setting entry value) passing
  | plan onPlan =>
      have onPlan := onPlan.setPlace setting entry value
      rw [← config] at onPlan ⊢
      exact .plan onPlan
  | fired known =>
      have known := known.setPlace setting entry value
      rw [← config] at known
      exact .fired known
  | walked known => exact .walked (known.setPlace setting entry value)
  | fly | walk | act => rcases outside with ⟨_, same⟩ | ⟨_, same⟩ <;> cases same

theorem findings_eq {graph : Graph} (held : engine.graph = some graph) (anchors : List Anchor) :
    engine.findings anchors = graph.net.findings anchors engine.board := by
  rw [findings, held]

@[simp] theorem findings_nil (engine : Engine) : engine.findings [] = [] := by
  rw [findings]
  split <;> rfl

section

variable {found : Findings} {bench : Bench} {inputs : Values} {done : List String}

/-- The transitions that may fire in a run by firings are those that may after what it has done. -/
theorem InPasses.isEnabled_eq
    (passes : engine.InPasses layout cards connections found bench inputs done) {graph : Graph}
    (held : engine.graph = some graph) :
    graph.net.isEnabled = ((bench.opened inputs).graph.net.firedAll done).isEnabled := by
  obtain rfl := Option.some.inj (held.symm.trans passes.graph)
  have mode : (bench.opened inputs).graph.mode = .visual := by
    rw [Bench.graph_opened]
    exact passes.visual
  rw [Graph.spent_visual mode]

theorem Launched.enabled {transition : String} {flight : Flight}
    (launched : Launched layout cards connections bench inputs done transition engine found flight) :
    ((bench.opened inputs).graph.net.firedAll done).isEnabled transition = true := by
  cases launched with
  | launch passes held enabled => exact congrFun (passes.isEnabled_eq held) _ ▸ enabled

end

end Engine

/-! ## Service -/

/-- Nothing is looked at when a task is over. -/
theorem Progress.looks_ended (progress : Progress) (result : Except Failure Value) :
    progress.looks (.ended result) = [] := by
  unfold looks
  split
  · next same => cases same
  · next same => cases same
  · rfl

namespace Machine

variable {machine : Machine} {layout : Circuit} {cards : List Card} {connections : List Connection}
  {watch : Watch} {stage : RunStage} {left : Option Nat} {bench : Bench} {inputs : Values}
  {done : List String}

/-- What is known of a machine on which a request has come so far that a run waits for. -/
def Pursues (machine : Machine) (layout : Circuit) (cards : List Card)
    (connections : List Connection) (watch : Watch) (stage : RunStage)
    (service : Service Progress) : Prop :=
  ∃ left, machine.engine.Pursues layout cards connections watch stage left service.progress ∧
    service.InTime machine.clock left

/-- A firing is begun when the transition may fire, and else it is over. -/
theorem pursues_beginFire (service : Service Progress) (ticket : Nat) {progressed : Bool}
    {rest : List String} {transition : String} {next : Progress} {middle : Machine}
    (entered : machine.enterTask (.fire transition) = (next, middle))
    (passes : machine.engine.InPasses layout cards connections watch.found bench inputs done)
    (passing : (bench.opened inputs).graph.net.Passing done progressed (transition :: rest))
    (ready : service.deadline = machine.engine.config.taskTimeout.map (machine.clock + ·)) :
    middle.Pursues layout cards connections
      (watch.find (machine.engine.findings (Progress.looks (.fresh (.fire transition)) next)))
      (.firing inputs done.length progressed rest ticket) { service with progress := next } := by
  obtain ⟨graph, held, sound, -⟩ := passes.keeps
  have same := congrFun (passes.isEnabled_eq held) transition
  simp only [enterTask, Engine.bench_eq held, beginTask] at entered
  cases enabled : graph.net.isEnabled transition with
  | false =>
      rw [enabled] at entered same
      cases entered
      refine ⟨none, .fired ?_, trivial⟩
      simp only [Progress.looks, Engine.findings_nil, Watch.find_nil]
      exact ⟨bench, done, passes, passing.skip same.symm, rfl⟩
  | true =>
      obtain ⟨action, known⟩ := Session.get?_of_isEnabled enabled
      have launched : machine.engine.launch ⟨graph, machine.engine.board⟩ transition = _ :=
        Engine.launch_eq enabled known
      simp only [enabled, ↓reduceIte, beginFiring, launched] at entered
      cases entered
      refine ⟨machine.engine.config.taskTimeout, ?_, Service.awaits_now ready _⟩
      rw [Engine.findings_eq held]
      exact .fly (.launch passes held enabled known launched) passing

/-- A firing that ends in time and within the number of firings goes to the account of the run. -/
theorem pursues_land (setting : Setting cards connections) (service : Service Progress)
    {progressed : Bool} {rest : List String} {ticket : Nat} {transition : String} {flight : Flight}
    (launched : Engine.Launched layout cards connections bench inputs done transition machine.engine
      watch.found flight)
    (passing : (bench.opened inputs).graph.net.Passing done progressed (transition :: rest))
    (timely : fits machine.engine.config.taskTimeout flight.job.delay = true)
    {next : Progress} {middle : Machine}
    (landed : machine.landFiring flight (some (.bool true)) = (next, middle)) :
    middle.Pursues layout cards connections watch
      (.firing inputs done.length progressed rest ticket) { service with progress := next } := by
  obtain ⟨config, keeps, lands⟩ := launched.land setting
  rw [landFiring] at landed
  rcases result : machine.engine.land flight with ⟨failure | value, engine⟩
  · rw [result] at landed keeps
    cases landed
    exact ⟨none, .fired keeps, trivial⟩
  · rw [result] at landed config keeps
    have lands := lands value (by rw [result]) timely
    rw [result] at lands
    cases landed
    refine ⟨none, .fired ?_, trivial⟩
    change engine.At layout cards connections watch (if engine.config.maxFirings < done.length + 1
      then .leaving (.error (.runaway engine.config.maxFirings))
      else .passing inputs (done.length + 1) true rest)
    split
    · exact keeps
    · next within =>
        rw [config] at within
        exact ⟨bench, done ++ [transition], lands (Nat.le_of_not_lt within),
          passing.fire launched.enabled, by rw [List.length_append]; rfl⟩

/-- A step of a plan is taken. -/
theorem pursues_walkOn {service : Service Progress} {steps : List PlanStep} {results : Values}
    {ticket : Nat}
    (onPlan : machine.engine.OnPlan layout cards connections watch.found bench inputs done left steps)
    (ready : service.deadline = left.map (machine.clock + ·)) {next : Progress} {middle : Machine}
    (walked : machine.walkOn results steps = (next, middle)) :
    middle.Pursues layout cards connections
      (watch.find (machine.engine.findings (Progress.looks (.walking steps results) next)))
      (.walking inputs ticket) { service with progress := next } := by
  cases steps with
  | nil =>
      cases walked
      refine ⟨none, .walked ?_, trivial⟩
      simp only [Progress.looks, Engine.findings_nil, Watch.find_nil]
      exact ⟨bench, done, onPlan.toEngaged, onPlan.course⟩
  | cons step steps =>
      cases step with
      | act id action =>
          cases walked
          obtain ⟨graph, held, -⟩ := onPlan.keeps
          refine ⟨left, ?_, Service.awaits_now ready _⟩
          rw [Engine.findings_eq held]
          exact .act (.begin onPlan held)
      | read id content =>
          rw [walkOn] at walked
          split at walked <;> cases walked <;>
            · simp only [Progress.looks, Engine.findings_nil, Watch.find_nil]
              exact ⟨left, .walk onPlan.read, ready⟩

/-- A step of a plan that ends in time goes to the account of the run. -/
theorem pursues_endStep (setting : Setting cards connections) {service : Service Progress}
    {steps : List PlanStep} {results : Values} {ticket wake : Nat} {id : String} {job : Job}
    (acting : Engine.Acting layout cards connections bench inputs done left machine.engine
      watch.found id job steps)
    (awaits : service.Awaits machine.clock left wake job.delay) (due : wake ≤ machine.clock)
    {next : Progress} {middle : Machine}
    (ended : machine.endStep id job steps results = (next, middle)) :
    middle.Pursues layout cards connections watch (.walking inputs ticket)
      { service with progress := next } := by
  obtain ⟨rest, spent, deadline⟩ := awaits.spend due
  rw [endStep] at ended
  rcases result : job.finish machine.engine.board with ⟨message | value, board⟩
  · rw [result] at ended
    cases ended
    obtain ⟨graph, held, sound, bare⟩ := acting.keeps
    exact ⟨none, .walked ⟨graph, held, sound, bare⟩, trivial⟩
  · rw [result] at ended
    cases ended
    exact ⟨rest, .walk (acting.finish setting result spent), deadline⟩

/-- A step of the service of a request keeps what is known while a run waits for it. -/
theorem Pursues.work (setting : Setting cards connections) {service : Service Progress}
    (pursues : machine.Pursues layout cards connections watch stage service)
    (begun : ∀ result, service.progress ≠ .ended result) {next : Progress} {middle : Machine}
    (worked : machine.workOn service.progress = some (next, middle)) :
    middle.Pursues layout cards connections
      (watch.find (machine.engine.findings (service.progress.looks next))) stage
      { service with progress := next } := by
  obtain ⟨ticket, label, deadline, progress⟩ := service
  obtain ⟨left, pursues, inTime⟩ := pursues
  cases pursues with
  | @fire bench inputs done rest progressed awaited transition passes passing =>
      simp only [workOn, atGraphGate] at worked
      split at worked
      · cases entered : enterTask (.fire transition)
          { machine with graphGate := machine.graphGate.claim server } with
        | mk next middle =>
            rw [entered] at worked
            cases worked
            have known := pursues_beginFire ⟨ticket, label, deadline, .fresh (.fire transition)⟩
              awaited entered passes passing inTime
            exact known
      · split at worked
        · cases worked
        · cases worked
          simp only [Progress.looks, Engine.findings_nil, Watch.find_nil]
          exact ⟨_, .fire passes passing, inTime⟩
  | @fly bench inputs done rest progressed awaited wake transition flight launched passing =>
      simp only [workOn, whenDue] at worked
      split at worked
      · next due =>
          have worked := Option.some.inj worked
          simp only [Progress.looks, Engine.findings_nil, Watch.find_nil]
          exact pursues_land setting ⟨ticket, label, deadline, .firing flight wake none⟩ launched
            passing (Service.Awaits.fits inTime due) worked
      · cases worked
  | plan onPlan =>
      cases worked
      simp only [Progress.looks, Engine.findings_nil, Watch.find_nil]
      exact ⟨_, .walk onPlan, inTime⟩
  | walk onPlan => exact pursues_walkOn onPlan inTime (Option.some.inj worked)
  | act acting =>
      simp only [workOn, whenDue] at worked
      split at worked
      · next due =>
          simp only [Progress.looks, Engine.findings_nil, Watch.find_nil]
          exact pursues_endStep setting acting inTime due (Option.some.inj worked)
      · cases worked
  | fired | walked => exact absurd rfl (begun _)

/-- A run that waits for a request that is given up is told so. -/
theorem Pursues.giveUp {service : Service Progress}
    (pursues : machine.Pursues layout cards connections watch stage service) :
    (machine.giveUp service).2.Pursues layout cards connections
      (watch.find (machine.engine.findings (service.progress.looks (machine.giveUp service).1)))
      stage { service with progress := (machine.giveUp service).1 } := by
  obtain ⟨ticket, label, deadline, progress⟩ := service
  obtain ⟨left, pursues, -⟩ := pursues
  have keeps := pursues.keeps
  change Pursues _ layout cards connections (watch.find (machine.engine.findings
    (progress.looks (.ended (.error _))))) stage _
  rw [Progress.looks_ended, Engine.findings_nil, Watch.find_nil]
  refine ⟨none, pursues.of_failure ?_ _ _, trivial⟩
  cases pursues with
  | fly launched => exact launched.callOff.2
  | _ => exact keeps

end Machine

end CardNet
