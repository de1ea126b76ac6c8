import CardNet.Proofs.Engine.Conduct
import CardNet.Proofs.Engine.TickLogs

/-!
# What happens to tickers

What is to be noted of the tickers of a machine in an incident (`Machine.tickerNote?`): it is read
off what is asked for and off how runs end, not off what tickers make of it. And what happens to the
tickers then (`Machine.tickStep_of_undergo`): one is started or refused, one is told to stop, or one
takes a step; whatever else happens leaves them as they are.
-/

namespace CardNet

/-! ## Notes -/

/-- The ticker that a worker is. -/
def Worker.ticker? : Worker → Option Ticker
  | ticker held => some held
  | _ => none

namespace Machine

/-- The ticker of a number. -/
def ticker? (machine : Machine) (number : Nat) : Option Ticker :=
  (machine.workers.get? number).bind Worker.ticker?

/-- What is to be noted when a ticker is asked for. -/
def startNote (machine : Machine) (interval : Option Nat) (inputs : Values) : TickNote :=
  if (machine.startTicker interval inputs).1 then .started machine.nextWorker else .refused

/-- What is to be noted of a step of a call: that it tells the ticker to stop, or that it asks for
one when its run has ended well. -/
def callNote? (machine : Machine) (worker : Nat) : CallStage → Option TickNote
  | .fresh call => if call.halts then some .halted else none
  | .running run true =>
      match machine.stepRun worker run with
      | some (.over (.ok _), after) => some (after.startNote none ∅)
      | _ => none
  | _ => none

/-- What is to be noted of a step of a ticker: that it has begun a run, or how its run has ended. -/
def runNote? (before after : Machine) (worker : Nat) : Option TickNote :=
  match before.stage? worker with
  | none => if (after.stage? worker).isSome then some (.began worker) else none
  | some run =>
      match before.stepRun worker run with
      | some (.over (.ok _), _) => some (.succeeded worker)
      | some (.over (.error _), _) => some (.failed worker)
      | _ => none

/-- What is to be noted of the tickers when something happens. -/
def tickerNote? (before : Machine) (incident : Incident) (after : Machine) : Option TickNote :=
  match incident with
  | .tick interval inputs => some (before.startNote interval inputs)
  | .halt => some .halted
  | .step worker =>
      match before.workers.get? worker with
      | some (.caller stage) => before.callNote? worker stage
      | some (.ticker _) => before.runNote? after worker
      | _ => none
  | _ => none

/-- A log with what is to be noted of the tickers. -/
def noteTickers (log : List TickNote) (before : Machine) (incident : Incident) (after : Machine) :
    List TickNote :=
  (before.tickerNote? incident after).toList ++ log

variable {machine middle after crew : Machine} {worker : Nat}

/-! ## Runs have nothing to do with the workers -/

/-- A machine with the workers of another. -/
def crewed (machine crew : Machine) : Machine :=
  { machine with
    workers := crew.workers
    ticker := crew.ticker
    courier := crew.courier
    nextWorker := crew.nextWorker }

theorem engine_crewed : (machine.crewed crew).engine = machine.engine := rfl

theorem scheduler_crewed : (machine.crewed crew).scheduler = machine.scheduler := rfl

theorem atRunGate_crewed {φ : Type} {stage : φ} {work : Machine → φ × Machine}
    (same : ∀ machine : Machine, work (machine.crewed crew) =
      ((work machine).1, (work machine).2.crewed crew)) :
    (machine.crewed crew).atRunGate worker stage work =
      (machine.atRunGate worker stage work).map fun moved => (moved.1, moved.2.crewed crew) := by
  rw [atRunGate, atRunGate]
  change (if (machine.runGate.claim worker).holder? = some worker then _
    else if machine.runGate.claim worker = machine.runGate then _ else _) = _
  split
  · exact congrArg some (same { machine with runGate := machine.runGate.claim worker })
  · split <;> rfl

theorem atGraphGate_crewed {φ : Type} {stage : φ} {work : Machine → φ × Machine}
    (same : ∀ machine : Machine, work (machine.crewed crew) =
      ((work machine).1, (work machine).2.crewed crew)) :
    (machine.crewed crew).atGraphGate worker stage work =
      (machine.atGraphGate worker stage work).map fun moved => (moved.1, moved.2.crewed crew) := by
  rw [atGraphGate, atGraphGate]
  change (if (machine.graphGate.claim worker).holder? = some worker then _
    else if machine.graphGate.claim worker = machine.graphGate then _ else _) = _
  split
  · exact congrArg some (same { machine with graphGate := machine.graphGate.claim worker })
  · split <;> rfl

theorem send_crewed (request : Request Task) : (machine.crewed crew).send request =
    ((machine.send request).1, (machine.send request).2.crewed crew) := by
  rw [send, send, scheduler_crewed]
  cases machine.scheduler.send request <;> rfl

/-- A step of a run is the same whoever else there is. -/
theorem stepRun_crewed (machine crew : Machine) (worker : Nat) (stage : RunStage) :
    (machine.crewed crew).stepRun worker stage =
      (machine.stepRun worker stage).map fun moved => (moved.1, moved.2.crewed crew) := by
  cases stage with
  | arriving inputs force => exact atRunGate_crewed fun _ => rfl
  | opening inputs force =>
      apply atGraphGate_crewed
      intro machine
      simp only [openRun, within, engine_crewed]
      rcases machine.engine.opening inputs force with ⟨_ | _ | _ | _, engine⟩ <;> rfl
  | listing inputs fired =>
      apply atGraphGate_crewed
      intro machine
      simp only [listPass, within, engine_crewed]
      cases machine.engine.transitions <;> rfl
  | passing inputs fired progressed rest =>
      cases rest with
      | nil => rfl
      | cons transition rest =>
          simp only [stepRun, tryNext, send_crewed]
          rcases machine.send (Task.firing transition) with ⟨_ | _, _⟩ <;> rfl
  | planning inputs =>
      apply atGraphGate_crewed
      intro machine
      simp only [findPlan, within, engine_crewed]
      rcases machine.engine.plan with _ | _ | _ <;> rfl
  | planned inputs plan =>
      simp only [stepRun, send_crewed]
      rcases machine.send (Task.planRun plan inputs) with ⟨_ | _, _⟩ <;> rfl
  | firing inputs fired progressed rest ticket =>
      simp only [stepRun, Option.map_map]
      rfl
  | walking inputs ticket =>
      simp only [stepRun, Option.map_map]
      rfl
  | closing inputs results => exact atGraphGate_crewed fun _ => rfl
  | leaving result => cases result <;> rfl
  | «over» result => rfl

end Machine

section

variable {machine after : Machine} {worker : Nat}

/-- A step of a run leaves the workers as they are. -/
theorem RunStage.Advances.crew {stage next : RunStage}
    (advances : stage.Advances worker machine next after) : after.crewed machine = after := by
  cases advances with
  | @leaves result => cases result <;> rfl
  | _ => rfl

theorem Courier.Advances.crew {courier next : Courier}
    (advances : courier.Advances worker machine next after) : after.crewed machine = after := by
  cases advances with
  | fetches fetched =>
      obtain ⟨board, rfl⟩ := Machine.board_of_fetch fetched
      rfl
  | runs moves => exact (Machine.advances_stepRun moves).crew
  | _ => rfl

end

namespace Machine

variable {machine middle after crew : Machine} {worker : Nat}

/-! ## What happens to the tickers -/

/-- The tickers of a machine, and which of them can be stopped, are the same. -/
structure SameTickers (before after : Machine) : Prop where
  current : after.ticker = before.ticker
  tickers : ∀ number, after.ticker? number = before.ticker? number
  count : before.nextWorker ≤ after.nextWorker

theorem sameTickers_of_crew (same : after.crewed machine = after) : SameTickers machine after := by
  rw [← same]
  exact ⟨rfl, fun _ => rfl, Nat.le_refl _⟩

theorem ticker?_setWorker (machine : Machine) (number other : Nat) (held : Worker) :
    (machine.setWorker number held).ticker? other =
      if other = number then held.ticker? else machine.ticker? other := by
  rw [ticker?, get?_setWorker]
  split <;> rfl

/-- Who is no ticker becomes none. -/
theorem sameTickers_setWorker {number : Nat} {held : Worker}
    (before : machine.ticker? number = none) (next : held.ticker? = none) :
    SameTickers machine (machine.setWorker number held) where
  current := rfl
  tickers := by
    intro other
    rw [ticker?_setWorker]
    split
    · next same => rw [same, before, next]
    · rfl
  count := Nat.le_refl _

theorem Numbered.ticker?_nextWorker (numbered : machine.Numbered) :
    machine.ticker? machine.nextWorker = none := by
  rw [ticker?]
  cases found : machine.workers.get? machine.nextWorker with
  | none => rfl
  | some held => exact absurd (numbered.known _ held found).2 (Nat.lt_irrefl _)

theorem sameTickers_enlist (numbered : machine.Numbered) {held : Worker}
    (plain : held.ticker? = none) : SameTickers machine (machine.enlist held).2 where
  current := rfl
  tickers := (sameTickers_setWorker numbered.ticker?_nextWorker plain).tickers
  count := Nat.le_succ _

theorem sameTickers_dismiss (machine : Machine) (number : Option Nat) :
    SameTickers machine (machine.dismiss number) := by
  rw [dismiss]
  split
  · next found =>
      obtain ⟨number, rfl, held⟩ := Option.bind_eq_some_iff.mp found
      obtain ⟨other, there, same⟩ := Option.map_eq_some_iff.mp held
      cases same
      apply sameTickers_setWorker _ rfl
      rw [ticker?, there]
      rfl
  · exact sameTickers_of_crew rfl

end Machine

/-- What a ticker may come to in a step, with what is to be noted of that. -/
inductive Ticker.Steps (number : Nat) (ticker : Ticker) : Option TickNote → Ticker → Prop
  /-- It was told to stop, and ends before its next run. -/
  | ends : ticker.stage = .waiting → ticker.stopped = true →
      Steps number ticker none { ticker with stage := .ended }
  | begins {due : Nat} {run : RunStage} : ticker.stage = .waiting → ticker.stopped = false →
      Steps number ticker (some (.began number)) { ticker with due := due, stage := .running run }
  | goesOn {run next : RunStage} : ticker.stage = .running run →
      Steps number ticker none { ticker with stage := .running next }
  | succeeds {run : RunStage} : ticker.stage = .running run →
      Steps number ticker (some (.succeeded number))
        { ticker with ticks := ticker.ticks + 1, stage := .waiting }
  | fails {run : RunStage} : ticker.stage = .running run →
      Steps number ticker (some (.failed number)) { ticker with stage := .ended }

/-- What is noted of a step of a ticker is about it, and takes the place of none. -/
theorem Ticker.Steps.about {ticker next : Ticker} {number : Nat} {note : TickNote}
    (steps : ticker.Steps number (some note) next) :
    note.ticker? = some number ∧ (∀ log, TickNote.current (note :: log) = TickNote.current log) ∧
      ∀ other, note ≠ .started other := by
  cases steps <;> exact ⟨rfl, fun _ => rfl, by simp⟩

namespace Machine

/-- What may happen to the tickers of a machine, with what is to be noted of that. -/
inductive TickStep (before after : Machine) : Option TickNote → Prop
  | calm : SameTickers before after → TickStep before after none
  | refused : before.isTicking = true → SameTickers before after →
      TickStep before after (some .refused)
  | started {number : Nat} {ticker : Ticker} : before.isTicking = false →
      before.nextWorker ≤ number → ticker.stage = .waiting → ticker.ticks = 0 →
      ticker.stopped = false → after.ticker = some number →
      (∀ other, after.ticker? other =
        if other = number then some ticker else before.ticker? other) →
      TickStep before after (some (.started number))
  | halted : after.ticker = none →
      (∀ other, after.ticker? other = if before.ticker = some other
        then (before.ticker? other).map fun ticker => { ticker with stopped := true }
        else before.ticker? other) → TickStep before after (some .halted)
  | moved {number : Nat} {ticker next : Ticker} {note : Option TickNote} :
      before.ticker? number = some ticker → ticker.Steps number note next →
      after.ticker = before.ticker →
      (∀ other, after.ticker? other =
        if other = number then some next else before.ticker? other) →
      TickStep before after note

variable {machine middle after : Machine} {worker : Nat} {note : Option TickNote}

theorem isTicking_iff (machine : Machine) : machine.isTicking = true ↔
    ∃ number ticker, machine.ticker = some number ∧ machine.ticker? number = some ticker ∧
      ticker.stage ≠ .ended := by
  have known : ∀ number, machine.ticker = some number → (machine.isTicking = true ↔
      ∃ ticker, machine.ticker? number = some ticker ∧ ticker.stage ≠ .ended) := by
    intro number present
    rw [isTicking, present, Option.bind_some, ticker?]
    rcases machine.workers.get? number with _ | stage | ⟨_, _, _, _, _, stage⟩ | courier
    · simp
    · simp [Worker.ticker?]
    · cases stage <;> simp [Worker.ticker?]
    · simp [Worker.ticker?]
  constructor
  · intro ticking
    cases present : machine.ticker with
    | none =>
        rw [isTicking, present] at ticking
        cases ticking
    | some number =>
        obtain ⟨ticker, there⟩ := (known number present).mp ticking
        exact ⟨number, ticker, rfl, there⟩
  · rintro ⟨number, ticker, present, there⟩
    exact (known number present).mpr ⟨ticker, there⟩

/-- The tickers of a machine decide whether it is ticking. -/
theorem SameTickers.isTicking (same : SameTickers machine middle) :
    middle.isTicking = machine.isTicking := by
  rw [Bool.eq_iff_iff, isTicking_iff, isTicking_iff]
  simp only [same.current, same.tickers]

theorem SameTickers.trans (first : SameTickers machine middle) (second : SameTickers middle after) :
    SameTickers machine after where
  current := second.current.trans first.current
  tickers := fun number => (second.tickers number).trans (first.tickers number)
  count := Nat.le_trans first.count second.count

/-- What happens to the tickers has happened since they were the same. -/
theorem TickStep.since (step : TickStep middle after note) (same : SameTickers machine middle) :
    TickStep machine after note := by
  cases step with
  | calm later => exact .calm (same.trans later)
  | refused ticking later => exact .refused (same.isTicking ▸ ticking) (same.trans later)
  | started calm fresh waits none goes current tickers =>
      apply TickStep.started (same.isTicking ▸ calm) (Nat.le_trans same.count fresh) waits none goes
        current
      intro other
      rw [tickers, same.tickers]
  | halted current tickers =>
      apply TickStep.halted current
      intro other
      rw [tickers, same.current, same.tickers]
  | moved found steps current tickers =>
      apply TickStep.moved (same.tickers _ ▸ found) steps (current.trans same.current)
      intro other
      rw [tickers, same.tickers]

/-- What has happened to the tickers has happened as long as they are the same. -/
theorem TickStep.until (step : TickStep machine middle note) (same : SameTickers middle after) :
    TickStep machine after note := by
  cases step with
  | calm earlier => exact .calm (earlier.trans same)
  | refused ticking earlier => exact .refused ticking (earlier.trans same)
  | started calm fresh waits none goes current tickers =>
      exact .started calm fresh waits none goes (same.current.trans current)
        fun other => (same.tickers other).trans (tickers other)
  | halted current tickers =>
      exact .halted (same.current.trans current) fun other =>
        (same.tickers other).trans (tickers other)
  | moved found steps current tickers =>
      exact .moved found steps (same.current.trans current) fun other =>
        (same.tickers other).trans (tickers other)

theorem tickStep_startTicker (machine : Machine) (interval : Option Nat) (inputs : Values) :
    TickStep machine (machine.startTicker interval inputs).2
      (some (machine.startNote interval inputs)) := by
  cases ticking : machine.isTicking with
  | true =>
      simp only [startNote, startTicker, ticking, if_true, Bool.false_eq_true, if_false]
      exact .refused ticking (sameTickers_of_crew rfl)
  | false =>
      simp only [startNote, startTicker, ticking, if_true, Bool.false_eq_true, if_false]
      exact .started ticking (Nat.le_refl _) rfl rfl rfl rfl fun other => ticker?_setWorker ..

theorem ticker_stopTicker (machine : Machine) : machine.stopTicker.ticker = none := by
  rw [stopTicker]
  split
  · next absent => exact absent
  · dsimp only
    split <;> rfl

theorem ticker?_stopTicker (machine : Machine) (other : Nat) : machine.stopTicker.ticker? other =
    if machine.ticker = some other
      then (machine.ticker? other).map fun ticker => { ticker with stopped := true }
      else machine.ticker? other := by
  rw [stopTicker]
  split
  · next absent => simp only [absent, reduceCtorEq, if_false]
  · next number present =>
      rw [present]
      dsimp only
      split
      · next ticker found =>
          change (machine.setWorker number _).ticker? other = _
          rw [ticker?_setWorker]
          by_cases same : other = number
          · subst same
            rw [if_pos rfl, if_pos rfl, ticker?, found]
            rfl
          · rw [if_neg same, if_neg fun equal => same (Option.some.inj equal).symm]
      · next plain =>
          change machine.ticker? other = _
          split
          · next same =>
              cases same
              rw [ticker?]
              rcases found : machine.workers.get? other with _ | stage | ticker | courier
              · rfl
              · rfl
              · exact absurd found (plain ticker)
              · rfl
          · rfl

theorem tickStep_stopTicker (machine : Machine) :
    TickStep machine machine.stopTicker (some .halted) :=
  .halted machine.ticker_stopTicker machine.ticker?_stopTicker

end Machine

/-! ## Steps of workers -/

section

variable {machine after : Machine} {worker : Nat}

/-- What a step of a call does to the tickers. -/
theorem CallStage.Advances.tickStep (numbered : machine.Numbered) {stage next : CallStage}
    (advances : stage.Advances worker machine next after) :
    Machine.TickStep machine after (machine.callNote? worker stage) := by
  cases advances with
  | begins calm =>
      rw [Machine.callNote?, calm]
      exact .calm (Machine.sameTickers_of_crew rfl)
  | halts halts =>
      rw [Machine.callNote?, halts]
      exact machine.tickStep_stopTicker
  | waits arriving =>
      cases stage with
      | building | rewiring | discarding => exact .calm (Machine.sameTickers_of_crew rfl)
      | _ => cases arriving
  | enters _ enters => cases enters <;> exact .calm (Machine.sameTickers_of_crew rfl)
  | queues looking =>
      cases stage with
      | fresh | running => cases looking
      | _ => exact .calm (Machine.sameTickers_of_crew rfl)
  | works _ works => cases works <;> exact .calm (Machine.sameTickers_of_crew rfl)
  | @assigns graph =>
      have plain : (Worker.courier ⟨graph.channel, false, .waiting⟩).ticker? = none := rfl
      obtain ⟨current, tickers, count⟩ := Machine.sameTickers_enlist numbered plain
      exact .calm ⟨current, tickers, count⟩
  | dismisses => exact .calm (machine.sameTickers_dismiss _)
  | @runs run reached restart middle moves =>
      have same := Machine.sameTickers_of_crew (Machine.advances_stepRun moves).crew
      cases reached with
      | «over» result =>
          cases result with
          | error failure => cases restart <;> simpa only [Machine.callNote?, moves] using .calm same
          | ok outputs =>
              cases restart with
              | false => exact .calm same
              | true =>
                  simp only [Machine.callNote?, moves]
                  exact (middle.tickStep_startTicker none ∅).since same
      | _ => cases restart <;> simpa only [Machine.callNote?, moves] using .calm same
  | closesDown =>
      obtain ⟨current, tickers, count⟩ := machine.sameTickers_dismiss machine.courier
      exact .calm ⟨current, tickers, count⟩
  | _ => exact .calm (Machine.sameTickers_of_crew rfl)

/-- What a step of a ticker does to it, with what is to be noted of that. -/
theorem Ticker.Advances.tickStep {ticker next : Ticker}
    (found : machine.workers.get? worker = some (.ticker ticker))
    (advances : ticker.Advances worker machine next after) :
    Machine.TickStep machine (after.setWorker worker (.ticker next))
      (machine.runNote? (after.setWorker worker (.ticker next)) worker) := by
  have known : machine.ticker? worker = some ticker := by
    rw [Machine.ticker?, found]
    rfl
  have moves : ∀ {note}, ticker.Steps worker note next → after.crewed machine = after →
      machine.runNote? (after.setWorker worker (.ticker next)) worker = note →
      Machine.TickStep machine (after.setWorker worker (.ticker next))
        (machine.runNote? (after.setWorker worker (.ticker next)) worker) := by
    intro note steps crew noted
    have same := Machine.sameTickers_of_crew crew
    rw [noted]
    refine .moved known steps same.current fun other => ?_
    rw [Machine.ticker?_setWorker, same.tickers]
    rfl
  have stage : machine.stage? worker = (Worker.ticker ticker).run? := by
    rw [Machine.stage?, found]
    rfl
  have later : (after.setWorker worker (.ticker next)).stage? worker =
      (Worker.ticker next).run? := by
    rw [Machine.stage?_setWorker, if_pos rfl]
  obtain ⟨interval, inputs, due, stopped, ticks, before⟩ := ticker
  cases advances with
  | ends waits told =>
      obtain rfl : before = .waiting := waits
      exact moves (.ends rfl told) rfl (by rw [Machine.runNote?, stage, later]; rfl)
  | begins waits untold =>
      obtain rfl : before = .waiting := waits
      exact moves (.begins rfl untold) rfl (by rw [Machine.runNote?, stage, later]; rfl)
  | @runs run reached _ running goes =>
      obtain rfl : before = .running run := running
      have crew := (Machine.advances_stepRun goes).crew
      rw [Worker.run?] at stage
      cases reached with
      | «over» result =>
          cases result with
          | error failure =>
              exact moves (.fails rfl) crew (by simp only [Machine.runNote?, stage, goes])
          | ok outputs =>
              exact moves (.succeeds rfl) crew (by simp only [Machine.runNote?, stage, goes])
      | _ => exact moves (.goesOn rfl) crew (by simp only [Machine.runNote?, stage, goes])

end

namespace Machine

variable {machine after : Machine} {worker : Nat}

/-- Worker zero leaves the other workers as they are. -/
theorem Serving.workers (serving : machine.Serving after) : after.workers = machine.workers ∧
    after.nextWorker = machine.nextWorker ∧ after.ticker = machine.ticker := by
  cases serving with
  | turn turned => exact ⟨rfl, rfl, rfl⟩
  | work served begun serves frame becomes =>
      exact ⟨serves.workers, serves.nextWorker, serves.ticker⟩
  | answer served ended => exact ⟨rfl, rfl, rfl⟩

/-- What happens to the tickers in an incident is what is to be noted of it. -/
theorem tickStep_of_undergo (numbered : machine.Numbered) {incident : Incident}
    (happened : machine.undergo incident = some after) :
    TickStep machine after (machine.tickerNote? incident after) := by
  cases incident with
  | call call =>
      cases happened
      exact .calm (sameTickers_enlist numbered rfl)
  | tick interval inputs =>
      cases happened
      exact machine.tickStep_startTicker interval inputs
  | halt =>
      cases happened
      exact machine.tickStep_stopTicker
  | wait time =>
      rw [undergo] at happened
      split at happened
      · cases happened
        exact .calm (sameTickers_of_crew rfl)
      · cases happened
  | board change =>
      cases happened
      exact .calm (sameTickers_of_crew rfl)
  | step worker =>
      by_cases zero : worker = server
      · subst zero
        have nobody : machine.workers.get? server = none := by
          cases found : machine.workers.get? server with
          | none => rfl
          | some held => exact absurd (numbered.known _ held found).1 (Nat.lt_irrefl _)
        rw [tickerNote?, nobody]
        obtain ⟨workers, count, current⟩ := (serving_of_stepServer happened).workers
        refine .calm ⟨current, fun number => ?_, Nat.le_of_eq count.symm⟩
        rw [ticker?, ticker?, workers]
      · obtain ⟨held, next, middle, found, rfl, advances⟩ := advances_step zero happened
        rw [tickerNote?, found]
        cases advances with
        | caller advances =>
            apply (advances.tickStep numbered).until
            obtain ⟨told, there, tells⟩ := (advances.conduct numbered).company.kept worker _ found
            cases tells
            apply sameTickers_setWorker _ rfl
            rw [ticker?, there]
            rfl
        | ticker advances => exact advances.tickStep found
        | courier advances =>
            have same := sameTickers_of_crew advances.crew
            refine .calm (same.trans (sameTickers_setWorker ?_ rfl))
            rw [same.tickers, ticker?, found]
            rfl

end Machine

end CardNet
