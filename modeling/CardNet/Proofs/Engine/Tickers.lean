import CardNet.Proofs.Engine.TickSteps

/-!
# Tickers

Whatever happens to a machine, in any order, what is noted of its tickers is a lawful log
(`TickNote.Lawful`), and every ticker is as the log tells (`Machine.Logged`). So a ticker has
counted its runs that succeeded, it begins no run after one has failed or after it was told to stop,
and another ticker is refused just while there is a live one (`Machine.tickers_kept`).
-/

namespace CardNet

/-! ## Tickers are as their log tells -/

/-- What a log tells of a ticker. -/
structure Ticker.Logged (ticker : Ticker) (number : Nat) (log : List TickNote) : Prop where
  known : .started number ∈ log
  ticks : ticker.ticks = log.count (.succeeded number)
  busy : (Worker.ticker ticker).run?.isSome = TickNote.isBusy number log
  failed : .failed number ∈ log → ticker.stage = .ended
  present : TickNote.current log = some number →
    ticker.stopped = false ∧ (ticker.stage = .ended → .failed number ∈ log)
  past : TickNote.current log ≠ some number → ticker.stopped = true ∨ ticker.stage = .ended

namespace Ticker.Logged

variable {ticker next : Ticker} {number : Nat} {log : List TickNote} {note : TickNote}

/-- What is noted about others does not matter, unless it takes the place of a ticker. -/
theorem aside (logged : ticker.Logged number log) (other : note.ticker? ≠ some number)
    (present : TickNote.current (note :: log) = some number → TickNote.current log = some number)
    (past : TickNote.current (note :: log) ≠ some number → TickNote.current log = some number →
      ticker.stopped = true ∨ ticker.stage = .ended) : ticker.Logged number (note :: log) := by
  have differs : ∀ {kind : TickNote}, kind.ticker? = some number → note ≠ kind :=
    fun about same => other (same ▸ about)
  have known := List.mem_cons_of_mem note logged.known
  refine ⟨known, ?_, ?_, fun fails => ?_, fun now => ?_, fun gone => ?_⟩
  · rw [List.count_cons_of_ne (differs rfl)]
    exact logged.ticks
  · rw [TickNote.isBusy_cons other]
    exact logged.busy
  · exact logged.failed ((List.mem_cons.mp fails).resolve_left (differs rfl).symm)
  · obtain ⟨untold, ended⟩ := logged.present (present now)
    exact ⟨untold, fun ends => List.mem_cons_of_mem _ (ended ends)⟩
  · by_cases before : TickNote.current log = some number
    · exact past gone before
    · exact logged.past before

/-- The log tells of a ticker that it was told to stop. -/
theorem stop (logged : ticker.Logged number log) :
    Logged { ticker with stopped := true } number (.halted :: log) where
  known := List.mem_cons_of_mem _ logged.known
  ticks := by
    have other : TickNote.halted ≠ .succeeded number := by simp
    rw [List.count_cons_of_ne other]
    exact logged.ticks
  busy := by
    rw [Machine.run?_stopped]
    exact logged.busy
  failed := by
    intro member
    rcases List.mem_cons.mp member with same | member
    · cases same
    · exact logged.failed member
  present := by
    intro now
    cases now
  past := fun _ => .inl rfl

/-- A ticker that has not failed and was not told to stop is live. -/
theorem isLive (logged : ticker.Logged number log) (goes : ticker.stage ≠ .ended)
    (untold : ticker.stopped = false) : TickNote.IsLive log number := by
  refine ⟨?_, fun fails => goes (logged.failed fails)⟩
  by_contra elsewhere
  rcases logged.past elsewhere with told | ended
  · exact absurd told (by rw [untold]; exact Bool.false_ne_true)
  · exact goes ended

theorem isBusy (logged : ticker.Logged number log) {run : RunStage}
    (running : ticker.stage = .running run) : TickNote.isBusy number log = true := by
  obtain ⟨interval, inputs, due, stopped, ticks, stage⟩ := ticker
  cases running
  exact logged.busy.symm

/-- What is noted of a step of a ticker may come after what was noted before. -/
theorem follows (logged : ticker.Logged number log) (steps : ticker.Steps number (some note) next) :
    TickNote.Follows log note := by
  cases steps with
  | begins waits untold =>
      refine ⟨logged.isLive (by simp [waits]) untold, ?_⟩
      obtain ⟨interval, inputs, due, stopped, ticks, stage⟩ := ticker
      cases waits
      exact logged.busy.symm
  | succeeds running => exact logged.isBusy running
  | fails running => exact logged.isBusy running

/-- The log tells what a ticker comes to in a step. -/
theorem steps {note : Option TickNote} (logged : ticker.Logged number log)
    (steps : ticker.Steps number note next) : next.Logged number (note.toList ++ log) := by
  have waiting : TickStage.waiting ≠ .ended := by simp
  have running : ∀ run, TickStage.running run ≠ .ended := by simp
  obtain ⟨known, ticks, busy, failed, present, past⟩ := logged
  obtain ⟨interval, inputs, due, stopped, count, stage⟩ := ticker
  cases steps with
  | ends waits told =>
      cases waits
      refine ⟨known, ticks, busy, fun _ => rfl, fun now => ?_, fun _ => .inr rfl⟩
      cases told.symm.trans (present now).1
  | begins waits untold =>
      cases waits
      have other : TickNote.began number ≠ .succeeded number := by simp
      refine ⟨List.mem_cons_of_mem _ known, ?_, ?_, fun fails => ?_, fun now => ?_, fun gone => ?_⟩
      · exact ticks.trans (List.count_cons_of_ne other).symm
      · simp [Worker.run?, TickNote.isBusy]
      · rcases List.mem_cons.mp fails with same | fails
        · cases same
        · cases failed fails
      · exact ⟨untold, fun ended => absurd ended (running _)⟩
      · exact (past gone).imp_right fun ended => absurd ended waiting
  | goesOn runs =>
      cases runs
      refine ⟨known, ticks, busy, fun fails => ?_, fun now => ?_, fun gone => ?_⟩
      · cases failed fails
      · exact ⟨(present now).1, fun ended => absurd ended (running _)⟩
      · exact (past gone).imp_right fun ended => absurd ended (running _)
  | succeeds runs =>
      cases runs
      refine ⟨List.mem_cons_of_mem _ known, ?_, ?_, fun fails => ?_, fun now => ?_, fun gone => ?_⟩
      · exact (congrArg (· + 1) ticks).trans List.count_cons_self.symm
      · simp [Worker.run?, TickNote.isBusy]
      · rcases List.mem_cons.mp fails with same | fails
        · cases same
        · cases failed fails
      · exact ⟨(present now).1, fun ended => absurd ended waiting⟩
      · exact (past gone).imp_right fun ended => absurd ended (running _)
  | fails runs =>
      cases runs
      have other : TickNote.failed number ≠ .succeeded number := by simp
      refine ⟨List.mem_cons_of_mem _ known, ?_, ?_, fun _ => rfl, fun now => ?_, fun _ => .inr rfl⟩
      · exact ticks.trans (List.count_cons_of_ne other).symm
      · simp [Worker.run?, TickNote.isBusy]
      · exact ⟨(present now).1, fun _ => List.mem_cons_self⟩

/-- A ticker that has just been started is as the log tells. -/
theorem new (lawful : TickNote.Lawful log) (unknown : .started number ∉ log)
    (waits : ticker.stage = .waiting) (none : ticker.ticks = 0) (untold : ticker.stopped = false) :
    ticker.Logged number (.started number :: log) := by
  have unnoted : ∀ {kind : TickNote}, kind.ticker? = some number → kind ∉ log :=
    fun about member => unknown (lawful.mem_started member about)
  obtain ⟨interval, inputs, due, stopped, ticks, stage⟩ := ticker
  cases waits
  refine ⟨List.mem_cons_self, ?_, ?_, fun fails => ?_, fun _ => ⟨untold, by simp⟩, fun gone => ?_⟩
  · have other : TickNote.started number ≠ .succeeded number := by simp
    rw [List.count_cons_of_ne other, List.count_eq_zero_of_not_mem (unnoted rfl)]
    exact none
  · refine (Bool.eq_false_iff.mpr fun busy => ?_).symm
    exact unnoted rfl (TickNote.mem_of_isBusy busy)
  · rcases List.mem_cons.mp fails with same | fails
    · cases same
    · exact absurd fails (unnoted rfl)
  · exact absurd rfl gone

end Ticker.Logged

namespace Machine

/-- A log tells of the tickers of a machine, and of no others. -/
structure Logged (machine : Machine) (log : List TickNote) : Prop where
  lawful : TickNote.Lawful log
  current : machine.ticker = TickNote.current log
  tickers : ∀ number ticker, machine.ticker? number = some ticker → ticker.Logged number log
  known : ∀ number, .started number ∈ log → ∃ ticker, machine.ticker? number = some ticker

variable {machine after : Machine} {log : List TickNote} {note : Option TickNote}

theorem logged_idle (config : EngineConfig) (board : Board) : (idle config board).Logged [] where
  lawful := trivial
  current := rfl
  tickers := by simp [idle, ticker?]
  known := by simp

theorem Numbered.lt_of_ticker? (numbered : machine.Numbered) {number : Nat} {ticker : Ticker}
    (found : machine.ticker? number = some ticker) : number < machine.nextWorker := by
  obtain ⟨held, there, -⟩ := Option.bind_eq_some_iff.mp found
  exact (numbered.known number held there).2

namespace Logged

/-- There is a live ticker just when the one that can be stopped has not ended. -/
theorem isTicking_iff (logged : machine.Logged log) :
    machine.isTicking = true ↔ ∃ number, TickNote.IsLive log number := by
  rw [Machine.isTicking_iff]
  constructor
  · rintro ⟨number, ticker, present, found, goes⟩
    refine ⟨number, logged.current.symm.trans present, fun fails => goes ?_⟩
    exact (logged.tickers number ticker found).failed fails
  · rintro ⟨number, present, sound⟩
    obtain ⟨ticker, found⟩ := logged.known number (TickNote.mem_of_current present)
    refine ⟨number, ticker, logged.current.trans present, found, fun ended => sound ?_⟩
    exact ((logged.tickers number ticker found).present present).2 ended

/-- All that matters are the tickers and which of them can be stopped. -/
theorem congr (logged : machine.Logged log) (same : SameTickers machine after) :
    after.Logged log where
  lawful := logged.lawful
  current := same.current.trans logged.current
  tickers := by
    intro number ticker found
    exact logged.tickers number ticker (same.tickers number ▸ found)
  known := by
    intro number member
    rw [same.tickers]
    exact logged.known number member

/-- While there is a live ticker, another one may be refused. -/
theorem refuse (logged : machine.Logged log) (ticking : machine.isTicking = true) :
    machine.Logged (.refused :: log) where
  lawful := ⟨logged.isTicking_iff.mp ticking, logged.lawful⟩
  current := logged.current
  tickers := by
    intro number ticker found
    apply (logged.tickers number ticker found).aside (by simp [TickNote.ticker?])
    · exact fun now => now
    · exact fun gone now => absurd now gone
  known := by
    intro number member
    exact logged.known number ((List.mem_cons.mp member).resolve_left (by simp))

/-- While there is none, one with a new number may be started. -/
theorem start (logged : machine.Logged log) (numbered : machine.Numbered) {number : Nat}
    {ticker : Ticker} (calm : machine.isTicking = false) (fresh : machine.nextWorker ≤ number)
    (waits : ticker.stage = .waiting) (none : ticker.ticks = 0) (untold : ticker.stopped = false)
    (current : after.ticker = some number)
    (becomes : ∀ other, after.ticker? other =
      if other = number then some ticker else machine.ticker? other) :
    after.Logged (.started number :: log) := by
  have unknown : .started number ∉ log := by
    intro member
    obtain ⟨ticker, found⟩ := logged.known number member
    exact absurd (numbered.lt_of_ticker? found) (Nat.not_lt.mpr fresh)
  have dead : ∀ other, ¬TickNote.IsLive log other := fun other alive =>
    Bool.false_ne_true (calm.symm.trans (logged.isTicking_iff.mpr ⟨other, alive⟩))
  refine ⟨⟨⟨unknown, dead⟩, logged.lawful⟩, current, ?_, ?_⟩
  · intro other held found
    rw [becomes] at found
    split at found
    · next same =>
        cases found
        rw [same]
        exact .new logged.lawful unknown waits none untold
    · next differs =>
        have before := logged.tickers other held found
        have others : some number ≠ some other := fun same => differs (Option.some.inj same).symm
        refine before.aside others (fun now => absurd now others) fun _ present => .inr ?_
        by_contra goes
        exact dead other ⟨present, fun fails => goes (before.failed fails)⟩
  · intro other member
    rw [becomes]
    split
    · exact ⟨ticker, rfl⟩
    · next differs =>
        apply logged.known other
        refine (List.mem_cons.mp member).resolve_left fun same => differs ?_
        cases same
        rfl

/-- The ticker that can be stopped is told to stop, and none can be stopped any more. -/
theorem halt (logged : machine.Logged log) (gone : after.ticker = none)
    (becomes : ∀ other, after.ticker? other = if machine.ticker = some other
      then (machine.ticker? other).map fun ticker => { ticker with stopped := true }
      else machine.ticker? other) : after.Logged (.halted :: log) := by
  refine ⟨⟨trivial, logged.lawful⟩, gone, ?_, ?_⟩
  · intro other held found
    rw [becomes] at found
    split at found
    · obtain ⟨ticker, there, rfl⟩ := Option.map_eq_some_iff.mp found
      exact (logged.tickers other ticker there).stop
    · next elsewhere =>
        refine (logged.tickers other held found).aside (by simp [TickNote.ticker?])
          (by simp [TickNote.current]) fun _ present => ?_
        exact absurd (logged.current.trans present) elsewhere
  · intro other member
    have before := (List.mem_cons.mp member).resolve_left (by simp)
    obtain ⟨ticker, there⟩ := logged.known other before
    rw [becomes, there]
    split <;> exact ⟨_, rfl⟩

/-- A ticker takes a step. -/
theorem move (logged : machine.Logged log) {number : Nat} {ticker next : Ticker}
    (found : machine.ticker? number = some ticker) (steps : ticker.Steps number note next)
    (still : after.ticker = machine.ticker)
    (becomes : ∀ other, after.ticker? other =
      if other = number then some next else machine.ticker? other) :
    after.Logged (note.toList ++ log) := by
  have own := logged.tickers number ticker found
  have turned : ∀ {later : List TickNote}, next.Logged number later →
      (∀ other held, other ≠ number → Ticker.Logged held other log → held.Logged other later) →
      ∀ other held, after.ticker? other = some held → held.Logged other later := by
    intro later own others other held found
    rw [becomes] at found
    split at found
    · next same =>
        cases found
        rw [same]
        exact own
    · next differs => exact others other held differs (logged.tickers other held found)
  have there : ∀ other, .started other ∈ log → ∃ held, after.ticker? other = some held := by
    intro other member
    rw [becomes]
    split
    · exact ⟨next, rfl⟩
    · exact logged.known other member
  have current := still.trans logged.current
  cases note with
  | none =>
      have stay := turned (own.steps steps) fun _ _ _ kept => kept
      exact ⟨logged.lawful, current, stay, there⟩
  | some note =>
      obtain ⟨about, same, differs⟩ := steps.about
      refine ⟨⟨own.follows steps, logged.lawful⟩, current.trans (same log).symm,
        turned (own.steps steps) fun other held elsewhere kept => ?_, fun other member => ?_⟩
      · have others : note.ticker? ≠ some other :=
          fun equal => elsewhere (Option.some.inj (about.symm.trans equal)).symm
        apply kept.aside others
        · exact fun now => (same log).symm.trans now
        · exact fun gone now => absurd ((same log).trans now) gone
      · exact there other ((List.mem_cons.mp member).resolve_left (differs other).symm)

/-- Whatever happens to the tickers of a machine, the log goes on telling of them. -/
theorem step (logged : machine.Logged log) (numbered : machine.Numbered)
    (step : TickStep machine after note) : after.Logged (note.toList ++ log) := by
  cases step with
  | calm same => exact logged.congr same
  | refused ticking same => exact (logged.refuse ticking).congr same
  | started calm fresh waits none untold current becomes =>
      exact logged.start numbered calm fresh waits none untold current becomes
  | halted gone becomes => exact logged.halt gone becomes
  | moved found steps still becomes => exact logged.move found steps still becomes

end Logged

end Machine

/-! ## Whatever happens -/

namespace Machine

variable {machine after : Machine} {log : List TickNote}

/-- Whatever happens to a machine, the log tells of its tickers. -/
theorem Unfolds.logged {config : EngineConfig} {board : Board}
    (unfolds : Unfolds (fun _ _ => true) noteTickers (idle config board) [] machine log) :
    machine.InOrder ∧ machine.Logged log := by
  apply unfolds.induct
  · exact ⟨inOrder_idle config board, logged_idle config board⟩
  · intro machine after log incident ⟨order, logged⟩ _ happened
    exact ⟨order.undergo happened, logged.step order.numbered
      (tickStep_of_undergo order.numbered happened)⟩

/-- A log goes on where it was. -/
theorem Unfolds.append {first : Machine} {start more : List TickNote}
    (unfolds : Unfolds (fun _ _ => true) noteTickers first start machine log)
    (later : Unfolds (fun _ _ => true) noteTickers machine [] after more) :
    Unfolds (fun _ _ => true) noteTickers first start after (more ++ log) := by
  apply later.induct
  · exact unfolds
  · intro machine after more incident unfolds allows happened
    have next := unfolds.happen incident allows happened
    rwa [noteTickers, ← List.append_assoc] at next

/-- A ticker begins a run in some course of things to come. -/
def MayBegin (machine : Machine) (number : Nat) : Prop :=
  ∃ after notes, Unfolds (fun _ _ => true) noteTickers machine [] after notes ∧
    .began number ∈ notes

/-- A ticker that may still begin a run is live. -/
theorem MayBegin.isLive {config : EngineConfig} {board : Board} {number : Nat}
    (unfolds : Unfolds (fun _ _ => true) noteTickers (idle config board) [] machine log)
    (begins : machine.MayBegin number) (member : .started number ∈ log) :
    TickNote.IsLive log number := by
  obtain ⟨after, notes, later, begun⟩ := begins
  exact (unfolds.append later).logged.2.lawful.isLive_of_began member begun

/-! ### Runs in progress -/

/-- Workers that join or are told something leave the runs of others as they are. -/
theorem Company.stage? (company : Company machine after) {number : Nat} {run : RunStage}
    (running : machine.stage? number = some run) : after.stage? number = some run := by
  obtain ⟨held, found, inside⟩ := Option.bind_eq_some_iff.mp running
  obtain ⟨told, there, tells⟩ := company.kept number held found
  rw [Machine.stage?, there]
  exact tells.run?.trans inside

/-- Nothing but its own steps changes the run of a worker. -/
theorem stage?_of_undergo (numbered : machine.Numbered) {number : Nat} {run : RunStage}
    (running : machine.stage? number = some run) {incident : Incident}
    (other : incident ≠ .step number) (happened : machine.undergo incident = some after) :
    after.stage? number = some run := by
  cases incident with
  | call call =>
      cases happened
      exact (company_enlist numbered (.caller call)).stage? running
  | tick interval inputs =>
      cases happened
      exact (company_startTicker numbered interval inputs).stage? running
  | halt =>
      cases happened
      exact machine.company_stopTicker.stage? running
  | wait time =>
      rw [undergo] at happened
      split at happened
      · cases happened
        exact running
      · cases happened
  | board change =>
      cases happened
      exact running
  | step worker =>
      by_cases zero : worker = server
      · subst zero
        rw [stage?, (serving_of_stepServer happened).workers.1]
        exact running
      · obtain ⟨held, next, middle, quits, found, rfl, conduct, -⟩ :=
          conduct_step numbered zero happened
        have elsewhere : number ≠ worker := fun same => other (congrArg Incident.step same.symm)
        rw [stage?_setWorker, if_neg elsewhere]
        exact conduct.company.stage? running

/-- A machine on which a ticker was told to stop or was not, and a ticker can be stopped or none. -/
def marked (machine : Machine) (number : Nat) (stopped : Bool) (current : Option Nat) : Machine :=
  match machine.ticker? number with
  | none => { machine with ticker := current }
  | some ticker =>
      { machine with ticker := current }.setWorker number
        (.ticker { ticker with stopped := stopped })

variable {number : Nat} {ticker : Ticker} {run : RunStage}

theorem get?_of_ticker? (found : machine.ticker? number = some ticker) :
    machine.workers.get? number = some (.ticker ticker) := by
  obtain ⟨held, there, same⟩ := Option.bind_eq_some_iff.mp found
  cases held <;> cases same
  exact there

theorem setWorker_setWorker (machine : Machine) (number : Nat) (first second : Worker) :
    (machine.setWorker number first).setWorker number second = machine.setWorker number second := by
  have same : (machine.workers.insert number first).insert number second =
      machine.workers.insert number second := by
    apply Std.ExtTreeMap.ext_getElem?
    intro other
    simp only [Std.ExtTreeMap.getElem?_insert]
    split <;> rfl
  rw [setWorker, setWorker, setWorker, same]

/-- A step of a ticker in a run is one of its run. -/
theorem step_of_running (other : number ≠ server) (found : machine.ticker? number = some ticker)
    (running : ticker.stage = .running run) :
    machine.step number = (machine.stepRun number run).map fun moved =>
      moved.2.setWorker number (.ticker (afterTick ticker moved.1)) := by
  rw [step, if_neg other, get?_of_ticker? found]
  simp only [stepTicker, running, Option.map_map]
  rfl

/-- How a run of a ticker goes on has nothing to do with whether the ticker was told to stop. -/
theorem afterTick_stopped (ticker : Ticker) (stage : RunStage) (stopped : Bool) :
    afterTick { ticker with stopped := stopped } stage =
      { afterTick ticker stage with stopped := stopped } := by
  cases stage with
  | «over» result => cases result <;> rfl
  | _ => rfl

/-- A ticker in a run goes on with it alike, whether it was told to stop or not. -/
theorem step_marked (other : number ≠ server) (found : machine.ticker? number = some ticker)
    (running : ticker.stage = .running run) (stopped : Bool) (current : Option Nat) :
    (machine.marked number stopped current).step number =
      (machine.step number).map fun after => after.marked number stopped current := by
  let mark := Worker.ticker { ticker with stopped := stopped }
  let crew := { machine with ticker := current }.setWorker number mark
  have marks : machine.marked number stopped current = machine.crewed crew := by
    rw [marked, found]
    rfl
  have there : (machine.crewed crew).ticker? number = some { ticker with stopped := stopped } := by
    change crew.ticker? number = _
    rw [ticker?_setWorker, if_pos rfl]
    rfl
  rw [marks, step_of_running other there running, step_of_running other found running,
    stepRun_crewed, Option.map_map, Option.map_map]
  apply Option.map_congr
  rintro ⟨stage, after⟩ goes
  have kept := (advances_stepRun goes).crew
  let next := Worker.ticker (afterTick ticker stage)
  let marks := Worker.ticker { afterTick ticker stage with stopped := stopped }
  let base := { after.crewed machine with ticker := current }
  calc (after.crewed crew).setWorker number
        (.ticker (afterTick { ticker with stopped := stopped } stage))
      = (base.setWorker number mark).setWorker number marks := by rw [afterTick_stopped]; rfl
    _ = (base.setWorker number next).setWorker number marks := by
        rw [setWorker_setWorker, setWorker_setWorker]
    _ = ((after.crewed machine).setWorker number next).marked number stopped current := by
        rw [marked, ticker?_setWorker, if_pos rfl]
        rfl
    _ = (after.setWorker number next).marked number stopped current := by rw [kept]

/-- The ticker that is told to stop is marked, and no ticker can be stopped then. -/
theorem stopTicker_eq_marked (present : machine.ticker = some number)
    (found : machine.ticker? number = some ticker) :
    machine.stopTicker = machine.marked number true none := by
  rw [stopTicker, present, marked, found]
  dsimp only
  rw [get?_of_ticker? found]

/-! ### The law of tickers -/

/-- How a machine has dealt with its tickers, by a log of them. -/
structure KeepsTickers (machine : Machine) (log : List TickNote) : Prop where
  /-- A ticker has counted its runs that succeeded, and each run that it has begun has succeeded or
  failed, unless it is still in it. -/
  counted : ∀ number, .started number ∈ log → ∃ ticker, machine.ticker? number = some ticker ∧
    ticker.ticks = log.count (.succeeded number) ∧
    log.count (.began number) = log.count (.succeeded number) + log.count (.failed number) +
      (machine.stage? number).isSome.toNat
  /-- After a run of it has failed a ticker begins no run. -/
  failed : ∀ number later earlier, log = later ++ .failed number :: earlier → .began number ∉ later
  /-- After a ticker was told to stop, none that was started before begins a run. -/
  halted : ∀ number later earlier, log = later ++ .halted :: earlier → .started number ∈ earlier →
    .began number ∉ later
  /-- A run in progress comes to an end by its own steps, and nothing else that happens changes what
  is left of it. -/
  lasting : ∀ number run, machine.stage? number = some run → ∀ incident after,
    incident ≠ .step number → machine.undergo incident = some after →
      after.stage? number = some run
  /-- To tell a ticker to stop is to mark it, and it makes no difference to the steps of a run
  whether the ticker is marked and whether it can still be stopped. -/
  onward : ∀ number ticker run, machine.ticker? number = some ticker →
    ticker.stage = .running run →
    (machine.ticker = some number → machine.stopTicker = machine.marked number true none) ∧
    ∀ stopped current, (machine.marked number stopped current).step number =
      (machine.step number).map fun after => after.marked number stopped current
  /-- A ticker is refused just when the one that was started last was not told to stop since and has
  not ended. -/
  refused : ∀ interval inputs, (machine.startTicker interval inputs).1 = false ↔
    ∃ number ticker, TickNote.current log = some number ∧ machine.ticker? number = some ticker ∧
      ticker.stage ≠ .ended
  /-- Nothing changes when a ticker is refused. -/
  unchanged : ∀ interval inputs, (machine.startTicker interval inputs).1 = false →
    (machine.startTicker interval inputs).2 = machine
  /-- Of the tickers that were started one at most may still begin a run. -/
  single : ∀ first second, .started first ∈ log → .started second ∈ log →
    machine.MayBegin first → machine.MayBegin second → first = second

theorem startTicker_fst (machine : Machine) (interval : Option Nat) (inputs : Values) :
    (machine.startTicker interval inputs).1 = !machine.isTicking := by
  rw [startTicker]
  split
  · next ticking => rw [ticking]; rfl
  · next calm => rw [Bool.eq_false_iff.mpr calm]; rfl

/-- However starts and stops of tickers, other calls, the passing of time and steps of the workers
follow on each other, and however runs end, tickers count the runs that succeed, begin none after a
failure or after they were told to stop, and are refused while there is a live one. -/
theorem tickers_kept {config : EngineConfig} {board : Board}
    (unfolds : Unfolds (fun _ _ => true) noteTickers (idle config board) [] machine log) :
    machine.KeepsTickers log := by
  obtain ⟨order, logged⟩ := unfolds.logged
  have lawful := logged.lawful
  have idle : ∀ interval inputs, (machine.startTicker interval inputs).1 = false ↔
      machine.isTicking = true := fun interval inputs => by
    rw [startTicker_fst, Bool.not_eq_false']
  constructor
  · intro number member
    obtain ⟨ticker, found⟩ := logged.known number member
    have told := logged.tickers number ticker found
    have busy : (machine.stage? number).isSome = TickNote.isBusy number log := by
      rw [stage?, get?_of_ticker? found]
      exact told.busy
    exact ⟨ticker, found, told.ticks, busy ▸ lawful.count_began number⟩
  · intro number later earlier same
    exact (same ▸ lawful).not_began_after_failed
  · intro number later earlier same member
    exact (same ▸ lawful).not_began_after_halted member
  · intro number run running incident after other happened
    exact stage?_of_undergo order.numbered running other happened
  · intro number ticker run found running
    have other : number ≠ server := by
      have there := order.numbered.known _ _ (get?_of_ticker? found)
      exact Nat.ne_of_gt there.1
    exact ⟨fun present => stopTicker_eq_marked present found, step_marked other found running⟩
  · intro interval inputs
    rw [idle, Machine.isTicking_iff, logged.current]
  · intro interval inputs refused
    rw [startTicker, if_pos ((idle interval inputs).mp refused)]
  · intro first second one two begins also
    have present := (begins.isLive unfolds one).1
    exact Option.some.inj (present.symm.trans (also.isLive unfolds two).1)

end Machine

namespace Relay

/-- Ticker one fails for want of a graph. Caller two has one built. Ticker four runs it, and while
it does so a second time it is told to stop and ticker five is started, whose run has to wait. -/
def incidents : List Incident :=
  let steps := fun worker count => List.replicate count (Incident.step worker)
  .tick none ∅ :: steps 1 4 ++ .call (.build ⟨"relay", []⟩ [] none) :: steps 2 6 ++
    .tick none ∅ :: steps 4 7 ++ .tick none ∅ :: .wait 1000 :: steps 4 2 ++
    .halt :: .tick none ∅ :: steps 5 2 ++ steps 4 3 ++ steps 5 1

end Relay

namespace Machine

/-- The run in which ticker four was told to stop counts, and ticker five is the one that ticks. -/
theorem tickers_kept_relay : ∃ machine log,
    Unfolds (fun _ _ => true) noteTickers (idle .standard .empty) [] machine log ∧
    log = [.succeeded 4, .began 5, .started 5, .halted, .began 4, .refused, .succeeded 4, .began 4,
      .started 4, .failed 1, .began 1, .started 1] ∧
    (machine.ticker? 4).map Ticker.ticks = some 2 ∧ machine.ticker = some 5 ∧
    machine.KeepsTickers log := by
  have ran : (unfold (fun _ _ => true) noteTickers (idle .standard .empty) []
      Relay.incidents).any (fun last =>
        last.2 == [.succeeded 4, .began 5, .started 5, .halted, .began 4, .refused, .succeeded 4,
          .began 4, .started 4, .failed 1, .began 1, .started 1] &&
        (last.1.ticker? 4).map Ticker.ticks == some 2 && last.1.ticker == some 5) = true := by
    decide +kernel
  obtain ⟨last, happened, shape⟩ := (Option.any_eq_true _ _).mp ran
  simp only [Bool.and_eq_true, beq_iff_eq] at shape
  obtain ⟨⟨noted, ticks⟩, present⟩ := shape
  have unfolds := Unfolds.start.extend happened
  exact ⟨last.1, last.2, unfolds, noted, ticks, present, tickers_kept unfolds⟩

end Machine

end CardNet
