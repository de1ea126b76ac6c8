import CardNet.Proofs.Engine.Courses

/-!
# The log of a session

The calls of a session are logged with what they came to, the latest first. The log alone tells
what is recorded: the outputs, the values of all places and the results of the plan are those of
the latest run that succeeded, or that had something to tell of them
(`Session.records_tell_last_run`). After a failed run, and after a graph was taken over or
rewired, no run is answered from the records until one has succeeded.
-/

namespace CardNet

/-! ## What is recorded -/

namespace Engine

variable {engine : Engine}

theorem records_launch {bench : Bench} {transition : String} {flight : Flight} {after : Engine}
    (launched : engine.launch bench transition = .ok (flight, after)) :
    after.records = engine.records := by
  unfold launch at launched
  split at launched
  · cases launched
  · cases launched
    rfl

theorem records_land (engine : Engine) (flight : Flight) :
    (engine.land flight).2.records = engine.records := by
  unfold land
  split <;> rfl

theorem records_callOff (engine : Engine) (flight : Flight) :
    (engine.callOff flight).records = engine.records := by
  unfold callOff
  split <;> rfl

theorem records_fireWithin (engine : Engine) (bench : Bench) (limit : Option Nat)
    (transition : String) :
    (engine.fireWithin bench limit transition).2.records = engine.records := by
  unfold fireWithin
  split
  · rfl
  · next launched =>
      split
      · exact (records_land ..).trans (records_launch launched)
      · exact (records_callOff ..).trans (records_launch launched)

/-- No task changes what is recorded. -/
theorem records_perform (engine : Engine) (limit : Option Nat) (task : Task) :
    (engine.perform limit task).2.records = engine.records := by
  cases task with
  | fire transition =>
      simp only [perform]
      split
      · rfl
      · unfold fireEnabled
        split
        · exact records_fireWithin ..
        · rfl
  | walk plan inputs => rfl
  | node id inputs =>
      simp only [perform]
      split
      · rfl
      · unfold performNode
        split
        · rfl
        · exact records_fireWithin ..
        · rfl
        · split <;> rfl
  | input place value =>
      simp only [perform, setPlace]
      split <;> rfl
  | event place =>
      simp only [perform, noteEvent]
      split <;> rfl

/-- What is recorded when a run of a graph is closed. -/
theorem close_recorded {graph : Graph} (held : engine.graph = some graph) (inputs : Values)
    (results : Option Values) :
    engine.close inputs results =
      (.ok (Bench.mk graph engine.board).outputs, { engine with
        records :=
          { memo := some ((Bench.mk graph engine.board).memoKey inputs)
            outputs := (Bench.mk graph engine.board).outputs
            placeValues := results.elim (Bench.mk graph engine.board).placeValues
              fun _ => engine.records.placeValues
            planResults := results.getD engine.records.planResults } }) := by
  simp only [close, bench_eq held]
  cases results <;> rfl

/-- A run is answered from the records only when they may be used. -/
theorem memo_ne_none_of_opening {inputs outputs : Values} {force : Bool}
    (opened : (engine.opening inputs force).1 = .ok (.recorded outputs)) :
    engine.records.memo ≠ none := by
  intro blank
  cases held : engine.graph with
  | none => simp [opening, bench, bench?, held] at opened
  | some graph =>
      refine opening_ne_recorded held ?_ outputs opened
      simp [answers, remembers, blank]

end Engine

/-! ## The log -/

namespace Session

/-- What a run finds out besides its outputs. -/
inductive Yield where
  /-- Nothing: it is answered from the records, or there is no graph. -/
  | nothing
  /-- The value of every place. -/
  | placeValues (values : Values)
  /-- The results of the plan. -/
  | planResults (values : Values)

/-- A call of a session. -/
inductive Call where
  | build (config : GraphConfig) (cards : List Card) (globals : Option Values)
  | exec (inputs : Values) (force : Bool)
  | executeNode (id : String) (inputs : Values)
  | setInput (place : String) (value : Value)
  | add (connection : Connection)
  | remove (id : String)
  | discard

/-- What a call came to. -/
inductive Entry where
  | built (result : Except Failure Report)
  | ran (result : Except Failure Values) (yield : Yield)
  /-- The work of a node was done, or a place was given a value. -/
  | served
  | added (result : Except Failure String)
  | removed (result : Except Failure Bool)
  | discarded

namespace Entry

/-- The recorded outputs, if this changed them: a run that succeeds records its own, and without
its graph a session has none. -/
def outputs? : Entry → Option Values
  | ran (.ok outputs) _ => some outputs
  | built (.ok _) | discarded => some ∅
  | _ => none

/-- The recorded values of all places, if this changed them. -/
def placeValues? : Entry → Option Values
  | ran (.ok _) (.placeValues values) => some values
  | built (.ok _) | discarded => some ∅
  | _ => none

/-- The recorded results of the plan, if this changed them. -/
def planResults? : Entry → Option Values
  | ran (.ok _) (.planResults values) => some values
  | built (.ok _) | discarded => some ∅
  | _ => none

/-- Whether the next run may not be answered from the records, if this decides it. -/
def spoils? : Entry → Option Bool
  | ran (.ok _) _ => some false
  | ran (.error _) _ | built (.ok _) | added (.ok _) | removed (.ok true) | discarded => some true
  | _ => none

end Entry

/-- What the latest entry tells of those that tell anything. -/
def latest {α : Type} (tells : Entry → Option α) (first : α) (log : List Entry) : α :=
  (log.findSome? tells).getD first

/-- What a run finds out besides its outputs. -/
def yield (session : Session) (inputs : Values) (force : Bool) : Yield :=
  match session.engine.opening inputs force with
  | (.ok (.firings _), _) =>
      .placeValues (((session.exec inputs force).2.engine.bench?.map Bench.placeValues).getD ∅)
  | (.ok (.plan inputs), engine) =>
      .planResults (({ session with engine := engine }.followPlan inputs).1.toOption.getD ∅)
  | _ => .nothing

/-- Make a call. -/
def make (session : Session) : Call → Entry × Session
  | .build config cards globals =>
      let (result, after) := session.build config cards globals
      (.built result, after)
  | .exec inputs force =>
      let (result, after) := session.exec inputs force
      (.ran result (session.yield inputs force), after)
  | .executeNode id inputs => (.served, (session.executeNode id inputs).2)
  | .setInput place value => (.served, (session.setInput place value).2)
  | .add connection =>
      let (result, after) := session.addConnection connection
      (.added result, after)
  | .remove id =>
      let (result, after) := session.removeConnection id
      (.removed result, after)
  | .discard => (.discarded, session.discard)

/-- Make calls one after the other and log them. -/
def makeAll (session : Session) (log : List Entry) : List Call → List Entry × Session
  | [] => (log, session)
  | call :: rest =>
      let (entry, after) := session.make call
      after.makeAll (entry :: log) rest

/-! ## What a call makes of the records -/

variable {session after : Session} {log : List Entry} {entry : Entry}

/-- The records before and after a call agree with what it came to. -/
structure Entry.Explains (entry : Entry) (before after : Records) : Prop where
  outputs : after.outputs = entry.outputs?.getD before.outputs
  placeValues : after.placeValues = entry.placeValues?.getD before.placeValues
  planResults : after.planResults = entry.planResults?.getD before.planResults
  memo : entry.spoils? ≠ some false →
    after.memo = none ∨ entry.spoils? = none ∧ after.memo = before.memo

theorem explains_build (session : Session) (config : GraphConfig) (cards : List Card)
    (globals : Option Values) :
    (Entry.built (session.build config cards globals).1).Explains session.engine.records
      (session.build config cards globals).2.engine.records := by
  unfold Session.build
  split
  · next built =>
      obtain rfl := congrArg Prod.snd built
      exact ⟨rfl, rfl, rfl, fun _ => .inr ⟨rfl, rfl⟩⟩
  · exact ⟨rfl, rfl, rfl, fun _ => .inl rfl⟩

theorem explains_add (session : Session) (connection : Connection) :
    (Entry.added (session.addConnection connection).1).Explains session.engine.records
      (session.addConnection connection).2.engine.records := by
  cases present : session.engine.bench with
  | error failure =>
      simp only [Session.addConnection, Engine.addConnection, present]
      exact ⟨rfl, rfl, rfl, fun _ => .inr ⟨rfl, rfl⟩⟩
  | ok bench =>
      simp only [Session.addConnection, Engine.addConnection, present]
      rcases bench.addConnection connection with ⟨failure | id, after⟩
      · exact ⟨rfl, rfl, rfl, fun _ => .inr ⟨rfl, rfl⟩⟩
      · exact ⟨rfl, rfl, rfl, fun _ => .inl rfl⟩

theorem explains_remove (session : Session) (id : String) :
    (Entry.removed (session.removeConnection id).1).Explains session.engine.records
      (session.removeConnection id).2.engine.records := by
  cases present : session.engine.bench with
  | error failure =>
      simp only [Session.removeConnection, Engine.removeConnection, present]
      exact ⟨rfl, rfl, rfl, fun _ => .inr ⟨rfl, rfl⟩⟩
  | ok bench =>
      simp only [Session.removeConnection, Engine.removeConnection, present]
      rcases bench.removeConnection id with ⟨failure | _ | _, after⟩
      · exact ⟨rfl, rfl, rfl, fun _ => .inr ⟨rfl, rfl⟩⟩
      · exact ⟨rfl, rfl, rfl, fun _ => .inr ⟨rfl, rfl⟩⟩
      · exact ⟨rfl, rfl, rfl, fun _ => .inl rfl⟩

theorem records_request (session : Session) (request : Request Task) :
    (session.request request).2.engine.records = session.engine.records :=
  Engine.records_perform ..

/-- A call that leaves the records alone needs no explanation. -/
theorem explains_served (records : Records) : Entry.served.Explains records records :=
  ⟨rfl, rfl, rfl, fun _ => .inr ⟨rfl, rfl⟩⟩

/-- A run that fails spoils the records and changes nothing else of them. -/
theorem explains_failed {engine : Engine} {before : Records} (same : engine.records = before)
    (failure : Failure) (yield : Yield) :
    (Entry.ran (.error failure) yield).Explains before engine.forget.records := by
  rw [Engine.forget, same]
  exact ⟨rfl, rfl, rfl, fun _ => .inl rfl⟩

section

variable {graph : Graph} {inputs : Values} {force : Bool}

/-- A run that fires records its outputs and the values of all places when it succeeds. -/
theorem explains_firings (held : session.engine.graph = some graph)
    (fresh : session.engine.answers graph inputs force = false) (visual : graph.mode = .visual) :
    (Entry.ran (session.exec inputs force).1 (session.yield inputs force)).Explains
      session.engine.records (session.exec inputs force).2.engine.records := by
  have stage : (session.started graph inputs).engine.graph =
      some (session.engine.opened graph inputs).graph := rfl
  have config : (session.started graph inputs).engine.config = session.engine.config := rfl
  have opening := Engine.opening_fresh held fresh
  have ran := exec_eq held fresh
  simp only [Graph.way, show (session.engine.opened graph inputs).graph.mode = .visual from visual,
    carryOut, config] at ran
  obtain ⟨net, board, frame, -⟩ := firePasses_frame session.engine.config.maxFirings 0 stage
  have kept : (firePasses session.engine.config.maxFirings 0
      (session.started graph inputs)).2.engine.records = session.engine.records := by
    rw [frame]
    rfl
  rcases fired : firePasses session.engine.config.maxFirings 0 (session.started graph inputs)
    with ⟨failure | total, next⟩
  · rw [fired] at kept ran
    rw [ran]
    exact explains_failed kept failure _
  · rw [fired] at frame kept ran
    obtain ⟨last, final⟩ : ∃ graph, next.engine.graph = some graph := by
      rw [frame]
      exact ⟨_, Engine.graph_withCircuit stage net board⟩
    simp only [close, Engine.close_recorded final] at ran
    have found : session.yield inputs force =
        .placeValues (Bench.mk last next.engine.board).placeValues := by
      simp only [yield, opening, visual, ran, Engine.bench?, final]
      rfl
    rw [found, ran]
    refine ⟨rfl, rfl, ?_, fun spoilt => (spoilt rfl).elim⟩
    have same := congrArg Records.planResults kept
    exact same

/-- A run that follows the plan records its outputs and the results of the plan when it
succeeds. -/
theorem explains_plan (held : session.engine.graph = some graph)
    (fresh : session.engine.answers graph inputs force = false)
    (function : graph.mode = .function) :
    (Entry.ran (session.exec inputs force).1 (session.yield inputs force)).Explains
      session.engine.records (session.exec inputs force).2.engine.records := by
  have stage : (session.started graph inputs).engine.graph =
      some (session.engine.opened graph inputs).graph := rfl
  have opening := Engine.opening_fresh held fresh
  have ran := exec_eq held fresh
  simp only [Graph.way,
    show (session.engine.opened graph inputs).graph.mode = .function from function,
    carryOut] at ran
  generalize graph.mergeGlobals session.engine.board inputs = merged at opening ran
  obtain ⟨board, frame⟩ := followPlan_frame stage merged
  have kept : ((session.started graph inputs).followPlan merged).2.engine.records =
      session.engine.records := by
    rw [frame]
    rfl
  rcases walked : (session.started graph inputs).followPlan merged with ⟨failure | results, last⟩
  · rw [walked] at kept ran
    rw [ran]
    exact explains_failed kept failure _
  · rw [walked] at frame kept ran
    have final : last.engine.graph = some (session.engine.opened graph inputs).graph := by
      rw [frame, stage]
    simp only [close, Engine.close_recorded final] at ran
    have found : session.yield inputs force = .planResults results := by
      simp only [yield, opening, function]
      exact congrArg (fun walked => Yield.planResults (walked.1.toOption.getD ∅)) walked
    rw [found, ran]
    refine ⟨rfl, ?_, rfl, fun spoilt => (spoilt rfl).elim⟩
    have same := congrArg Records.placeValues kept
    exact same

end

/-- A run records what it finds when it succeeds, and spoils the records when it fails. -/
theorem explains_exec (session : Session) (inputs : Values) (force : Bool) :
    (Entry.ran (session.exec inputs force).1 (session.yield inputs force)).Explains
      session.engine.records (session.exec inputs force).2.engine.records := by
  cases held : session.engine.graph with
  | none =>
      have missing : session.exec inputs force =
          (.error .notBuilt, { session with engine := session.engine.forget }) := by
        simp [exec, run, Engine.opening, Engine.bench, Engine.bench?, held]
      rw [missing]
      exact explains_failed rfl _ _
  | some graph =>
      cases answered : session.engine.answers graph inputs force with
      | true =>
          rw [exec_recorded held answered, yield, Engine.opening_recorded held answered]
          exact ⟨rfl, rfl, rfl, fun spoilt => (spoilt rfl).elim⟩
      | false =>
          cases mode : graph.mode with
          | visual => exact explains_firings held answered mode
          | function => exact explains_plan held answered mode

/-- What a call came to explains what it made of the records. -/
theorem explains_make (session : Session) (call : Call) :
    (session.make call).1.Explains session.engine.records
      (session.make call).2.engine.records := by
  cases call with
  | build config cards globals => exact explains_build ..
  | exec inputs force => exact explains_exec ..
  | executeNode id inputs =>
      have kept : (session.executeNode id inputs).2.engine.records = session.engine.records := by
        unfold executeNode
        split
        · rfl
        · exact records_request ..
      simp only [make, kept]
      exact explains_served _
  | setInput place value =>
      have kept : (session.setInput place value).2.engine.records = session.engine.records :=
        session.records_request (Task.userInput place value)
      simp only [make, kept]
      exact explains_served _
  | add connection => exact explains_add ..
  | remove id => exact explains_remove ..
  | discard => exact ⟨rfl, rfl, rfl, fun _ => .inl rfl⟩

/-! ## The records as the log tells them -/

/-- The records are what a log tells. -/
structure Told (log : List Entry) (records : Records) : Prop where
  outputs : records.outputs = latest Entry.outputs? ∅ log
  placeValues : records.placeValues = latest Entry.placeValues? ∅ log
  planResults : records.planResults = latest Entry.planResults? ∅ log
  memo : latest Entry.spoils? true log = true → records.memo = none

@[simp] theorem latest_cons {α : Type} (tells : Entry → Option α) (first : α) (entry : Entry)
    (log : List Entry) :
    latest tells first (entry :: log) = (tells entry).getD (latest tells first log) := by
  unfold latest
  rw [List.findSome?_cons]
  cases tells entry <;> rfl

theorem Told.cons {before after : Records} (told : Told log before)
    (explains : entry.Explains before after) : Told (entry :: log) after where
  outputs := by rw [latest_cons, ← told.outputs, explains.outputs]
  placeValues := by rw [latest_cons, ← told.placeValues, explains.placeValues]
  planResults := by rw [latest_cons, ← told.planResults, explains.planResults]
  memo := by
    intro spoilt
    rw [latest_cons] at spoilt
    rcases explains.memo (fun fine => by simp [fine] at spoilt) with none | ⟨silent, same⟩
    · exact none
    · rw [silent] at spoilt
      rw [same]
      exact told.memo spoilt

/-- The records of a session are what its log tells, after all calls that were made. -/
theorem Told.makeAll (told : Told log session.engine.records) (calls : List Call) :
    Told (session.makeAll log calls).1 (session.makeAll log calls).2.engine.records := by
  induction calls generalizing session log with
  | nil => exact told
  | cons call rest ih => exact ih (told.cons (explains_make session call))

/-- After any calls that were made one after the other, the recorded outputs are those of the
latest run that succeeded since the latest graph was taken over or given up, and the recorded
values of places and results of the plan are those of the latest such run that found any. No run
is answered from the records when none has succeeded since a run failed, or since a graph was
taken over or changed. -/
theorem records_tell_last_run (config : EngineConfig) (board : Board) (calls : List Call)
    {log : List Entry} {session : Session}
    (made : (idle config board).makeAll [] calls = (log, session)) :
    session.engine.records.outputs = latest Entry.outputs? ∅ log ∧
      session.engine.records.placeValues = latest Entry.placeValues? ∅ log ∧
      session.engine.records.planResults = latest Entry.planResults? ∅ log ∧
      (latest Entry.spoils? true log = true → ∀ inputs force outputs,
        (session.engine.opening inputs force).1 ≠ .ok (.recorded outputs)) := by
  have start : Told [] (idle config board).engine.records := ⟨rfl, rfl, rfl, fun _ => rfl⟩
  have told := start.makeAll calls
  rw [made] at told
  refine ⟨told.outputs, told.placeValues, told.planResults, ?_⟩
  intro spoilt inputs force outputs recorded
  exact Engine.memo_ne_none_of_opening recorded (told.memo spoilt)

end Session

namespace Fuse

/-- A card that blows when it is switched off. -/
def design : CardDesign where
  id := "fuse"
  title := "fuse"
  anchors := [⟨"on", .input, none, none, false⟩, ⟨"out", .output, none, none, false⟩]
  delay := 0
  work := .function fun arguments =>
    match arguments.get? "on" with
    | some (.bool false) => .error "blown"
    | _ => .ok ((∅ : Values).insert "out" (.bool true))
  runtime := none

def seated : List Card × Board := Board.empty.seatAll [design]

/-- The second run is answered from the records, the third fails. -/
def calls : List Session.Call :=
  [.build ⟨"fuse", []⟩ seated.1 none, .exec ∅ false, .exec ∅ false,
    .setInput "place_fuse_on" (.bool false), .exec ∅ false]

end Fuse

namespace Session

/-- The fuse has blown: the outputs are those from before, but no run is answered with them. -/
theorem records_tell_last_run_fuse :
    ∃ log session, (idle .standard Fuse.seated.2).makeAll [] Fuse.calls = (log, session) ∧
      latest Entry.spoils? true log = true ∧
      session.engine.records.outputs = latest Entry.outputs? ∅ log ∧
      (session.engine.records.outputs.get? "fuse_out").any (Value.agrees (.bool true)) = true ∧
      ∀ inputs force outputs,
        (session.engine.opening inputs force).1 ≠ .ok (.recorded outputs) := by
  have ran : latest Entry.spoils? true
        ((idle .standard Fuse.seated.2).makeAll [] Fuse.calls).1 = true ∧
      (((idle .standard Fuse.seated.2).makeAll [] Fuse.calls).2.engine.records.outputs.get?
        "fuse_out").any (Value.agrees (.bool true)) = true := by decide +kernel
  obtain ⟨outputs, -, -, unrecorded⟩ := records_tell_last_run .standard Fuse.seated.2 Fuse.calls rfl
  exact ⟨_, _, rfl, ran.1, outputs, ran.2, unrecorded ran.1⟩

end Session

end CardNet
