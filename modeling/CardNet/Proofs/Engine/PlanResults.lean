import CardNet.Proofs.Engine.Logs
import CardNet.Proofs.Engine.PlanAgreement
import CardNet.Proofs.Graph.ExitOutputs
import CardNet.Proofs.Graph.Restraints

/-!
# Results of plans and outputs of runs

The results of a plan are noted in the middle of a run, the outputs are read off at its end. For the
places of anchors they agree, whatever inputs the run was given: what may write an anchor leads to
its place (`Circuit.Aimed`) and so comes before it in the plan, and an action leaves alone the
anchors that it does not write (`Action.read_act`). So what is noted for the place of an anchor is
what the anchor holds when the plan has been run (`Plan.noted_eq_read`), and so are the outputs of
the run (`Session.results_match_outputs`).
-/

namespace CardNet

/-! ## What actions leave alone -/

/-- The action of a transition of a graph leaves alone the anchors that it does not write, also when
it fails. -/
theorem Action.read_act {cards : List Card} {channel : Nat} {action : Action}
    (serves : action.Serves cards channel) {board : Board} {anchor : Anchor}
    (untouched : ¬action.Writes anchor.slot) :
    (action.act board).2.read anchor = board.read anchor := by
  rcases serves with rfl | ⟨source, target, rfl⟩ | ⟨card, -, rfl⟩
  · rfl
  · have other : target.slot ≠ anchor.slot := fun same =>
      untouched ⟨target, List.mem_singleton_self _, same⟩
    exact (board.read_write target anchor _).trans (if_neg other)
  · have outputs : ∀ output ∈ card.anchorsOf .output, output.slot ≠ anchor.slot := by
      intro output known same
      exact untouched ⟨output, by rwa [Card.writes_action], same⟩
    unfold Card.action
    split <;> exact Card.read_call outputs

/-! ## What plans note -/

/-- A step that leaves an anchor as it is. -/
def PlanStep.Spares (anchor : Anchor) : PlanStep → Prop
  | .act _ action => ∀ board, (action.act board).2.read anchor = board.read anchor
  | .read _ _ => True

namespace Plan

section

variable {step : PlanStep} {steps rest : List PlanStep} {limit : Option Nat}
  {results noted : Values} {board after : Board} {name : String} {content : Content}
  {anchor : Anchor}

/-- When steps are run to their end, so are those behind the first. The first notes something for
its own node only: for a place, what the anchor of the place holds. -/
theorem runSteps_cons
    (done : runSteps limit (step :: rest) results board = (.finished noted, after)) :
    ∃ left added middle, runSteps left rest added middle = (.finished noted, after) ∧
      (∀ name, name ≠ step.id → added.get? name = results.get? name) ∧
      (∀ anchor, step.Spares anchor → middle.read anchor = board.read anchor) ∧
      ∀ id content anchor, step = .read id content → content.anchor? = some anchor →
        added.get? id = some (board.read anchor) := by
  have others : ∀ id value name, name ≠ id → (results.insert id value).get? name =
      results.get? name := fun id value name other => by rw [Values.get?_insert, if_neg other]
  cases step with
  | act id action =>
      simp only [runSteps] at done
      split at done
      · cases done
      · next left _ =>
          split at done
          · cases done
          · next value middle finished =>
              have acted : (action.act board).2 = middle := congrArg Prod.snd finished
              exact ⟨left, _, middle, done, others id value,
                fun anchor spares => acted ▸ spares board, fun _ _ _ same => by cases same⟩
  | read id content =>
      simp only [runSteps] at done
      split at done
      · next value shown =>
          refine ⟨limit, _, board, done, others id value, fun _ _ => rfl, ?_⟩
          rintro _ _ anchor ⟨⟩ shows
          rw [Content.value?, shows, Option.map_some] at shown
          rw [Values.get?_insert, if_pos rfl, shown]
      · next blank =>
          refine ⟨limit, _, board, done, fun _ _ => rfl, fun _ _ => rfl, ?_⟩
          rintro _ _ anchor ⟨⟩ shows
          rw [Content.value?, shows] at blank
          cases blank

/-- Steps that spare an anchor and do not stand for a node leave what is noted for the node, and
what the anchor holds. -/
theorem unchanged_of_runSteps (spares : ∀ step ∈ steps, step.Spares anchor)
    (other : name ∉ steps.map PlanStep.id)
    (done : runSteps limit steps results board = (.finished noted, after)) :
    noted.get? name = results.get? name ∧ after.read anchor = board.read anchor := by
  induction steps generalizing limit results board with
  | nil =>
      cases done
      exact ⟨rfl, rfl⟩
  | cons step rest ih =>
      rw [List.map_cons, List.mem_cons, not_or] at other
      obtain ⟨left, added, middle, later, kept, read, -⟩ := runSteps_cons done
      obtain ⟨same, held⟩ := ih (fun step member => spares step (List.mem_cons_of_mem _ member))
        other.2 later
      exact ⟨same.trans (kept name other.1),
        held.trans (read anchor (spares step (List.mem_cons_self ..)))⟩

/-- When all steps behind a place spare the anchor of the place, what is noted for the place is
what the anchor holds at the end. -/
theorem noted_of_runSteps (shows : content.anchor? = some anchor)
    (distinct : (steps.map PlanStep.id).Nodup)
    (spares : steps.Pairwise fun early late => early = .read name content → late.Spares anchor)
    (member : .read name content ∈ steps)
    (done : runSteps limit steps results board = (.finished noted, after)) :
    noted.get? name = some (after.read anchor) := by
  induction steps generalizing limit results board with
  | nil => cases member
  | cons step rest ih =>
      rw [List.map_cons, List.nodup_cons] at distinct
      obtain ⟨ahead, spares⟩ := List.pairwise_cons.mp spares
      obtain ⟨left, added, middle, later, -, read, notes⟩ := runSteps_cons done
      rcases List.mem_cons.mp member with rfl | member
      · obtain ⟨same, held⟩ :=
          unchanged_of_runSteps (fun step member => ahead step member rfl) distinct.1 later
        refine same.trans ?_
        rw [held, read anchor trivial]
        exact notes name content anchor rfl shows
      · exact ih distinct.2 spares member later

end

section

variable {net : Circuit} {entries path : List String} {steps : List (Option PlanStep)}
  {plan : Plan} {step : PlanStep}

/-- A plan has its steps from the nodes of its path. -/
theorem step?_of_mem (made : path.mapM (step? net) = .ok steps)
    (member : step ∈ steps.filterMap id) : step? net step.id = .ok (some step) := by
  induction path generalizing steps with
  | nil =>
      cases made
      cases member
  | cons node rest ih =>
      obtain ⟨first, later, one, others, rfl⟩ := mapM_cons_eq_ok made
      rcases step?_spec one with ⟨action, -, rfl⟩ | ⟨-, content, -, -, rfl⟩ | ⟨-, rfl⟩
      · rcases List.mem_cons.mp member with rfl | member
        · exact one
        · exact ih others member
      · rcases List.mem_cons.mp member with rfl | member
        · exact one
        · exact ih others member
      · exact ih others member

/-- A plan runs the nodes of its path in order. -/
theorem order_sublist (made : ofPath net entries path = .ok plan) : plan.order.Sublist path := by
  obtain ⟨steps, mapped, same⟩ := ofPath_eq_ok made
  rw [order, same]
  clear made same
  induction path generalizing steps with
  | nil =>
      cases mapped
      exact .slnil
  | cons node rest ih =>
      obtain ⟨first, later, one, others, rfl⟩ := mapM_cons_eq_ok mapped
      rcases step?_spec one with ⟨action, -, rfl⟩ | ⟨-, content, -, -, rfl⟩ | ⟨-, rfl⟩
      · exact (ih later others).cons_cons node
      · exact (ih later others).cons_cons node
      · exact (ih later others).cons node

/-- No arc leads back along a plan. -/
theorem pairwise_order (tidy : net.Tidy) (made : ofEntries net entries = .ok plan) :
    plan.order.Nodup ∧ plan.order.Pairwise fun early late => ¬net.Joins late early := by
  obtain ⟨path, found, walked⟩ := ofEntries_eq_ok made
  have region := Net.regionOrder_spec tidy.plain tidy.nodup_nodes found
  have along := order_sublist walked
  refine ⟨region.nodup.sublist along, .sublist along ?_⟩
  rw [List.pairwise_iff_getElem]
  intro i j hi hj before joins
  have behind := region.idxOf_le (List.getElem_mem hj) joins
    (region.within _ (List.getElem_mem hi))
  rw [region.nodup.idxOf_getElem, region.nodup.idxOf_getElem] at behind
  omega

end

/-- What is noted for the place of an anchor is what the anchor holds when the plan has been run. -/
theorem noted_eq_read {net : Circuit} {cards : List Card} {channel : Nat} {entries : List String}
    {plan : Plan} {limit : Option Nat} {inputs results : Values} {board after : Board}
    (tidy : net.Tidy) (aimed : net.Aimed cards) (slots : DistinctSlots cards)
    (staffed : ∀ id action, net.transitions.get? id = some action → action.Serves cards channel)
    (arrows : ∀ id ∈ net.nodes, ArrowFree id) (made : ofEntries net entries = .ok plan)
    (done : plan.run limit inputs board = (.finished results, after)) {place card : String}
    {anchor : Anchor} (planned : place ∈ plan.order)
    (shows : net.content? place = some (.anchor card anchor)) :
    results.get? place = some (after.read anchor) := by
  obtain ⟨path, found, walked⟩ := ofEntries_eq_ok made
  obtain ⟨steps, mapped, same⟩ := ofPath_eq_ok walked
  obtain ⟨distinct, ahead⟩ := pairwise_order tidy made
  have inside : place ∈ net.nodes :=
    (Net.regionOrder_spec tidy.plain tidy.nodup_nodes found).within place
      ((order_sublist walked).subset planned)
  -- The place is read, since it is no transition.
  have read : .read place (.anchor card anchor) ∈ plan.steps := by
    obtain ⟨step, member, rfl⟩ := List.mem_map.mp planned
    rcases step?_spec (step?_of_mem mapped (same ▸ member)) with ⟨action, transition, -⟩ |
      ⟨-, content, held, -, here⟩ | ⟨-, none⟩
    · obtain ⟨held, present, -⟩ := Option.bind_eq_some_iff.mp shows
      have named := tidy.place step.id (Registry.mem_names_of_get? present)
      rw [tidy.transition step.id (Registry.mem_names_of_get? transition)] at named
      cases named
    · obtain rfl := Option.some.inj (held.symm.trans shows)
      exact Option.some.inj here ▸ member
    · cases none
  refine noted_of_runSteps rfl distinct ?_ read done
  refine (List.pairwise_map.mp ahead).imp_of_mem fun {early late} _ member apart first => ?_
  subst first
  cases late with
  | read => trivial
  | act id action =>
      -- What writes the anchor leads to its place, so it is not behind the place.
      have transition : net.transitions.get? id = some action := get?_of_ofEntries made member
      have known : id ∈ net.nodes :=
        List.mem_append_right _ (Registry.mem_names_of_get? transition)
      refine fun board => Action.read_act (staffed id action transition) ?_
      rintro ⟨written, writes, same⟩
      obtain ⟨label, owner, owned, rfl, slot⟩ := aimed.place place card anchor shows
      obtain ⟨other, others, inner, leads⟩ := aimed.write id action transition written writes
      obtain ⟨rfl, rfl⟩ := slots other others written inner owner owned anchor slot same
      exact apart (label ▸ leads (arrows id known) (label ▸ arrows place inside))

end Plan

/-! ## What runs answer -/

namespace Session

variable {session after : Session} {graph : Graph} {plan : Plan} {inputs outputs : Values}
  {force : Bool}

/-- A run that follows the plan and succeeds has followed it to its end. It records the results of
the plan, and its outputs are read off the board that the plan leaves. -/
theorem followPlan_of_exec (held : session.engine.graph = some graph)
    (fresh : session.engine.answers graph inputs force = false)
    (function : graph.mode = .function) (ran : session.exec inputs force = (.ok outputs, after)) :
    ∃ last, (session.started graph inputs).followPlan
        (graph.mergeGlobals session.engine.board inputs) =
          (.ok after.engine.records.planResults, last) ∧
      after.engine.board = last.engine.board ∧
      outputs = (Bench.mk graph last.engine.board).outputs := by
  have stage : (session.started graph inputs).engine.graph =
      some (session.engine.opened graph inputs).graph := rfl
  rw [exec_eq held fresh] at ran
  simp only [Graph.way,
    show (session.engine.opened graph inputs).graph.mode = .function from function,
    carryOut] at ran
  obtain ⟨board, frame⟩ :=
    followPlan_frame stage (graph.mergeGlobals session.engine.board inputs)
  rcases walked : (session.started graph inputs).followPlan
      (graph.mergeGlobals session.engine.board inputs) with ⟨failure | results, last⟩
  · rw [walked] at ran
    cases ran
  · rw [walked] at frame ran
    have final : last.engine.graph = some (session.engine.opened graph inputs).graph := by
      rw [frame, stage]
    simp only [close, Engine.close_recorded final] at ran
    cases ran
    exact ⟨last, rfl, rfl, Bench.outputs_of_bare (session.engine.bare_opened graph inputs) rfl⟩

/-- A run of a graph in function mode that is not answered from the records and succeeds has
recorded for the place of each anchor in the plan what the anchor holds in the end. Among its
outputs stands the same, if the place is an exit. The inputs of the run may have any names, as long
as the anchors have values of their own and no name of a node has an arrow. -/
theorem results_match_outputs (held : session.engine.graph = some graph)
    (reached : Bench.Reached ⟨graph, session.engine.board⟩) (function : graph.mode = .function)
    (slots : DistinctSlots graph.cards) (arrows : ∀ id ∈ graph.net.nodes, ArrowFree id)
    (planned : graph.plan = some plan)
    (fresh : session.engine.answers graph inputs force = false)
    (ran : session.exec inputs force = (.ok outputs, after)) :
    ∀ place ∈ plan.order, ∀ card anchor,
      graph.net.content? place = some (.anchor card anchor) →
        after.engine.records.planResults.get? place = some (after.engine.board.read anchor) ∧
        (place ∈ graph.net.exitPlaces →
          outputs.get? (Endpoint.outputKey ⟨card, anchor.id⟩) =
            after.engine.records.planResults.get? place) := by
  intro place member card anchor shows
  obtain ⟨last, followed, board, rfl⟩ := followPlan_of_exec held fresh function ran
  have stage : (session.started graph inputs).engine.graph =
      some (session.engine.opened graph inputs).graph := rfl
  obtain ⟨walked, -⟩ := run_of_followPlan stage planned followed
  obtain ⟨-, made, -⟩ := reached.current function plan planned
  have noted := Plan.noted_eq_read reached.seated.tidy reached.aimed slots reached.staffed arrows
    made walked member shows
  refine ⟨by rw [noted, board], fun exit => ?_⟩
  rw [noted]
  exact Graph.get?_outputs reached.aimed.keyed shows exit last.engine.board

end Session

namespace Crossing

/-- An input that goes by the name of a place. -/
def named : Values := (∅ : Values).insert "place_x_out" (.ofNat 7)

/-- What a first run of a bench answers with for the exit place of a card, as a text, when no name
has an arrow and the plan reads the place. -/
def answered (bench : Bench) : Option String :=
  match bench.graph.plan, bench.graph.net.content? "place_x_out",
      (Session.mk ⟨.standard, some bench.graph, bench.board, .blank⟩ .zero).exec named true with
  | some plan, some (.anchor "x" _), (.ok outputs, _) =>
      if (∀ id ∈ bench.graph.net.nodes, ArrowFree id) ∧ "place_x_out" ∈ plan.order ∧
        "place_x_out" ∈ bench.graph.net.exitPlaces
      then (outputs.get? "x_out").map Value.compact else none
  | _, _, _ => none

end Crossing

namespace Session

/-- Two connections lead to the one input of a card, and an input of the run goes by the name of the
place of its output. -/
theorem results_match_outputs_crossing :
    ∃ (session after : Session) (graph : Graph) (plan : Plan) (outputs : Values) (anchor : Anchor),
      session.engine.graph = some graph ∧ Bench.Reached ⟨graph, session.engine.board⟩ ∧
      graph.mode = .function ∧ DistinctSlots graph.cards ∧
      (∀ id ∈ graph.net.nodes, ArrowFree id) ∧ graph.plan = some plan ∧
      session.engine.answers graph Crossing.named true = false ∧
      session.exec Crossing.named true = (.ok outputs, after) ∧
      "place_x_out" ∈ plan.order ∧ "place_x_out" ∈ graph.net.exitPlaces ∧
      graph.net.content? "place_x_out" = some (.anchor "x" anchor) ∧
      (outputs.get? "x_out").map Value.compact = some "1" ∧
      after.engine.records.planResults.get? "place_x_out" =
        some (after.engine.board.read anchor) ∧
      outputs.get? (Endpoint.outputKey ⟨"x", anchor.id⟩) =
        after.engine.records.planResults.get? "place_x_out" := by
  have answers : (Graph.buildWithin 60 Crossing.config Crossing.seated.1 Crossing.seated.2).bind
      Crossing.answered = some "1" := by decide +kernel
  obtain ⟨bench, found, answered⟩ := Option.bind_eq_some_iff.mp answers
  have built := Graph.build_of_within found
  obtain ⟨whole, function⟩ := Graph.built_of_build built
  have slots : DistinctSlots bench.graph.cards :=
    whole.cards_eq ▸ .of_nodup (by decide +kernel)
  unfold Crossing.answered at answered
  split at answered
  · next plan anchor outputs after planned shows ran =>
      split at answered
      · next clear =>
          obtain ⟨arrows, member, exit⟩ := clear
          obtain ⟨noted, match'⟩ := results_match_outputs rfl (.build built) function slots arrows
            planned rfl ran "place_x_out" member "x" anchor shows
          exact ⟨_, after, bench.graph, plan, outputs, anchor, rfl, .build built, function, slots,
            arrows, planned, rfl, ran, member, exit, shows, answered, noted, match' exit⟩
      · cases answered
  · cases answered

end Session

end CardNet
