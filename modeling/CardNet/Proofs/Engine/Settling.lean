import CardNet.Proofs.Engine.Replay
import CardNet.Proofs.Graph.Replanning

/-!
# What plans settle

A transition is settled on a board when doing its action again would change no value
(`Action.Settled`). In an orderly circuit no two transitions write one anchor, and whatever looks
at an anchor lies behind the transition that writes it (`Circuit.Orderly`). There a plan leaves all
transitions that it runs settled and unsettles no other (`Plan.swept_of_run`), and it answers with
what its nodes show at the end (`Plan.get?_of_run`). How often the transitions have run does not
matter: boards on which a region is settled hold the same values as soon as they do where the
region writes nothing (`Circuit.Swept.read_eq`).
-/

namespace CardNet

/-! ## Settled actions -/

namespace Action

variable {action : Action} {board other after : Board}

/-- What an action answers with on a board, if it succeeds. -/
def answer? (action : Action) (board : Board) : Option Value := (action.act board).1.toOption

/-- An action that has done what it would do. -/
def Settled (action : Action) (board : Board) : Prop :=
  ∃ writes, action.outcome board = some writes ∧
    ∀ anchor ∈ action.writes, (board.writeAll writes).read anchor = board.read anchor

private theorem toOption_call {card : Card} {run : Values → Except String Values}
    (work : card.work = .function run) (globals : Option Values) (board : Board) :
    (card.call none globals board).1.toOption =
      (run (card.arguments none globals board)).toOption.map Value.ofValues := by
  unfold Card.call Card.compute
  simp only [work]
  cases run (card.arguments none globals board) <;> rfl

private theorem arguments_congr {card : Card}
    (same : ∀ anchor ∈ card.anchorsOf .input, board.read anchor = other.read anchor)
    (globals : Option Values) :
    card.arguments none globals board = card.arguments none globals other := by
  have pairs : (card.anchorsOf .input).map (fun anchor => (anchor.id, board.read anchor)) =
      (card.anchorsOf .input).map fun anchor => (anchor.id, other.read anchor) :=
    List.map_congr_left fun anchor member => by rw [same anchor member]
  rw [Card.arguments, Card.arguments, Option.getD_none, Option.getD_none, Card.gather,
    Card.gather, pairs]

/-- What an action answers with depends on the values that it looks at and on the channels
only. -/
theorem answer?_congr (functional : action.Functional)
    (same : ∀ anchor ∈ action.reads, board.read anchor = other.read anchor)
    (channels : board.channel = other.channel) : action.answer? board = action.answer? other := by
  cases action with
  | split => rfl
  | transfer source target =>
      exact congrArg some (same source (List.mem_singleton_self source))
  | call card =>
      obtain ⟨run, work⟩ := functional
      refine (toOption_call work none board).trans (.trans ?_ (toOption_call work none other).symm)
      rw [arguments_congr same]
  | start card channel =>
      obtain ⟨run, work⟩ := functional
      refine (toOption_call work _ board).trans (.trans ?_ (toOption_call work _ other).symm)
      rw [arguments_congr same, channels]
  | scripted slot failOn move => exact functional.elim

theorem channel_play (functional : action.Functional) (played : action.play board = some after) :
    after.channel = board.channel := by
  rw [play_eq functional] at played
  obtain ⟨writes, -, rfl⟩ := Option.map_eq_some_iff.mp played
  rw [channel_count, Board.channel_writeAll]

/-- An action that succeeds without writing what it looks at is settled. -/
theorem settled_of_play (functional : action.Functional)
    (selfless : ∀ anchor ∈ action.reads, ¬action.Writes anchor.slot)
    (played : action.play board = some after) : action.Settled after := by
  have reads : ∀ anchor ∈ action.reads, after.read anchor = board.read anchor :=
    fun anchor member => read_play functional played fun written inside same =>
      selfless anchor member ⟨written, inside, same⟩
  have again := outcome_congr reads (channel_play functional played)
  rw [play_eq functional] at played
  obtain ⟨writes, done, rfl⟩ := Option.map_eq_some_iff.mp played
  refine ⟨writes, again.trans done, fun anchor _ => ?_⟩
  rw [Board.read_writeAll, read_count, Board.read_writeAll]
  cases writes.reverse.lookup anchor.slot <;> rfl

/-- An action stays settled as long as nothing changes that it looks at or writes. -/
theorem Settled.congr (settled : action.Settled board)
    (reads : ∀ anchor ∈ action.reads, other.read anchor = board.read anchor)
    (writes : ∀ anchor ∈ action.writes, other.read anchor = board.read anchor)
    (channels : other.channel = board.channel) : action.Settled other := by
  obtain ⟨written, done, same⟩ := settled
  refine ⟨written, (outcome_congr reads channels).trans done, fun anchor member => ?_⟩
  have kept := same anchor member
  rw [Board.read_writeAll] at kept ⊢
  rw [writes anchor member, kept]

theorem Settled.isSome_answer? (settled : action.Settled board) (functional : action.Functional) :
    (action.answer? board).isSome = true := by
  obtain ⟨writes, done, -⟩ := settled
  have played := play_eq functional board
  rw [done, Option.map_some, play] at played
  split at played
  · next acted => rw [answer?, acted]; rfl
  · cases played

/-- Settled actions that look at the same values have written the same values. -/
theorem Settled.read_eq (first : action.Settled board) (second : action.Settled other)
    (complete : ∀ card, action.card? = some card → card.Complete)
    (reads : ∀ anchor ∈ action.reads, board.read anchor = other.read anchor)
    (channels : board.channel = other.channel) {anchor : Anchor} (written : anchor ∈ action.writes) :
    board.read anchor = other.read anchor := by
  obtain ⟨writes, done, same⟩ := first
  obtain ⟨others, again, equal⟩ := second
  obtain rfl : writes = others :=
    Option.some.inj (done.symm.trans ((outcome_congr reads channels).trans again))
  have inside : anchor.slot ∈ writes.map Prod.fst :=
    mem_slots_of_outcome (fun card calls => (complete card calls).steady_eq) done
      ⟨anchor, written, rfl⟩
  have written' : RelatedWrites (· = ·) writes writes :=
    List.forall₂_same.mpr fun _ _ => ⟨rfl, rfl⟩
  rw [← same anchor written, ← equal anchor written]
  exact Board.related_writeAll written' fun absent => absurd inside absent

end Action

/-! ## Orderly circuits -/

namespace Circuit

variable {net : Circuit} {trace : List String} {board after other : Board} {id : String}

/-- The anchors whose values a node looks at. -/
def looksAt (net : Circuit) (id : String) : List Anchor :=
  match net.transitions.get? id with
  | some action => action.reads
  | none => ((net.content? id).bind Content.anchor?).toList

/-- What a plan notes for a node on a board. -/
def shown? (net : Circuit) (id : String) (board : Board) : Option Value :=
  match net.transitions.get? id with
  | some action => action.answer? board
  | none => (net.content? id).bind fun content => content.value? board

/-- A node for which a plan notes something. -/
def Legible (net : Circuit) (id : String) : Prop :=
  (net.transitions.get? id).isSome ∨ ((net.content? id).bind Content.anchor?).isSome

/-- A transition writes an anchor that a node looks at. -/
def Touches (net : Circuit) (first second : String) : Prop :=
  ∃ action, net.transitions.get? first = some action ∧
    ∃ anchor ∈ net.looksAt second, action.Writes anchor.slot

/-- No two transitions write one anchor, and the nodes that look at what a transition writes lie
behind it. -/
structure Orderly (net : Circuit) : Prop where
  sole : ∀ first second one two, net.transitions.get? first = some one →
    net.transitions.get? second = some two → ∀ slot, one.Writes slot → two.Writes slot →
      first = second
  behind : ∀ first second, net.Touches first second → first ≠ second ∧ net.Reaches first second

theorem looksAt_eq {action : Action} (found : net.transitions.get? id = some action) :
    net.looksAt id = action.reads := by
  rw [looksAt, found]

theorem shown?_eq {action : Action} (found : net.transitions.get? id = some action) :
    net.shown? id = action.answer? := by
  funext board
  rw [shown?, found]

/-- Who looks at an anchor has something to show. -/
theorem legible_of_mem_looksAt {anchor : Anchor} (member : anchor ∈ net.looksAt id) :
    net.Legible id := by
  unfold looksAt at member
  split at member
  · next action found => exact .inl (by rw [found]; rfl)
  · exact .inr (Option.isSome_iff_exists.mpr ⟨anchor, Option.mem_toList.mp member⟩)

/-- What a node shows depends on the values that it looks at and on the channels only. -/
theorem shown?_congr (functional : net.Functional)
    (same : ∀ anchor ∈ net.looksAt id, board.read anchor = other.read anchor)
    (channels : board.channel = other.channel) : net.shown? id board = net.shown? id other := by
  cases found : net.transitions.get? id with
  | some action =>
      rw [shown?_eq found]
      rw [looksAt_eq found] at same
      exact Action.answer?_congr (functional id action found) same channels
  | none =>
      rw [looksAt, found] at same
      rw [shown?, shown?, found]
      cases held : net.content? id with
      | none => rfl
      | some content =>
          rw [held] at same
          simp only [Option.bind_some, Content.value?]
          cases shows : content.anchor? with
          | none => rfl
          | some anchor =>
              rw [Option.map_some, Option.map_some, same anchor (by simp [shows])]

/-- A legible node shows something when its action is settled, if it has one. -/
theorem isSome_shown? (functional : net.Functional) (legible : net.Legible id)
    (settled : ∀ action, net.transitions.get? id = some action → action.Settled board) :
    (net.shown? id board).isSome = true := by
  cases found : net.transitions.get? id with
  | some action =>
      rw [shown?_eq found]
      exact (settled action found).isSome_answer? (functional id action found)
  | none =>
      obtain ⟨anchor, shows⟩ := Option.isSome_iff_exists.mp
        (legible.resolve_left (by rw [found]; exact Bool.false_ne_true))
      obtain ⟨content, held, same⟩ := Option.bind_eq_some_iff.mp shows
      rw [shown?, found]
      simp only [held, Option.bind_some, Content.value?, same, Option.map_some, Option.isSome_some]

theorem Functional.channel_playAll (functional : net.Functional)
    (played : net.playAll trace board = some after) : after.channel = board.channel := by
  induction trace generalizing board with
  | nil =>
      cases played
      rfl
  | cons transition rest ih =>
      rw [playAll_cons] at played
      obtain ⟨next, here, others⟩ := Option.bind_eq_some_iff.mp played
      obtain ⟨action, found, acted⟩ := Option.bind_eq_some_iff.mp here
      rw [ih others, Action.channel_play (functional _ _ found) acted]

/-- Transitions that touch a node in nothing leave alone what it looks at. -/
theorem Functional.read_untouched (functional : net.Functional)
    (played : net.playAll trace board = some after)
    (untouched : ∀ other ∈ trace, ¬net.Touches other id) :
    ∀ anchor ∈ net.looksAt id, after.read anchor = board.read anchor :=
  fun anchor member => functional.read_playAll played fun other inside action found written =>
    untouched other inside ⟨action, found, anchor, member, written⟩

theorem Functional.shown?_untouched (functional : net.Functional)
    (played : net.playAll trace board = some after)
    (untouched : ∀ other ∈ trace, ¬net.Touches other id) :
    net.shown? id after = net.shown? id board :=
  shown?_congr functional (functional.read_untouched played untouched)
    (functional.channel_playAll played)

namespace Orderly

variable (orderly : net.Orderly) (functional : net.Functional)
include orderly

theorem not_touches_self (id : String) : ¬net.Touches id id :=
  fun touches => (orderly.behind id id touches).1 rfl

include functional

/-- Other transitions that do not touch a settled one leave it settled. -/
theorem settled_playAll {action : Action} (found : net.transitions.get? id = some action)
    (settled : action.Settled board) (other : id ∉ trace)
    (untouched : ∀ other ∈ trace, ¬net.Touches other id)
    (played : net.playAll trace board = some after) : action.Settled after := by
  refine settled.congr ?_ (fun anchor written => ?_) (functional.channel_playAll played)
  · exact looksAt_eq found ▸ functional.read_untouched played untouched
  · refine functional.read_playAll played fun second inside two here writes => other ?_
    rw [orderly.sole id second action two found here anchor.slot ⟨anchor, written, rfl⟩ writes]
    exact inside

/-- Transitions in an order in which none touches an earlier one are all settled in the end. -/
theorem settles (distinct : trace.Nodup)
    (forward : trace.Pairwise fun early late => ¬net.Touches late early)
    (played : net.playAll trace board = some after) :
    ∀ id ∈ trace, ∀ action, net.transitions.get? id = some action → action.Settled after := by
  induction trace generalizing board with
  | nil => exact fun _ member => absurd member List.not_mem_nil
  | cons transition rest ih =>
      rw [playAll_cons] at played
      obtain ⟨next, here, others⟩ := Option.bind_eq_some_iff.mp played
      obtain ⟨fresh, distinct⟩ := List.nodup_cons.mp distinct
      obtain ⟨first, forward⟩ := List.pairwise_cons.mp forward
      intro id member action found
      rcases List.mem_cons.mp member with rfl | later
      · obtain ⟨own, same, acted⟩ := Option.bind_eq_some_iff.mp here
        obtain rfl := Option.some.inj (same.symm.trans found)
        have settled : own.Settled next := by
          refine Action.settled_of_play (functional _ _ found) (fun anchor read written => ?_) acted
          exact orderly.not_touches_self _ ⟨own, found, anchor, looksAt_eq found ▸ read, written⟩
        exact orderly.settled_playAll functional found settled fresh first others
      · exact ih distinct forward others id later action found

end Orderly

end Circuit

/-- In an orderly circuit no node of a region touches one that comes before it. -/
theorem Net.RegionOrder.pairwise {net : Circuit} {starts order : List String}
    (region : net.RegionOrder starts order) (orderly : net.Orderly) :
    order.Pairwise fun early late => ¬net.Touches late early := by
  rw [List.pairwise_iff_getElem]
  intro i j hi hj before touches
  obtain ⟨differ, leads⟩ := orderly.behind _ _ touches
  have behind := region.idxOf_lt (List.getElem_mem hj) leads differ
  rw [region.nodup.idxOf_getElem, region.nodup.idxOf_getElem] at behind
  omega

/-! ## What a run of a plan does -/

/-- Some nodes have been run: what they do not write is as before, their transitions are settled
and so are those that were settled before, and no other node shows anything else. -/
structure Circuit.Swept (net : Circuit) (covered : String → Prop) (board after : Board) : Prop where
  channel : after.channel = board.channel
  kept : ∀ anchor, (∀ id, covered id → ∀ action, net.transitions.get? id = some action →
    ¬action.Writes anchor.slot) → after.read anchor = board.read anchor
  settled : ∀ id action, net.transitions.get? id = some action →
    covered id ∨ action.Settled board → action.Settled after
  shown : ∀ id, ¬covered id → net.shown? id after = net.shown? id board

namespace Circuit.Swept

variable {net : Circuit} {covered more : String → Prop} {board middle after : Board}

theorem refl (net : Circuit) (board : Board) : net.Swept (fun _ => False) board board where
  channel := rfl
  kept := fun _ _ => rfl
  settled := fun _ _ _ either => either.resolve_left id
  shown := fun _ _ => rfl

theorem trans (first : net.Swept covered board middle) (second : net.Swept more middle after) :
    net.Swept (fun id => covered id ∨ more id) board after where
  channel := second.channel.trans first.channel
  kept := fun anchor unwritten =>
    (second.kept anchor fun id inside => unwritten id (.inr inside)).trans
      (first.kept anchor fun id inside => unwritten id (.inl inside))
  settled := fun id action found either => second.settled id action found <|
    either.elim
      (fun inside => inside.symm.imp_right fun early => first.settled id action found (.inl early))
      fun settled => .inr (first.settled id action found (.inr settled))
  shown := fun id outside => by
    rw [not_or] at outside
    rw [second.shown id outside.2, first.shown id outside.1]

theorem congr (swept : net.Swept covered board after) (same : ∀ id, covered id ↔ more id) :
    net.Swept more board after :=
  (funext fun id => propext (same id) : covered = more) ▸ swept

/-- An anchor has one value on both of two boards when those who write it have written one value:
either one of the nodes writes it, or it is as it was. -/
theorem read_eq_of_writers {first second : Board} (left : net.Swept covered board first)
    (right : net.Swept covered board second) {anchor : Anchor}
    (agree : ∀ id, covered id → ∀ action, net.transitions.get? id = some action →
      ∀ written ∈ action.writes, written.slot = anchor.slot →
        first.read written = second.read written) : first.read anchor = second.read anchor := by
  by_cases writer : ∃ id, covered id ∧ ∃ action,
      net.transitions.get? id = some action ∧ action.Writes anchor.slot
  · obtain ⟨id, inside, action, found, written, writes, same⟩ := writer
    have equal := agree id inside action found written writes same
    rwa [Board.read, Board.read, same] at equal
  · have unwritten : ∀ id, covered id → ∀ action, net.transitions.get? id = some action →
        ¬action.Writes anchor.slot :=
      fun id inside action found writes => writer ⟨id, inside, action, found, writes⟩
    rw [left.kept anchor unwritten, right.kept anchor unwritten]

end Circuit.Swept

namespace Plan

variable {net : Circuit} {entries path : List String} {steps : List (Option PlanStep)}
  {plan : Plan} {limit : Option Nat} {inputs results noted : Values} {board after : Board}

/-- The step for a node does its action or reads its anchor; a node that is not legible has
none. -/
theorem step?_spec {node : String} {step : Option PlanStep} (made : step? net node = .ok step) :
    (∃ action, net.transitions.get? node = some action ∧ step = some (.act node action)) ∨
    (net.transitions.get? node = none ∧ ∃ content, net.content? node = some content ∧
      content.isReadable = true ∧ step = some (.read node content)) ∨
    (¬net.Legible node ∧ step = none) := by
  unfold step? at made
  split at made
  · next action found =>
      cases made
      exact .inl ⟨action, found, rfl⟩
  · next absent =>
      split at made
      · next place found =>
          obtain rfl := Except.ok.inj made
          have held : net.content? node = place.content := by rw [Net.content?, found]; rfl
          cases content : place.content with
          | none => exact .inr (.inr ⟨by simp [Circuit.Legible, absent, held, content], rfl⟩)
          | some content' =>
              by_cases readable : content'.isReadable = true
              · refine .inr (.inl ⟨absent, content', held.trans content, readable, ?_⟩)
                rw [Option.filter_some_pos readable]
                rfl
              · refine .inr (.inr ⟨?_, ?_⟩)
                · simpa [Circuit.Legible, absent, held, content, Content.isReadable] using readable
                · rw [Option.filter_some_neg (by simpa using readable)]
                  rfl
      · cases made

/-- There are steps for the legible nodes of a path. -/
theorem mem_steps (made : path.mapM (step? net) = .ok steps) {node : String} :
    node ∈ (steps.filterMap id).map PlanStep.id ↔ node ∈ path ∧ net.Legible node := by
  induction path generalizing steps with
  | nil =>
      cases made
      simp
  | cons head rest ih =>
      obtain ⟨first, later, one, others, rfl⟩ := mapM_cons_eq_ok made
      rw [List.mem_cons, or_and_right, ← ih others]
      rcases step?_spec one with ⟨action, found, rfl⟩ | ⟨-, content, held, readable, rfl⟩ |
        ⟨illegible, rfl⟩
      · have legible : net.Legible head := .inl (by rw [found]; rfl)
        simp only [List.filterMap_cons, id_eq, List.map_cons, List.mem_cons, PlanStep.id]
        exact or_congr_left ⟨fun same => ⟨same, same ▸ legible⟩, And.left⟩
      · have legible : net.Legible head := .inr (by rw [held]; exact readable)
        simp only [List.filterMap_cons, id_eq, List.map_cons, List.mem_cons, PlanStep.id]
        exact or_congr_left ⟨fun same => ⟨same, same ▸ legible⟩, And.left⟩
      · simp only [List.filterMap_cons, id_eq]
        have apart : ¬(node = head ∧ net.Legible node) := fun here => illegible (here.1 ▸ here.2)
        exact (or_iff_right apart).symm

theorem mem_order (made : ofPath net entries path = .ok plan) {node : String} :
    node ∈ plan.order ↔ node ∈ path ∧ net.Legible node := by
  obtain ⟨steps, mapped, same⟩ := ofPath_eq_ok made
  rw [order, same, mem_steps mapped]

/-- A plan notes something for the legible nodes that its entries lead to. -/
theorem mem_order_iff (tidy : net.Tidy) (made : ofEntries net entries = .ok plan) {node : String} :
    node ∈ plan.order ↔
      net.Legible node ∧ ∃ entry ∈ entries, node = entry ∨ net.Reaches entry node := by
  obtain ⟨path, found, walked⟩ := ofEntries_eq_ok made
  have region := Net.regionOrder_spec tidy.plain tidy.nodup_nodes found
  rw [mem_order walked, region.mem_iff, and_comm]
  refine and_congr_right fun _ => ⟨?_, ?_⟩
  · rintro (start | ⟨entry, start, leads⟩)
    · exact ⟨node, start, .inl rfl⟩
    · exact ⟨entry, start, .inr leads⟩
  · rintro ⟨entry, start, rfl | leads⟩
    · exact .inl start
    · exact .inr ⟨entry, start, leads⟩

/-- Along a path on which no node touches an earlier one or itself, what is noted for a node is
what it shows at the end. -/
theorem get?_of_runSteps (functional : net.Functional) (selfless : ∀ id, ¬net.Touches id id)
    (distinct : path.Nodup) (forward : path.Pairwise fun early late => ¬net.Touches late early)
    (made : path.mapM (step? net) = .ok steps)
    (done : runSteps limit (steps.filterMap id) results board = (.finished noted, after))
    (node : String) : noted.get? node =
      if node ∈ (steps.filterMap id).map PlanStep.id then net.shown? node after
      else results.get? node := by
  induction path generalizing limit steps results board with
  | nil =>
      cases made
      cases done
      rfl
  | cons head rest ih =>
      obtain ⟨played, -, -⟩ := playAll_of_runSteps made done
      obtain ⟨first, later, one, others, rfl⟩ := mapM_cons_eq_ok made
      obtain ⟨fresh, distinct⟩ := List.nodup_cons.mp distinct
      obtain ⟨ahead, forward⟩ := List.pairwise_cons.mp forward
      have stays : net.shown? head after = net.shown? head board := by
        refine functional.shown?_untouched played fun other member => ?_
        rcases List.mem_cons.mp (List.mem_filter.mp member).1 with rfl | behind
        · exact selfless other
        · exact ahead other behind
      have absent : head ∉ (later.filterMap id).map PlanStep.id :=
        fun member => fresh ((mem_steps others).mp member).1
      -- What is noted for the first node is still there when the others have been run.
      have noting : ∀ {limit board value}, net.shown? head after = some value →
          runSteps limit (later.filterMap id) (results.insert head value) board =
            (.finished noted, after) → noted.get? node =
          if node ∈ head :: (later.filterMap id).map PlanStep.id then net.shown? node after
          else results.get? node := by
        intro limit board value shows done
        rw [ih distinct forward others done, Values.get?_insert]
        by_cases same : node = head
        · rw [if_pos same, same, if_neg absent, if_pos (List.mem_cons_self ..), shows]
        · rw [if_neg same]
          simp only [List.mem_cons, same, false_or]
      rcases step?_spec one with ⟨action, found, rfl⟩ | ⟨none, content, held, readable, rfl⟩ |
        ⟨-, rfl⟩
      · simp only [List.filterMap_cons, id_eq, runSteps] at done
        split at done
        · cases done
        · split at done
          · cases done
          · next value next finished =>
              refine noting (stays.trans ?_) done
              rw [Circuit.shown?_eq found, Action.answer?, Action.act, finished]
              rfl
      · obtain ⟨anchor, shows⟩ := Option.isSome_iff_exists.mp readable
        have value : content.value? board = some (board.read anchor) := by
          rw [Content.value?, shows, Option.map_some]
        simp only [List.filterMap_cons, id_eq, runSteps, value] at done
        refine noting (stays.trans ?_) done
        rw [Circuit.shown?, none, held]
        exact value
      · simp only [List.filterMap_cons, id_eq] at done ⊢
        exact ih distinct forward others done

section

variable (tidy : net.Tidy) (orderly : net.Orderly) (functional : net.Functional)
  (made : ofEntries net entries = .ok plan)
include tidy orderly functional made

/-- A plan that is run to its end sweeps its nodes. -/
theorem swept_of_run (done : plan.run limit inputs board = (.finished results, after)) :
    net.Swept (· ∈ plan.order) board after := by
  obtain ⟨path, found, walked⟩ := ofEntries_eq_ok made
  have region := Net.regionOrder_spec tidy.plain tidy.nodup_nodes found
  obtain ⟨steps, mapped, same⟩ := ofPath_eq_ok walked
  rw [run, same] at done
  obtain ⟨played, -, -⟩ := playAll_of_runSteps mapped done
  have acts : ∀ id, id ∈ net.actsOf path ↔ id ∈ path ∧ (net.transitions.get? id).isSome := by
    intro id
    rw [Circuit.actsOf, List.mem_filter, Registry.contains_eq_true, Registry.get?_isSome_iff]
  have ran : ∀ id ∈ net.actsOf path, id ∈ plan.order := fun id member =>
    (mem_order walked).mpr ⟨((acts id).mp member).1, .inl ((acts id).mp member).2⟩
  have untouched : ∀ id ∉ plan.order, ∀ other ∈ net.actsOf path, ¬net.Touches other id := by
    intro id outside other member touches
    have behind := (orderly.behind other id touches).2
    obtain ⟨_, _, _, looks, _⟩ := touches
    exact outside ((mem_order walked).mpr ⟨region.mem_of_reaches ((acts other).mp member).1
      behind, Circuit.legible_of_mem_looksAt looks⟩)
  refine ⟨functional.channel_playAll played, fun anchor unwritten => ?_, ?_, fun id outside => ?_⟩
  · exact functional.read_playAll played fun id member => unwritten id (ran id member)
  · intro id action found either
    by_cases member : id ∈ plan.order
    · refine orderly.settles functional (region.nodup.filter _)
        ((region.pairwise orderly).sublist List.filter_sublist) played id ?_ action found
      exact (acts id).mpr ⟨((mem_order walked).mp member).1, by rw [found]; rfl⟩
    · exact orderly.settled_playAll functional found (either.resolve_left member)
        (fun inside => member (ran id inside)) (untouched id member) played
  · exact functional.shown?_untouched played (untouched id outside)

/-- The results of a plan that is run to its end are what its nodes show then, and the inputs. -/
theorem get?_of_run (done : plan.run limit inputs board = (.finished results, after))
    (node : String) : results.get? node =
      if node ∈ plan.order then net.shown? node after else inputs.get? node := by
  obtain ⟨path, found, walked⟩ := ofEntries_eq_ok made
  have region := Net.regionOrder_spec tidy.plain tidy.nodup_nodes found
  obtain ⟨steps, mapped, same⟩ := ofPath_eq_ok walked
  rw [run, same] at done
  rw [order, same]
  exact get?_of_runSteps functional orderly.not_touches_self region.nodup
    (region.pairwise orderly) mapped done node

end

end Plan

/-- What a region makes of the values on a board does not depend on how often and in which order
its transitions have run. -/
theorem Circuit.Swept.read_eq {net : Circuit} {entries : List String} {plan : Plan}
    {board first second : Board} (tidy : net.Tidy) (orderly : net.Orderly)
    (complete : ∀ id action, net.transitions.get? id = some action →
      ∀ card, action.card? = some card → card.Complete)
    (made : Plan.ofEntries net entries = .ok plan) (left : net.Swept (· ∈ plan.order) board first)
    (right : net.Swept (· ∈ plan.order) board second) : first.read = second.read := by
  obtain ⟨path, found, walked⟩ := Plan.ofEntries_eq_ok made
  have region := Net.regionOrder_spec tidy.plain tidy.nodup_nodes found
  -- The transitions of the region have written the same values, by induction along its order.
  have agree : ∀ n, ∀ id ∈ plan.order, path.idxOf id = n → ∀ action,
      net.transitions.get? id = some action → ∀ written ∈ action.writes,
        first.read written = second.read written := by
    intro n
    induction n using Nat.strongRecOn with
    | ind n ih =>
        rintro id member rfl action held written inside
        refine (left.settled id action held (.inl member)).read_eq
          (right.settled id action held (.inl member)) (complete id action held)
          (fun anchor read => left.read_eq_of_writers right fun other earlier two here seen writes
            same => ?_) (left.channel.trans right.channel.symm) inside
        have touches : net.Touches other id :=
          ⟨two, here, anchor, Circuit.looksAt_eq held ▸ read, seen, writes, same⟩
        obtain ⟨differ, leads⟩ := orderly.behind other id touches
        exact ih _ (region.idxOf_lt ((Plan.mem_order walked).mp earlier).1 leads differ) other
          earlier rfl two here seen writes
  exact funext fun anchor => left.read_eq_of_writers right
    fun id member action held written inside _ => agree _ id member rfl action held written inside

/-! ## Several plans -/

namespace Plan

variable {net : Circuit} {plan : Plan} {limit : Option Nat} {inputs : Values} {board after : Board}

/-- Run plans one after the other, each with the same inputs, and put their results on top of each
other. -/
def runEach (limit : Option Nat) (inputs : Values) : List Plan → Values → Board → Walk × Board
  | [], merged, board => (.finished merged, board)
  | plan :: rest, merged, board =>
      match plan.run limit inputs board with
      | (.finished results, board) => runEach limit inputs rest (merged.merge results) board
      | stopped => stopped

theorem runEach_cons {rest : List Plan} {merged total : Values}
    (done : runEach limit inputs (plan :: rest) merged board = (.finished total, after)) :
    ∃ results middle, plan.run limit inputs board = (.finished results, middle) ∧
      runEach limit inputs rest (merged.merge results) middle = (.finished total, after) := by
  rw [runEach] at done
  split at done
  · next results middle ran => exact ⟨results, middle, ran, done⟩
  · next stopped unfinished => exact (unfinished total after done).elim

/-- Plans that are run to their ends sweep their nodes together. The results for a node are what
it shows in the end, and the input of its name where it belongs to none of the plans. -/
theorem runEach_spec (tidy : net.Tidy) (orderly : net.Orderly) (functional : net.Functional)
    {plans : List Plan} (made : ∀ plan ∈ plans, ∃ entries, ofEntries net entries = .ok plan)
    {merged total : Values}
    (done : runEach limit inputs plans merged board = (.finished total, after)) :
    net.Swept (fun node => ∃ plan ∈ plans, node ∈ plan.order) board after ∧
      (∀ node, (∃ plan ∈ plans, node ∈ plan.order) → inputs.get? node = none →
        total.get? node = net.shown? node after) ∧
      ∀ node, (¬∃ plan ∈ plans, node ∈ plan.order) → plans ≠ [] →
        total.get? node = (inputs.get? node).or (merged.get? node) := by
  induction plans generalizing merged board with
  | nil =>
      cases done
      exact ⟨(Circuit.Swept.refl net after).congr (by simp), by simp, by simp⟩
  | cons plan rest ih =>
      obtain ⟨results, middle, ran, others⟩ := runEach_cons done
      obtain ⟨entries, own⟩ := made plan (List.mem_cons_self ..)
      have first := swept_of_run tidy orderly functional own ran
      have noted := get?_of_run tidy orderly functional own ran
      obtain ⟨second, shows, passes⟩ := ih
        (fun other member => made other (List.mem_cons_of_mem _ member)) others
      have here : ∀ node, (merged.merge results).get? node =
          (results.get? node).or (merged.get? node) := fun node => by
        simp only [Std.ExtTreeMap.get?_eq_getElem?, Values.getElem?_merge]
      -- What the other plans add for a node that is none of theirs.
      have later : ∀ node, (¬∃ plan ∈ rest, node ∈ plan.order) → total.get? node =
          (inputs.get? node).or ((results.get? node).or (merged.get? node)) ∨
          total.get? node = (results.get? node).or (merged.get? node) := by
        intro node outside
        by_cases last : rest = []
        · subst last
          cases others
          exact .inr (here node)
        · exact .inl (by rw [passes node outside last, here])
      refine ⟨(first.trans second).congr (by simp), fun node covered free => ?_,
        fun node outside _ => ?_⟩
      · by_cases again : ∃ plan ∈ rest, node ∈ plan.order
        · exact shows node again free
        · have member : node ∈ plan.order := by simpa [again] using covered
          obtain ⟨path, found, walked⟩ := ofEntries_eq_ok own
          have some' : (net.shown? node middle).isSome = true :=
            Circuit.isSome_shown? functional ((mem_order walked).mp member).2
              fun action known => first.settled node action known (.inl member)
          obtain ⟨value, shown⟩ := Option.isSome_iff_exists.mp some'
          rw [second.shown node again, shown]
          have result : results.get? node = some value := by rw [noted, if_pos member, shown]
          rcases later node again with total | total <;> rw [total, result]
          · rw [free]; rfl
          · rfl
      · simp only [List.mem_cons, exists_eq_or_imp, not_or] at outside
        have result := (noted node).trans (if_neg outside.1)
        rcases later node outside.2 with total | total <;> rw [total, result]
        cases inputs.get? node <;> rfl

end Plan

end CardNet
