import CardNet.Proofs.Graph.Bells
import CardNet.Proofs.Graph.Cycles
import CardNet.Proofs.Graph.Housing
import CardNet.Proofs.Graph.Reckoning
import CardNet.Proofs.Graph.Renumbering

/-!
# Builds that fail

A graph that cannot be built gives up the subscriptions that it has made, so that every bell has the
listeners that it had. What is left is that numbers were given out, and, where everything was laid out
and only the plans could not be made, that the entry places stand at their defaults
(`Graph.initialized`, `Graph.build_error`).
-/

namespace CardNet

namespace Board

/-- Anchors are brought to their defaults, if they declare any. -/
def resetAll (board : Board) (anchors : List Anchor) : Board := anchors.foldl resetAnchor board

/-- Nothing but values is changed. -/
theorem resetAll_eq (board : Board) (anchors : List Anchor) :
    board.resetAll anchors = { board with values := (board.resetAll anchors).values } := by
  induction anchors generalizing board with
  | nil => rfl
  | cons anchor rest ih =>
      have first : board.resetAnchor anchor =
          { board with values := (board.resetAnchor anchor).values } := by
        unfold resetAnchor
        split <;> rfl
      have later := ih (board.resetAnchor anchor)
      rw [first] at later
      rw [resetAll, List.foldl_cons, first]
      exact later

/-- The board with other bells. -/
def withBells (board : Board) (bells : Std.ExtTreeMap Nat Bell) : Board :=
  { board with bells := bells }

/-- Bells play no part in this. -/
theorem resetAll_withBells (board : Board) (bells : Std.ExtTreeMap Nat Bell)
    (anchors : List Anchor) :
    (board.withBells bells).resetAll anchors = (board.resetAll anchors).withBells bells := by
  refine List.foldl_hom (withBells · bells) fun board anchor => ?_
  unfold resetAnchor
  split <;> rfl

/-- The value of an anchor that is not among those that are reset. -/
theorem read_resetAll {board : Board} {anchors : List Anchor} {anchor : Anchor}
    (apart : ∀ other ∈ anchors, other.slot ≠ anchor.slot) :
    (board.resetAll anchors).read anchor = board.read anchor := by
  induction anchors generalizing board with
  | nil => rfl
  | cons first rest ih =>
      obtain ⟨own, others⟩ := List.forall_mem_cons.mp apart
      refine (ih others).trans ?_
      unfold resetAnchor
      split
      · simp only [read, write, Std.ExtTreeMap.getD_insert, Std.LawfulEqCmp.compare_eq_iff_eq,
          if_neg own]
      · rfl

/-- Nothing but bells is changed when subscriptions are given up. -/
theorem withBells_release (board : Board) (given : List Subscription)
    (bells : Std.ExtTreeMap Nat Bell) :
    (given.foldl (fun board held => board.unsubscribe held.anchor held.number) board).withBells
      bells = board.withBells bells := by
  induction given generalizing board with
  | nil => rfl
  | cons first rest ih => exact ih (board.unsubscribe first.anchor first.number)

/-- Who gives subscriptions up is taken off the bells, and nobody else. -/
theorem bell_release (board : Board) (given : List Subscription) (slot : Nat) :
    (given.foldl (fun board held => board.unsubscribe held.anchor held.number) board).bells.getD
        slot .silent =
      { board.bells.getD slot .silent with
        listeners := (board.bells.getD slot .silent).listeners.filter fun entry =>
          entry.1 ∉ numbersAt slot given } := by
  induction given generalizing board with
  | nil => simp [numbersAt]
  | cons first rest ih =>
      rw [List.foldl_cons, ih, unsubscribe, bell_insert, numbersAt_cons]
      split
      · next same =>
          subst same
          refine congrArg (Bell.mk · _) ?_
          rw [List.filter_filter]
          exact List.filter_congr fun entry _ => by simp [Bool.and_comm]
      · rfl

end Board

namespace Bench

/-- Lay out the connections and the cards of a graph. -/
def lay (bench : Bench) (connections : List Connection) : Except Failure Unit × Bench :=
  match bench.connectAll connections with
  | (.error failure, bench) => (.error failure, bench)
  | (.ok (), bench) =>
      bench.applyAll (bench.graph.cards.flatMap fun card => card.blueprint bench.graph.channel)

theorem construct_eq_lay (bench : Bench) (connections : List Connection) :
    bench.construct connections =
      match bench.lay connections with
      | (.error failure, bench) => (.error failure, bench)
      | (.ok (), bench) => bench.seed.recompile := by
  rw [construct, lay]
  rcases bench.connectAll connections with ⟨failure | ⟨⟩, middle⟩ <;> rfl

/-- The anchors that seeding a graph brings to their defaults, if they declare any. -/
def seedAnchors (bench : Bench) : List Anchor :=
  bench.graph.net.seedPlaces.filterMap fun id =>
    (bench.graph.net.content? id).bind Content.settable?

theorem board_seed (bench : Bench) :
    bench.seed.board = bench.board.resetAll bench.seedAnchors := by
  rw [Board.resetAll, seedAnchors, List.foldl_filterMap]
  refine congrArg (fun step => bench.graph.net.seedPlaces.foldl step bench.board)
    (funext fun board => funext fun id => ?_)
  rw [Circuit.applyDefault]
  cases (bench.graph.net.content? id).bind Content.settable? <;> rfl

/-- A graph under construction that has done nothing to a board but listen to anchors. -/
structure Upon (base : Board) (bench : Bench) : Prop where
  board : bench.board.withBells base.bells = base
  next : ∀ slot, (base.bells.getD slot .silent).next ≤ (bench.board.bells.getD slot .silent).next
  fresh : ∀ held ∈ bench.graph.subscriptions.values,
    (base.bells.getD held.anchor.slot .silent).next ≤ held.number
  listeners : ∀ slot, ∃ added, (bench.board.bells.getD slot .silent).listeners =
      (base.bells.getD slot .silent).listeners ++ added ∧
    ∀ entry ∈ added, entry.1 ∈ numbersAt slot bench.graph.subscriptions.values

namespace Upon

variable {base : Board} {bench after : Bench}

theorem of_same (upon : Upon base bench) (board : after.board = bench.board)
    (subscriptions : after.graph.subscriptions = bench.graph.subscriptions) : Upon base after := by
  obtain ⟨graph, held⟩ := after
  cases board
  refine ⟨upon.board, upon.next, ?_, ?_⟩
  · rw [subscriptions]
    exact upon.fresh
  · rw [subscriptions]
    exact upon.listeners

theorem listen (upon : Upon base bench) (place : String) (anchor : Anchor) :
    Upon base (bench.listen place anchor) := by
  unfold Bench.listen
  split
  · exact upon
  · next unheard =>
      have absent := mt Registry.contains_eq_true.mpr unheard
      by_cases takes : anchor.listens
      · rw [Board.subscribe, if_pos takes]
        dsimp only
        refine ⟨upon.board, fun slot => ?_, ?_, fun slot => ?_⟩
        · rw [Board.bell_insert]
          split
          · next same =>
              subst same
              exact Nat.le_succ_of_le (upon.next _)
          · exact upon.next slot
        · rw [Registry.values_insert_of_not_mem _ absent]
          intro held member
          rcases List.mem_append.mp member with before | new
          · exact upon.fresh held before
          · cases List.mem_singleton.mp new
            exact upon.next anchor.slot
        · obtain ⟨added, same, own⟩ := upon.listeners slot
          rw [Board.bell_insert, Registry.values_insert_of_not_mem _ absent]
          split
          · next here =>
              subst here
              refine ⟨added ++ [((bench.board.bell anchor).next, ⟨bench.graph.channel, place⟩)], ?_,
                fun entry member => ?_⟩
              · rw [← List.append_assoc, ← same]
                rfl
              · rw [mem_numbersAt]
                rcases List.mem_append.mp member with before | new
                · obtain ⟨held, there, found⟩ := mem_numbersAt.mp (own entry before)
                  exact ⟨held, List.mem_append_left _ there, found⟩
                · cases List.mem_singleton.mp new
                  exact ⟨_, List.mem_append_right _ (List.mem_singleton.mpr rfl), rfl, rfl⟩
          · refine ⟨added, same, fun entry member => ?_⟩
            obtain ⟨held, there, found⟩ := mem_numbersAt.mp (own entry member)
            exact mem_numbersAt.mpr ⟨held, List.mem_append_left _ there, found⟩
      · rw [Board.subscribe, if_neg takes]
        exact upon.of_same rfl rfl

theorem withNet (upon : Upon base bench) {net : Except Failure Circuit}
    (applied : bench.withNet net = .ok after) : Upon base after := by
  cases net with
  | error failure => cases applied
  | ok circuit =>
      cases applied
      exact upon.of_same rfl rfl

theorem apply (upon : Upon base bench) {edit : Edit} (applied : edit.apply bench = .ok after) :
    Upon base after := by
  cases edit with
  | listen card anchor =>
      cases applied
      exact upon.listen _ anchor
  | _ => exact upon.withNet applied

theorem applyAll (upon : Upon base bench) (edits : List Edit) :
    Upon base (bench.applyAll edits).2 := by
  induction edits generalizing bench with
  | nil => exact upon
  | cons edit rest ih =>
      rw [Bench.applyAll]
      split
      · next middle applied => exact ih (upon.apply applied)
      · exact upon

theorem connect (upon : Upon base bench) (connection : Connection) :
    Upon base (bench.connect connection).2 := by
  unfold Bench.connect
  dsimp only
  split
  · exact upon.of_same rfl rfl
  · next parties found =>
      have laid := upon.applyAll (connection.layout parties bench.graph.channel)
      split
      · next failure middle applied =>
          rw [applied] at laid
          exact laid
      · next middle applied =>
          rw [applied] at laid
          exact laid.of_same rfl rfl

theorem connectAll (upon : Upon base bench) (connections : List Connection) :
    Upon base (bench.connectAll connections).2 := by
  induction connections generalizing bench with
  | nil => exact upon
  | cons connection rest ih =>
      have first := upon.connect connection
      rw [Bench.connectAll]
      split
      · next middle connected =>
          rw [connected] at first
          exact ih first
      · next failure middle connected =>
          rw [connected] at first
          exact first

theorem lay (upon : Upon base bench) (connections : List Connection) :
    Upon base (bench.lay connections).2 := by
  have connected := upon.connectAll connections
  unfold Bench.lay
  split
  · next failure middle failed =>
      rw [failed] at connected
      exact connected
  · next middle done =>
      rw [done] at connected
      exact connected.applyAll _

/-- Seeding does to the graph's board what it would do to the board at first. -/
theorem seed (upon : Upon base bench) : Upon (base.resetAll bench.seedAnchors) bench.seed := by
  have bells : (base.resetAll bench.seedAnchors).bells = base.bells := by
    rw [Board.resetAll_eq]
  have seeded : bench.seed.board.bells = bench.board.bells := by
    rw [board_seed, Board.resetAll_eq]
  refine ⟨?_, ?_, ?_, ?_⟩
  · rw [board_seed, bells, ← Board.resetAll_withBells, upon.board]
  · rw [bells, seeded]
    exact upon.next
  · rw [bells]
    exact upon.fresh
  · rw [bells, seeded]
    exact upon.listeners

/-- What is left when the graph gives its subscriptions up. -/
theorem release (upon : Upon base bench)
    (known : ∀ slot, ∀ entry ∈ (base.bells.getD slot .silent).listeners,
      entry.1 < (base.bells.getD slot .silent).next) :
    (bench.graph.release bench.board).withBells base.bells = base ∧
      ∀ slot, (base.bells.getD slot .silent).next ≤
          ((bench.graph.release bench.board).bells.getD slot .silent).next ∧
        ((bench.graph.release bench.board).bells.getD slot .silent).listeners =
          (base.bells.getD slot .silent).listeners := by
  refine ⟨(Board.withBells_release ..).trans upon.board, fun slot => ?_⟩
  rw [Graph.release, Board.bell_release]
  refine ⟨upon.next slot, ?_⟩
  obtain ⟨added, same, own⟩ := upon.listeners slot
  -- The old listeners have numbers from before, the new ones those of the graph.
  have old : ∀ entry ∈ (base.bells.getD slot .silent).listeners,
      decide (entry.1 ∉ numbersAt slot bench.graph.subscriptions.values) = true := by
    intro entry member
    refine decide_eq_true fun inside => ?_
    obtain ⟨held, there, rfl, number⟩ := mem_numbersAt.mp inside
    exact Nat.lt_irrefl _
      (Nat.lt_of_le_of_lt (upon.fresh held there) (number ▸ known _ entry member))
  have new : ∀ entry ∈ added,
      ¬decide (entry.1 ∉ numbersAt slot bench.graph.subscriptions.values) = true := by
    intro entry member
    rw [decide_eq_true_eq, not_not]
    exact own entry member
  dsimp only
  rw [same, List.filter_append, List.filter_eq_self.mpr old, List.filter_eq_nil_iff.mpr new,
    List.append_nil]

end Upon

end Bench

/-! ## Boards after a failure -/

/-- A board on which numbers were given out, and the next slot was taken for a channel. -/
structure Board.Aged (board after : Board) : Prop where
  values : after.values = board.values
  records : after.records = board.records
  counters : after.counters = board.counters
  log : after.log = board.log
  nextSlot : after.nextSlot = board.nextSlot + 1
  channels : ∀ slot ≠ board.nextSlot, after.channel slot = board.channel slot
  next : ∀ slot, (board.bells.getD slot .silent).next ≤ (after.bells.getD slot .silent).next
  listeners : ∀ slot,
    (after.bells.getD slot .silent).listeners = (board.bells.getD slot .silent).listeners

namespace Graph

variable {mode : Mode} {config : GraphConfig} {cards : List Card} {globals : Option Values}
  {board after : Board} {failure : Failure}

/-- The anchors that the build of a graph brings to their defaults before it makes the plans: those of
the entry places. -/
def initialized (mode : Mode) (config : GraphConfig) (cards : List Card) (globals : Option Values)
    (board : Board) : List Anchor :=
  match (vacant mode config cards globals board).lay config.connections with
  | (.ok (), bench) => bench.seedAnchors
  | (.error _, _) => []

/-- Everything that was laid out stands in a graph as it is built. -/
theorem built_of_lay {bench : Bench}
    (laid : (vacant mode config cards globals board).lay config.connections = (.ok (), bench)) :
    bench.seed.graph.Built cards config.connections board.nextSlot ∧
      bench.seed.graph.mode = mode := by
  rw [Bench.lay] at laid
  split at laid
  · cases laid
  · next middle connected => exact built_of_laid rfl connected laid

private theorem operated_of_lay {result : Except Failure Unit} {bench : Bench}
    (laid : (vacant mode config cards globals board).lay config.connections = (result, bench)) :
    bench.graph.net.Operated := by
  have start : (vacant mode config cards globals board).graph.net.Operated :=
    .blank _ _ (create_eq config.name)
  have connected := Bench.operated_connectAll start config.connections
  rw [Bench.lay] at laid
  split at laid
  · next same =>
      cases laid
      rwa [same] at connected
  · next middle same =>
      rw [same] at connected
      have done := Bench.operated_applyAll connected
        (middle.graph.cards.flatMap fun card => card.blueprint middle.graph.channel)
      rwa [laid] at done

/-- A graph cannot be built because it cannot be laid out, or because an entry reaches a cycle. -/
theorem build_error_cases (failed : build mode config cards globals board = (.error failure, after)) :
    (∃ bench, (vacant mode config cards globals board).lay config.connections =
        (.error failure, bench) ∧ after = bench.graph.release bench.board) ∨
    ∃ bench, (vacant mode config cards globals board).lay config.connections = (.ok (), bench) ∧
      after = bench.seed.graph.release bench.seed.board ∧ mode = .function ∧
      ∃ entry node, failure = .region (.cyclic [entry] node) := by
  rw [build_eq_construct, Bench.construct_eq_lay] at failed
  cases laid : (vacant mode config cards globals board).lay config.connections with
  | mk result bench =>
      rw [laid] at failed
      cases result with
      | error reason =>
          cases failed
          exact .inl ⟨bench, rfl, rfl⟩
      | ok =>
          obtain ⟨-, modes⟩ := built_of_lay laid
          have wellFormed : bench.seed.graph.net.WellFormed :=
            ((operated_of_lay laid).of_bare (Net.bare_seedAll ..)).shape.2
          have ended : ofRecompiled (bench.seed.graph.recompile.1,
              ⟨bench.seed.graph.recompile.2, bench.seed.board⟩) = (.error failure, after) := failed
          cases made : bench.seed.graph.recompile with
          | mk result graph =>
              obtain ⟨paths, plan, rfl⟩ := recompile_frame made
              rw [made] at ended
              cases mode with
              | visual =>
                  cases (recompile_visual modes).symm.trans made
                  cases ended
              | function =>
                  rw [recompile_function modes] at made
                  rcases compile_or_cycle wellFormed with ⟨done, -⟩ | ⟨entry, -, node, refused, -⟩
                  · cases done.symm.trans (congrArg Prod.fst made)
                    cases ended
                  · cases refused.symm.trans (congrArg Prod.fst made)
                    cases ended
                    exact .inr ⟨bench, rfl, rfl, rfl, entry, node, rfl⟩

/-- When everything could be laid out but an entry reaches a cycle, the graph is given up after its
entry places were seeded. -/
theorem build_error_of_lay {bench : Bench}
    (laid : (vacant .function config cards globals board).lay config.connections = (.ok (), bench))
    (refused : bench.seed.graph.compile.1 = .error failure) :
    build .function config cards globals board =
      (.error failure, bench.seed.graph.release bench.seed.board) := by
  obtain ⟨-, modes⟩ := built_of_lay laid
  rw [build_eq_construct, Bench.construct_eq_lay, laid]
  dsimp only
  rw [Bench.recompile, recompile_function modes]
  cases made : bench.seed.graph.compile with
  | mk result graph =>
      rw [made] at refused
      obtain ⟨⟨paths, plan, rfl⟩, -⟩ := compile_spec made
      cases refused
      rfl

/-- A graph in function mode that cannot be built, by searches of at most so many steps: why, and the
board that it leaves. -/
def refuseWithin (steps : Nat) (config : GraphConfig) (cards : List Card) (globals : Option Values)
    (board : Board) : Option (Failure × Board) :=
  match (vacant .function config cards globals board).lay config.connections with
  | (.ok (), bench) =>
      (bench.seed.graph.cycleWithin steps).map fun failure =>
        (failure, bench.seed.graph.release bench.seed.board)
  | (.error _, _) => none

theorem build_of_refuseWithin {steps : Nat}
    (found : refuseWithin steps config cards globals board = some (failure, after)) :
    build .function config cards globals board = (.error failure, after) := by
  unfold refuseWithin at found
  split at found
  · next bench laid =>
      obtain ⟨reason, cycle, same⟩ := Option.map_eq_some_iff.mp found
      cases same
      exact build_error_of_lay laid (compile_of_cycleWithin cycle)
  · cases found

/-- Only a cycle is found when the entry places stand at their defaults already. -/
theorem initialized_eq_nil_or_cycle
    (failed : build mode config cards globals board = (.error failure, after)) :
    initialized mode config cards globals board = [] ∨
      mode = .function ∧ ∃ entry node, failure = .region (.cyclic [entry] node) := by
  rcases build_error_cases failed with ⟨bench, laid, -⟩ | ⟨bench, -, -, function, cycle⟩
  · rw [initialized, laid]
    exact .inl rfl
  · exact .inr ⟨function, cycle⟩

/-- What is brought to a default is an anchor of the cards. -/
theorem mem_initialized {anchor : Anchor}
    (member : anchor ∈ initialized mode config cards globals board) :
    ∃ card ∈ cards, anchor ∈ card.anchors := by
  unfold initialized at member
  split at member
  · next bench laid =>
      obtain ⟨built, -⟩ := built_of_lay laid
      obtain ⟨id, -, shown⟩ := List.mem_filterMap.mp member
      obtain ⟨content, held, settable⟩ := Option.bind_eq_some_iff.mp shown
      have same : bench.seed.graph.net.content? = bench.graph.net.content? :=
        Net.content?_of_bare (Net.bare_seedAll ..)
      cases content with
      | anchor owner slot =>
          cases settable
          rcases built.origin (same ▸ held) rfl with ⟨card, known, other, inside, -, shows⟩ |
            ⟨connection, -, parties, found, -, -, shows⟩
          · refine ⟨card, known, ?_⟩
            unfold Card.content at shows
            split at shows <;> cases shows
            exact inside
          · cases shows
            have ends := Connection.resolved_of_parties found
            exact ⟨parties.targetCard, ends.targetCard, ends.target⟩
      | _ => cases settable
  · cases member

theorem upon_vacant (mode : Mode) (config : GraphConfig) (cards : List Card)
    (globals : Option Values) (board : Board) :
    Bench.Upon (groundwork board globals) (vacant mode config cards globals board) where
  board := rfl
  next := fun _ => Nat.le_refl _
  fresh := nofun
  listeners := fun _ => ⟨[], (List.append_nil _).symm, nofun⟩

/-- What is left of a board on which a graph was laid out that has given its subscriptions up. -/
theorem aged_release {bench : Bench} (numbered : board.Numbered)
    (upon : Bench.Upon (groundwork board globals) bench) :
    board.Aged (bench.graph.release bench.board) := by
  obtain ⟨frame, bells⟩ := upon.release fun slot entry member => (numbered slot entry member).1
  obtain ⟨values, -, records, channels, counters, log, nextSlot⟩ := Board.mk.inj frame
  refine ⟨values, records, counters, log, nextSlot, fun slot other => ?_, fun slot => (bells slot).1,
    fun slot => (bells slot).2⟩
  rw [Board.channel, channels]
  simp only [Board.allocate, Std.ExtTreeMap.getD_insert, Std.LawfulEqCmp.compare_eq_iff_eq,
    if_neg (Ne.symm other)]
  rfl

theorem groundwork_resetAll (anchors : List Anchor) :
    groundwork (board.resetAll anchors) globals = (groundwork board globals).resetAll anchors := by
  refine (List.foldl_hom (groundwork · globals) fun board anchor => ?_).symm
  unfold Board.resetAnchor
  split <;> rfl

/-- A graph that cannot be built leaves the board as it would be if nothing had been tried but, where an
entry reaches a cycle, the entry places had been brought to their defaults. -/
theorem aged_of_build_error (numbered : board.Numbered)
    (failed : build mode config cards globals board = (.error failure, after)) :
    (board.resetAll (initialized mode config cards globals board)).Aged after := by
  have laid := (upon_vacant mode config cards globals board).lay config.connections
  rcases build_error_cases failed with ⟨bench, same, rfl⟩ | ⟨bench, same, rfl, -⟩
  · rw [same] at laid
    rw [initialized, same]
    exact aged_release numbered laid
  · rw [same] at laid
    have seeded := laid.seed
    rw [← groundwork_resetAll] at seeded
    rw [initialized, same]
    refine aged_release ?_ seeded
    rw [Board.resetAll_eq]
    exact numbered

end Graph

/-! ## Numbers after a failure -/

namespace Renumbering

/-- The numbers up to some extent stand for themselves, and those after it for those after another. -/
def past (kept reached : Extent) : Renumbering where
  channel slot := if slot < kept.slots then slot else slot - kept.slots + max kept.slots reached.slots
  number slot number :=
    if number < kept.numbers slot then number
    else number - kept.numbers slot + max (kept.numbers slot) (reached.numbers slot)
  channel_injective := by
    intro one two same
    dsimp only at same
    split at same <;> split at same <;> omega
  number_injective := by
    intro slot one two same
    dsimp only at same
    split at same <;> split at same <;> omega

variable (kept reached : Extent) {slot number : Nat}

theorem keeps_past : (past kept reached).Keeps kept where
  channel := fun _ known => if_pos known
  number := fun _ _ known => if_pos known

theorem channel_past (later : kept.slots ≤ slot) :
    (past kept reached).channel slot = slot - kept.slots + max kept.slots reached.slots :=
  if_neg (Nat.not_lt.mpr later)

theorem number_past (slot : Nat) (later : kept.numbers slot ≤ number) :
    (past kept reached).number slot number =
      number - kept.numbers slot + max (kept.numbers slot) (reached.numbers slot) :=
  if_neg (Nat.not_lt.mpr later)

end Renumbering

namespace Board.Aged

variable {board after : Board}

/-- On both boards the same will be done, under other numbers. -/
theorem matches_past (aged : board.Aged after) (numbered : board.Numbered) :
    board.Matches (.past board.extent after.extent) board.extent after where
  values := aged.values
  records := aged.records
  counters := aged.counters
  log := aged.log
  given := rfl
  slots := by
    intro more
    have new := Renumbering.channel_past board.extent after.extent
      (Nat.le_add_right board.nextSlot more)
    have grown := aged.nextSlot
    change _ = _ - board.nextSlot + max board.nextSlot after.nextSlot at new
    omega
  numbers := by
    intro slot more
    have new := Renumbering.number_past board.extent after.extent slot
      (Nat.le_add_right (board.bells.getD slot .silent).next more)
    have grown := aged.next slot
    change _ = _ - (board.bells.getD slot .silent).next +
      max (board.bells.getD slot .silent).next (after.bells.getD slot .silent).next at new
    omega
  listeners := by
    intro slot
    rw [aged.listeners]
    refine ((List.map_congr_left fun held member => ?_).trans (List.map_id _)).symm
    obtain ⟨number, channel⟩ := numbered slot held member
    have keeps := Renumbering.keeps_past board.extent after.extent
    rw [Renumbering.held, Renumbering.listener, keeps.number slot _ number,
      keeps.channel _ channel]
    rfl
  within := numbered
  channels := by
    intro slot known
    rw [(Renumbering.keeps_past board.extent after.extent).channel slot known]
    exact aged.channels slot (Nat.ne_of_lt known)

end Board.Aged

end CardNet
