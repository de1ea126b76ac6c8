import CardNet.Proofs.Graph.Fixtures

/-!
# How laying out can fail

A name tells a place from a transition by its beginning (`namesPlace`), so a place never stands
in the way of a transition, and in every blueprint the arcs come after the nodes that they join
(`Edit.Follow`). What is left that can fail is to bind a place to an anchor when it is bound to
another one already (`Bench.collision_of_applyAll`); so a connection can be laid out unless the
place of its target is taken (`Bench.collision_of_connect`).
-/

namespace CardNet

/-! ## Names of places and of transitions -/

/-- Whether a name has the beginning of a name of places. -/
def namesPlace (name : String) : Bool :=
  match name.toList[0]? with
  | some 'p' => true
  | some 'i' => name.toList[9]? = some 'p'
  | _ => name.toList[6]? = some 'p'

/-- The nodes of a kind of parts are places. -/
def Family.isPlace : Family → Bool
  | anchor | event | start | relay => true
  | internal | split | transfer => false

theorem namesPlace_beginning (family : Family) (rest : String) :
    namesPlace (family.beginning ++ rest) = family.isPlace := by
  cases family <;>
    · rw [namesPlace, String.toList_append]
      rfl

private theorem namesPlace_name (part : Part) : namesPlace part.name = part.family.isPlace := by
  rw [part.name_eq, namesPlace_beginning]

private theorem namesPlace_of_start {start middle tail rest : String} {answer : Bool}
    (read : ∀ rest, namesPlace (start ++ rest) = answer) :
    namesPlace (start ++ middle ++ tail ++ rest) = answer := by
  rw [String.append_assoc, String.append_assoc, read]

section

variable (endpoint : Endpoint) (connection : Connection) (card : Card)

@[simp] theorem namesPlace_place : namesPlace endpoint.place = true :=
  namesPlace_of_start (namesPlace_beginning .anchor)

@[simp] theorem namesPlace_eventPlace : namesPlace endpoint.eventPlace = true :=
  namesPlace_of_start (namesPlace_beginning .event)

@[simp] theorem namesPlace_eventTransition : namesPlace endpoint.eventTransition = false := by
  have read : ∀ rest, namesPlace ("event_transition_" ++ rest) = false := by
    intro rest
    rw [namesPlace, String.toList_append]
    rfl
  exact namesPlace_of_start read

@[simp] theorem namesPlace_startPlace : namesPlace card.startPlace = true :=
  namesPlace_name (.start card)

@[simp] theorem namesPlace_internalTransition : namesPlace card.internalTransition = false :=
  namesPlace_name (.internal card)

@[simp] theorem namesPlace_splitTransition : namesPlace connection.splitTransition = false :=
  namesPlace_name (.split connection.source)

@[simp] theorem namesPlace_splitPlace : namesPlace connection.splitPlace = true :=
  namesPlace_name (.relay connection)

@[simp] theorem namesPlace_transfer : namesPlace connection.transfer = false :=
  namesPlace_name (.transfer connection)

end

/-- Whatever hands events on has a name of its own kind. -/
theorem Family.read_eventTransition (endpoint : Endpoint) :
    Family.read endpoint.eventTransition = .event := by
  have start : endpoint.eventTransition =
      "event_transition_" ++ (endpoint.card ++ ("_" ++ endpoint.anchor)) := by
    rw [← String.append_assoc, ← String.append_assoc]
    rfl
  rw [start, Family.read, String.toList_append]
  rfl

/-! ## Edits in order -/

namespace Edit

/-- The node that an edit brings in. -/
def node? : Edit → Option String
  | anchorPlace card anchor => some (Endpoint.place ⟨card, anchor.id⟩)
  | eventPlace card anchor => some (Endpoint.eventPlace ⟨card, anchor.id⟩)
  | place id _ => some id
  | transition id _ => some id
  | listen _ _ => none
  | arc _ _ => none

section

variable (card : String) (anchor : Anchor) (id : String) (held : Place Content) (action : Action)

@[simp] theorem node?_anchorPlace :
    (anchorPlace card anchor).node? = some (Endpoint.place ⟨card, anchor.id⟩) := rfl

@[simp] theorem node?_eventPlace :
    (eventPlace card anchor).node? = some (Endpoint.eventPlace ⟨card, anchor.id⟩) := rfl

@[simp] theorem node?_place : (place id held).node? = some id := rfl

@[simp] theorem node?_transition : (transition id action).node? = some id := rfl

end

/-- A node has a name of its kind, and an arc leads from a place to a transition or the other
way, both of which are known. -/
def Fits (known : String → Prop) : Edit → Prop
  | place id _ => namesPlace id = true
  | transition id _ => namesPlace id = false
  | arc source target => namesPlace source ≠ namesPlace target ∧ known source ∧ known target
  | _ => True

/-- No arc comes before the nodes that it joins. -/
def Follow (known : String → Prop) : List Edit → Prop
  | [] => True
  | edit :: rest => edit.Fits known ∧ Follow (fun id => known id ∨ edit.node? = some id) rest

variable {known : String → Prop}

theorem Follow.mono {more : String → Prop} {edits : List Edit} (follow : Follow known edits)
    (grown : ∀ id, known id → more id) : Follow more edits := by
  induction edits generalizing known more with
  | nil => trivial
  | cons edit rest ih =>
      refine ⟨?_, ih follow.2 fun id => Or.imp_left (grown id)⟩
      cases edit with
      | arc source target => exact ⟨follow.1.1, grown _ follow.1.2.1, grown _ follow.1.2.2⟩
      | _ => exact follow.1

theorem Follow.append {first second : List Edit} (left : Follow known first)
    (right : Follow (fun id => known id ∨ ∃ edit ∈ first, edit.node? = some id) second) :
    Follow known (first ++ second) := by
  induction first generalizing known with
  | nil => exact right.mono (by simp)
  | cons edit rest ih => exact ⟨left.1, ih left.2 (right.mono (by simp [or_assoc]))⟩

theorem Follow.left {first second : List Edit} (follow : Follow known (first ++ second)) :
    Follow known first := by
  induction first generalizing known with
  | nil => trivial
  | cons edit rest ih => exact ⟨follow.1, ih follow.2⟩

theorem Follow.right {first second : List Edit} (follow : Follow known (first ++ second)) :
    Follow (fun id => known id ∨ ∃ edit ∈ first, edit.node? = some id) second := by
  induction first generalizing known with
  | nil => exact follow.mono fun id => .inl
  | cons edit rest ih => exact (ih follow.2).mono (by simp [or_assoc])

theorem Follow.flatMap {β : Type} {entries : List β} {edits : β → List Edit}
    (follow : ∀ entry ∈ entries, Follow known (edits entry)) :
    Follow known (entries.flatMap edits) := by
  induction entries with
  | nil => trivial
  | cons entry rest ih =>
      refine (follow entry (List.mem_cons_self ..)).append ?_
      exact (ih fun other member => follow other (List.mem_cons_of_mem _ member)).mono fun _ => .inl

end Edit

theorem Card.follow_inputEdits (card : Card) (channel : Nat) (known : String → Prop) :
    Edit.Follow known (card.inputEdits channel) := by
  unfold inputEdits
  dsimp only
  split
  · simp [Edit.Follow, Edit.Fits]
  · refine ⟨by simp [Edit.Fits], .flatMap fun anchor _ => ?_⟩
    simp [Edit.Follow, Edit.Fits]

/-- In the blueprint of a card no arc comes before the nodes that it joins. -/
theorem Card.follow_blueprint (card : Card) (channel : Nat) (known : String → Prop) :
    Edit.Follow known (card.blueprint channel) := by
  refine .append (.append (card.follow_inputEdits channel known) (.flatMap fun anchor _ => ?_)) ?_
  · have call : ∃ edit ∈ card.inputEdits channel, edit.node? = some card.internalTransition := by
      unfold inputEdits
      dsimp only
      split <;> simp
    simp [Edit.Follow, Edit.Fits, call]
  · rw [List.map_eq_flatMap]
    exact .flatMap fun anchor _ => ⟨trivial, trivial⟩

namespace Connection

variable {connection : Connection} {cards : List Card} {parties : Parties}

@[simp] theorem namesPlace_sourcePlace (connection : Connection) (source : Anchor) :
    namesPlace (connection.sourcePlace source) = true := by
  unfold sourcePlace
  split <;> simp

@[simp] theorem namesPlace_handOver (connection : Connection) (source : Anchor) :
    namesPlace (connection.handOver source) = false := by
  unfold handOver
  split <;> simp

/-- In the blueprint of a connection no arc comes before the nodes that it joins. -/
theorem Resolved.follow_blueprint (resolved : connection.Resolved cards parties)
    (known : String → Prop) :
    Edit.Follow known (connection.blueprint parties.source parties.target) := by
  have source : ∃ edit ∈ connection.sourceEdits parties.source,
      edit.node? = some (connection.sourcePlace parties.source) := by
    unfold sourceEdits sourcePlace
    dsimp only
    rw [resolved.sourceEnd]
    split <;> simp
  have target : Endpoint.place ⟨connection.target.card, parties.target.id⟩ =
      connection.target.place := by
    rw [resolved.targetEnd]
  refine .append ?_ ?_
  · unfold sourceEdits
    dsimp only
    split <;> simp [Edit.Follow, Edit.Fits]
  · simp [Edit.Follow, Edit.Fits, source, target]

theorem follow_layout (found : connection.parties cards = .ok parties) (channel : Nat)
    (known : String → Prop) : Edit.Follow known (connection.layout parties channel) :=
  .append (.append ((resolved_of_parties found).follow_blueprint known)
    (parties.sourceCard.follow_blueprint channel _)) (parties.targetCard.follow_blueprint channel _)

end Connection

/-! ## Collisions -/

/-- A place was to be bound to an anchor, and was bound otherwise. -/
def Failure.IsCollision (failure : Failure) : Prop :=
  ∃ place bound wanted, failure = .collision place bound wanted

/-- A circuit whose nodes have names of their kinds. -/
structure Circuit.Tidy (net : Circuit) : Prop where
  plain : net.Plain
  place : ∀ id ∈ net.places.names, namesPlace id = true
  transition : ∀ id ∈ net.transitions.names, namesPlace id = false

/-- The place that an edit binds is bound to another anchor, or to none. -/
def Edit.Collides (edit : Edit) (net : Circuit) (failure : Failure) : Prop :=
  ∃ id wanted, edit.wants? = some (id, wanted) ∧ id ∈ net.places.names ∧
    net.boundTo? id ≠ some wanted ∧ failure = .collision id (net.boundTo? id) wanted

namespace Circuit.Tidy

variable {net after : Circuit} {edit : Edit} {known : String → Prop}

theorem blank (name : String) :
    Circuit.Tidy ⟨name, .empty, .empty, .empty, .empty, .empty⟩ :=
  ⟨⟨.blank name, by simp⟩, by simp, by simp⟩

/-- Tokens do not matter for the names of nodes. -/
theorem of_bare (tidy : net.Tidy) {other : Circuit} (same : net.bare = other.bare) :
    other.Tidy where
  plain := tidy.plain.of_bare same
  place := Net.placeNames_of_bare same ▸ tidy.place
  transition := Net.transitions_of_bare same ▸ tidy.transition

/-- An edit that fits keeps a circuit tidy. -/
theorem grown (tidy : net.Tidy) (grows : net.Grows [edit] after) (fits : edit.Fits known) :
    after.Tidy where
  plain := grows.plain tidy.plain
  place := fun id member => by
    have held := mt fixture?_place_eq_none.mp (not_not.mpr member)
    obtain ⟨fixture, found⟩ := Option.ne_none_iff_exists'.mp held
    rcases grows.of_held found with old | ⟨other, single, brought⟩
    · refine tidy.place id (not_not.mp (mt fixture?_place_eq_none.mpr ?_))
      exact Option.ne_none_iff_exists'.mpr ⟨fixture, old⟩
    · obtain rfl := List.mem_singleton.mp single
      cases other with
      | anchorPlace _ _ => cases brought; exact namesPlace_place _
      | eventPlace _ _ => cases brought; exact namesPlace_eventPlace _
      | place _ _ => cases brought; exact fits
      | _ => cases brought
  transition := fun id member => by
    have held := mt fixture?_transition_eq_none.mp (not_not.mpr member)
    obtain ⟨fixture, found⟩ := Option.ne_none_iff_exists'.mp held
    rcases grows.of_held found with old | ⟨other, single, brought⟩
    · refine tidy.transition id (not_not.mp (mt fixture?_transition_eq_none.mpr ?_))
      exact Option.ne_none_iff_exists'.mpr ⟨fixture, old⟩
    · obtain rfl := List.mem_singleton.mp single
      cases other with
      | transition _ _ => cases brought; exact fits
      | _ => cases brought

private theorem hasNode_place (tidy : net.Tidy) {id : String} (named : namesPlace id = true)
    (free : id ∉ net.places.names) : net.hasNode id = false := by
  rw [Net.hasNode, Bool.or_eq_false_iff, ← Bool.not_eq_true, ← Bool.not_eq_true,
    Registry.contains_eq_true, Registry.contains_eq_true]
  exact ⟨free, fun other => Bool.noConfusion ((tidy.transition id other).symm.trans named)⟩

private theorem hasNode_transition (tidy : net.Tidy) {id : String}
    (named : namesPlace id = false) (free : id ∉ net.transitions.names) :
    net.hasNode id = false := by
  rw [Net.hasNode, Bool.or_eq_false_iff, ← Bool.not_eq_true, ← Bool.not_eq_true,
    Registry.contains_eq_true, Registry.contains_eq_true]
  exact ⟨fun other => Bool.noConfusion ((tidy.place id other).symm.trans named), free⟩

private theorem nodeKind?_eq (tidy : net.Tidy) {id : String} (known : net.hasNode id = true) :
    net.nodeKind? id = some (if namesPlace id then .place else .transition) := by
  rw [Net.hasNode, Bool.or_eq_true] at known
  rw [Net.nodeKind?]
  split
  · next place => rw [tidy.place id (Registry.contains_eq_true.mp place), if_pos rfl]
  · next other =>
      have transition := known.resolve_left other
      rw [if_pos transition, tidy.transition id (Registry.contains_eq_true.mp transition)]
      rfl

private theorem bindPlace_collides (tidy : net.Tidy) {id : String} {content : Content}
    {wanted : Endpoint} {failure : Failure} (wants : edit.wants? = some (id, wanted))
    (named : namesPlace id = true) (failed : net.bindPlace id content wanted = .error failure) :
    edit.Collides net failure := by
  unfold bindPlace at failed
  split at failed
  · next free =>
      have fresh := tidy.hasNode_place named (Registry.get?_eq_none_iff.mp free)
      rw [Net.addPlace, fresh] at failed
      cases failed
  · next place found =>
      have held : net.boundTo? id = place.content.bind Content.endpoint? := by
        rw [boundTo?, Net.content?, found]
        rfl
      dsimp only at failed
      split at failed
      · cases failed
      · next differ =>
          refine ⟨id, wanted, wants, Registry.mem_names_of_get? found, ?_, ?_⟩
          · rwa [held]
          · rw [held]
            exact (Except.error.inj failed).symm

/-- The only way in which an edit that fits can fail. -/
theorem collides (tidy : net.Tidy) (fits : edit.Fits fun id => net.hasNode id = true)
    {failure : Failure} (failed : edit.change net = .error failure) :
    edit.Collides net failure := by
  cases edit with
  | anchorPlace card anchor => exact tidy.bindPlace_collides rfl (namesPlace_place _) failed
  | eventPlace card anchor => exact tidy.bindPlace_collides rfl (namesPlace_eventPlace _) failed
  | listen card anchor => cases failed
  | place id held =>
      unfold Edit.change ensurePlace at failed
      dsimp only at failed
      split at failed
      · cases failed
      · next free =>
          rw [Net.addPlace, tidy.hasNode_place fits (mt Registry.contains_eq_true.mpr free)]
            at failed
          cases failed
  | transition id action =>
      unfold Edit.change ensureTransition at failed
      dsimp only at failed
      split at failed
      · cases failed
      · next free =>
          rw [Net.addTransition,
            tidy.hasNode_transition fits (mt Registry.contains_eq_true.mpr free)] at failed
          cases failed
  | arc source target =>
      obtain ⟨differ, left, right⟩ := fits
      have kinds : (if namesPlace source then NodeKind.place else .transition) ≠
          if namesPlace target then .place else .transition := by
        revert differ
        cases namesPlace source <;> cases namesPlace target <;> simp
      unfold Edit.change ensureArc at failed
      dsimp only at failed
      split at failed
      · cases failed
      · next free =>
          simp only [Net.addArc, tidy.nodeKind?_eq left, tidy.nodeKind?_eq right, kinds, free,
            Nat.one_ne_zero, if_false] at failed
          cases failed

end Circuit.Tidy

namespace Bench

variable {bench after : Bench} {edits : List Edit} {edit : Edit} {failure : Failure}

/-- A failed edit leaves everything as it was, and it has failed because of the circuit. -/
theorem change_of_apply_error (failed : edit.apply bench = .error failure) :
    edit.change bench.graph.net = .error failure := by
  have passed : ∀ {net : Except Failure Circuit}, bench.withNet net = .error failure →
      net = .error failure := by
    intro net failed
    cases net with
    | ok circuit => cases failed
    | error other => exact congrArg Except.error (Except.error.inj failed)
  cases edit with
  | listen card anchor => cases failed
  | anchorPlace _ _ => exact passed failed
  | eventPlace _ _ => exact passed failed
  | place _ _ => exact passed failed
  | transition _ _ => exact passed failed
  | arc _ _ => exact passed failed

/-- The nodes that there were stay, and the nodes that edits bring in are there afterwards. -/
theorem hasNode_grown (grows : bench.Grows edits after) {id : String}
    (known : bench.graph.net.hasNode id = true ∨ ∃ edit ∈ edits, edit.node? = some id) :
    after.graph.net.hasNode id = true := by
  rw [Circuit.hasNode_iff] at known ⊢
  rcases known with (place | transition) | ⟨edit, member, brought⟩
  · exact .inl (grows.net.keeps_taken place)
  · exact .inr (grows.net.keeps_taken transition)
  · cases edit with
    | transition _ _ => cases brought; exact .inr (grows.net.taken member rfl)
    | listen _ _ => cases brought
    | arc _ _ => cases brought
    | _ => cases brought; exact .inl (grows.net.taken member rfl)

/-- Edits whose arcs come after their nodes keep a circuit tidy, and they stop only at one that
wants a place that is bound otherwise. -/
theorem applyAll_cases (tidy : bench.graph.net.Tidy)
    (follow : Edit.Follow (fun id => bench.graph.net.hasNode id = true) edits) :
    ∃ done rest, edits = done ++ rest ∧ ∃ after, bench.Grows done after ∧
      after.graph.net.Tidy ∧
      (rest = [] ∧ bench.applyAll edits = (.ok (), after) ∨
        ∃ edit left failure, rest = edit :: left ∧ edit.Collides after.graph.net failure ∧
          bench.applyAll edits = (.error failure, after)) := by
  induction edits generalizing bench with
  | nil => exact ⟨[], [], rfl, bench, .refl bench, tidy, .inl ⟨rfl, rfl⟩⟩
  | cons edit rest ih =>
      cases applied : edit.apply bench with
      | error failure =>
          refine ⟨[], edit :: rest, rfl, bench, .refl bench, tidy, .inr ⟨edit, rest, failure, rfl,
            tidy.collides follow.1 (change_of_apply_error applied), ?_⟩⟩
          rw [applyAll, applied]
      | ok middle =>
          have grows := grows_of_apply applied
          have kept := tidy.grown grows.net follow.1
          obtain ⟨done, left, rfl, after, more, last, ends⟩ := ih kept
            (follow.2.mono fun id known => hasNode_grown grows (by simpa using known))
          refine ⟨edit :: done, left, rfl, after, grows.trans more, last, ?_⟩
          rw [applyAll, applied]
          exact ends

theorem tidy_of_applyAll (tidy : bench.graph.net.Tidy)
    (follow : Edit.Follow (fun id => bench.graph.net.hasNode id = true) edits)
    {result : Except Failure Unit} (applied : bench.applyAll edits = (result, after)) :
    after.graph.net.Tidy ∧ ∀ failure, result = .error failure → failure.IsCollision := by
  obtain ⟨done, rest, -, last, -, kept, ends⟩ := applyAll_cases tidy follow
  rcases ends with ⟨-, done⟩ | ⟨edit, left, failure, -, ⟨id, wanted, -, -, -, rfl⟩, stopped⟩
  · rw [done] at applied
    obtain ⟨rfl, rfl⟩ := Prod.mk.inj applied
    exact ⟨kept, nofun⟩
  · rw [stopped] at applied
    obtain ⟨rfl, rfl⟩ := Prod.mk.inj applied
    exact ⟨kept, fun other same => ⟨_, _, _, (Except.error.inj same).symm⟩⟩

/-- Adding a connection keeps a circuit tidy, and it fails only where a place is bound
otherwise. -/
theorem tidy_of_connect {connection : Connection} (tidy : bench.graph.net.Tidy)
    {result : Except Failure String} (connected : bench.connect connection = (result, after)) :
    after.graph.net.Tidy ∧ ∀ failure, result = .error failure → failure.IsCollision := by
  unfold connect at connected
  dsimp only at connected
  split at connected
  · obtain ⟨rfl, rfl⟩ := Prod.mk.inj connected
    exact ⟨tidy, nofun⟩
  · next parties found =>
      have follow := Connection.follow_layout found bench.graph.channel
        fun id => bench.graph.net.hasNode id = true
      split at connected
      · next failure stopped applied =>
          obtain ⟨kept, collision⟩ := tidy_of_applyAll tidy follow applied
          obtain ⟨rfl, rfl⟩ := Prod.mk.inj connected
          exact ⟨kept, fun other same => collision other (by cases same; rfl)⟩
      · next done applied =>
          obtain ⟨rfl, rfl⟩ := Prod.mk.inj connected
          exact ⟨(tidy_of_applyAll tidy follow applied).1, nofun⟩

theorem tidy_of_connectAll {connections : List Connection} (tidy : bench.graph.net.Tidy)
    {result : Except Failure Unit} (connected : bench.connectAll connections = (result, after)) :
    after.graph.net.Tidy ∧ ∀ failure, result = .error failure → failure.IsCollision := by
  induction connections generalizing bench with
  | nil =>
      obtain ⟨rfl, rfl⟩ := Prod.mk.inj connected
      exact ⟨tidy, nofun⟩
  | cons connection rest ih =>
      rw [connectAll] at connected
      split at connected
      · next first => exact ih (tidy_of_connect tidy first).1 connected
      · next failure stopped first =>
          obtain ⟨kept, collision⟩ := tidy_of_connect tidy first
          obtain ⟨rfl, rfl⟩ := Prod.mk.inj connected
          exact ⟨kept, fun other same => collision other (by cases same; rfl)⟩

end Bench

namespace Graph

/-- The plans of a graph fail to be made in function mode only, and for a reason of their own;
then the graph has no plan any more. -/
theorem recompile_error {graph after : Graph} {failure : Failure}
    (failed : graph.recompile = (.error failure, after)) :
    graph.mode = .function ∧ (∃ reason, failure = .region reason) ∧
      ∃ paths, after = { graph with paths := paths, plan := none } := by
  unfold recompile at failed
  split at failed
  · cases failed
  · next mode =>
      refine ⟨mode, ?_⟩
      unfold compile at failed
      dsimp only at failed
      split at failed
      · cases failed
        exact ⟨⟨_, rfl⟩, _, rfl⟩
      · split at failed
        · cases failed
        · split at failed
          · cases failed
            exact ⟨⟨_, rfl⟩, _, rfl⟩
          · cases failed

variable {mode : Mode} {config : GraphConfig} {cards : List Card} {globals : Option Values}
  {board after : Board}

/-- A build fails only where a place is bound otherwise, or, in function mode, where there is no
order to run the cards in. No other clash of names is ever reported. -/
theorem build_error {failure : Failure}
    (failed : build mode config cards globals board = (.error failure, after)) :
    failure.IsCollision ∨ mode = .function ∧ ∃ reason, failure = .region reason := by
  rw [build, create_eq] at failed
  dsimp only at failed
  split at failed
  · cases failed
  · next other bench constructed =>
      obtain rfl : other = failure := by cases failed; rfl
      have start : Circuit.Tidy _ := .blank s!"PetriNet_{config.name}"
      unfold Bench.construct at constructed
      split at constructed
      · next connected =>
          cases constructed
          exact .inl ((Bench.tidy_of_connectAll start connected).2 _ rfl)
      · next middle connected =>
          have tidy := (Bench.tidy_of_connectAll start connected).1
          dsimp only at constructed
          split at constructed
          · next applied =>
              cases constructed
              exact .inl ((Bench.tidy_of_applyAll tidy
                (.flatMap fun card _ => card.follow_blueprint _ _) applied).2 _ rfl)
          · next laid applied =>
              obtain ⟨grown, warnings, grows, rfl⟩ := Bench.grows_of_connectAll connected
              have modes : laid.graph.mode = mode := by
                rw [(Bench.grows_of_applyAll applied).graph]
                change grown.graph.mode = mode
                rw [grows.graph]
                rfl
              have recompiled : laid.seed.graph.recompile = (.error other, bench.graph) :=
                congrArg (fun done : Except Failure Unit × Bench => (done.1, done.2.graph))
                  constructed
              obtain ⟨function, reason, -⟩ := recompile_error recompiled
              exact .inr ⟨modes.symm.trans function, reason⟩

/-- The nodes of a graph that was built have names of their kinds. -/
theorem Built.tidy {graph : Graph} {connections : List Connection} {channel : Nat}
    (built : graph.Built cards connections channel) : graph.net.Tidy where
  plain := built.plain
  place := fun id member => by
    have held := mt Circuit.fixture?_place_eq_none.mp (not_not.mpr member)
    rw [built.fixture] at held
    obtain ⟨fixture, found⟩ := Option.ne_none_iff_exists'.mp held
    obtain ⟨edit, inside, here⟩ := List.exists_of_findSome?_eq_some found
    have brought := Edit.fixture?_eq_some.mp here
    rcases mem_drafts.mp inside with ⟨card, -, brings⟩ | ⟨connection, -, parties, -, brings⟩
    · cases brings <;> cases brought <;> simp
    · cases brings <;> cases brought <;> simp
  transition := fun id member => by
    have held := mt Circuit.fixture?_transition_eq_none.mp (not_not.mpr member)
    rw [built.fixture] at held
    obtain ⟨fixture, found⟩ := Option.ne_none_iff_exists'.mp held
    obtain ⟨edit, inside, here⟩ := List.exists_of_findSome?_eq_some found
    have brought := Edit.fixture?_eq_some.mp here
    rcases mem_drafts.mp inside with ⟨card, -, brings⟩ | ⟨connection, -, parties, -, brings⟩
    · cases brings <;> cases brought
      simp
    · cases brings <;> cases brought <;> simp

end Graph

end CardNet
