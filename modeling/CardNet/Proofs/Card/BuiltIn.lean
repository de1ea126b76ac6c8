import CardNet.Card.Operation
import CardNet.Proofs.Graph.Play

/-!
# Calls of built-in cards

A call of a built-in card is whole or nothing: it answers with a value for each output that the card
declares and every output anchor holds the value of its name, or it fails and no anchor has changed
(`CardDef.call_whole_or_nothing`). Whether it fails is told by its arguments: arithmetic fails on
the first input that is not a number, a global input on a missing key, and nothing else fails
(`CardDef.settles_apply`).

Names may be declared more than once. Arguments are found under their names, so of two input anchors
of one name the later counts for both (`Card.argument?`). Output anchors of one name all get the
value of that name, for seated anchors lie at slots of their own (`Card.nodup_slots_seat`).
-/

namespace CardNet

/-- Asking for each item of a list fails at the first item that nothing is found for. -/
theorem mapM_eq_elim {α β ε : Type} {answer : α → Except ε β} {found? : α → Option β}
    {missing : α → ε} (asks : ∀ item, answer item = (found? item).elim (.error (missing item)) .ok)
    (items : List α) :
    items.mapM answer =
      (items.find? fun item => (found? item).isNone).elim (.ok (items.filterMap found?))
        fun item => .error (missing item) := by
  induction items with
  | nil => rfl
  | cons item rest ih =>
      rw [List.mapM_cons, ih, asks, List.find?_cons]
      cases found : found? item with
      | none => rfl
      | some value =>
          rw [List.filterMap_cons, found]
          dsimp only [Option.elim_some, Option.isNone_some]
          cases rest.find? fun item => (found? item).isNone <;> rfl

/-! ## Seated cards -/

/-- Anchors are seated at consecutive slots. -/
theorem Board.seatAnchors_eq (board : Board) (designs : List AnchorDesign) :
    (board.seatAnchors designs).1 =
      (designs.zipIdx board.nextSlot).map fun seat => seat.1.toAnchor seat.2 := by
  induction designs generalizing board with
  | nil => rfl
  | cons design rest ih => exact congrArg (List.cons _) (ih _)

namespace Card

/-- The anchors of a seated card lie at slots of their own. -/
theorem nodup_slots_seat (board : Board) (design : CardDesign) :
    ((board.seat design).1.anchors.map Anchor.slot).Nodup := by
  have seated : (board.seat design).1.anchors =
      (board.allocate.2.seatAnchors design.anchors).1 := rfl
  have slots : (fun seat : AnchorDesign × Nat => (seat.1.toAnchor seat.2).slot) = Prod.snd := rfl
  rw [seated, Board.seatAnchors_eq, List.map_map, Function.comp_def, slots, List.zipIdx_map_snd]
  exact List.nodup_range'

/-- A seated card has the anchors of its design, in order. -/
theorem anchorsOf_seat (board : Board) (design : CardDesign) (kind : AnchorKind) :
    ((board.seat design).1.anchorsOf kind).map Anchor.id =
      (design.anchors.filter fun anchor => anchor.kind == kind).map AnchorDesign.id := by
  have seated : ∀ (designs : List AnchorDesign) (board : Board),
      ((board.seatAnchors designs).1.filter fun anchor => anchor.kind == kind).map Anchor.id =
        (designs.filter fun anchor => anchor.kind == kind).map AnchorDesign.id := by
    intro designs
    induction designs with
    | nil => exact fun _ => rfl
    | cons first rest ih =>
        intro board
        have split : (board.seatAnchors (first :: rest)).1 =
            first.toAnchor board.nextSlot :: ((board.seatAnchor first).2.seatAnchors rest).1 := rfl
        have same : (first.toAnchor board.nextSlot).kind = first.kind := rfl
        rw [split, List.filter_cons, List.filter_cons, same]
        split
        · exact congrArg (List.cons first.id) (ih _)
        · exact ih _
  exact seated design.anchors board.allocate.2

variable {card : Card} {anchor : Anchor}

/-- Where anchors lie at slots of their own, no slot is written twice. -/
theorem nodup_written (apart : (card.anchors.map Anchor.slot).Nodup) (results : Values) :
    ((card.written results).map Prod.fst).Nodup := by
  have outputs : ((card.anchorsOf .output).map Anchor.slot).Nodup :=
    (List.filter_sublist.map Anchor.slot).nodup apart
  rw [List.Nodup, List.pairwise_map] at outputs
  rw [written, List.Nodup, List.pairwise_map, List.pairwise_filterMap]
  refine outputs.imp fun {one two} differ first held second stands => ?_
  obtain ⟨_, -, rfl⟩ := Option.map_eq_some_iff.mp held
  obtain ⟨_, -, rfl⟩ := Option.map_eq_some_iff.mp stands
  exact differ

/-- Where anchors lie at slots of their own, each output anchor gets the result of its name. -/
theorem read_publish (apart : (card.anchors.map Anchor.slot).Nodup)
    (output : anchor ∈ card.anchorsOf .output) (results : Values) (board : Board) :
    (card.publish results board).read anchor =
      (results.get? anchor.id).getD (board.read anchor) := by
  have distinct := nodup_written apart results
  rw [publish_eq, Board.read_writeAll, lookup_reverse distinct]
  congr 1
  refine Option.ext fun value => ?_
  rw [lookup_eq_some_iff distinct, written, List.mem_filterMap]
  -- Slots tell the anchors apart: what is written at the slot of an anchor is written for it.
  constructor
  · rintro ⟨other, known, found⟩
    obtain ⟨held, stands, same⟩ := Option.map_eq_some_iff.mp found
    obtain ⟨slot, rfl⟩ := Prod.mk.inj same
    have own : other = anchor :=
      List.inj_on_of_nodup_map apart (List.mem_filter.mp known).1 (List.mem_filter.mp output).1 slot
    rw [← own, stands]
  · intro stands
    exact ⟨anchor, output, by rw [stands]; rfl⟩

/-- An input anchor of a card is no output anchor of it. -/
theorem slot_ne_of_input (apart : (card.anchors.map Anchor.slot).Nodup)
    (input : anchor ∈ card.anchorsOf .input) :
    ∀ output ∈ card.anchorsOf .output, output.slot ≠ anchor.slot := by
  intro output known same
  obtain ⟨member, kind⟩ := List.mem_filter.mp known
  obtain ⟨listed, other⟩ := List.mem_filter.mp input
  obtain rfl := List.inj_on_of_nodup_map apart member listed same
  rw [eq_of_beq kind] at other
  exact absurd other (by decide)

/-- The last input anchor of an id. -/
def lastInput? (card : Card) (id : String) : Option Anchor :=
  (card.anchorsOf .input).reverse.find? fun anchor => anchor.id == id

/-- What a call finds under a name: what is handed over or else the value of the last input anchor
of that name, and where that is nothing, what the globals hold. -/
def argument? (card : Card) (inputs globals : Option Values) (board : Board) (name : String) :
    Option Value :=
  let own :=
    match inputs with
    | some handed => handed.get? name
    | none => (card.lastInput? name).map board.read
  own.or (globals.bind fun supplied => supplied.get? name)

theorem getElem?_gather (card : Card) (board : Board) (name : String) :
    (card.gather board)[name]? = (card.lastInput? name).map board.read := by
  rw [gather, Values.getElem?_ofPairs_eq_lookup, ← List.map_reverse, lastInput?]
  induction (card.anchorsOf .input).reverse with
  | nil => rfl
  | cons anchor rest ih =>
      rw [List.map_cons, List.lookup_cons, List.find?_cons, BEq.comm]
      cases anchor.id == name with
      | true => rfl
      | false => exact ih

theorem get?_arguments (card : Card) (inputs globals : Option Values) (board : Board)
    (name : String) :
    (card.arguments inputs globals board).get? name =
      card.argument? inputs globals board name := by
  rw [arguments, Std.ExtTreeMap.get?_eq_getElem?, Values.getElem?_fill]
  unfold argument?
  cases inputs <;> cases globals <;> simp [getElem?_gather]

end Card

/-! ## What declared cards compute -/

/-- The operations on numbers. -/
def Operation.Arithmetic (op : Operation) : Prop := op = .add ∨ op = .mul ∨ op = .double

/-- The argument of a name is a number. -/
def Numbered (argument? : String → Option Value) (name : String) : Prop :=
  ∃ n, argument? name = some (.number n)

theorem not_numbered_iff {argument? : String → Option Value} {name : String} :
    ¬Numbered argument? name ↔ ((argument? name).bind Value.toFloat?).isNone = true := by
  unfold Numbered
  cases argument? name with
  | none => simp
  | some value => cases value <;> simp [Value.toFloat?]

namespace CardDef

variable {declared : CardDef} {argument? : String → Option Value}

/-- Why the computation of a declared card fails, if it does: arithmetic on the first input that is
not a number, a global input on the first key that is missing. -/
def complaint? (declared : CardDef) (argument? : String → Option Value) : Option OperationError :=
  match declared.op with
  | .add | .mul | .double =>
      (declared.inputs.find? fun name => ((argument? name).bind Value.toFloat?).isNone).map
        (.notANumber declared.id)
  | .global =>
      (declared.outputs.find? fun output => (argument? (declared.key.getD output)).isNone).map
        fun output => .noGlobal declared.id (declared.key.getD output)
  | .constant | .concat | .passthrough => none

theorem complaint?_arithmetic (arithmetic : declared.op.Arithmetic) :
    declared.complaint? argument? =
      (declared.inputs.find? fun name => ((argument? name).bind Value.toFloat?).isNone).map
        (.notANumber declared.id) := by
  unfold complaint?
  rcases arithmetic with op | op | op <;> rw [op]

theorem complaint?_global (op : declared.op = .global) :
    declared.complaint? argument? =
      (declared.outputs.find? fun output => (argument? (declared.key.getD output)).isNone).map
        fun output => .noGlobal declared.id (declared.key.getD output) := by
  unfold complaint?
  rw [op]

theorem complaint?_steady
    (op : declared.op = .constant ∨ declared.op = .concat ∨ declared.op = .passthrough) :
    declared.complaint? argument? = none := by
  unfold complaint?
  rcases op with op | op | op <;> rw [op]

/-- The declared outputs and nothing else are answered. -/
def Answers (declared : CardDef) (results : Values) : Prop :=
  ∀ name, name ∈ results ↔ name ∈ declared.outputs

theorem answers_ofPairs {pairs : List (String × Value)}
    (outputs : pairs.map Prod.fst = declared.outputs) :
    declared.Answers (Values.ofPairs pairs) := by
  intro name
  rw [Values.mem_ofPairs, outputs]

theorem answers_alike (declared : CardDef) (value : Value) :
    declared.Answers (Values.ofPairs (declared.outputs.map fun output => (output, value))) := by
  refine answers_ofPairs ?_
  rw [List.map_map]
  exact List.map_id' _

/-- What is computed from arguments: a failure with the complaint about them, if there is one, and
otherwise an answer for the declared outputs. -/
def Settles (declared : CardDef) (arguments : Values) : Prop :=
  match declared.complaint? arguments.get? with
  | some reason => declared.apply arguments = .error reason
  | none => ∃ results, declared.apply arguments = .ok results ∧ declared.Answers results

theorem settles_arithmetic (arithmetic : declared.op.Arithmetic) (arguments : Values) :
    declared.Settles arguments := by
  have asked : declared.numbers arguments =
      (declared.inputs.find? fun name =>
          ((arguments.get? name).bind Value.toFloat?).isNone).elim
        (.ok (declared.inputs.filterMap fun name => (arguments.get? name).bind Value.toFloat?))
        fun name => .error (.notANumber declared.id name) := by
    refine mapM_eq_elim (fun name => ?_) declared.inputs
    cases (arguments.get? name).bind Value.toFloat? <;> rfl
  unfold Settles apply result
  rw [complaint?_arithmetic arithmetic, asked]
  cases declared.inputs.find? fun name => ((arguments.get? name).bind Value.toFloat?).isNone with
  | some name => rcases arithmetic with op | op | op <;> rw [op] <;> rfl
  | none =>
      rcases arithmetic with op | op | op <;> rw [op] <;>
        exact ⟨_, rfl, declared.answers_alike _⟩

/-- What a global input puts out under an output name. -/
def supplied? (declared : CardDef) (arguments : Values) (output : String) :
    Option (String × Value) :=
  (arguments.get? (declared.key.getD output)).map fun value => (output, value)

theorem settles_global (op : declared.op = .global) (arguments : Values) :
    declared.Settles arguments := by
  have asked : declared.apply arguments =
      ((declared.outputs.find? fun output => (declared.supplied? arguments output).isNone).elim
        (Except.ok (declared.outputs.filterMap (declared.supplied? arguments)))
        fun output => .error (.noGlobal declared.id (declared.key.getD output))).map
          Values.ofPairs := by
    unfold apply
    rw [op]
    refine congrArg (Except.map _) (mapM_eq_elim (fun output => ?_) declared.outputs)
    unfold supplied?
    dsimp only
    cases arguments.get? (declared.key.getD output) <;> rfl
  have absent : (fun output => (declared.supplied? arguments output).isNone) =
      fun output => (arguments.get? (declared.key.getD output)).isNone :=
    funext fun output => Option.isNone_map ..
  unfold Settles
  rw [complaint?_global op, asked, ← absent]
  cases missing : declared.outputs.find? fun output =>
      (declared.supplied? arguments output).isNone with
  | some output => rfl
  | none =>
      refine ⟨_, rfl, answers_ofPairs ?_⟩
      rw [List.map_filterMap]
      refine (List.filterMap_congr fun output known => ?_).trans List.filterMap_some
      have found := List.find?_eq_none.mp missing output known
      unfold supplied? at found ⊢
      cases held : arguments.get? (declared.key.getD output) with
      | none => exact absurd (by rw [held]; rfl) found
      | some value => rfl

theorem settles_passthrough (accepted : declared.refusal? = none) (op : declared.op = .passthrough)
    (arguments : Values) : declared.Settles arguments := by
  have even : declared.outputs.length ≤ declared.inputs.length := by
    by_contra uneven
    rw [refusal?, op] at accepted
    simp only [ite_eq_right_iff, reduceCtorEq, imp_false, not_not] at accepted
    omega
  unfold Settles apply
  rw [complaint?_steady (.inr (.inr op)), op]
  refine ⟨_, rfl, answers_ofPairs ?_⟩
  rw [List.map_map]
  exact List.map_snd_zip even

/-- A computation fails just when there is a complaint about its arguments, and with it. -/
theorem settles_apply (accepted : declared.refusal? = none) (arguments : Values) :
    declared.Settles arguments := by
  cases op : declared.op with
  | add => exact settles_arithmetic (.inl op) arguments
  | mul => exact settles_arithmetic (.inr (.inl op)) arguments
  | double => exact settles_arithmetic (.inr (.inr op)) arguments
  | global => exact settles_global op arguments
  | passthrough => exact settles_passthrough accepted op arguments
  | constant | concat =>
      unfold Settles complaint? apply result
      rw [op]
      exact ⟨_, rfl, declared.answers_alike _⟩

/-- The card of an accepted declaration. -/
theorem design_eq_ok {design : CardDesign} (made : declared.design = .ok design) :
    declared.refusal? = none ∧ design.anchors = declared.anchors ∧
      design.work = .function fun arguments =>
        (declared.apply arguments).mapError OperationError.message := by
  unfold CardDef.design at made
  split at made
  · cases made
  · next accepted =>
      cases made
      exact ⟨accepted, rfl, rfl⟩

/-- The declared anchors are the inputs, then the outputs. -/
theorem ids_anchors (declared : CardDef) :
    (declared.anchors.filter fun anchor => anchor.kind == .input).map AnchorDesign.id =
        declared.inputs ∧
      (declared.anchors.filter fun anchor => anchor.kind == .output).map AnchorDesign.id =
        declared.outputs := by
  unfold anchors
  simp only [List.filter_append, List.filter_map, List.map_append, List.map_map, Function.comp_def]
  simp

end CardDef

/-! ## Calls -/

/-- What a call of a card with a declaration comes to, from what it finds under names. -/
structure CardDef.Called (declared : CardDef) (card : Card) (argument? : String → Option Value)
    (before after : Board) (answer : Except String Value) : Prop where
  /-- Either each declared output is answered and written and the inputs stay as they are, or the
  call fails and all anchors stay as they are. -/
  whole : (∃ results : Values, answer = .ok (.ofValues results) ∧ declared.Answers results ∧
      (∀ anchor ∈ card.anchorsOf .output, results.get? anchor.id = some (after.read anchor)) ∧
      ∀ anchor ∈ card.anchorsOf .input, after.read anchor = before.read anchor) ∨
    (∃ message, answer = .error message) ∧ ∀ anchor, after.read anchor = before.read anchor
  /-- Arithmetic fails just when an input is not a number. -/
  arithmetic : declared.op.Arithmetic →
    ((∃ message, answer = .error message) ↔ ∃ name ∈ declared.inputs, ¬Numbered argument? name)
  /-- The failure names the first input that is not a number. -/
  first : declared.op.Arithmetic → ∀ front name rest, declared.inputs = front ++ name :: rest →
    (∀ other ∈ front, Numbered argument? other) → ¬Numbered argument? name →
      answer = .error (OperationError.notANumber declared.id name).message
  /-- A global input fails just when a key of an output is missing. -/
  missing : declared.op = .global → ((∃ message, answer = .error message) ↔
    ∃ output ∈ declared.outputs, argument? (declared.key.getD output) = none)
  /-- Constants, joined texts and wires do not fail. -/
  steady : declared.op = .constant ∨ declared.op = .concat ∨ declared.op = .passthrough →
    ∃ value, answer = .ok value

namespace CardDef

variable {declared : CardDef} {argument? : String → Option Value}

/-- A call fails with the complaint about its arguments when it has only been entered, or it
publishes what it answers. -/
theorem call_spec {card : Card} (accepted : declared.refusal? = none)
    (work : card.work = .function fun arguments =>
      (declared.apply arguments).mapError OperationError.message)
    (inputs globals : Option Values) (board : Board) :
    (∃ reason, declared.complaint? (card.argument? inputs globals board) = some reason ∧
        card.call inputs globals board = (.error reason.message, card.enter board)) ∨
      declared.complaint? (card.argument? inputs globals board) = none ∧
        ∃ results, declared.Answers results ∧ card.call inputs globals board =
          (.ok (.ofValues results), card.publish results (card.enter board)) := by
  have found : (card.arguments inputs globals board).get? =
      card.argument? inputs globals board := funext (card.get?_arguments inputs globals board)
  have settled := settles_apply accepted (card.arguments inputs globals board)
  unfold Settles at settled
  rw [found] at settled
  unfold Card.call Card.compute
  rw [work]
  dsimp only
  cases complaint : declared.complaint? (card.argument? inputs globals board) with
  | some reason =>
      rw [complaint] at settled
      have failed : declared.apply (card.arguments inputs globals board) = .error reason := settled
      rw [failed]
      exact .inl ⟨reason, rfl, rfl⟩
  | none =>
      rw [complaint] at settled
      obtain ⟨results, done, answers⟩ := settled
      rw [done]
      exact .inr ⟨rfl, results, answers, rfl⟩

/-- A call of a card with an accepted declaration, whose anchors lie at slots of their own. -/
theorem called_of_work {card : Card} (accepted : declared.refusal? = none)
    (work : card.work = .function fun arguments =>
      (declared.apply arguments).mapError OperationError.message)
    (apart : (card.anchors.map Anchor.slot).Nodup)
    (named : (card.anchorsOf .output).map Anchor.id = declared.outputs)
    (inputs globals : Option Values) (board : Board) :
    declared.Called card (card.argument? inputs globals board) board
      (card.call inputs globals board).2 (card.call inputs globals board).1 := by
  have spec := call_spec accepted work inputs globals board
  have stays : ∀ anchor ∈ card.anchorsOf .input,
      (card.call inputs globals board).2.read anchor = board.read anchor :=
    fun anchor input => Card.read_call (Card.slot_ne_of_input apart input)
  generalize card.argument? inputs globals board = argument? at spec ⊢
  have fails : (∃ message, (card.call inputs globals board).1 = .error message) ↔
      (declared.complaint? argument?).isSome := by
    rcases spec with ⟨reason, complaint, called⟩ | ⟨complaint, results, -, called⟩ <;>
      simp [complaint, called]
  refine ⟨?whole, fun arithmetic => ?arithmetic,
    fun arithmetic front name rest split before other => ?first, fun op => ?missing,
    fun op => ?steady⟩
  case whole =>
    rcases spec with ⟨reason, -, called⟩ | ⟨-, results, answers, called⟩
    · rw [called]
      exact .inr ⟨⟨_, rfl⟩, fun anchor => congrFun (card.read_enter board) anchor⟩
    · refine .inl ⟨results, by rw [called], answers, fun anchor output => ?_, stays⟩
      have known : anchor.id ∈ results := by
        rw [answers, ← named]
        exact List.mem_map_of_mem output
      rw [called, Card.read_publish apart output, Std.ExtTreeMap.get?_eq_getElem?,
        Std.ExtTreeMap.getElem?_eq_some_getElem known, Option.getD_some]
  case arithmetic =>
    rw [fails, complaint?_arithmetic arithmetic, Option.isSome_map, List.find?_isSome]
    simp only [not_numbered_iff]
  case first =>
    have complains : declared.complaint? argument? = some (.notANumber declared.id name) := by
      rw [complaint?_arithmetic arithmetic, Option.map_eq_some_iff]
      refine ⟨name, List.find?_eq_some_iff_append.mpr
        ⟨not_numbered_iff.mp other, front, rest, split, fun one member => ?_⟩, rfl⟩
      rw [Bool.not_eq_true', ← Bool.not_eq_true, ← not_numbered_iff, not_not]
      exact before one member
    rcases spec with ⟨reason, complaint, called⟩ | ⟨complaint, -⟩
    · rw [called, ← Option.some.inj (complains.symm.trans complaint)]
    · cases complains.symm.trans complaint
  case missing =>
    rw [fails, complaint?_global op, Option.isSome_map, List.find?_isSome]
    simp only [Option.isNone_iff_eq_none]
  case steady =>
    rcases spec with ⟨reason, complaint, -⟩ | ⟨-, results, -, called⟩
    · cases (complaint?_steady op).symm.trans complaint
    · exact ⟨_, by rw [called]⟩

/-- A call of the card of a declaration, on whatever board and with whatever arguments, answers for
the declared outputs and writes all of them, or fails and changes no anchor; and whether it fails is
told by the arguments. -/
theorem call_whole_or_nothing {design : CardDesign} (made : declared.design = .ok design)
    (ground board : Board) (inputs globals : Option Values) :
    let card := (ground.seat design).1
    ((card.anchorsOf .input).map Anchor.id = declared.inputs ∧
      (card.anchorsOf .output).map Anchor.id = declared.outputs) ∧
    declared.Called card (card.argument? inputs globals board) board
      (card.call inputs globals board).2 (card.call inputs globals board).1 := by
  obtain ⟨accepted, anchors, work⟩ := design_eq_ok made
  have named : ((ground.seat design).1.anchorsOf .input).map Anchor.id = declared.inputs ∧
      ((ground.seat design).1.anchorsOf .output).map Anchor.id = declared.outputs := by
    rw [Card.anchorsOf_seat, Card.anchorsOf_seat, anchors]
    exact declared.ids_anchors
  exact ⟨named, called_of_work accepted work (Card.nodup_slots_seat ground design) named.2 inputs
    globals board⟩

/-- A sum that names one of its inputs and its output twice. -/
def twofold : CardDef where
  id := "sum"
  title := none
  op := .add
  inputs := ["a", "b", "a"]
  outputs := ["s", "s"]
  defaults := ∅
  value := .null
  key := none

/-- The sum is made and seated; called with a text under its second name it fails, names that input,
and leaves all anchors as they are. -/
theorem call_whole_or_nothing_twofold : ∃ design, twofold.design = .ok design ∧
    let handed := Values.ofPairs [("a", .ofNat 1), ("b", .text "x")]
    let (card, board) := Board.empty.seat design
    (card.call (some handed) none board).1 = .error "card sum: input b is not a number" ∧
      ∀ anchor, (card.call (some handed) none board).2.read anchor = board.read anchor := by
  have made : twofold.design = .ok _ := rfl
  refine ⟨_, made, ?_⟩
  intro handed
  generalize seat : Board.empty.seat _ = seated
  obtain ⟨card, board⟩ := seated
  have found : ∀ name, card.argument? (some handed) none board name =
      [("b", .text "x"), ("a", .ofNat 1)].lookup name :=
    fun name => (Option.or_none ..).trans (Values.getElem?_ofPairs_eq_lookup _ name)
  have called := (call_whole_or_nothing made Board.empty board (some handed) none).2
  rw [seat] at called
  have failed := called.first (.inl rfl) ["a"] "b" ["a"] rfl
    (fun other member => by
      rw [List.mem_singleton.mp member]
      exact ⟨.whole 1, found "a"⟩)
    (fun ⟨n, held⟩ => by
      rw [found] at held
      cases held)
  refine ⟨failed, ?_⟩
  rcases called.whole with ⟨results, done, -⟩ | ⟨-, same⟩
  · cases failed.symm.trans done
  · exact same

end CardDef

end CardNet
