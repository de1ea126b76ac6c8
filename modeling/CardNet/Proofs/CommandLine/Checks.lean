import CardNet.CommandLine.Outcome
import CardNet.Proofs.Graph.Anatomy

/-!
# Validation next to building

Connections are looked at twice: a check validates them one by one against those that it accepted
before, and building lays out all of them and leaves some out with a warning. Both mean the same
anchors, those of the first card of an id, so a connection is left out just when an end of it is
unknown to the validation (`Connection.resolves_iff`). The validation asks first whether the
connection stays within a card or repeats another one, and does not get to the anchors then. So what
is left out is refused for one of three reasons, whatever connections there are already, and a check
without complaints goes with a report without warnings (`Graph.warnings_refused`).
-/

namespace CardNet

variable {cards : List Card} {connection : Connection} {existing : List Connection}

/-! ## One connection -/

namespace Connection

/-- Building knows both ends of a connection just when the validation knows both. -/
theorem resolves_iff : connection.Resolves cards ↔
    (connection.source.resolve? cards).isSome ∧ (connection.target.resolve? cards).isSome := by
  constructor
  · rintro ⟨parties, found⟩
    rw [resolve?_source found, resolve?_target found]
    exact ⟨rfl, rfl⟩
  · rintro ⟨source, target⟩
    obtain ⟨source, sourceFound⟩ := Option.isSome_iff_exists.mp source
    obtain ⟨target, targetFound⟩ := Option.isSome_iff_exists.mp target
    obtain ⟨sourceCard, sourceKnown, sourceOwn⟩ := Option.bind_eq_some_iff.mp sourceFound
    obtain ⟨targetCard, targetKnown, targetOwn⟩ := Option.bind_eq_some_iff.mp targetFound
    refine ⟨⟨sourceCard, targetCard, source, target⟩, ?_⟩
    simp only [parties, sourceKnown, targetKnown, sourceOwn, targetOwn]

/-- A connection has a warning just when building does not know both of its ends. -/
theorem exists_warning?_iff :
    (∃ warning, connection.warning? cards = some warning) ↔ ¬connection.Resolves cards := by
  unfold warning? Resolves
  cases connection.parties cards <;> simp

/-- The warning of a connection is about it. -/
theorem connection_of_warning? {warning : Warning}
    (warned : connection.warning? cards = some warning) : warning.connection = connection := by
  unfold warning? at warned
  split at warned
  · cases warned
    rfl
  · cases warned

theorem duplicate?_isSome_iff :
    (duplicate? existing connection).isSome ↔ connection ∈ existing := by
  rw [duplicate?, List.findIdx?_isSome, List.any_eq_true]
  simp

/-- Between two cards, and where it is new, a connection is refused for unknown anchors just when
building does not know both of its ends. -/
theorem validate_eq_unknownAnchor_iff (across : connection.source.card ≠ connection.target.card)
    (new : connection ∉ existing) :
    validate existing connection cards = .error .unknownAnchor ↔ ¬connection.Resolves cards := by
  have fresh : ¬(duplicate? existing connection).isSome := duplicate?_isSome_iff.not.mpr new
  rw [validate, if_neg across, if_neg fresh, resolves_iff]
  cases connection.source.resolve? cards with
  | none => simp
  | some source =>
      cases connection.target.resolve? cards with
      | none => simp
      | some target =>
          dsimp only
          split <;> simp

/-- The reasons for which a connection is refused before the kinds of its anchors are compared. -/
def Unfit (reason : Rejection) : Prop :=
  reason = .unknownAnchor ∨ reason = .selfLoop ∨ reason = .duplicate

/-- What building leaves out is refused before the kinds of anchors are compared. -/
theorem exists_validate_error (unknown : ¬connection.Resolves cards) (existing : List Connection) :
    ∃ reason, Unfit reason ∧ validate existing connection cards = .error reason := by
  by_cases across : connection.source.card = connection.target.card
  · exact ⟨.selfLoop, .inr (.inl rfl), if_pos across⟩
  · by_cases new : connection ∈ existing
    · refine ⟨.duplicate, .inr (.inr rfl), ?_⟩
      rw [validate, if_neg across, if_pos (duplicate?_isSome_iff.mpr new)]
    · exact ⟨.unknownAnchor, .inl rfl, (validate_eq_unknownAnchor_iff across new).mpr unknown⟩

end Connection

/-! ## All connections of a document -/

namespace CommandLine

/-- The connections that are refused next to those accepted before, in order, with the reasons. -/
def rejections (cards : List Card) :
    List Connection → List Connection → List (Connection × Rejection)
  | _, [] => []
  | accepted, connection :: rest =>
      match Connection.validate accepted connection cards with
      | .ok () => rejections cards (accepted ++ [connection]) rest
      | .error reason => (connection, reason) :: rejections cards accepted rest

/-- The complaint about a connection that is refused. -/
def complaint (rejection : Connection × Rejection) : String :=
  note .red "invalid:" s!"{rejection.1.text}: {rejection.2.message}"

/-- A check complains about each connection that is refused and counts the others. -/
theorem validateAll_eq (cards : List Card) (accepted connections : List Connection) :
    (validateAll cards accepted connections).2 =
        (rejections cards accepted connections).map complaint ∧
      (validateAll cards accepted connections).1 + (rejections cards accepted connections).length =
        accepted.length + connections.length := by
  induction connections generalizing accepted with
  | nil => exact ⟨rfl, rfl⟩
  | cons connection rest ih =>
      unfold validateAll rejections
      cases Connection.validate accepted connection cards with
      | ok =>
          obtain ⟨notes, count⟩ := ih (accepted ++ [connection])
          refine ⟨notes, ?_⟩
          rw [List.length_append] at count
          simp only [List.length_cons, List.length_nil] at count ⊢
          omega
      | error reason =>
          obtain ⟨notes, count⟩ := ih accepted
          refine ⟨congrArg (List.cons _) notes, ?_⟩
          simp only [List.length_cons]
          omega

/-- Each connection that building leaves out is refused by a check, at its place in the order. -/
theorem warnings_sublist_rejections (cards : List Card) (accepted connections : List Connection) :
    ((connections.filterMap (Connection.warning? cards)).map Warning.connection).Sublist
      ((rejections cards accepted connections).map Prod.fst) := by
  induction connections generalizing accepted with
  | nil => exact .slnil
  | cons connection rest ih =>
      rw [List.filterMap_cons, rejections]
      -- What was accepted before differs along the list, but what is unknown is refused beside all.
      cases warned : connection.warning? cards with
      | none =>
          cases Connection.validate accepted connection cards with
          | ok => exact ih (accepted ++ [connection])
          | error reason => exact (ih accepted).cons connection
      | some warning =>
          obtain ⟨reason, -, refused⟩ := Connection.exists_validate_error
            (Connection.exists_warning?_iff.mp ⟨warning, warned⟩) accepted
          rw [refused, List.map_cons, List.map_cons, Connection.connection_of_warning? warned]
          exact (ih accepted).cons_cons connection

end CommandLine

namespace Graph

variable {mode : Mode} {config : GraphConfig} {globals : Option Values} {board after : Board}
  {graph : Graph}

/-- What is left out are the connections of which building does not know both ends. -/
theorem exists_warning_iff (built : build mode config cards globals board = (.ok graph, after)) :
    (∃ warning ∈ graph.report.warnings, warning.connection = connection) ↔
      connection ∈ config.connections ∧ ¬connection.Resolves cards := by
  have warned : graph.report.warnings =
      config.connections.filterMap (Connection.warning? cards) := warnings_of_build built
  rw [warned, ← Connection.exists_warning?_iff]
  constructor
  · rintro ⟨warning, member, rfl⟩
    obtain ⟨connection, known, found⟩ := List.mem_filterMap.mp member
    rw [Connection.connection_of_warning? found]
    exact ⟨known, warning, found⟩
  · rintro ⟨known, warning, found⟩
    exact ⟨warning, List.mem_filterMap.mpr ⟨connection, known, found⟩,
      Connection.connection_of_warning? found⟩

/-- What is left out is among what a check refuses, in the same order. -/
theorem warnings_sublist (built : build mode config cards globals board = (.ok graph, after)) :
    (graph.report.warnings.map Warning.connection).Sublist
      ((CommandLine.rejections cards [] config.connections).map Prod.fst) := by
  have warned : graph.report.warnings =
      config.connections.filterMap (Connection.warning? cards) := warnings_of_build built
  rw [warned]
  exact CommandLine.warnings_sublist_rejections cards [] config.connections

/-- Where a check accepts all connections, building leaves none out. -/
theorem warnings_eq_nil (built : build mode config cards globals board = (.ok graph, after))
    (accepted : CommandLine.rejections cards [] config.connections = []) :
    graph.report.warnings = [] := by
  have among := warnings_sublist built
  rw [accepted, List.map_nil, List.sublist_nil] at among
  exact List.map_eq_nil_iff.mp among

/-- A graph that was built and the validation of its connections: what is left out is refused for
one of three reasons, whatever connections there are already; a new connection between two cards is
refused for unknown anchors just when it is left out; and what is left out is among what a check
complains about, so a check that accepts all connections goes with a report without warnings. -/
theorem warnings_refused (built : build mode config cards globals board = (.ok graph, after)) :
    (∀ warning ∈ graph.report.warnings, ∀ existing, ∃ reason, Connection.Unfit reason ∧
      Connection.validate existing warning.connection cards = .error reason) ∧
    (∀ connection ∈ config.connections, connection.source.card ≠ connection.target.card →
      ∀ existing, connection ∉ existing →
        (Connection.validate existing connection cards = .error .unknownAnchor ↔
          ∃ warning ∈ graph.report.warnings, warning.connection = connection)) ∧
    ((CommandLine.validateAll cards [] config.connections).1 = config.connections.length →
      graph.report.warnings = []) ∧
    (CommandLine.validateAll cards [] config.connections).2 =
      (CommandLine.rejections cards [] config.connections).map CommandLine.complaint ∧
    (graph.report.warnings.map Warning.connection).Sublist
      ((CommandLine.rejections cards [] config.connections).map Prod.fst) := by
  obtain ⟨notes, count⟩ := CommandLine.validateAll_eq cards [] config.connections
  refine ⟨fun warning member existing => ?_, fun connection known across existing new => ?_,
    fun accepted => ?_, notes, warnings_sublist built⟩
  · exact Connection.exists_validate_error
      ((exists_warning_iff built).mp ⟨warning, member, rfl⟩).2 existing
  · rw [Connection.validate_eq_unknownAnchor_iff across new, exists_warning_iff built]
    exact (and_iff_right known).symm
  · apply warnings_eq_nil built
    apply List.eq_nil_of_length_eq_zero
    rw [accepted, List.length_nil] at count
    omega

/-- Beside a connection that can be drawn, one to a card that there is not is listed twice, and one
from an anchor that there is not stays within its card. All three are refused, and the first two as
unknown. -/
theorem warnings_refused_bell :
    let listed : GraphConfig := ⟨"bell", [⟨⟨"bell", "out"⟩, ⟨"lamp", "on"⟩⟩, Rewired.astray,
      Rewired.astray, ⟨⟨"lamp", "none"⟩, ⟨"lamp", "on"⟩⟩]⟩
    let (cards, board) := Rewired.seated
    CommandLine.rejections cards [] listed.connections =
      [(Rewired.astray, .unknownAnchor), (Rewired.astray, .unknownAnchor),
        (⟨⟨"lamp", "none"⟩, ⟨"lamp", "on"⟩⟩, .selfLoop)] ∧
    ∃ graph after, build .visual listed cards none board = (.ok graph, after) ∧
      (∃ warning ∈ graph.report.warnings, warning.connection = Rewired.astray) ∧
      (graph.report.warnings.map Warning.connection).Sublist
        ((CommandLine.rejections cards [] listed.connections).map Prod.fst) := by
  intro listed
  refine ⟨by decide +kernel, ?_⟩
  have succeeds : (build .visual listed Rewired.seated.1 none Rewired.seated.2).1.toOption.isSome :=
    by decide +kernel
  rcases built : build .visual listed Rewired.seated.1 none Rewired.seated.2 with
    ⟨failure | graph, after⟩
  · rw [built] at succeeds
    cases succeeds
  · obtain ⟨-, unknown, -, -, among⟩ := warnings_refused built
    refine ⟨graph, after, built, ?_, among⟩
    exact (unknown Rewired.astray (by decide) (by decide) [] (by decide)).mp (by decide +kernel)

end Graph

/-- A check that ends well has built the graph, and nothing was left out of it. -/
theorem CommandLine.warnings_of_check {document : Document} {designs : List CardDesign}
    {environment : List (String × String)} (well : (check document designs environment).exit = 0) :
    ∃ mode graph after, Graph.build mode document.graph (Board.empty.seatAll designs).1
        document.suppliedGlobals (Board.empty.seatAll designs).2 = (.ok graph, after) ∧
      graph.report.warnings = [] := by
  unfold check at well
  dsimp only at well
  split at well
  · cases well
  · next config _ =>
      split at well
      · cases well
      · next graph after built =>
          refine ⟨config.mode, graph, after, built, Graph.warnings_eq_nil built ?_⟩
          unfold checked at well
          dsimp only at well
          split at well
          · next silent =>
              rw [(validateAll_eq _ [] _).1, List.isEmpty_map, List.isEmpty_iff] at silent
              exact silent
          · cases well

end CardNet
