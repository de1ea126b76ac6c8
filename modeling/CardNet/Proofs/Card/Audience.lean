import CardNet.Proofs.Graph.Bells
import Mathlib.Data.List.TakeWhile

/-!
# The audience of an event anchor

Subscriptions to an event anchor are made and given up, and values are emitted and set, in any
order. What is sent follows from the history alone: each emission tells the subscriptions that are
live at that time, in order of their creation (`Handling.tidings`), so that a subscription is told
what is emitted between its creation and its end (`Audience.hears_while_subscribed`). The bell of
the anchor holds just the live subscriptions, under the numbers of their creation
(`Audience.Tells`), which no subscription gets twice.
-/

namespace CardNet

/-- What is done to an event anchor. -/
inductive Handling where
  | subscribe (listener : Listener)
  /-- Give up a subscription; they are counted from zero in order of creation. -/
  | drop (subscription : Nat)
  | emit (value : Value)
  | set (value : Value)

/-- A board, and the subscriptions to an anchor as their holders have them: each its number on the
bell, until it is given up. -/
structure Audience where
  board : Board
  held : List (Option Nat)

namespace Audience

/-- The board before anybody has subscribed. -/
def start (board : Board) : Audience := ⟨board, []⟩

/-- Do something to an anchor. A subscription that was never made or is given up already cannot be
given up. -/
def undergo (anchor : Anchor) (audience : Audience) : Handling → Audience
  | .subscribe listener =>
      let (number, board) := audience.board.subscribe anchor listener
      ⟨board, audience.held ++ [number]⟩
  | .drop subscription =>
      match audience.held[subscription]?.join with
      | some number =>
          ⟨audience.board.unsubscribe anchor number, audience.held.set subscription none⟩
      | none => audience
  | .emit value => { audience with board := audience.board.emit anchor value }
  | .set value => { audience with board := audience.board.write anchor value }

/-- Do things to an anchor in order. -/
def undergoAll (anchor : Anchor) (audience : Audience) (history : List Handling) : Audience :=
  history.foldl (undergo anchor) audience

end Audience

/-- The values that were sent to a listener, oldest first. -/
def Board.heard (board : Board) (listener : Listener) : List Value :=
  ((board.channel listener.channel).mail.filter (·.1 = listener.label)).map Prod.snd

/-- A listener is told a value on behalf of a subscription. -/
structure Tiding where
  subscription : Nat
  listener : Listener
  value : Value

/-- A tiding as it arrives in a channel, if it goes there. -/
def Tiding.letter? (channel : Nat) (tiding : Tiding) : Option (String × Value) :=
  if tiding.listener.channel = channel then some (tiding.listener.label, tiding.value) else none

namespace Handling

/-! ## What a history says -/

/-- The listener of a new subscription. -/
def subscribed? : Handling → Option Listener
  | subscribe listener => some listener
  | _ => none

/-- The value that is emitted. -/
def emitted? : Handling → Option Value
  | emit value => some value
  | _ => none

/-- The value that the anchor gets. -/
def written? : Handling → Option Value
  | emit value => some value
  | set value => some value
  | _ => none

/-- Whether a subscription is given up. -/
def drops (subscription : Nat) : Handling → Bool
  | drop other => other == subscription
  | _ => false

/-- The listeners of all subscriptions, in order of creation. -/
def subscribers (history : List Handling) : List Listener := history.filterMap subscribed?

/-- The values that were emitted, in order. -/
def emissions (history : List Handling) : List Value := history.filterMap emitted?

/-- The values that the anchor got, in order. -/
def writings (history : List Handling) : List Value := history.filterMap written?

/-- What was done after the creation of a subscription. -/
def since : Nat → List Handling → List Handling
  | _, [] => []
  | 0, subscribe _ :: rest => rest
  | n + 1, subscribe _ :: rest => since n rest
  | n, _ :: rest => since n rest

/-- What was done between the creation of a subscription and its end. -/
def during (subscription : Nat) (history : List Handling) : List Handling :=
  (since subscription history).takeWhile fun deed => !deed.drops subscription

/-- Whether a subscription was made and given up. -/
def dropped (subscription : Nat) (history : List Handling) : Bool :=
  (since subscription history).any (drops subscription)

/-- The subscriptions that were not given up, in order of creation. -/
def live (history : List Handling) : List (Nat × Listener) :=
  ((subscribers history).mapIdx Prod.mk).filter fun held => !dropped held.1 history

/-- What is told after a history: an emission goes to the live subscriptions. -/
def told (past : List Handling) : Handling → List Tiding
  | emit value => (live past).map fun held => ⟨held.1, held.2, value⟩
  | _ => []

/-- What is told, after a history, by what is done next. -/
def tidings (past : List Handling) : List Handling → List Tiding
  | [] => []
  | deed :: rest => told past deed ++ tidings (past ++ [deed]) rest

variable {past history : List Handling} {deed : Handling} {subscription : Nat} {listener : Listener}

theorem subscribers_append (past later : List Handling) :
    subscribers (past ++ later) = subscribers past ++ subscribers later :=
  List.filterMap_append

theorem subscribers_concat_of_none (past : List Handling) (joins : deed.subscribed? = none) :
    subscribers (past ++ [deed]) = subscribers past := by
  have none : subscribers [deed] = [] := List.filterMap_cons_none joins
  rw [subscribers_append, none, List.append_nil]

theorem since_append (subscription : Nat) (past later : List Handling) :
    since subscription (past ++ later) =
      if subscription < (subscribers past).length then since subscription past ++ later
      else since (subscription - (subscribers past).length) later := by
  induction past generalizing subscription with
  | nil => rfl
  | cons first rest ih =>
      cases first with
      | subscribe listener =>
          have length : (subscribers (subscribe listener :: rest)).length =
              (subscribers rest).length + 1 := rfl
          cases subscription with
          | zero => rw [if_pos (by omega)]; rfl
          | succ n =>
              simpa only [length, Nat.add_lt_add_iff_right, Nat.add_sub_add_right, List.cons_append,
                since] using ih n
      | drop | emit | set => exact ih subscription

theorem since_of_unmade (unmade : ¬subscription < (subscribers history).length) :
    since subscription history = [] := by
  have split := since_append subscription history []
  rw [List.append_nil, if_neg unmade] at split
  exact split

/-- Nothing was done since a subscription that is not made before the last deed. -/
theorem since_concat_of_unmade (unmade : ¬subscription < (subscribers past).length) :
    since subscription (past ++ [deed]) = [] := by
  rw [since_append, if_neg unmade]
  cases deed with
  | subscribe => cases subscription - (subscribers past).length <;> rfl
  | drop | emit | set => rfl

/-- A subscription is dropped when it was made and is given up afterwards. -/
theorem dropped_concat (subscription : Nat) (past : List Handling) (deed : Handling) :
    dropped subscription (past ++ [deed]) = (dropped subscription past ||
      (decide (subscription < (subscribers past).length) && deed.drops subscription)) := by
  by_cases made : subscription < (subscribers past).length
  · simp [dropped, since_append, made]
  · simp [dropped, since_concat_of_unmade made, since_of_unmade made, made]

theorem mem_live : (subscription, listener) ∈ live history ↔
    (subscribers history)[subscription]? = some listener ∧
      dropped subscription history = false := by
  rw [live, List.mem_filter, List.mem_mapIdx, Bool.not_eq_true']
  apply and_congr_left
  intro _
  rw [List.getElem?_eq_some_iff]
  constructor
  · rintro ⟨index, bound, same⟩
    obtain ⟨rfl, rfl⟩ := Prod.mk.inj same
    exact ⟨bound, rfl⟩
  · rintro ⟨bound, rfl⟩
    exact ⟨subscription, bound, rfl⟩

/-- Who is given up leaves the live subscriptions, and who subscribes joins them at the end. -/
theorem live_concat (past : List Handling) (deed : Handling) :
    live (past ++ [deed]) = (live past).filter (fun held => !deed.drops held.1) ++
      deed.subscribed?.toList.map (Prod.mk (subscribers past).length) := by
  have subscribed : subscribers [deed] = deed.subscribed?.toList := by cases deed <;> rfl
  rw [live, subscribers_append, List.mapIdx_append, List.filter_append]
  congr 1
  · rw [live, List.filter_filter]
    apply List.filter_congr
    intro held member
    obtain ⟨index, made, rfl⟩ := List.mem_mapIdx.mp member
    rw [dropped_concat, decide_eq_true made, Bool.true_and, Bool.not_or, Bool.and_comm]
  · rw [subscribed]
    cases deed with
    | subscribe listener =>
        have fresh : dropped (subscribers past).length (past ++ [subscribe listener]) = false := by
          rw [dropped, since_concat_of_unmade (Nat.lt_irrefl _), List.any_nil]
        simp [subscribed?, fresh]
    | drop | emit | set => rfl

/-- Of the live subscriptions one has a given number, unless it is given up or was never made. -/
theorem live_filter (subscription : Nat) (history : List Handling) :
    (live history).filter (·.1 = subscription) =
      if dropped subscription history then []
      else (subscribers history)[subscription]?.toList.map (Prod.mk subscription) := by
  have numbered : ∀ listeners : List Listener,
      (listeners.mapIdx Prod.mk).filter (·.1 = subscription) =
        listeners[subscription]?.toList.map (Prod.mk subscription) := by
    intro listeners
    induction listeners using List.reverseRecOn with
    | nil => rfl
    | append_singleton rest last ih =>
        rw [List.mapIdx_concat, List.filter_append, ih, List.getElem?_append]
        by_cases before : subscription < rest.length
        · simp [before, Nat.ne_of_gt before]
        · by_cases same : rest.length = subscription
          · simp [← same]
          · have beyond : subscription - rest.length ≠ 0 := by omega
            simp [before, same, beyond]
  rw [live, List.filter_comm, numbered]
  cases dropped : dropped subscription history <;>
    cases (subscribers history)[subscription]? <;> simp [dropped]

theorem tidings_append (past middle later : List Handling) :
    tidings past (middle ++ later) = tidings past middle ++ tidings (past ++ middle) later := by
  induction middle generalizing past with
  | nil => rw [List.append_nil]; rfl
  | cons first rest ih =>
      rw [List.cons_append, tidings, tidings, ih, List.append_assoc, List.append_assoc,
        List.singleton_append]

theorem tidings_concat (history : List Handling) (deed : Handling) :
    tidings [] (history ++ [deed]) = tidings [] history ++ told history deed := by
  rw [tidings_append, List.nil_append, tidings, tidings, List.append_nil]

theorem emissions_during_concat (subscription : Nat) (past : List Handling) (deed : Handling) :
    emissions (during subscription (past ++ [deed])) = emissions (during subscription past) ++
      if subscription < (subscribers past).length ∧ dropped subscription past = false then
        deed.emitted?.toList
      else [] := by
  by_cases made : subscription < (subscribers past).length
  · rw [during, since_append, if_pos made]
    cases ended : dropped subscription past with
    | true =>
        obtain ⟨drop, member, drops⟩ := List.any_eq_true.mp ended
        have short : ((since subscription past).takeWhile fun deed =>
            !deed.drops subscription).length ≠ (since subscription past).length := by
          intro full
          have whole := (List.takeWhile_prefix _).eq_of_length full
          simpa [drops] using List.takeWhile_eq_self_iff.mp whole drop member
        rw [List.takeWhile_append, if_neg short, if_neg (by simp), List.append_nil]
        rfl
    | false =>
        have all : ∀ deed ∈ since subscription past, (!deed.drops subscription) = true := by
          simpa using List.any_eq_false.mp ended
        rw [List.takeWhile_append_of_pos all, if_pos ⟨made, rfl⟩, during,
          List.takeWhile_eq_self_iff.mpr all, emissions, List.filterMap_append]
        congr 1
        cases deed with
        | drop other => cases same : drops subscription (drop other) <;> simp [same, emitted?]
        | subscribe | emit | set => rfl
  · rw [during, since_concat_of_unmade made, if_neg (fun both => made both.1), List.append_nil,
      during, since_of_unmade made]

/-- A subscription is told what is emitted between its creation and its end. -/
theorem tidings_filter (subscription : Nat) (history : List Handling) :
    ((tidings [] history).filter (·.subscription = subscription)).map Tiding.value =
      emissions (during subscription history) := by
  induction history using List.reverseRecOn with
  | nil => rfl
  | append_singleton past deed ih =>
      rw [tidings_concat, List.filter_append, List.map_append, ih, emissions_during_concat]
      congr 1
      cases deed with
      | emit value =>
          have own : ((told past (emit value)).filter (·.subscription = subscription)).map
              Tiding.value =
                ((live past).filter (·.1 = subscription)).map fun _ => value := by
            rw [told, List.filter_map, List.map_map]
            rfl
          rw [own, live_filter]
          cases ended : dropped subscription past <;>
            by_cases made : subscription < (subscribers past).length <;>
            simp [made, emitted?]
      | subscribe | drop | set => simp [told, emitted?]

/-- Who is told something is the listener of the subscription. -/
theorem listener_of_tiding {tiding : Tiding} (member : tiding ∈ tidings [] history) :
    (subscribers history)[tiding.subscription]? = some tiding.listener := by
  induction history using List.reverseRecOn with
  | nil => exact absurd member List.not_mem_nil
  | append_singleton past deed ih =>
      have known : (subscribers past)[tiding.subscription]? = some tiding.listener := by
        rw [tidings_concat, List.mem_append] at member
        rcases member with before | now
        · exact ih before
        · cases deed with
          | emit value =>
              obtain ⟨held, live, rfl⟩ := List.mem_map.mp now
              exact (mem_live.mp live).1
          | subscribe | drop | set => exact absurd now List.not_mem_nil
      rw [subscribers_append]
      exact List.getElem?_append_left (List.getElem?_eq_some_iff.mp known).1 ▸ known

/-! ### Giving other subscriptions up -/

theorem since_filter (subscription other : Nat) (history : List Handling) :
    since subscription (history.filter fun deed => !deed.drops other) =
      (since subscription history).filter fun deed => !deed.drops other := by
  induction history generalizing subscription with
  | nil => rfl
  | cons first rest ih =>
      cases first with
      | subscribe listener => cases subscription <;> first | rfl | exact ih _
      | drop number =>
          rw [List.filter_cons]
          split
          · exact ih subscription
          · exact ih subscription
      | emit | set => exact ih subscription

/-- What is emitted during a subscription does not depend on what becomes of another one. -/
theorem emissions_during_filter {other : Nat} (differ : other ≠ subscription)
    (history : List Handling) :
    emissions (during subscription (history.filter fun deed => !deed.drops other)) =
      emissions (during subscription history) := by
  have kept : ∀ deed : Handling, (!!deed.drops other || !deed.drops subscription) =
      !deed.drops subscription := by
    intro deed
    cases deed with
    | drop number =>
        by_cases same : number = other
        · simp [drops, same, differ]
        · simp [drops, same]
    | subscribe | emit | set => rfl
  rw [during, since_filter, List.takeWhile_filter]
  simp only [kept]
  rw [emissions, List.filterMap_filter, during, emissions]
  congr 1
  funext deed
  cases deed with
  | drop number => simp [emitted?]
  | subscribe | emit | set => rfl

theorem subscribers_filter (other : Nat) (history : List Handling) :
    subscribers (history.filter fun deed => !deed.drops other) = subscribers history := by
  rw [subscribers, List.filterMap_filter, subscribers]
  congr 1
  funext deed
  cases deed with
  | drop number => simp [subscribed?]
  | subscribe | emit | set => rfl

theorem told_of_quiet (quiet : deed.emitted? = none) : told past deed = [] := by
  cases deed with
  | emit value => cases quiet
  | subscribe | drop | set => rfl

theorem latest_concat (history : List Handling) (deed : Handling) :
    (writings (history ++ [deed])).getLast? = deed.written?.or (writings history).getLast? := by
  rw [writings, List.filterMap_append, List.getLast?_append]
  cases deed <;> rfl

end Handling

/-! ## What is sent -/

namespace Board

variable {board : Board} {anchor : Anchor}

theorem mail_send (board : Board) (listener : Listener) (value : Value) (channel : Nat) :
    ((board.send listener value).channel channel).mail = (board.channel channel).mail ++
      if listener.channel = channel then [(listener.label, value)] else [] := by
  simp only [send, modifyChannel, Board.channel, Std.ExtTreeMap.getD_insert,
    Std.LawfulEqCmp.compare_eq_iff_eq]
  by_cases same : listener.channel = channel
  · simp [same]
  · simp [same]

/-- An emission is sent to the listeners on the bell, in order. -/
theorem mail_emit (board : Board) (anchor : Anchor) (value : Value) (channel : Nat) :
    ((board.emit anchor value).channel channel).mail = (board.channel channel).mail ++
      ((board.bell anchor).listeners.map fun held => (⟨held.1, held.2, value⟩ : Tiding)).filterMap
        (Tiding.letter? channel) := by
  have sending : ∀ (listeners : List (Nat × Listener)) (board : Board),
      (((listeners.map Prod.snd).foldl (fun board listener => board.send listener value)
        board).channel channel).mail = (board.channel channel).mail ++
          (listeners.map fun held => (⟨held.1, held.2, value⟩ : Tiding)).filterMap
            (Tiding.letter? channel) := by
    intro listeners
    induction listeners with
    | nil => exact fun _ => (List.append_nil _).symm
    | cons first rest ih =>
        intro board
        rw [List.map_cons, List.foldl_cons, ih, mail_send, List.append_assoc, List.map_cons,
          List.filterMap_cons]
        by_cases here : first.2.channel = channel <;> simp [Tiding.letter?, here]
  exact sending _ (board.write anchor value)

/-- The anchor holds what was emitted. -/
theorem read_emit (board : Board) (anchor : Anchor) (value : Value) :
    (board.emit anchor value).read anchor = value := by
  have sending : ∀ (listeners : List Listener) (board : Board),
      (listeners.foldl (fun board listener => board.send listener value) board).values =
        board.values := by
    intro listeners
    induction listeners with
    | nil => exact fun _ => rfl
    | cons first rest ih => exact fun board => ih (board.send first value)
  calc (board.emit anchor value).read anchor
      = (board.write anchor value).read anchor := by rw [read, emit, sending, read]
    _ = value := by rw [read_write, if_pos rfl]

theorem bell_emit (board : Board) (anchor : Anchor) (value : Value) :
    (board.emit anchor value).bell anchor = board.bell anchor := by
  rw [bell, bells_emit, bell]

theorem bell_subscribe (listens : anchor.listens = true) (board : Board) (listener : Listener) :
    (board.subscribe anchor listener).2.bell anchor =
      ⟨(board.bell anchor).listeners ++ [((board.bell anchor).next, listener)],
        (board.bell anchor).next + 1⟩ := by
  rw [subscribe, if_pos listens]
  exact (board.bell_insert _ _).trans (if_pos rfl)

theorem bell_unsubscribe (board : Board) (anchor : Anchor) (number : Nat) :
    (board.unsubscribe anchor number).bell anchor =
      ⟨(board.bell anchor).listeners.filter fun held => held.1 ≠ number,
        (board.bell anchor).next⟩ :=
  (board.bell_insert _ _).trans (if_pos rfl)

end Board

/-- What a listener hears is what it is told. -/
theorem heard_letters (listener : Listener) (tidings : List Tiding) :
    ((tidings.filterMap (Tiding.letter? listener.channel)).filter (·.1 = listener.label)).map
      Prod.snd = (tidings.filter (·.listener = listener)).map Tiding.value := by
  induction tidings with
  | nil => rfl
  | cons first rest ih =>
      obtain ⟨subscription, ⟨channel, label⟩, value⟩ := first
      obtain ⟨here, name⟩ := listener
      by_cases same : channel = here
      · by_cases own : label = name <;> simp_all [Tiding.letter?]
      · simp_all [Tiding.letter?]

namespace Audience

variable {board : Board} {anchor : Anchor} {history : List Handling} {audience : Audience}

open Handling

/-- What an audience is after a history: the bell has the live subscriptions under the numbers of
their creation, which their holders have; every tiding was sent; and the anchor holds the latest
value. -/
structure Tells (anchor : Anchor) (board : Board) (history : List Handling) (audience : Audience) :
    Prop where
  bell : audience.board.bell anchor = ⟨live history, (subscribers history).length⟩
  size : audience.held.length = (subscribers history).length
  held : ∀ subscription, audience.held[subscription]?.join =
    if subscription < (subscribers history).length ∧ dropped subscription history = false then
      some subscription
    else none
  mail : ∀ channel, (audience.board.channel channel).mail = (board.channel channel).mail ++
    (tidings [] history).filterMap (Tiding.letter? channel)
  value : audience.board.read anchor = (writings history).getLast?.getD (board.read anchor)

theorem tells_start (silent : board.bell anchor = .silent) :
    Tells anchor board [] (start board) where
  bell := silent
  size := rfl
  held _ := rfl
  mail _ := (List.append_nil _).symm
  value := rfl

namespace Tells

variable (tells : Tells anchor board history audience)

include tells

/-- A new subscription gets the number of its creation. -/
theorem subscribe (listens : anchor.listens = true) (listener : Listener) :
    Tells anchor board (history ++ [.subscribe listener])
      (audience.undergo anchor (.subscribe listener)) := by
  have taken : audience.undergo anchor (.subscribe listener) =
      ⟨(audience.board.subscribe anchor listener).2,
        audience.held ++ [some (subscribers history).length]⟩ := by
    rw [undergo, Board.subscribe, if_pos listens, tells.bell]
  have count : (subscribers (history ++ [.subscribe listener])).length =
      (subscribers history).length + 1 := by
    rw [subscribers_append, List.length_append]
    rfl
  have still : (audience.board.subscribe anchor listener).2.channel = audience.board.channel ∧
      (audience.board.subscribe anchor listener).2.read anchor = audience.board.read anchor := by
    rw [Board.subscribe, if_pos listens]
    exact ⟨rfl, rfl⟩
  rw [taken]
  refine ⟨?_, ?_, fun subscription => ?_, fun channel => ?_, ?_⟩
  · rw [Board.bell_subscribe listens, tells.bell, live_concat, count]
    simp [drops, subscribed?]
  · rw [List.length_append, tells.size, count]
    rfl
  · rw [List.getElem?_append, tells.size, count, dropped_concat]
    by_cases before : subscription < (subscribers history).length
    · rw [if_pos before, tells.held]
      simp [drops, before, Nat.lt_succ_of_lt before]
    · by_cases now : subscription = (subscribers history).length
      · have fresh : dropped subscription history = false := by
          rw [dropped, since_of_unmade before, List.any_nil]
        simp [now, drops, now ▸ fresh]
      · have beyond : subscription - (subscribers history).length ≠ 0 := by omega
        have later : ¬subscription < (subscribers history).length + 1 := by omega
        simp [before, beyond, later]
  · rw [still.1, tells.mail, tidings_concat, told_of_quiet rfl, List.append_nil]
  · rw [still.2, tells.value, latest_concat]
    rfl

/-- Who gives a subscription up takes it off the bell; nothing happens when it is gone already. -/
theorem drop (number : Nat) : Tells anchor board (history ++ [.drop number])
    (audience.undergo anchor (.drop number)) := by
  have same : subscribers (history ++ [.drop number]) = subscribers history :=
    subscribers_concat_of_none history rfl
  have count := congrArg List.length same
  have mail : tidings [] (history ++ [.drop number]) = tidings [] history := by
    rw [tidings_concat, told_of_quiet rfl, List.append_nil]
  have value : (writings (history ++ [.drop number])).getLast? = (writings history).getLast? := by
    rw [latest_concat]
    rfl
  have left : live (history ++ [.drop number]) =
      (live history).filter fun held => held.1 ≠ number := by
    rw [live_concat, show (Handling.drop number).subscribed? = none from rfl, Option.toList_none,
      List.map_nil, List.append_nil]
    apply List.filter_congr
    intro held _
    rw [drops, decide_not, beq_eq_decide]
    simp only [eq_comm]
  have listed := tells.held number
  rw [undergo]
  split
  · next own known =>
      rw [known] at listed
      split at listed
      · next here =>
          obtain rfl := Option.some.inj listed
          refine ⟨?_, ?_, fun subscription => ?_, fun channel => mail ▸ tells.mail channel,
            value ▸ tells.value⟩
          · rw [Board.bell_unsubscribe, tells.bell, left, count]
          · rw [List.length_set, tells.size, count]
          · rw [List.getElem?_set, count, dropped_concat]
            by_cases same : own = subscription
            · subst same
              simp [drops, tells.size, here.1]
            · rw [if_neg same, tells.held]
              simp [drops, same]
      · cases listed
  · next gone =>
      rw [gone] at listed
      have absent : ¬(number < (subscribers history).length ∧ dropped number history = false) := by
        intro here
        rw [if_pos here] at listed
        cases listed
      refine ⟨?_, tells.size.trans count.symm, fun subscription => ?_,
        fun channel => mail ▸ tells.mail channel, value ▸ tells.value⟩
      · rw [tells.bell, left, count, List.filter_eq_self.mpr]
        rintro ⟨subscription, listener⟩ member
        obtain ⟨made, kept⟩ := mem_live.mp member
        apply decide_eq_true
        rintro rfl
        exact absent ⟨(List.getElem?_eq_some_iff.mp made).1, kept⟩
      · rw [tells.held, count, dropped_concat]
        by_cases same : number = subscription
        · subst same
          rw [if_neg absent, if_neg]
          rintro ⟨made, kept⟩
          exact absent ⟨made, (Bool.or_eq_false_iff.mp kept).1⟩
        · simp [drops, same]

/-- What neither subscribes nor gives anything up leaves the bell as it is. -/
theorem stay {after : Audience} {deed : Handling} (joins : deed.subscribed? = none)
    (leaves : ∀ subscription, deed.drops subscription = false)
    (bell : after.board.bell anchor = audience.board.bell anchor)
    (held : after.held = audience.held)
    (mail : ∀ channel, (after.board.channel channel).mail =
      (audience.board.channel channel).mail ++
        (told history deed).filterMap (Tiding.letter? channel))
    (value : deed.written? = some (after.board.read anchor)) :
    Tells anchor board (history ++ [deed]) after := by
  have same := subscribers_concat_of_none history joins
  refine ⟨?_, ?_, fun subscription => ?_, fun channel => ?_, ?_⟩
  · rw [bell, tells.bell, same, live_concat, joins]
    simp [leaves]
  · rw [held, tells.size, same]
  · rw [held, tells.held, same, dropped_concat, leaves, Bool.and_false, Bool.or_false]
  · rw [mail, tells.mail, tidings_concat, List.filterMap_append, List.append_assoc]
  · rw [latest_concat, value, Option.some_or, Option.getD_some]

/-- What is done to the anchor is done to the audience. -/
theorem undergo (listens : anchor.listens = true) (deed : Handling) :
    Tells anchor board (history ++ [deed]) (audience.undergo anchor deed) := by
  cases deed with
  | subscribe listener => exact tells.subscribe listens listener
  | drop number => exact tells.drop number
  | emit value =>
      refine tells.stay rfl (fun _ => rfl) (Board.bell_emit _ _ _) rfl (fun channel => ?_)
        (congrArg some (Board.read_emit _ _ _).symm)
      rw [Audience.undergo, Board.mail_emit, tells.bell, told]
  | set value =>
      refine tells.stay rfl (fun _ => rfl) rfl rfl (fun channel => (List.append_nil _).symm) ?_
      rw [Audience.undergo, Board.read_write, if_pos rfl]
      rfl

end Tells

/-- By induction on what is still to be done, with the history before it in view. -/
theorem tells_undergoAll (listens : anchor.listens = true)
    (tells : Tells anchor board history audience) (later : List Handling) :
    Tells anchor board (history ++ later) (audience.undergoAll anchor later) := by
  induction later generalizing history audience with
  | nil =>
      rw [List.append_nil]
      exact tells
  | cons deed rest ih =>
      have whole := ih (tells.undergo listens deed)
      rw [List.append_assoc, List.singleton_append] at whole
      exact whole

/-- A new anchor, with subscriptions made and given up and values emitted and set in any order.
Every emission is sent to the subscriptions that are live at that time, each once and in order of
creation, and nothing else is sent. So a subscription is told what is emitted between its creation
and its end, in order, and this is what its listener has heard if it is its own, whatever becomes of
the other subscriptions. The anchor has as many listeners as there are live subscriptions, and holds
the value that it got last. -/
theorem hears_while_subscribed (listens : anchor.listens = true)
    (silent : board.bell anchor = .silent) (history : List Handling) :
    let final := (start board).undergoAll anchor history
    (∀ channel, (final.board.channel channel).mail = (board.channel channel).mail ++
      (tidings [] history).filterMap (Tiding.letter? channel)) ∧
    (∀ subscription,
      ((tidings [] history).filter (·.subscription = subscription)).map Tiding.value =
        emissions (during subscription history)) ∧
    (∀ subscription listener, (subscribers history)[subscription]? = some listener →
      (∀ other, (subscribers history)[other]? = some listener → other = subscription) →
        final.board.heard listener =
          board.heard listener ++ emissions (during subscription history) ∧
        ∀ other ≠ subscription,
          Board.heard ((start board).undergoAll anchor
            (history.filter fun deed => !deed.drops other)).board listener =
              final.board.heard listener) ∧
    final.board.listenerCount anchor = (live history).length ∧
    final.board.read anchor = (writings history).getLast?.getD (board.read anchor) := by
  have tells : ∀ history, Tells anchor board history ((start board).undergoAll anchor history) :=
    fun history => tells_undergoAll listens (tells_start silent) history
  have own : ∀ history subscription listener, (subscribers history)[subscription]? = some listener →
      (∀ other, (subscribers history)[other]? = some listener → other = subscription) →
        ((start board).undergoAll anchor history).board.heard listener =
          board.heard listener ++ emissions (during subscription history) := by
    intro history subscription listener made alone
    have mine : ∀ tiding ∈ tidings [] history,
        decide (tiding.listener = listener) = decide (tiding.subscription = subscription) := by
      intro tiding member
      have known := listener_of_tiding member
      rw [decide_eq_decide]
      constructor
      · rintro rfl
        exact alone _ known
      · rintro rfl
        exact Option.some.inj (known.symm.trans made)
    rw [Board.heard, (tells history).mail, List.filter_append, List.map_append, heard_letters,
      List.filter_congr mine, tidings_filter]
    rfl
  refine ⟨(tells history).mail, fun subscription => tidings_filter subscription history,
    fun subscription listener made alone => ⟨own history _ _ made alone, fun other differ => ?_⟩,
    ?_, (tells history).value⟩
  · rw [own history _ _ made alone, own _ subscription listener, emissions_during_filter differ]
    · rw [subscribers_filter]
      exact made
    · rw [subscribers_filter]
      exact alone
  · rw [Board.listenerCount, (tells history).bell]

/-- An event anchor. -/
def doorbell : Anchor := ⟨0, "ring", .event, none, true⟩

/-- Three subscriptions, of which the first is given up twice and the second in the end. -/
def visits : List Handling :=
  [.subscribe ⟨7, "hall"⟩, .emit (.ofNat 1), .subscribe ⟨7, "attic"⟩, .emit (.ofNat 2), .drop 0,
    .drop 0, .drop 2, .emit (.ofNat 3), .subscribe ⟨7, "cellar"⟩, .set (.ofNat 9), .emit (.ofNat 4),
    .drop 1]

theorem hears_while_subscribed_doorbell : doorbell.listens = true ∧
    Board.empty.bell doorbell = .silent ∧
    let final := (start Board.empty).undergoAll doorbell visits
    (final.board.channel 7).mail = [("hall", .ofNat 1), ("hall", .ofNat 2), ("attic", .ofNat 2),
      ("attic", .ofNat 3), ("attic", .ofNat 4), ("cellar", .ofNat 4)] ∧
    final.board.heard ⟨7, "attic"⟩ = [.ofNat 2, .ofNat 3, .ofNat 4] ∧
    final.board.listenerCount doorbell = 1 ∧ final.board.read doorbell = .ofNat 4 := by
  have listens : doorbell.listens = true := rfl
  have silent : Board.empty.bell doorbell = .silent := rfl
  obtain ⟨mail, -, own, count, value⟩ := hears_while_subscribed listens silent visits
  refine ⟨listens, silent, (mail 7).trans rfl, ((own 1 ⟨7, "attic"⟩ rfl ?_).1).trans rfl,
    count.trans rfl, value.trans rfl⟩
  intro other made
  have distinct : (subscribers visits).Nodup := by decide
  have bound : 1 < (subscribers visits).length := by decide
  exact ((List.getElem?_inj bound distinct).mp (Eq.trans rfl made.symm)).symm

end Audience

end CardNet
