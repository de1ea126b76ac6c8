import CardNet.Engine.Turns

/-!
# Incidents

What happens to a machine: calls come in, the ticker is started and stopped, time passes, the board
changes, and workers take their steps in any order. A machine unfolds by incidents of which each
may be allowed or not, under the eyes of an observer (`Machine.Unfolds`); what every allowed
incident preserves holds in all unfoldings (`Machine.Unfolds.induct`).
-/

namespace CardNet

/-- Something that happens to a machine. -/
inductive Incident where
  | call (call : Call)
  /-- A ticker is started, unless there is one. -/
  | tick (interval : Option Nat) (inputs : Values)
  /-- The ticker is told to stop. -/
  | halt
  /-- Time passes until some time. -/
  | wait (time : Nat)
  /-- Something is done to the board. -/
  | board (change : Board → Board)
  /-- A worker takes a step. -/
  | step (worker : Nat)

namespace Machine

/-- The machine after an incident, if it can happen. -/
def undergo (machine : Machine) : Incident → Option Machine
  | .call call => some (machine.call call).2
  | .tick interval inputs => some (machine.startTicker interval inputs).2
  | .halt => some machine.stopTicker
  | .wait time => if machine.clock ≤ time then some { machine with clock := time } else none
  | .board change => some (machine.onBoard change)
  | .step worker => machine.step worker

variable {α : Type}

/-- What may become of a machine by allowed incidents, with what an observer makes of them. -/
inductive Unfolds (allowed : Machine → Incident → Bool)
    (observe : α → Machine → Incident → Machine → α) (first : Machine) (start : α) :
    Machine → α → Prop where
  | start : Unfolds allowed observe first start first start
  | happen {machine after : Machine} {seen : α} (incident : Incident) :
      Unfolds allowed observe first start machine seen → allowed machine incident = true →
      machine.undergo incident = some after →
      Unfolds allowed observe first start after (observe seen machine incident after)

variable {allowed : Machine → Incident → Bool} {observe : α → Machine → Incident → Machine → α}
  {first machine after : Machine} {start seen : α}

/-- What holds at first and is preserved by every allowed incident holds of whatever may become of
a machine. -/
theorem Unfolds.induct {holds : Machine → α → Prop}
    (unfolds : Unfolds allowed observe first start machine seen) (base : holds first start)
    (preserved : ∀ machine after seen incident, holds machine seen →
      allowed machine incident = true → machine.undergo incident = some after →
      holds after (observe seen machine incident after)) : holds machine seen := by
  induction unfolds with
  | start => exact base
  | happen incident _ allows happened ih => exact preserved _ _ _ incident ih allows happened

/-- What becomes of a machine, and what the observer makes of it, when incidents happen in order;
nothing when one of them is not allowed or cannot happen. -/
def unfold (allowed : Machine → Incident → Bool)
    (observe : α → Machine → Incident → Machine → α) :
    Machine → α → List Incident → Option (Machine × α)
  | machine, seen, [] => some (machine, seen)
  | machine, seen, incident :: rest =>
      if allowed machine incident then
        (machine.undergo incident).bind fun after =>
          unfold allowed observe after (observe seen machine incident after) rest
      else none

theorem Unfolds.extend (unfolds : Unfolds allowed observe first start machine seen)
    {incidents : List Incident} {last : Machine × α}
    (happened : unfold allowed observe machine seen incidents = some last) :
    Unfolds allowed observe first start last.1 last.2 := by
  induction incidents generalizing machine seen with
  | nil =>
      cases happened
      exact unfolds
  | cons incident rest ih =>
      rw [unfold] at happened
      split at happened
      · next allows =>
          obtain ⟨after, now, later⟩ := Option.bind_eq_some_iff.mp happened
          exact ih (unfolds.happen incident allows now) later
      · cases happened

end Machine

end CardNet
