import CardNet.Engine.Turns

/-!
# Frames

What is left as it is by workers that ask for gates and leave them, and by changes of tickers and
couriers (`Machine.Aside`).
-/

namespace CardNet

namespace Gate

variable {gate : Gate} {holder worker : Nat}

theorem holder?_claim (held : gate.holder? = some holder) (worker : Nat) :
    (gate.claim worker).holder? = some holder := by
  cases gate with
  | free => cases held
  | taken first line =>
      cases held
      exact holder?_claim_taken holder worker line

theorem holder?_leave (held : gate.holder? = some holder) (other : worker ≠ holder) :
    (gate.leave worker).holder? = some holder := by
  cases gate with
  | free => cases held
  | taken first line =>
      cases held
      rw [leave, if_neg other]
      rfl

/-- Nobody else holds a gate that a worker has taken when it asked for it. -/
theorem eq_of_holder?_claim (holds : (gate.claim worker).holder? = some worker)
    (held : gate.holder? = some holder) : holder = worker :=
  Option.some.inj ((holder?_claim held worker).symm.trans holds)

end Gate

namespace Machine

variable {machine after : Machine}

/-! ## Background workers -/

theorem get?_setWorker (machine : Machine) (number other : Nat) (worker : Worker) :
    (machine.setWorker number worker).workers.get? other =
      if other = number then some worker else machine.workers.get? other := by
  simp only [setWorker, Std.ExtTreeMap.get?_eq_getElem?, Std.ExtTreeMap.getElem?_insert,
    Std.LawfulEqCmp.compare_eq_iff_eq, @eq_comm _ number]

/-- A change of nothing but tickers and couriers. -/
structure Aside (before after : Machine) : Prop where
  engine : after.engine = before.engine
  scheduler : after.scheduler = before.scheduler
  graphGate : after.graphGate = before.graphGate
  callers : ∀ number stage, after.workers.get? number = some (.caller stage) →
    before.workers.get? number = some (.caller stage)

theorem Aside.refl (machine : Machine) : Aside machine machine :=
  ⟨rfl, rfl, rfl, fun _ _ found => found⟩

theorem aside_setWorker (machine : Machine) (number : Nat) (held : Worker)
    (other : held.isCaller = false) : Aside machine (machine.setWorker number held) := by
  refine ⟨rfl, rfl, rfl, fun known stage found => ?_⟩
  rw [get?_setWorker] at found
  split at found
  · obtain rfl := Option.some.inj found
    cases other
  · exact found

theorem aside_stopTicker (machine : Machine) : Aside machine machine.stopTicker := by
  rw [stopTicker]
  split
  · exact .refl machine
  · dsimp only
    split
    · exact ⟨rfl, rfl, rfl, (aside_setWorker machine _ (.ticker _) rfl).callers⟩
    · exact ⟨rfl, rfl, rfl, fun _ _ found => found⟩

theorem aside_enlist (machine : Machine) (held : Worker) (other : held.isCaller = false) :
    Aside machine (machine.enlist held).2 :=
  ⟨rfl, rfl, rfl, (aside_setWorker machine machine.nextWorker held other).callers⟩

theorem aside_startTicker (machine : Machine) (interval : Option Nat) (inputs : Values) :
    Aside machine (machine.startTicker interval inputs).2 := by
  rw [startTicker]
  split
  · exact .refl machine
  · exact ⟨rfl, rfl, rfl, (aside_enlist machine (.ticker _) rfl).callers⟩

theorem aside_dismiss (machine : Machine) (number : Option Nat) :
    Aside machine (machine.dismiss number) := by
  rw [dismiss]
  split
  · exact aside_setWorker machine _ (.courier _) rfl
  · exact .refl machine

theorem aside_assign (machine : Machine) (channel : Nat) :
    Aside machine (machine.assign channel) :=
  ⟨rfl, rfl, rfl, (aside_enlist machine (.courier _) rfl).callers⟩

end Machine

end CardNet
