/-!
# Gates

A gate lets one worker through at a time. Who finds it taken waits in line, and who leaves hands
it to the first in line, so that nobody is overtaken. Workers are known by their numbers.
-/

namespace CardNet

/-- A gate: free, or taken by a worker with others in line behind it. -/
inductive Gate where
  | free
  | taken (holder : Nat) (line : List Nat)
deriving DecidableEq, Inhabited

namespace Gate

/-- The worker that has taken a gate. -/
def holder? : Gate → Option Nat
  | free => none
  | taken holder _ => some holder

/-- The workers in line. -/
def line : Gate → List Nat
  | free => []
  | taken _ line => line

/-- Ask for a gate: take it when it is free, and stand in line, once, when it is not. -/
def claim (gate : Gate) (worker : Nat) : Gate :=
  match gate with
  | free => taken worker []
  | taken holder line =>
      if worker = holder ∨ worker ∈ line then gate else taken holder (line ++ [worker])

/-- Hand a gate to the first in line. -/
def handOn : List Nat → Gate
  | [] => free
  | next :: line => taken next line

/-- Leave a gate, or the line in front of it. -/
def leave (gate : Gate) (worker : Nat) : Gate :=
  match gate with
  | free => free
  | taken holder line =>
      if worker = holder then handOn line else taken holder (line.filter (· ≠ worker))

/-- A worker that asks for a free gate has taken it. -/
@[simp] theorem holder?_claim_free (worker : Nat) : (free.claim worker).holder? = some worker := rfl

/-- Asking never takes a gate away from its holder. -/
theorem holder?_claim_taken (holder worker : Nat) (line : List Nat) :
    ((taken holder line).claim worker).holder? = some holder := by
  simp only [claim]
  split <;> rfl

/-- Asking twice is asking once. -/
theorem claim_claim (gate : Gate) (worker : Nat) :
    (gate.claim worker).claim worker = gate.claim worker := by
  cases gate with
  | free => simp [claim]
  | taken holder line =>
      by_cases known : worker = holder ∨ worker ∈ line <;> simp [claim, known]

end Gate

end CardNet
