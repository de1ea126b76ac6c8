/-!
# Priorities

Requests of higher priority run first: user input before firings, firings before background
work.
-/

namespace CardNet

/-- The priority of a request. -/
inductive Priority where
  | low
  | normal
  | high
deriving DecidableEq, Inhabited

namespace Priority

/-- The name of a priority. -/
def name : Priority → String
  | low => "low"
  | normal => "normal"
  | high => "high"

/-- The priorities from the lowest to the highest. -/
def all : List Priority := [low, normal, high]

/-- The priority of a name. -/
def ofName? (name : String) : Option Priority := all.find? fun priority => priority.name == name

/-- The position of a priority among all. -/
def rank : Priority → Nat
  | low => 0
  | normal => 1
  | high => 2

theorem rank_injective {first second : Priority} (same : first.rank = second.rank) :
    first = second := by
  cases first <;> cases second <;> simp_all [rank]

end Priority

end CardNet
