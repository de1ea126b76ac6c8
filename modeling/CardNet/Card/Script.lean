import CardNet.Value.Basic

/-!
# Scripted cards

Computations given as data: what a card answers at each call, and at which calls it fails. A
call is numbered from one. Integer arithmetic wraps around at 64 bits with a sign.
-/

namespace CardNet

/-- An integer wrapped around into 64 bits with a sign. -/
def wrapSigned (n : Int) : Int := Int.bmod n UInt64.size

/-- How the result of a scripted call is found. -/
inductive Recipe where
  | nothing
  | outputs (results : Values)
  | constant (value : Value)
  | sum
  | affine (input : String) (factor summand : Int)
  | echo
  | get (key : String)
  | count
  | fail (message : String)

/-- A scripted computation: the calls that fail, the name of the result, and the recipe. -/
structure Script where
  failOn : List Nat
  out : String
  recipe : Recipe

namespace Script

/-- One value under the name of the result. -/
def single (script : Script) (value : Value) : Except String Values :=
  .ok ((∅ : Values).insert script.out value)

/-- The integer under a name, zero when there is none. -/
def integer (arguments : Values) (name : String) : Int :=
  ((arguments.get? name).bind Value.toInt?).getD 0

/-- The result of a call that nothing prevents. -/
def answer (script : Script) (call : Nat) (arguments : Values) : Except String Values :=
  match script.recipe with
  | .nothing => .ok ∅
  | .outputs results => .ok results
  | .constant value => script.single value
  | .sum =>
      let integers := arguments.toList.filterMap fun entry => entry.2.toInt?
      script.single (.ofInt (integers.foldl (fun total n => wrapSigned (total + n)) 0))
  | .affine input factor summand =>
      script.single (.ofInt (wrapSigned (integer arguments input * factor + summand)))
  | .echo => script.single (.ofValues arguments)
  | .get key => script.single (arguments.getD key .null)
  | .count => script.single (.ofNat call)
  | .fail message => .error message

/-- The failure of a call whose number is on a list. -/
def failed? (failOn : List Nat) (call : Nat) : Option String :=
  if call ∈ failOn then some s!"call {call} failed" else none

/-- The result of a call: a failing call number comes first, then the fault that is set. -/
def run (script : Script) (call : Nat) (fault : Option String) (arguments : Values) :
    Except String Values :=
  match (failed? script.failOn call).or fault with
  | some message => .error message
  | none => script.answer call arguments

end Script

end CardNet
