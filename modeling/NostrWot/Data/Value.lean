import Mathlib.Algebra.Ring.Nat
import Mathlib.Data.List.Basic

namespace NostrWot.Data

/-! # JavaScript values

What an untrusted object can hold where the program looks at its type first.
-/

/-- A JavaScript number, without the rounding of its arithmetic. -/
inductive Number where
  | finite (value : Rat)
  | infinity
  | negInfinity
  | nan
  deriving DecidableEq

namespace Number

instance (value : Nat) : OfNat Number value := ⟨.finite value⟩

def lt : Number → Number → Bool
  | .finite left, .finite right => left < right
  | .finite _, .infinity => true
  | .negInfinity, .finite _ => true
  | .negInfinity, .infinity => true
  | _, _ => false

def le : Number → Number → Bool
  | .finite left, .finite right => left ≤ right
  | .finite _, .infinity => true
  | .infinity, .infinity => true
  | .negInfinity, .finite _ => true
  | .negInfinity, .infinity => true
  | .negInfinity, .negInfinity => true
  | _, _ => false

def add : Number → Number → Number
  | .finite left, .finite right => .finite (left + right)
  | .nan, _ | _, .nan => .nan
  | .infinity, .negInfinity | .negInfinity, .infinity => .nan
  | .infinity, _ | _, .infinity => .infinity
  | .negInfinity, _ | _, .negInfinity => .negInfinity

def max (left right : Number) : Number :=
  if left = .nan ∨ right = .nan then .nan else if left.lt right then right else left

def isFinite : Number → Bool
  | .finite _ => true
  | _ => false

def isInteger : Number → Bool
  | .finite value => value.den = 1
  | _ => false

end Number

/-- The double closest to a natural number, the even one of two. -/
def nearestDouble (value : Nat) : Nat :=
  if value < 2 ^ 53 then value
  else
    let ulp := 2 ^ (value.log2 - 52)
    let below := value / ulp * ulp
    let excess := 2 * (value - below)
    if excess < ulp ∨ (excess = ulp ∧ value / ulp % 2 = 0) then below else below + ulp

theorem nearestDouble_of_le {value : Nat} (exact_ : value ≤ 2 ^ 53) : nearestDouble value = value := by
  unfold nearestDouble
  split
  · rfl
  · have edge : value = 2 ^ 53 := by omega
    subst edge
    decide +kernel

inductive Value where
  | undefined
  | null
  | boolean (value : Bool)
  | number (value : Number)
  | text (value : String)
  | array (items : List Value)
  | object (fields : List (String × Value))

namespace Value

def isObject : Value → Bool
  | .array _ | .object _ => true
  | _ => false

/-- `value?.name`; none of the names read here is a property of an array. -/
def field (value : Value) (name : String) : Value :=
  match value with
  | .object fields => ((fields.find? fun entry => entry.1 = name).map Prod.snd).getD .undefined
  | _ => .undefined

def isDefined : Value → Bool
  | .undefined => false
  | _ => true

def itemsOf : Value → List Value
  | .array items => items
  | _ => []

def asText? : Value → Option String
  | .text value => some value
  | _ => none

end Value

def utf16Length (text : String) : Nat :=
  (text.toList.map fun char => if char.toNat < 65536 then 1 else 2).sum

end NostrWot.Data
