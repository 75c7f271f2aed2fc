import TxLookup.Library.PyText
import Mathlib.Algebra.Group.Nat.Defs

/-!
# Python values read from JSON

The values `json.loads` can return, with Python's truth value and equality. A
float is a dyadic number or a special value. Objects keep their insertion order.
-/
namespace TxLookup.Library

/-- A `float`: `± mantissa * 2 ^ exponent`, an infinity or a NaN. -/
inductive PyFloat where
  | finite (negative : Bool) (mantissa : Nat) (exponent : Int)
  | inf (negative : Bool)
  | nan
  deriving DecidableEq, Repr

inductive Json where
  | null
  | bool (b : Bool)
  | int (n : Int)
  | float (x : PyFloat)
  | str (s : PyStr)
  | arr (items : List Json)
  | obj (fields : List (PyStr × Json))

/-- A `dict` with text keys. -/
abbrev PyDict := List (PyStr × Json)

namespace Json

/-- The number a numeric value stands for; `bool` is a subclass of `int`. -/
def number : Json → Option PyFloat
  | .bool b => some (.finite false b.toNat 0)
  | .int n => some (.finite (n < 0) n.natAbs 0)
  | .float x => some x
  | _ => none

end Json

/-- Numeric equality: NaN differs from everything, signed zeros are equal. -/
def PyFloat.numEq : PyFloat → PyFloat → Bool
  | .finite n m e, .finite n' m' e' =>
    let low := min e e'
    m * 2 ^ (e - low).toNat == m' * 2 ^ (e' - low).toNat && (n == n' || m == 0)
  | .inf n, .inf n' => n == n'
  | _, _ => false

mutual

/-- Python's `a == b`, of values without a NaN: in lists and dicts Python takes one
NaN object as equal to itself, here no NaN equals anything. -/
def Json.pyEq : Json → Json → Bool
  | .null, .null => true
  | .str a, .str b => a == b
  | .arr xs, .arr ys => Json.pyEqItems xs ys
  | .obj xs, .obj ys => xs.length == ys.length && Json.pyEqFields xs ys
  | a, b =>
    match a.number, b.number with
    | some x, some y => x.numEq y
    | _, _ => false

def Json.pyEqItems : List Json → List Json → Bool
  | [], [] => true
  | x :: xs, y :: ys => x.pyEq y && Json.pyEqItems xs ys
  | _, _ => false

def Json.pyEqFields : List (PyStr × Json) → List (PyStr × Json) → Bool
  | [], _ => true
  | (k, x) :: xs, ys =>
    (match ys.lookup k with
      | some y => x.pyEq y
      | none => false) && Json.pyEqFields xs ys

end

/-- Python's `bool(value)`. -/
def Json.truthy : Json → Bool
  | .null => false
  | .bool b => b
  | .int n => n != 0
  | .float (.finite _ m _) => m != 0
  | .float _ => true
  | .str s => !s.isEmpty
  | .arr items => !items.isEmpty
  | .obj fields => !fields.isEmpty

/-- Python's `a or b`. -/
def Json.or (a b : Json) : Json := if a.truthy then a else b

namespace Json

theorem or_of_truthy {a : Json} (h : a.truthy = true) (b : Json) : a.or b = a := if_pos h

theorem or_of_falsy {a : Json} (h : a.truthy = false) (b : Json) : a.or b = b :=
  if_neg (Bool.eq_false_iff.mp h)

theorem or_eq (a b : Json) : a.or b = a ∨ a.or b = b := by
  cases h : a.truthy with
  | true => exact .inl (or_of_truthy h b)
  | false => exact .inr (or_of_falsy h b)

/-- A chain returns one of its operands. -/
theorem or_or_eq (a b c : Json) :
    (a.or b).or c = a ∨ (a.or b).or c = b ∨ (a.or b).or c = c := by
  rcases or_eq (a.or b) c with h | h
  · rcases or_eq a b with h' | h'
    · exact .inl (h.trans h')
    · exact .inr (.inl (h.trans h'))
  · exact .inr (.inr h)

end Json

namespace PyDict

/-- `d.get(key)`, with `None` for an absent key. -/
def get (d : PyDict) (key : PyStr) : Json := (d.lookup key).getD .null

/-- `key in d`. -/
def contains (d : PyDict) (key : PyStr) : Bool := (d.lookup key).isSome

/-- `d[key] = value`: in place for a present key, at the end otherwise. -/
def set (d : PyDict) (key : PyStr) (value : Json) : PyDict :=
  if contains d key then d.map (fun kv => if kv.1 = key then (key, value) else kv)
  else d ++ [(key, value)]

end PyDict

end TxLookup.Library
