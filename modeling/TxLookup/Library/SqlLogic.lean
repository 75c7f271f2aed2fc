import Mathlib.Order.Basic

/-!
# SQL conditions over nullable columns

A condition evaluates to TRUE, FALSE or UNKNOWN; a comparison with NULL is
UNKNOWN, and a WHERE clause keeps a row only when its condition is TRUE. The
lemmas reduce `holds` of a compound condition to ordinary logic.
-/
namespace TxLookup.Library.SqlLogic

/-- A SQL truth value, with `none` for UNKNOWN. -/
abbrev Truth := Option Bool

def and3 : Truth → Truth → Truth
  | some false, _ => some false
  | _, some false => some false
  | some true, some true => some true
  | _, _ => none

def or3 : Truth → Truth → Truth
  | some true, _ => some true
  | _, some true => some true
  | some false, some false => some false
  | _, _ => none

def isNull {α : Type*} (x : Option α) : Truth := some x.isNone

def isNotNull {α : Type*} (x : Option α) : Truth := some x.isSome

/-- `a >= b` on nullable operands. -/
def ge {α : Type*} [LE α] [DecidableLE α] : Option α → Option α → Truth
  | some a, some b => some (decide (b ≤ a))
  | _, _ => none

def conj (cs : List Truth) : Truth := cs.foldr and3 (some true)

def disj (cs : List Truth) : Truth := cs.foldr or3 (some false)

/-- What WHERE asks of a condition: TRUE, not merely non-FALSE. -/
def holds (t : Truth) : Bool := t == some true

@[simp] theorem holds_some (b : Bool) : holds (some b) = b := by cases b <;> rfl

@[simp] theorem holds_none : holds none = false := rfl

theorem holds_and3 (a b : Truth) : holds (and3 a b) = (holds a && holds b) := by
  rcases a with _ | _ | _ <;> rcases b with _ | _ | _ <;> rfl

theorem holds_or3 (a b : Truth) : holds (or3 a b) = (holds a || holds b) := by
  rcases a with _ | _ | _ <;> rcases b with _ | _ | _ <;> rfl

@[simp] theorem holds_conj (cs : List Truth) : holds (conj cs) = cs.all holds := by
  induction cs with
  | nil => rfl
  | cons c cs ih => rw [conj, List.foldr_cons, holds_and3, List.all_cons, ← ih, conj]

@[simp] theorem holds_disj (cs : List Truth) : holds (disj cs) = cs.any holds := by
  induction cs with
  | nil => rfl
  | cons c cs ih => rw [disj, List.foldr_cons, holds_or3, List.any_cons, ← ih, disj]

end TxLookup.Library.SqlLogic
