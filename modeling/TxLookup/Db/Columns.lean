import TxLookup.Db.Models
import TxLookup.Library.PyNumeral

/-!
# Columns

What PostgreSQL stores for a number: a `NUMERIC` column rounds to its scale, a
`BIGINT` column takes what it is given, and either refuses what is too large. A
column holds a number exactly if what it stores is finite and has the same value.
A row is stored with its values as the columns hold them, or refused as a whole.
-/
namespace TxLookup.Db

open Library Library.PyText

/-- Units of `10 ^ (-scale)`, rounded half away from zero. -/
def roundedUnits (coefficient : Nat) (exponent : Int) (scale : Nat) : Nat :=
  if 0 ≤ exponent + scale then coefficient * 10 ^ (exponent + scale).toNat
  else (2 * coefficient + 10 ^ (-(exponent + scale)).toNat) /
    (2 * 10 ^ (-(exponent + scale)).toNat)

/-- `NUMERIC(precision, scale)`; `none` is a numeric field overflow. There is no
negative zero, and the driver sends every NaN, with or without payload, as `NaN`. -/
def numericColumn (precision scale : Nat) : Decimal → Option Decimal
  | .finite negative coefficient exponent =>
    let units := roundedUnits coefficient exponent scale
    if units < 10 ^ precision then some (.finite (negative && units != 0) units (-scale))
    else none
  | .infinity _ => none
  | .nan _ _ _ => some (.nan false false 0)

/-- `BIGINT`; `none` is an integer out of range. -/
def bigintColumn (n : Int) : Option Int :=
  if -(2 ^ 63) ≤ n ∧ n < 2 ^ 63 then some n else none

/-- A finite number of at most `scale` fractional digits and `precision` digits in
all, whose value the column stores. -/
def HoldsExactly (precision scale : Nat) (d : Decimal) : Prop :=
  ∃ negative coefficient exponent units, d = .finite negative coefficient exponent ∧
    units < 10 ^ precision ∧ InUnits coefficient exponent scale units ∧
    numericColumn precision scale d = some (.finite (negative && units != 0) units (-scale))

theorem roundedUnits_of_inUnits {coefficient scale units : Nat} {exponent : Int}
    (h : InUnits coefficient exponent scale units) :
    roundedUnits coefficient exponent scale = units := by
  unfold InUnits at h
  unfold roundedUnits
  split
  · next hshift =>
    have hneg : (-(exponent + scale)).toNat = 0 := by omega
    rw [h, hneg, pow_zero, Nat.mul_one]
  · next hshift =>
    have hpos : (exponent + scale).toNat = 0 := by omega
    rw [hpos, pow_zero, Nat.mul_one] at h
    have hsum : 2 * coefficient + 10 ^ (-(exponent + scale)).toNat =
        (2 * units + 1) * 10 ^ (-(exponent + scale)).toNat := by
      rw [h]
      ring
    rw [hsum, Nat.mul_div_mul_right _ _ (pow_pos (by decide) _)]
    omega

theorem holdsExactly_finite {precision scale coefficient : Nat} {negative : Bool} {exponent : Int} :
    HoldsExactly precision scale (.finite negative coefficient exponent) ↔
      ∃ units < 10 ^ precision, InUnits coefficient exponent scale units := by
  constructor
  · intro hparts
    obtain ⟨_, _, _, units, heq, hlt, hunits, -⟩ := hparts
    cases heq
    exact ⟨units, hlt, hunits⟩
  · intro hparts
    obtain ⟨units, hlt, hunits⟩ := hparts
    refine ⟨negative, coefficient, exponent, units, rfl, hlt, hunits, ?_⟩
    rw [numericColumn, roundedUnits_of_inUnits hunits]
    exact if_pos hlt

theorem not_holdsExactly_infinity {precision scale : Nat} {negative : Bool} :
    ¬ HoldsExactly precision scale (.infinity negative) := by
  intro hparts
  obtain ⟨_, _, _, _, heq, -⟩ := hparts
  cases heq

theorem not_holdsExactly_nan {precision scale payload : Nat} {negative signaling : Bool} :
    ¬ HoldsExactly precision scale (.nan negative signaling payload) := by
  intro hparts
  obtain ⟨_, _, _, _, heq, -⟩ := hparts
  cases heq

/-! ## Rows -/

/-- The number as a `NUMERIC(18, 2)` column holds it, if it takes it. -/
def Decimal.held (d : Decimal) : Decimal := (numericColumn 18 2 d).getD d

/-- No column refuses its value: the amounts and the version are in range, and no
text has a NUL or a lone surrogate. -/
def LedgerEntry.accepted (r : LedgerEntry) : Bool :=
  storable r.txId && storable r.walletId && storable r.entryType && r.relatedId.all storable &&
    r.relatedType.all storable && (r.amount :: r.amountSigned.toList).all
      (fun d => (numericColumn 18 2 d).isSome) &&
    r.sourceVersion.all (fun n => (bigintColumn n).isSome)

/-- The row as its columns hold it, if they accept it. -/
def LedgerEntry.held (r : LedgerEntry) : LedgerEntry :=
  { r with amount := r.amount.held, amountSigned := r.amountSigned.map Decimal.held }

def PaymentOrder.accepted (r : PaymentOrder) : Bool :=
  storable r.orderId && r.userId.all storable && r.merchantName.all storable &&
    storable r.status && (numericColumn 18 2 r.amount).isSome &&
    r.sourceVersion.all (fun n => (bigintColumn n).isSome)

def PaymentOrder.held (r : PaymentOrder) : PaymentOrder := { r with amount := r.amount.held }

end TxLookup.Db
