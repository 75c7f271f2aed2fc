import TxLookup.Library.PyEq
import Mathlib.Data.Nat.Digits.Lemmas

/-!
# Numerals

What `int(value)` and `Decimal(text)` read: a sign, digits of any script, a point,
an exponent. A numeral keeps its digits, so that the size of the number and the
number of its fractional digits can be read off the places of the digits.
-/
namespace TxLookup.Library

open PyText

/-! ## Reading a text -/

/-- The zeros of the decimal digits of every script. -/
def digitZeros : List Nat :=
  [0x30, 0x660, 0x6f0, 0x7c0, 0x966, 0x9e6, 0xa66, 0xae6, 0xb66, 0xbe6, 0xc66, 0xce6, 0xd66, 0xde6,
    0xe50, 0xed0, 0xf20, 0x1040, 0x1090, 0x17e0, 0x1810, 0x1946, 0x19d0, 0x1a80, 0x1a90, 0x1b50,
    0x1bb0, 0x1c40, 0x1c50, 0xa620, 0xa8d0, 0xa900, 0xa9d0, 0xa9f0, 0xaa50, 0xabf0, 0xff10, 0x104a0,
    0x10d30, 0x11066, 0x110f0, 0x11136, 0x111d0, 0x112f0, 0x11450, 0x114d0, 0x11650, 0x116c0,
    0x11730, 0x118e0, 0x11950, 0x11c50, 0x11d50, 0x11da0, 0x11f50, 0x16a60, 0x16ac0, 0x16b50,
    0x1d7ce, 0x1d7d8, 0x1d7e2, 0x1d7ec, 0x1d7f6, 0x1e140, 0x1e2f0, 0x1e4f0, 0x1e950, 0x1fbf0]

/-- `unicodedata.decimal`. -/
def digit? (c : Nat) : Option (Fin 10) :=
  (digitZeros.find? (fun base => base ≤ c && c < base + 10)).map
    (fun base => Fin.ofNat 10 (c - base))

/-- The number of digits written most significant first. -/
def digitsValue (digits : List (Fin 10)) : Nat := Nat.ofDigits 10 (digits.reverse.map Fin.val)

def signed (negative : Bool) (n : Nat) : Int := if negative then -n else n

/-- An optional sign and the rest. -/
def splitSign : PyStr → Bool × PyStr
  | 43 :: s => (false, s)
  | 45 :: s => (true, s)
  | s => (false, s)

/-- The digits at the front and the rest. -/
def splitDigits : PyStr → List (Fin 10) × PyStr
  | [] => ([], [])
  | c :: s =>
    match digit? c with
    | some d => (d :: (splitDigits s).1, (splitDigits s).2)
    | none => ([], c :: s)

/-- Digits with single underscores between them. -/
def groupedDigits : PyStr → Option (List (Fin 10))
  | [] => none
  | [c] => (digit? c).map (fun d => [d])
  | c :: c' :: s => do
    let d ← digit? c
    let ds ← if c' = 95 then groupedDigits s else groupedDigits (c' :: s)
    return d :: ds

/-- The digits of a number, most significant first; the last has the place `exponent`. -/
structure Numeral where
  negative : Bool
  digits : List (Fin 10)
  exponent : Int

def Numeral.coefficient (n : Numeral) : Nat := digitsValue n.digits

/-- `e` or `E` and an integer, or nothing. -/
def exponentPart : PyStr → Option Int
  | [] => some 0
  | c :: s =>
    let (negative, digits) := splitSign s
    match splitDigits digits with
    | (d :: ds, []) =>
      if c = 101 ∨ c = 69 then some (signed negative (digitsValue (d :: ds))) else none
    | _ => none

/-- Digits with at most one point, and an exponent. -/
def numericValue (negative : Bool) (s : PyStr) : Option Numeral :=
  let (whole, rest) := splitDigits s
  let (fraction, rest) := match rest with
    | 46 :: rest => splitDigits rest
    | rest => ([], rest)
  if whole ++ fraction = [] then none
  else (exponentPart rest).map (fun e => ⟨negative, whole ++ fraction, e - fraction.length⟩)

/-- What a text given to `Decimal` spells. -/
inductive NumericText where
  | number (n : Numeral)
  | infinity (negative : Bool)
  | nan (negative signaling : Bool) (payload : Nat)

/-- `nan`, with the digits of its payload. -/
def nanText (negative signaling : Bool) (payload : PyStr) : Option NumericText :=
  match splitDigits payload with
  | (digits, []) => some (.nan negative signaling (digitsValue digits))
  | _ => none

/-- `Decimal(text)`: blanks around the text and underscores are ignored. -/
def numericText (text : PyStr) : Option NumericText :=
  let (negative, s) := splitSign ((strip text).filter (· ≠ 95))
  if lower s = py "inf" ∨ lower s = py "infinity" then some (.infinity negative)
  else if (py "nan").isPrefixOf (lower s) then nanText negative false (s.drop 3)
  else if (py "snan").isPrefixOf (lower s) then nanText negative true (s.drop 4)
  else (numericValue negative s).map .number

/-- `int(text)`, as a sign and digits. -/
def integerText (text : PyStr) : Option (Bool × List (Fin 10)) :=
  let (negative, s) := splitSign (strip text)
  (groupedDigits s).map (fun digits => (negative, digits))

/-- `int(x)`: towards zero, and not of an infinity or NaN. -/
def PyFloat.trunc : PyFloat → Option Int
  | .finite negative m e => some (signed negative (m * 2 ^ e.toNat / 2 ^ (-e).toNat))
  | _ => none

/-- `int(value)`. -/
def Json.toInt : Json → Option Int
  | .bool b => some b.toNat
  | .int n => some n
  | .float x => x.trunc
  | .str s => (integerText s).map (fun n => signed n.1 (digitsValue n.2))
  | _ => none

theorem numericText_blank {s : PyStr} (h : strip s = []) : numericText s = none := by
  rw [numericText, h]
  decide +kernel

theorem toInt_blank {s : PyStr} (h : strip s = []) : (Json.str s).toInt = none := by
  rw [Json.toInt, integerText, h]
  rfl

/-! ## Numbers equal to an integer -/

theorem signed_natAbs {negative : Bool} {k : Int} (h : decide (k < 0) = negative ∨ k.natAbs = 0) :
    signed negative k.natAbs = k := by
  unfold signed
  rcases h with rfl | h
  · simp only [decide_eq_true_eq]
    split <;> omega
  · split <;> omega

theorem toInt_number {value : Json} {x : PyFloat} (h : value.number = some x) :
    value.toInt = x.trunc := by
  cases value with
  | bool b =>
    cases h
    cases b <;> rfl
  | int n =>
    cases h
    have hn : n = signed (decide (n < 0)) n.natAbs := (signed_natAbs (.inl rfl)).symm
    simpa [Json.toInt, PyFloat.trunc] using hn
  | float y =>
    cases h
    rfl
  | _ => cases h

/-- A float equal to an integer is converted to it. -/
theorem trunc_of_numEq {k : Int} {x : PyFloat}
    (h : (PyFloat.finite (k < 0) k.natAbs 0).numEq x = true) : x.trunc = some k := by
  cases x with
  | inf _ => cases h
  | nan => cases h
  | finite negative m e =>
    have hquotient : m * 2 ^ e.toNat / 2 ^ (-e).toNat = k.natAbs ∧
        (decide (k < 0) = negative ∨ k.natAbs = 0) := by
      rcases Int.le_total 0 e with he | he
      · obtain ⟨hm, hn⟩ := (numEq_finite_iff (le_refl 0) he).mp h
        simp only [aligned, Int.sub_zero, Int.toNat_zero, pow_zero, Nat.mul_one] at hm
        have hneg : (-e).toNat = 0 := by omega
        rw [hneg, ← hm, pow_zero, Nat.div_one]
        exact ⟨rfl, hn⟩
      · obtain ⟨hm, hn⟩ := (numEq_finite_iff he (le_refl e)).mp h
        simp only [aligned, Int.sub_self, Int.toNat_zero, pow_zero, Nat.mul_one,
          Int.zero_sub] at hm
        have hpos : e.toNat = 0 := by omega
        rw [hpos, ← hm, pow_zero, Nat.mul_one,
          Nat.mul_div_cancel _ (Nat.two_pow_pos (-e).toNat)]
        exact ⟨rfl, hn⟩
    rw [PyFloat.trunc, hquotient.1, signed_natAbs hquotient.2]

theorem toInt_of_pyEq {k : Int} {value : Json} (h : (Json.int k).pyEq value = true) :
    value.toInt = some k := by
  obtain ⟨x, hx, heq⟩ := (Json.pyEq_number rfl).mp h
  rw [toInt_number hx, trunc_of_numEq heq]

/-! ## Places -/

theorem places_cons {P : Nat → Prop} {d : Fin 10} {digits : List (Fin 10)} :
    (∀ (i : Nat) e, (d :: digits)[i]? = some e → e ≠ 0 → P i) ↔
      (d ≠ 0 → P 0) ∧ ∀ (i : Nat) e, digits[i]? = some e → e ≠ 0 → P (i + 1) := by
  constructor
  · intro h
    exact ⟨h 0 d rfl, fun i e he => h (i + 1) e he⟩
  · rintro ⟨hd, hrest⟩ i e he hne
    cases i with
    | zero =>
      obtain rfl := Option.some.inj he
      exact hd hne
    | succ i => exact hrest i e he hne

/-- Digits, least significant first: a power of ten divides the number if the
places below it are zero. -/
theorem pow_dvd_ofDigits {digits : List (Fin 10)} {m : Nat} :
    10 ^ m ∣ Nat.ofDigits 10 (digits.map Fin.val) ↔
      ∀ (i : Nat) d, digits[i]? = some d → d ≠ 0 → m ≤ i := by
  induction digits generalizing m with
  | nil => simp
  | cons d digits ih =>
    rw [List.map_cons, Nat.ofDigits_cons, places_cons]
    cases m with
    | zero => simp
    | succ m =>
      have hshift : ∀ i, m + 1 ≤ i + 1 ↔ m ≤ i := fun i => by omega
      simp only [hshift, ← ih]
      constructor
      · intro h
        have hd : d.val = 0 := by
          have h10 : 10 ∣ d.val + 10 * Nat.ofDigits 10 (digits.map Fin.val) :=
            (Dvd.intro_left (10 ^ m) rfl).trans (pow_succ 10 m ▸ h)
          have hlt := d.isLt
          omega
        rw [hd, Nat.zero_add, pow_succ', Nat.mul_dvd_mul_iff_left (by decide)] at h
        exact ⟨fun hne => absurd (Fin.ext hd) hne, h⟩
      · intro hparts
        obtain ⟨hd, h⟩ := hparts
        have hzero : d = 0 := by
          by_contra hne
          have hplace := hd hne
          omega
        rw [hzero, Fin.val_zero, Nat.zero_add, pow_succ', Nat.mul_dvd_mul_iff_left (by decide)]
        exact h

/-- The number is below a power of ten if the places from it on are zero. -/
theorem ofDigits_lt_pow {digits : List (Fin 10)} {m : Nat} :
    Nat.ofDigits 10 (digits.map Fin.val) < 10 ^ m ↔
      ∀ (i : Nat) d, digits[i]? = some d → d ≠ 0 → i < m := by
  induction digits generalizing m with
  | nil => simp
  | cons d digits ih =>
    rw [List.map_cons, Nat.ofDigits_cons, places_cons]
    have hlt := d.isLt
    cases m with
    | zero =>
      have hzero := @ih 0
      simp only [Nat.not_lt_zero, pow_zero, Nat.lt_one_iff] at hzero ⊢
      rw [← hzero, imp_false, not_not, ← Fin.val_inj, Fin.val_zero]
      omega
    | succ m =>
      have hshift : ∀ i, i + 1 < m + 1 ↔ i < m := fun i => by omega
      simp only [hshift, ← ih]
      rw [pow_succ', and_iff_right (fun _ => Nat.succ_pos m)]
      omega

/-- Every digit but the zeros has a place from `low` on and below `high`. -/
def Numeral.WithinPlaces (n : Numeral) (low high : Int) : Prop :=
  ∀ (i : Nat) (d : Fin 10), n.digits.reverse[i]? = some d → d ≠ 0 →
    low ≤ n.exponent + i ∧ n.exponent + i < high

/-- The value of `n` is a whole number of units of `10 ^ (-scale)`. -/
def InUnits (coefficient : Nat) (exponent : Int) (scale units : Nat) : Prop :=
  coefficient * 10 ^ (exponent + scale).toNat = units * 10 ^ (-(exponent + scale)).toNat

theorem mul_pow_lt_pow {c k p : Nat} : c * 10 ^ k < 10 ^ p ↔ c < 10 ^ (p - k) := by
  rcases Nat.le_total k p with hk | hk
  · have hsplit : 10 ^ p = 10 ^ (p - k) * 10 ^ k := by rw [← pow_add, Nat.sub_add_cancel hk]
    rw [hsplit]
    exact Nat.mul_lt_mul_right (pow_pos (by decide) k)
  · rw [Nat.sub_eq_zero_of_le hk, pow_zero, Nat.lt_one_iff]
    constructor
    · intro h
      by_contra hc
      have hpow : 10 ^ p ≤ 10 ^ k := Nat.pow_le_pow_right (by decide) hk
      have hmul : 10 ^ k ≤ c * 10 ^ k := Nat.le_mul_of_pos_left _ (Nat.pos_of_ne_zero hc)
      omega
    · intro hc
      rw [hc, Nat.zero_mul]
      exact pow_pos (by decide) p

/-- A number of `precision` digits, `scale` of them after the point. -/
theorem withinPlaces_iff {n : Numeral} {precision scale : Nat} :
    n.WithinPlaces (-scale) (precision - scale) ↔
      ∃ units < 10 ^ precision, InUnits n.coefficient n.exponent scale units := by
  unfold Numeral.WithinPlaces InUnits Numeral.coefficient digitsValue
  rcases Int.le_total 0 (n.exponent + scale) with hk | hk
  · obtain ⟨k, hk⟩ := Int.eq_ofNat_of_zero_le hk
    have hneg : (-(n.exponent + scale)).toNat = 0 := by omega
    rw [hneg, hk, Int.toNat_natCast]
    simp only [pow_zero, Nat.mul_one, exists_eq_right']
    rw [mul_pow_lt_pow, ofDigits_lt_pow]
    refine forall₄_congr fun i d hd hne => ?_
    omega
  · obtain ⟨k, hk⟩ := Int.eq_ofNat_of_zero_le (Int.neg_nonneg_of_nonpos hk)
    have hpos : (n.exponent + scale).toNat = 0 := by omega
    rw [hpos, hk, Int.toNat_natCast, pow_zero, Nat.mul_one]
    have hunits : (∃ units < 10 ^ precision,
        Nat.ofDigits 10 (n.digits.reverse.map Fin.val) = units * 10 ^ k) ↔
        10 ^ k ∣ Nat.ofDigits 10 (n.digits.reverse.map Fin.val) ∧
          Nat.ofDigits 10 (n.digits.reverse.map Fin.val) < 10 ^ (precision + k) := by
      constructor
      · intro hparts
        obtain ⟨units, hlt, heq⟩ := hparts
        rw [heq, mul_pow_lt_pow, Nat.add_sub_cancel]
        exact ⟨Nat.dvd_mul_left _ _, hlt⟩
      · intro hparts
        obtain ⟨⟨units, heq⟩, hlt⟩ := hparts
        rw [heq, Nat.mul_comm, mul_pow_lt_pow, Nat.add_sub_cancel] at hlt
        exact ⟨units, hlt, heq.trans (Nat.mul_comm _ _)⟩
    rw [hunits, pow_dvd_ofDigits, ofDigits_lt_pow]
    constructor
    · intro h
      refine ⟨fun i d hd hne => ?_, fun i d hd hne => ?_⟩
      · have hplace := (h i d hd hne).1
        omega
      · have hplace := (h i d hd hne).2
        omega
    · intro ⟨hlow, hhigh⟩ i d hd hne
      have hplace := hlow i d hd hne
      have hplace' := hhigh i d hd hne
      omega

end TxLookup.Library
