import TxLookup.Consumer.Parsing
import TxLookup.Db.Columns

/-!
# Events and their columns

`amount` and `amount_signed` go to `NUMERIC(18, 2)` columns, `source_version` to a
`BIGINT`. The parser takes every text `Decimal` and `int` take: special values,
exponents, any number of digits. Which texts give an event the columns hold exactly
is read off the places of their digits.
-/
namespace TxLookup.Consumer

open Library Library.PyText Db

/-- The numbers of an event that go to `NUMERIC(18, 2)` columns. -/
def Event.amounts : Event → List Decimal
  | .ledger entry => entry.amount :: entry.amountSigned.toList
  | .order payment => [payment.amount]

/-- The columns hold the numbers of the event exactly, and refuse none. -/
structure EventStorable (event : Event) : Prop where
  amounts : ∀ d ∈ event.amounts, HoldsExactly 18 2 d
  version : ∀ n, event.sourceVersion = some n → bigintColumn n = some n

/-! ## Amounts -/

/-- The text is a finite numeral whose digits other than zero have a place among two
after the point and sixteen before it. -/
def NumeralFits (text : PyStr) : Prop :=
  ∃ n, numericText text = some (.number n) ∧ n.WithinPlaces (-2) 16

section
variable {rt : PyRuntime} (hrt : rt.Exact)
include hrt

theorem holdsExactly_iff {text : PyStr} {d : Decimal} (h : rt.decimal text = some d) :
    HoldsExactly 18 2 d ↔ NumeralFits text := by
  have hspelled := hrt.decimal h
  unfold NumeralFits
  cases htext : numericText text with
  | none =>
    rw [htext] at hspelled
    cases hspelled
  | some value =>
    rw [htext] at hspelled
    obtain rfl := Option.some.inj hspelled
    cases value with
    | number n =>
      rw [decimalOf, holdsExactly_finite]
      have hplaces := @withinPlaces_iff n 18 2
      constructor
      · intro hunits
        exact ⟨n, rfl, hplaces.mpr hunits⟩
      · intro hparts
        obtain ⟨n', hn', hwithin⟩ := hparts
        cases hn'
        exact hplaces.mp hwithin
    | infinity negative =>
      refine iff_of_false not_holdsExactly_infinity ?_
      intro hparts
      obtain ⟨n, hn, -⟩ := hparts
      cases hn
    | nan negative signaling payload =>
      refine iff_of_false not_holdsExactly_nan ?_
      intro hparts
      obtain ⟨n, hn, -⟩ := hparts
      cases hn

theorem amount_holdsExactly {value : Json} {field : String} {d : Decimal}
    (h : parseDecimal rt value field = .ok d) :
    HoldsExactly 18 2 d ↔ NumeralFits (rt.str value) := by
  exact holdsExactly_iff hrt (parseDecimal_ok.mp h).2

end

/-! ## Versions -/

/-- The largest magnitude a `BIGINT` column takes. -/
def bigintLimit (negative : Bool) : Nat := if negative then 2 ^ 63 else 2 ^ 63 - 1

/-- The number, before its fraction is cut off, is in the range of a `BIGINT`. -/
def IntegerFits : Json → Prop
  | .int n => -(2 ^ 63) ≤ n ∧ n < 2 ^ 63
  | .float (.finite negative m e) =>
    m * 2 ^ e.toNat < (bigintLimit negative + 1) * 2 ^ (-e).toNat
  | .str s => ∀ negative digits, integerText s = some (negative, digits) →
      digitsValue digits ≤ bigintLimit negative
  | _ => True

theorem bigintColumn_eq {n : Int} : bigintColumn n = some n ↔ -(2 ^ 63) ≤ n ∧ n < 2 ^ 63 := by
  unfold bigintColumn
  split
  · next h => exact iff_of_true rfl h
  · next h => exact iff_of_false (fun heq => by cases heq) h

theorem signed_inRange {negative : Bool} {m : Nat} :
    (-(2 ^ 63) ≤ signed negative m ∧ signed negative m < 2 ^ 63) ↔ m ≤ bigintLimit negative := by
  unfold signed bigintLimit
  cases negative <;> simp <;> omega

theorem bigint_iff {value : Json} {n : Int} (h : value.toInt = some n) :
    bigintColumn n = some n ↔ IntegerFits value := by
  rw [bigintColumn_eq]
  cases value with
  | null => cases h
  | arr _ => cases h
  | obj _ => cases h
  | bool b =>
    cases h
    refine iff_of_true ?_ trivial
    cases b <;> decide
  | int n =>
    cases h
    rfl
  | float x =>
    cases x with
    | inf _ => cases h
    | nan => cases h
    | finite negative m e =>
      cases h
      rw [signed_inRange, IntegerFits, ← Nat.lt_succ_iff,
        Nat.div_lt_iff_lt_mul (Nat.two_pow_pos _)]
  | str s =>
    obtain ⟨⟨negative, digits⟩, htext, rfl⟩ := Option.map_eq_some_iff.mp h
    rw [signed_inRange, IntegerFits]
    constructor
    · intro hle negative' digits' htext'
      cases htext.symm.trans htext'
      exact hle
    · intro hfits
      exact hfits negative digits htext

/-! ## Accepted payloads -/

/-- The texts of the amounts fit their columns, and the version its own. -/
structure PayloadFits (rt : PyRuntime) (kind : TopicKind) (payload : PyDict) : Prop where
  amount : NumeralFits (rt.str (payload.get (py "amount")))
  amountSigned : kind = .ledger → payload.get (py "amount_signed") ≠ .null →
    NumeralFits (rt.str (payload.get (py "amount_signed")))
  version : IntegerFits (versionValue payload)

section
variable {rt : PyRuntime} (hrt : rt.Exact)
include hrt

theorem version_storable {value : Json} {version : Option Int}
    (h : parseOptionalInt rt value = .ok version) :
    (∀ n, version = some n → bigintColumn n = some n) ↔ IntegerFits value := by
  rcases parseOptionalInt_ok hrt h with ⟨rfl, rfl⟩ | ⟨k, rfl, hk⟩
  · exact iff_of_true (fun n hn => by cases hn) trivial
  · rw [← bigint_iff hk]
    constructor
    · intro hall
      exact hall k rfl
    · intro hstored n hn
      cases hn
      exact hstored

theorem amountSigned_storable {value : Json} {signed : Option Decimal}
    (h : parseOptionalDecimal rt value "amount_signed" = .ok signed) :
    (∀ d ∈ signed.toList, HoldsExactly 18 2 d) ↔
      (value ≠ .null → NumeralFits (rt.str value)) := by
  by_cases hnull : value = .null
  · rw [hnull] at h
    cases h
    simp [hnull]
  · rw [parseOptionalDecimal_of_ne hnull] at h
    obtain ⟨d, hd, rfl⟩ := map_some_ok h
    simp [hnull, amount_holdsExactly hrt hd]

/-- An accepted payload gives an event the columns hold exactly if and only if the
texts of its numbers fit. -/
theorem eventStorable_iff {normalized : NormalizedPayload} {event : Event}
    (hok : parseEvent rt normalized = .ok event) :
    EventStorable event ↔ PayloadFits rt normalized.topicKind normalized.payload := by
  obtain ⟨payload, kind, hits⟩ := normalized
  cases kind with
  | ledger =>
    obtain ⟨entry, rfl, hfields⟩ := parseEvent_ledger.mp hok
    have hamount := amount_holdsExactly hrt hfields.amount
    have hsigned := amountSigned_storable hrt hfields.amountSigned
    have hversion := version_storable hrt hfields.sourceVersion
    constructor
    · intro hparts
      obtain ⟨hamounts, hstored⟩ := hparts
      obtain ⟨hfirst, hrest⟩ := List.forall_mem_cons.mp hamounts
      exact ⟨hamount.mp hfirst, fun _ => hsigned.mp hrest, hversion.mp hstored⟩
    · intro h
      exact ⟨List.forall_mem_cons.mpr ⟨hamount.mpr h.amount, hsigned.mpr (h.amountSigned rfl)⟩,
        hversion.mpr h.version⟩
  | paymentOrder =>
    obtain ⟨payment, rfl, hfields⟩ := parseEvent_order.mp hok
    have hamount := amount_holdsExactly hrt hfields.amount
    have hversion := version_storable hrt hfields.sourceVersion
    constructor
    · intro hparts
      obtain ⟨hamounts, hstored⟩ := hparts
      exact ⟨hamount.mp (hamounts _ List.mem_cons_self), (fun hkind => by cases hkind),
        hversion.mp hstored⟩
    · intro h
      refine ⟨fun d hd => ?_, hversion.mpr h.version⟩
      cases List.mem_singleton.mp hd
      exact hamount.mpr h.amount

end

/-- An order over a tenth of a cent. -/
def fineAmountPayload : PyDict :=
  [(py "order_id", .str (py "po-1")), (py "amount", .str (py "0.001")),
    (py "status", .str (py "PAID")), (py "created_at", .str (py "2026-01-01T00:00:00Z"))]

theorem parse_fineAmount :
    parseEvent exactRuntime ⟨fineAmountPayload, .paymentOrder, []⟩ =
      .ok (.order (acceptedOrder (.finite false 1 (-3)))) := by
  decide +kernel

theorem fineAmount_storable_iff : EventStorable (.order (acceptedOrder (.finite false 1 (-3)))) ↔
    PayloadFits exactRuntime .paymentOrder fineAmountPayload :=
  eventStorable_iff exactRuntime_exact parse_fineAmount

example : numericColumn 18 2 (.finite false 1 (-3)) = some (.finite false 0 (-2)) := by
  decide +kernel

/-- The amount is stored as zero. -/
theorem fineAmount_rounded : ¬ ∀ (rt : PyRuntime) (normalized : NormalizedPayload) (event : Event),
    rt.Exact → parseEvent rt normalized = .ok event → EventStorable event := by
  intro h
  have hstorable := h exactRuntime ⟨fineAmountPayload, .paymentOrder, []⟩
    (.order (acceptedOrder (.finite false 1 (-3)))) exactRuntime_exact parse_fineAmount
  obtain ⟨units, -, hunits⟩ :=
    holdsExactly_finite.mp (hstorable.amounts _ List.mem_cons_self)
  have hthousandth : 1 * 10 ^ 0 = units * 10 ^ 1 := hunits
  omega

end TxLookup.Consumer
