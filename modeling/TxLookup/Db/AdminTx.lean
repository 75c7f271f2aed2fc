import TxLookup.Db.Upsert
import Mathlib.Data.List.Sort
import Mathlib.Data.List.Lex

/-!
# Reads of the admin endpoints

The text order of the database is a collation, an arbitrary linear order on
texts. Joins run over primary keys, so each side contributes at most one row.
-/
namespace TxLookup.Db

open Library

/-- The order `ORDER BY` uses on a text column. -/
structure Collation where
  le : PyStr → PyStr → Bool
  total : ∀ a b, le a b = true ∨ le b a = true
  trans : ∀ a b c, le a b = true → le b c = true → le a c = true
  antisymm : ∀ a b, le a b = true → le b a = true → a = b

/-- Comparison by code points, the `C` collation. -/
def Collation.codePoints : Collation where
  le a b := decide (a ≤ b)
  total a b := by simpa using le_total a b
  trans a b c h h' := by simpa using le_trans (of_decide_eq_true h) (of_decide_eq_true h')
  antisymm a b h h' := le_antisymm (of_decide_eq_true h) (of_decide_eq_true h')

structure AdminTxContext where
  ledgerEntry : LedgerEntry
  paymentOrder : Option PaymentOrder
  paymentPair : Option PaymentLedgerPair
  peerEntry : Option LedgerEntry

structure AdminOrderContext where
  paymentOrder : PaymentOrder
  ledgerEntries : List LedgerEntry
  paymentPair : Option PaymentLedgerPair

/-- `ORDER BY event_time DESC, tx_id`. -/
def Collation.before (collation : Collation) (a b : LedgerEntry) : Prop :=
  b.eventTime < a.eventTime ∨ a.eventTime = b.eventTime ∧ collation.le a.txId b.txId = true

instance (collation : Collation) (a b : LedgerEntry) : Decidable (collation.before a b) :=
  inferInstanceAs (Decidable (_ ∨ _))

/-- The ledger rows a condition selects, newest first. -/
def selectNewestFirst (collation : Collation) (db : Database) (p : LedgerEntry → Bool) :
    List LedgerEntry :=
  (db.ledgerEntries.rows.filter p).insertionSort collation.before

/-- The condition of the fallback query for the other leg. -/
def isPeer (ledgerEntry : LedgerEntry) (candidate : LedgerEntry) : Bool :=
  let oppositeType := if ledgerEntry.entryType = PAYMENT then RECEIVE else PAYMENT
  ledgerEntry.relatedId.isSome && candidate.relatedId == ledgerEntry.relatedId &&
    candidate.txId != ledgerEntry.txId && candidate.entryType == oppositeType

def needsPeer (paymentPair : Option PaymentLedgerPair) : Bool :=
  match paymentPair with
  | none => true
  | some pair => !(truthy pair.paymentTxId && truthy pair.receiveTxId)

def fetchAdminTxContext (collation : Collation) (db : Database) (txId : PyStr) :
    Option AdminTxContext :=
  match db.ledgerEntries.find? txId with
  | none => none
  | some ledgerEntry =>
    let paymentOrder := ledgerEntry.relatedId.bind db.paymentOrders.find?
    let paymentPair := ledgerEntry.relatedId.bind db.paymentLedgerPairs.find?
    let peerEntry :=
      if truthy ledgerEntry.relatedId && needsPeer paymentPair then
        (selectNewestFirst collation db (isPeer ledgerEntry)).head?
      else none
    some { ledgerEntry, paymentOrder, paymentPair, peerEntry }

def fetchAdminOrderContext (collation : Collation) (db : Database) (orderId : PyStr) :
    Option AdminOrderContext :=
  match db.paymentOrders.find? orderId with
  | none => none
  | some order =>
    some {
      paymentOrder := order
      ledgerEntries := selectNewestFirst collation db (fun e => e.relatedId == some orderId)
      paymentPair := db.paymentLedgerPairs.find? orderId }

def fetchAdminWalletTx (collation : Collation) (db : Database) (walletId : PyStr)
    (fromTime toTime : Option DateTime) (limit : Nat) : List LedgerEntry :=
  (selectNewestFirst collation db (fun e =>
    e.walletId == walletId && fromTime.all (· ≤ e.eventTime) &&
      toTime.all (e.eventTime ≤ ·))).take limit

theorem mem_selectNewestFirst {collation : Collation} {db : Database} {p : LedgerEntry → Bool}
    {e : LedgerEntry} :
    e ∈ selectNewestFirst collation db p ↔ e ∈ db.ledgerEntries.rows ∧ p e = true := by
  rw [selectNewestFirst, List.mem_insertionSort, List.mem_filter]

theorem Collation.before_total (collation : Collation) (a b : LedgerEntry) :
    collation.before a b ∨ collation.before b a := by
  rcases lt_trichotomy a.eventTime b.eventTime with h | h | h
  · exact .inr (.inl h)
  · rcases collation.total a.txId b.txId with hle | hle
    · exact .inl (.inr ⟨h, hle⟩)
    · exact .inr (.inr ⟨h.symm, hle⟩)
  · exact .inl (.inl h)

theorem Collation.before_trans (collation : Collation) {a b c : LedgerEntry}
    (hab : collation.before a b) (hbc : collation.before b c) : collation.before a c := by
  rcases hab with hab | ⟨hab, hle⟩
  · rcases hbc with hbc | ⟨hbc, -⟩
    · exact .inl (hbc.trans hab)
    · exact .inl (hbc ▸ hab)
  · rcases hbc with hbc | ⟨hbc, hle'⟩
    · exact .inl (hab ▸ hbc)
    · exact .inr ⟨hab.trans hbc, collation.trans _ _ _ hle hle'⟩

/-- Two entries that precede each other are the same transaction. -/
theorem Collation.before_antisymm (collation : Collation) {a b : LedgerEntry}
    (hab : collation.before a b) (hba : collation.before b a) : a.txId = b.txId := by
  rcases hab with hab | ⟨heq, hle⟩
  · rcases hba with hba | ⟨heq, -⟩
    · exact absurd hba (not_lt_of_gt hab)
    · exact absurd hab (heq ▸ lt_irrefl _)
  · rcases hba with hba | ⟨-, hle'⟩
    · exact absurd hba (heq ▸ lt_irrefl _)
    · exact collation.antisymm _ _ hle hle'

instance (collation : Collation) : Std.Total collation.before := ⟨collation.before_total⟩

instance (collation : Collation) : IsTrans LedgerEntry collation.before :=
  ⟨fun _ _ _ => collation.before_trans⟩

/-- The first row selected is the one that precedes all others. -/
theorem head?_selectNewestFirst {collation : Collation} {db : Database} {p : LedgerEntry → Bool}
    {e : LedgerEntry} : (selectNewestFirst collation db p).head? = some e ↔
      e ∈ selectNewestFirst collation db p ∧
        ∀ r ∈ selectNewestFirst collation db p, collation.before e r := by
  have hsorted : (selectNewestFirst collation db p).Pairwise collation.before :=
    List.pairwise_insertionSort _ _
  have hrows : ∀ r ∈ selectNewestFirst collation db p, r ∈ db.ledgerEntries.rows :=
    fun r hr => (mem_selectNewestFirst.mp hr).1
  have hrefl : collation.before e e := or_self_iff.mp (collation.before_total e e)
  generalize selectNewestFirst collation db p = rows at hsorted hrows ⊢
  cases rows with
  | nil => simp
  | cons x rows =>
    rw [List.head?_cons, Option.some.injEq]
    constructor
    · rintro rfl
      exact ⟨List.mem_cons_self,
        List.forall_mem_cons.mpr ⟨hrefl, fun r => List.rel_of_pairwise_cons hsorted⟩⟩
    · rintro ⟨hmem, hfirst⟩
      rcases List.mem_cons.mp hmem with rfl | hmem'
      · rfl
      · refine db.ledgerEntries.eq_of_key (hrows x List.mem_cons_self) (hrows e hmem) ?_
        exact collation.before_antisymm (List.rel_of_pairwise_cons hsorted hmem')
          (hfirst x List.mem_cons_self)

/-- The leg the fallback query looks for. -/
def queriedLeg (e : LedgerEntry) : Leg := if e.entryType = PAYMENT then .receive else .payment

theorem queriedLeg_ne (e : LedgerEntry) : e.entryType ≠ (queriedLeg e).entryType := by
  unfold queriedLeg
  split
  · next h =>
    rw [h]
    exact payment_ne_receive
  · next h => exact h

theorem queriedLeg_of_leg {leg : Leg} {e : LedgerEntry} (ht : e.entryType = leg.entryType) :
    queriedLeg e = leg.opposite := by
  rw [queriedLeg, ht]
  cases leg with
  | payment => exact if_pos rfl
  | receive => exact if_neg payment_ne_receive.symm

theorem queriedLeg_eq_iff {leg : Leg} {e : LedgerEntry} :
    (queriedLeg e).entryType = leg.entryType ↔ leg = queriedLeg e := by
  constructor
  · cases queriedLeg e <;> cases leg <;>
      first | exact fun _ => rfl | exact fun h => absurd h (by decide)
  · intro h
    rw [h]

/-- The query asks for rows of another type, hence for other transactions, and
finds every such row of the relation. -/
theorem mem_peers_iff {db : Database} {collation : Collation} {ledgerEntry candidate : LedgerEntry}
    {relatedId : PyStr} (he : ledgerEntry ∈ db.ledgerEntries.rows)
    (hr : ledgerEntry.relatedId = some relatedId) :
    candidate ∈ selectNewestFirst collation db (isPeer ledgerEntry) ↔
      candidate ∈ db.ledgerEntries.rows ∧ candidate.relatedId = some relatedId ∧
        candidate.entryType = (queriedLeg ledgerEntry).entryType := by
  have htype : (if ledgerEntry.entryType = PAYMENT then RECEIVE else PAYMENT) =
      (queriedLeg ledgerEntry).entryType := by
    rw [queriedLeg]
    split <;> rfl
  rw [mem_selectNewestFirst]
  simp only [isPeer, htype, hr, Bool.and_eq_true, beq_iff_eq, bne_iff_ne, Option.isSome_some,
    true_and, and_assoc]
  constructor
  · rintro ⟨hc, hrel, _, hct⟩
    exact ⟨hc, hrel, hct⟩
  · rintro ⟨hc, hrel, hct⟩
    refine ⟨hc, hrel, fun htx => ?_, hct⟩
    have heq := db.ledgerEntries.eq_of_key hc he htx
    rw [heq] at hct
    exact queriedLeg_ne ledgerEntry hct

end TxLookup.Db
