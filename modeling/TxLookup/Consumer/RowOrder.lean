import TxLookup.Consumer.PairView

/-!
# Pair computation and the order of the rows

The legs of a pair are the first rows of their types, and the SELECT that feeds
the computation names no order. The result does not depend on the order exactly
if there is at most one row of each leg's type; the latest event time never does.
-/
namespace TxLookup.Consumer

open Library Library.FirstMatch Db KeyedTable

/-- At most one entry of the type of each leg. -/
def OneEntryPerLeg (entries : List LedgerEntrySnapshot) : Prop :=
  ∀ leg : Leg, AtMostOne (fun e => e.entryType = leg.entryType) entries

/-- The computation looks at the two first entries and the latest time. -/
theorem computePairing_congr {entries entries' : List LedgerEntrySnapshot}
    (hleg : ∀ leg : Leg, firstOfType leg.entryType entries' = firstOfType leg.entryType entries)
    (htime : latestEventTime entries' = latestEventTime entries) (paymentOrderId : PyStr)
    (paymentOrder : Option PaymentOrderSnapshot) (now : DateTime) :
    computePairing paymentOrderId entries' paymentOrder now =
      computePairing paymentOrderId entries paymentOrder now := by
  have hpayment : firstOfType PAYMENT entries' = firstOfType PAYMENT entries := hleg .payment
  have hreceive : firstOfType RECEIVE entries' = firstOfType RECEIVE entries := hleg .receive
  unfold computePairing
  rw [hpayment, hreceive, htime]

/-- The transaction a snapshot names for a leg. -/
def legTx (leg : Leg) (snapshot : PairingSnapshot) : Option PyStr := leg.tx (pairValues snapshot 0)

theorem legTx_computePairing (leg : Leg) (paymentOrderId : PyStr)
    (entries : List LedgerEntrySnapshot) (paymentOrder : Option PaymentOrderSnapshot)
    (now : DateTime) : legTx leg (computePairing paymentOrderId entries paymentOrder now) =
      (firstOfType leg.entryType entries).map (·.txId) := by
  cases leg <;> rfl

/-- The snapshot is the same for every order of the entries exactly if no leg
has two of them to choose from. -/
theorem computePairing_perm_iff (paymentOrderId : PyStr) (entries : List LedgerEntrySnapshot)
    (hdistinct : (entries.map (·.txId)).Nodup) (paymentOrder : Option PaymentOrderSnapshot)
    (now : DateTime) :
    (∀ entries' : List LedgerEntrySnapshot, entries'.Perm entries →
        computePairing paymentOrderId entries' paymentOrder now =
          computePairing paymentOrderId entries paymentOrder now) ↔
      OneEntryPerLeg entries := by
  constructor
  · intro h leg e he e' he' ht ht'
    have hbring := fun e (he : e ∈ entries) =>
      exists_perm_find? (p := fun e => e.entryType = leg.entryType) he
    obtain ⟨front, hfront, hfirst⟩ := hbring e he ht
    obtain ⟨front', hfront', hfirst'⟩ := hbring e' he' ht'
    have hsame := congrArg (legTx leg) ((h front hfront).trans (h front' hfront').symm)
    rw [legTx_computePairing, legTx_computePairing, firstOfType, firstOfType, hfirst,
      hfirst'] at hsame
    exact List.inj_on_of_nodup_map hdistinct he he' (Option.some.inj hsame)
  · intro hone entries' hperm
    exact computePairing_congr (fun leg => (hone leg).find?_perm hperm)
      (latestEventTime_perm hperm) _ _ _

/-- A payment, its receipt and an entry of another type. -/
def pairEntries : List LedgerEntrySnapshot :=
  [⟨py "tx-1", py "w1", PAYMENT, .finite false 1000 (-2), 1⟩,
    ⟨py "tx-2", py "w2", RECEIVE, .finite false 1000 (-2), 3⟩,
    ⟨py "tx-3", py "w1", py "FEE", .finite false 10 (-2), 2⟩]

theorem pairEntries_perm_iff :
    (∀ entries' : List LedgerEntrySnapshot, entries'.Perm pairEntries →
        computePairing (py "po-1") entries' none 5 =
          computePairing (py "po-1") pairEntries none 5) ↔
      OneEntryPerLeg pairEntries :=
  computePairing_perm_iff (py "po-1") pairEntries (by decide) none 5

/-- Two payments of one order. -/
def twoPayments : List LedgerEntrySnapshot :=
  [⟨py "tx-1", py "w1", PAYMENT, .finite false 1000 (-2), 1⟩,
    ⟨py "tx-3", py "w3", PAYMENT, .finite false 500 (-2), 2⟩]

/-- Read the other way round they give another leg, wallet and amount. -/
theorem twoPayments_order_matters :
    (twoPayments.map (·.txId)).Nodup ∧ twoPayments.reverse.Perm twoPayments ∧
      computePairing (py "po-1") twoPayments.reverse none 5 ≠
        computePairing (py "po-1") twoPayments none 5 :=
  ⟨by decide, List.reverse_perm twoPayments, by decide⟩

/-! ## The pairing step -/

/-- The order that returns the given rows as a given rearrangement. -/
def arrangeAs (rows rows' l : List LedgerEntry) : List LedgerEntry := if l = rows then rows' else l

theorem arrangeAs_perm {rows rows' : List LedgerEntry} (h : rows'.Perm rows)
    (l : List LedgerEntry) : (arrangeAs rows rows' l).Perm l := by
  unfold arrangeAs
  split
  · next heq => exact heq ▸ h
  · exact List.Perm.refl l

def ScanOrder.sending (rows rows' : List LedgerEntry) (h : rows'.Perm rows) : ScanOrder :=
  ⟨arrangeAs rows rows', arrangeAs_perm h⟩

section
variable {env : Surroundings} {relatedId : PyStr} {db : Database}

theorem selectRelated_sending {rows' : List LedgerEntry}
    (h : rows'.Perm (relationRows db.ledgerEntries relatedId)) :
    selectRelated (.sending (relationRows db.ledgerEntries relatedId) rows' h) db relatedId =
      rows' := if_pos rfl

/-- A row of a leg's type is the leg under some order of the rows. -/
theorem exists_scan_legRow (env : Surroundings) {leg : Leg} {e : LedgerEntry}
    (he : e ∈ relationRows db.ledgerEntries relatedId) (ht : e.entryType = leg.entryType) :
    ∃ scan, legRow { env with scan } relatedId db leg = some e := by
  obtain ⟨rows', hperm, hfirst⟩ := exists_perm_find? (p := fun e => e.entryType = leg.entryType) he
    (decide_eq_true ht)
  refine ⟨.sending _ rows' hperm, ?_⟩
  rw [legRow, selectRelated_sending hperm]
  exact hfirst

/-- Away from the clock, the step sees the rows through the snapshot alone. -/
theorem updatePairing_congr {scan : ScanOrder}
    (h : freshSnapshot { env with scan } relatedId db = freshSnapshot env relatedId db) :
    updatePairingForRelatedId { env with scan } relatedId db =
      updatePairingForRelatedId env relatedId db := by
  have hempty : (selectRelated scan db relatedId).isEmpty =
      (selectRelated env.scan db relatedId).isEmpty :=
    ((scan.perm _).trans (env.scan.perm _).symm).isEmpty_eq
  unfold freshSnapshot at h
  unfold updatePairingForRelatedId
  simp only [hempty, h]

/-- What the step reports names the leg it computed. -/
theorem reported_legTx (hne : ∃ e ∈ db.ledgerEntries.rows, e.relatedId = some relatedId)
    (leg : Leg) : (updatePairingForRelatedId env relatedId db).2.bind (legTx leg) =
      (legRow env relatedId db leg).map (·.txId) := by
  have hfresh : legTx leg (freshSnapshot env relatedId db) =
      (legRow env relatedId db leg).map (·.txId) := by
    rw [← freshPair_tx]
    cases leg <;> rfl
  rcases updatePairing_cases env relatedId db with ⟨hno, -⟩ | ⟨-, -, he⟩ | ⟨-, -, he⟩
  · exact absurd hne hno
  · rw [he, ← hfresh]
    cases leg <;> rfl
  · rw [he, ← hfresh]
    rfl

/-- The pairing step is the same for every order of the rows exactly if the
relation has at most one row of each leg. -/
theorem updatePairing_scan_iff :
    (∀ scan, updatePairingForRelatedId { env with scan } relatedId db =
        updatePairingForRelatedId env relatedId db) ↔
      UniqueLegs db.ledgerEntries relatedId := by
  constructor
  · intro h leg e he e' he' ht ht'
    obtain ⟨scan, hrow⟩ := exists_scan_legRow env he ht
    obtain ⟨scan', hrow'⟩ := exists_scan_legRow env he' ht'
    have hne : ∃ e ∈ db.ledgerEntries.rows, e.relatedId = some relatedId :=
      ⟨e, mem_relationRows.mp he⟩
    have hsame := congrArg (fun result => result.2.bind (legTx leg)) ((h scan).trans (h scan').symm)
    simp only [reported_legTx hne, hrow, hrow', Option.map_some] at hsame
    exact db.ledgerEntries.eq_of_key (mem_relationRows.mp he).1 (mem_relationRows.mp he').1
      (Option.some.inj hsame)
  · intro hu scan
    refine updatePairing_congr (computePairing_congr (fun leg => ?_) ?_ _ _ _)
    · rw [firstOfType_legRow env, firstOfType_legRow { env with scan }, legRow_eq_legOf hu,
        legRow_eq_legOf hu]
    · exact latestEventTime_perm (((scan.perm _).trans (env.scan.perm _).symm).map asSnapshot)

end

end TxLookup.Consumer
