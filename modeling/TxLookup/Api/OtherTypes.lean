import TxLookup.Api.ListViews

/-!
# Entries of other types

An entry that is neither a payment nor a receipt never has a paired transaction.
Its pairing status is UNKNOWN only where a view takes it to lie outside the
payment order domain, and each view has its own rule for that: none of them
looks at the entry's type.
-/
namespace TxLookup.Api

open Library Db Consumer KeyedTable

/-- A request to one of the three endpoints. -/
inductive View where
  | tx (now : DateTime)
  | order (now : DateTime) (orderId : PyStr)
  | wallet (now : DateTime) (walletId : PyStr) (fromTime toTime : Option DateTime) (limit : Nat)

def LedgerEntryItem.report (item : LedgerEntryItem) : PairingStatus × Option PyStr :=
  (item.pairingStatus, item.pairedTxId)

/-- The items of a transaction, as reports. -/
def itemReports (items : List LedgerEntryItem) (txId : PyStr) :
    List (PairingStatus × Option PyStr) :=
  (items.filter (fun item => item.txId == txId)).map LedgerEntryItem.report

/-- What the response says of the pairing of a transaction, once for each time
the response shows it; nothing if there is no response. -/
def View.reports (collation : Collation) (db : Database) (txId : PyStr) :
    View → List (PairingStatus × Option PyStr)
  | .tx now =>
      match adminTx collation now db txId with
      | .ok (some response) => [(response.pairingStatus, response.pairedTxId)]
      | .ok none | .error _ => []
  | .order now orderId =>
      match adminOrder collation now db orderId with
      | .ok (some response) => itemReports response.ledgerEntries txId
      | .ok none | .error _ => []
  | .wallet now walletId fromTime toTime limit =>
      match adminWalletTx collation now db walletId fromTime toTime limit with
      | .ok response => itemReports response.entries txId
      | .error _ => []

/-- The view takes the entry to have no payment order: it has no relation; or its
related type is not `PAYMENT_ORDER`, and is not left open where the transaction
view finds the order, the order view has a pair row, or the wallet view looks. -/
def View.LeavesOut (db : Database) (e : LedgerEntry) : View → Prop
  | .tx _ => truthy e.relatedId = false ∨ (e.relatedType ≠ some PAYMENT_ORDER ∧
      (truthy e.relatedType = true ∨ e.relatedId.bind db.paymentOrders.find? = none))
  | .order _ orderId => truthy e.relatedId = false ∨
      (e.relatedType ≠ none ∧ e.relatedType ≠ some PAYMENT_ORDER ∧
        db.paymentLedgerPairs.find? orderId = none)
  | .wallet .. => truthy e.relatedId = false ∨
      (e.relatedType ≠ none ∧ e.relatedType ≠ some PAYMENT_ORDER)

section
variable {e : LedgerEntry} {db : Database}

theorem mem_itemReports {items : List LedgerEntryItem} {txId : PyStr}
    {report : PairingStatus × Option PyStr} (h : report ∈ itemReports items txId) :
    ∃ item ∈ items, item.txId = txId ∧ report = item.report := by
  obtain ⟨item, hitem, rfl⟩ := List.mem_map.mp h
  obtain ⟨hmem, htx⟩ := List.mem_filter.mp hitem
  exact ⟨item, hmem, beq_iff_eq.mp htx, rfl⟩

/-- The transaction view leaves an entry out by its resolved related type. -/
theorem resolvedType_ne_iff (collation : Collation) :
    resolveRelatedType (contextOf collation db e) ≠ PAYMENT_ORDER ↔
      e.relatedType ≠ some PAYMENT_ORDER ∧
        (truthy e.relatedType = true ∨ e.relatedId.bind db.paymentOrders.find? = none) := by
  have hcontext : (contextOf collation db e).ledgerEntry = e ∧
      (contextOf collation db e).paymentOrder = e.relatedId.bind db.paymentOrders.find? :=
    ⟨rfl, rfl⟩
  unfold resolveRelatedType
  rw [hcontext.1, hcontext.2]
  split
  · next c cs hty =>
    rw [hty, truthy_some (List.cons_ne_nil c cs)]
    simp
  · next hempty =>
    have hfalsy : truthy e.relatedType = false := by
      by_contra htruthy
      obtain ⟨s, hs, hne⟩ := truthy_iff.mp (Bool.not_eq_false _ ▸ htruthy)
      obtain ⟨c, cs, rfl⟩ := List.exists_cons_of_ne_nil hne
      exact hempty c cs hs
    have hpo : e.relatedType ≠ some PAYMENT_ORDER := fun h => hempty _ _ h
    rw [hfalsy, and_iff_right hpo, or_iff_right Bool.false_ne_true]
    cases e.relatedId.bind db.paymentOrders.find? with
    | none => exact iff_of_true (by decide) rfl
    | some order => exact iff_of_false (fun h => h rfl) (fun h => by cases h)

/-- The transaction view of an entry of another type pairs it with nothing, and
answers UNKNOWN exactly if it finds no payment order for it. -/
theorem resolvePairing_other (hother : ∀ leg : Leg, e.entryType ≠ leg.entryType)
    (collation : Collation) :
    (resolvePairing (contextOf collation db e)).2.1 = none ∧
      ((resolvePairing (contextOf collation db e)).1 = .UNKNOWN ↔ truthy e.relatedId = false ∨
        resolveRelatedType (contextOf collation db e) ≠ PAYMENT_ORDER) := by
  by_cases h : truthy e.relatedId = false ∨
      resolveRelatedType (contextOf collation db e) ≠ PAYMENT_ORDER
  · rw [resolvePairing_unknown h]
    exact ⟨rfl, iff_of_true rfl h⟩
  · have hknown := not_or.mp h
    rw [Bool.not_eq_false, not_not] at hknown
    obtain ⟨hstatus, hpaired⟩ :=
      @resolvePairing_known (contextOf collation db e) hknown.1 hknown.2
    refine ⟨hpaired.trans (pairedOf_other hother _), iff_of_false (fun heq => ?_) h⟩
    rw [heq] at hstatus
    split at hstatus <;> cases hstatus

/-- A list item of an entry of another type is paired with nothing, and answers
UNKNOWN exactly if the entry has no relation, or has a related type of another
domain and comes without a pair row. -/
theorem item_other (hother : ∀ leg : Leg, e.entryType ≠ leg.entryType) (now : DateTime)
    (pair : Option PaymentLedgerPair) (order : Option PaymentOrder) :
    (ledgerItemValues now e pair order).pairedTxId = none ∧
      ((ledgerItemValues now e pair order).pairingStatus = .UNKNOWN ↔
        truthy e.relatedId = false ∨
          (e.relatedType ≠ none ∧ e.relatedType ≠ some PAYMENT_ORDER ∧ pair = none)) := by
  cases hr : truthy e.relatedId with
  | false =>
    obtain ⟨hstatus, hpaired⟩ := @item_unrelated now e pair order hr
    exact ⟨hpaired, iff_of_true hstatus (.inl rfl)⟩
  | true =>
    rw [or_iff_right (by decide)]
    by_cases hfull : ∃ p, pair = some p ∧ ∀ leg : Leg, truthy (leg.tx p) = true
    · obtain ⟨p, rfl, hlegs⟩ := hfull
      obtain ⟨hstatus, hpaired⟩ := item_of_complete now order hr hlegs
      refine ⟨hpaired.trans (pairedOf_other hother _), iff_of_false (fun h => ?_) (fun h => ?_)⟩
      · cases hstatus.symm.trans h
      · cases h.2.2
    · obtain ⟨hstatus, hpaired⟩ := item_of_incomplete now order hr
        (fun p hp hlegs => hfull ⟨p, hp, hlegs⟩)
      refine ⟨hpaired, ?_⟩
      rw [hstatus]
      by_cases hopen : pair.isSome = true ∨ e.relatedType = none ∨
          e.relatedType = some PAYMENT_ORDER
      · rw [if_pos hopen]
        refine iff_of_false (fun h => by cases h) fun ⟨hnone, hpo, hpair⟩ => ?_
        rcases hopen with h | h | h
        · rw [hpair] at h
          cases h
        · exact hnone h
        · exact hpo h
      · rw [if_neg hopen]
        obtain ⟨hpair, hdomain⟩ := not_or.mp hopen
        obtain ⟨hnone, hpo⟩ := not_or.mp hdomain
        exact iff_of_true rfl ⟨hnone, hpo, Option.not_isSome_iff_eq_none.mp hpair⟩

end

/-- No view pairs an entry of another type with a transaction, and each answers
UNKNOWN for it exactly if it leaves the entry out. -/
theorem other_type_reported_iff (calls : List Call) (collation : Collation) {e : LedgerEntry}
    (he : e ∈ (run calls).ledgerEntries.rows) (hpayment : e.entryType ≠ PAYMENT)
    (hreceive : e.entryType ≠ RECEIVE) (view : View) {report : PairingStatus × Option PyStr}
    (hreport : report ∈ view.reports collation (run calls) e.txId) :
    report.2 = none ∧ (report = (.UNKNOWN, none) ↔ view.LeavesOut (run calls) e) := by
  have hother : ∀ leg : Leg, e.entryType ≠ leg.entryType := by
    intro leg
    cases leg with
    | payment => exact hpayment
    | receive => exact hreceive
  have hstatus : report.2 = none ∧ (report.1 = .UNKNOWN ↔ view.LeavesOut (run calls) e) := by
    cases view with
    | tx now =>
      simp only [View.reports] at hreport
      split at hreport
      · next response hresponse =>
        obtain rfl := List.mem_singleton.mp hreport
        obtain rfl := adminTx_values he hresponse
        rw [View.LeavesOut, ← resolvedType_ne_iff collation]
        exact resolvePairing_other hother collation
      all_goals cases hreport
    | order now orderId =>
      simp only [View.reports] at hreport
      split at hreport
      · next response hresponse =>
        obtain ⟨item, hmem, htx, rfl⟩ := mem_itemReports hreport
        obtain ⟨order, hfind⟩ := adminOrder_found hresponse
        obtain ⟨ho, rfl⟩ := (find?_eq_some_iff _).mp hfind
        obtain ⟨-, rfl⟩ := (adminOrder_eq_ok ho).mp hresponse
        obtain ⟨e', he', rfl⟩ := List.mem_map.mp hmem
        obtain rfl : e' = e :=
          (run calls).ledgerEntries.eq_of_key (mem_selectNewestFirst.mp he').1 he htx
        exact item_other hother now ((run calls).paymentLedgerPairs.find? order.orderId)
          (some order)
      all_goals cases hreport
    | wallet now walletId fromTime toTime limit =>
      simp only [View.reports] at hreport
      split at hreport
      · next response hresponse =>
        obtain ⟨item, hmem, htx, rfl⟩ := mem_itemReports hreport
        obtain ⟨-, rfl⟩ := buildAdminWalletTxResponse_eq_ok.mp hresponse
        obtain ⟨e', he', rfl⟩ := List.mem_map.mp hmem
        have hrow := (mem_selectNewestFirst.mp (List.mem_of_mem_take he')).1
        obtain rfl : e' = e := (run calls).ledgerEntries.eq_of_key hrow he htx
        obtain ⟨hpaired, hunknown⟩ := item_other hother now none none
        rw [View.LeavesOut]
        simp only [and_true] at hunknown
        exact ⟨hpaired, hunknown⟩
      all_goals cases hreport
  refine ⟨hstatus.1, ?_⟩
  rw [← hstatus.2]
  exact ⟨fun h => congrArg Prod.fst h, fun h => Prod.ext h hstatus.1⟩

/-- A refund of an order that has been paid. -/
def refundRun : List Call :=
  [⟨.order (plainOrder "po-1" "PAID"), .still 1⟩,
    ⟨.ledger (plainEvent "tx-1" "w1" "REFUND_OUT" "po-1"), .still 2⟩]

def refundEntry : LedgerEntry := storedEntry (plainEvent "tx-1" "w1" "REFUND_OUT" "po-1") 2

theorem refundEntry_reported_iff :
    (PairingStatus.INCOMPLETE, (none : Option PyStr)).2 = none ∧
      ((PairingStatus.INCOMPLETE, (none : Option PyStr)) = (.UNKNOWN, none) ↔
        (View.tx 9).LeavesOut (run refundRun) refundEntry) :=
  other_type_reported_iff refundRun .codePoints (by decide) (by decide) (by decide) (.tx 9)
    (by decide)

/-- The three views answer INCOMPLETE for the refund. -/
theorem refund_reported_incomplete : ¬ ∀ (calls : List Call) (collation : Collation)
    (e : LedgerEntry), e ∈ (run calls).ledgerEntries.rows → e.entryType ≠ PAYMENT →
    e.entryType ≠ RECEIVE → ∀ view : View, ∀ report ∈ view.reports collation (run calls) e.txId,
      report = (.UNKNOWN, none) := by
  intro h
  have hreports : ∀ view ∈ [View.tx 9, .order 9 (py "po-1"), .wallet 9 (py "w1") none none 20],
      view.reports .codePoints (run refundRun) refundEntry.txId = [(.INCOMPLETE, none)] := by
    decide
  have htx := h refundRun .codePoints refundEntry (by decide) (by decide) (by decide) (.tx 9)
  rw [hreports _ List.mem_cons_self] at htx
  exact absurd (htx _ List.mem_cons_self) (by decide)

end TxLookup.Api
