import TxLookup.Api.Views
import TxLookup.Consumer.PairBacking

/-!
# When the list views agree with the transaction view

The order view passes the pair row and the order to its items, the wallet view
passes neither. Each theorem names the states of the tables in which an item
reports what the transaction view reports, for any database of a run. One amount
that is not finite takes a whole list response away.
-/
namespace TxLookup.Api

open Library Db Consumer KeyedTable

/-! ## The order view -/

/-- What the endpoint answers for an order; `none` is the 404. -/
def adminOrder (collation : Collation) (now : DateTime) (db : Database) (orderId : PyStr) :
    Except ValidationError (Option AdminOrderResponse) :=
  match fetchAdminOrderContext collation db orderId with
  | none => .ok none
  | some context => (buildAdminOrderResponse now context).map some

/-- The order view has a response: the amounts of the order and of all its entries
are finite. -/
def FiniteOrder (db : Database) (order : PaymentOrder) : Prop :=
  order.amount.isFinite = true ∧
    ∀ r ∈ db.ledgerEntries.rows, r.relatedId = some order.orderId → FiniteAmounts r

/-- For an entry of another domain there is no pair row; for an entry of the
payment order domain the pair row is complete, or the transaction view does not
find both legs either (and it is not the case that the order view calls the
entry UNKNOWN, which it does for an empty related type without a pair row). -/
def OrderViewAgrees (db : Database) (k : PyStr) (e : LedgerEntry) : Prop :=
  (OtherDomain e ∧ db.paymentLedgerPairs.find? k = none) ∨
    (¬ OtherDomain e ∧ ((∃ p, db.paymentLedgerPairs.find? k = some p ∧ p.Complete) ∨
      (¬ (∀ leg, Found db k e leg) ∧
        ¬ (e.relatedType = some [] ∧ db.paymentLedgerPairs.find? k = none))))

/-- A related type that is neither absent nor `PAYMENT_ORDER`, outside the other
domains, is the empty text. -/
theorem empty_of_domain {e : LedgerEntry} (h : ¬ OtherDomain e)
    (hty : ¬ (e.relatedType = none ∨ e.relatedType = some PAYMENT_ORDER)) :
    e.relatedType = some [] := by
  rw [not_or] at hty
  obtain ⟨t, ht⟩ := Option.ne_none_iff_exists'.mp hty.1
  by_contra hne
  exact h ⟨t, ht, fun h0 => hne (h0 ▸ ht), fun hpo => hty.2 (hpo ▸ ht)⟩

/-- In a run the legs of a pair row are texts that Python counts as true. -/
theorem truthy_legs_iff {calls : List Call} {k : PyStr} {p : PaymentLedgerPair}
    (hp : (run calls).paymentLedgerPairs.find? k = some p) :
    (∀ leg : Leg, truthy (leg.tx p) = true) ↔ p.Complete := by
  rw [complete_iff]
  refine forall_congr' fun leg => ?_
  cases htx : leg.tx p with
  | none => simp [truthy]
  | some tx => exact ⟨fun _ => rfl, fun _ => truthy_some (pair_leg_ne hp htx)⟩

section
variable {calls : List Call} (collation : Collation) (now : DateTime) {k : PyStr}
  {order : PaymentOrder} {e : LedgerEntry}

/-- For an entry of another domain the transaction view answers UNKNOWN. -/
theorem order_item_other (hr : truthy e.relatedId = true) (hother : OtherDomain e)
    (pair : Option PaymentLedgerPair) :
    ((ledgerItemValues now e pair (some order)).pairingStatus =
        (resolvePairing (contextOf collation (run calls) e)).1 ∧
      (ledgerItemValues now e pair (some order)).pairedTxId =
        (resolvePairing (contextOf collation (run calls) e)).2.1) ↔ pair = none := by
  have hpairing : resolvePairing (contextOf collation (run calls) e) = (.UNKNOWN, none, none, none) :=
    resolvePairing_unknown (.inr fun h => (resolveRelatedType_iff.mp h).1 hother)
  obtain ⟨t, ht, -, hpo⟩ := hother
  rw [hpairing]
  cases pair with
  | none =>
    have hitem := @item_of_incomplete now e none (some order) hr (fun p h => by cases h)
    rw [ht, if_neg (by simp [hpo])] at hitem
    exact ⟨fun _ => rfl, fun _ => hitem⟩
  | some p =>
    refine ⟨fun h => ?_, fun h => by cases h⟩
    have hstatus := h.1
    by_cases hboth : ∀ leg : Leg, truthy (leg.tx p) = true
    · rw [(item_of_complete now (some order) hr hboth).1] at hstatus
      cases hstatus
    · rw [(@item_of_incomplete now e (some p) (some order) hr
        (fun q hq => Option.some.inj hq ▸ hboth)).1, if_pos (.inl rfl)] at hstatus
      cases hstatus

/-- For an entry of the payment order domain the views can only differ while the
pair row is not complete. -/
theorem order_item_domain (ho : (run calls).paymentOrders.find? k = some order)
    (he : e ∈ (run calls).ledgerEntries.rows) (hr : e.relatedId = some k) (hk : k ≠ [])
    (hdomain : ¬ OtherDomain e) :
    let item := ledgerItemValues now e ((run calls).paymentLedgerPairs.find? k) (some order)
    let pairing := resolvePairing (contextOf collation (run calls) e)
    (item.pairingStatus = pairing.1 ∧ item.pairedTxId = pairing.2.1) ↔
      (∃ p, (run calls).paymentLedgerPairs.find? k = some p ∧ p.Complete) ∨
      (¬ (∀ leg, Found (run calls) k e leg) ∧
        ¬ (e.relatedType = some [] ∧ (run calls).paymentLedgerPairs.find? k = none)) := by
  intro item pairing
  have htruthy : truthy e.relatedId = true := by
    rw [hr]
    exact truthy_some hk
  have hctx : (contextOf collation (run calls) e).paymentOrder = some order := by
    rw [contextOf, hr]
    exact ho
  have hty : resolveRelatedType (contextOf collation (run calls) e) = PAYMENT_ORDER :=
    resolveRelatedType_iff.mpr ⟨hdomain, .inr (by rw [hctx]; rfl)⟩
  obtain ⟨hall, hnot, hpair⟩ := tx_view collation he hr hk hty
  by_cases hfull : ∃ p, (run calls).paymentLedgerPairs.find? k = some p ∧ p.Complete
  · -- both views show the legs of the pair row
    refine ⟨fun _ => .inl hfull, fun _ => ?_⟩
    obtain ⟨p, hp, hlegs⟩ := hfull
    have hitem := item_of_complete now (some order) htruthy ((truthy_legs_iff hp).mpr hlegs)
    have hfound : ∀ leg, Found (run calls) k e leg :=
      fun leg => .inl ⟨p, hp, (complete_iff p).mp hlegs leg⟩
    simp only [item, hp]
    exact ⟨hitem.1.trans (hall hfound).symm, hitem.2.trans (hpair p hp hlegs).symm⟩
  · obtain ⟨hstatus, hpaired⟩ := @item_of_incomplete now e
      ((run calls).paymentLedgerPairs.find? k) (some order) htruthy
      (fun p hp hlegs => hfull ⟨p, hp, (truthy_legs_iff hp).mp hlegs⟩)
    have hshown : (((run calls).paymentLedgerPairs.find? k).isSome = true ∨
        e.relatedType = none ∨ e.relatedType = some PAYMENT_ORDER) ↔
        ¬ (e.relatedType = some [] ∧ (run calls).paymentLedgerPairs.find? k = none) := by
      constructor
      · rintro (h | h | h) ⟨hempty, hnone⟩
        · rw [hnone] at h
          cases h
        · rw [h] at hempty
          cases hempty
        · rw [h] at hempty
          revert hempty
          decide
      · intro h
        by_contra hno
        rw [not_or, Bool.not_eq_true, Option.isSome_eq_false_iff, Option.isNone_iff_eq_none] at hno
        exact h ⟨empty_of_domain hdomain hno.2, hno.1⟩
    rw [← hshown, or_iff_right hfull]
    by_cases hfound : ∀ leg, Found (run calls) k e leg
    · refine ⟨fun h => ?_, fun h => absurd hfound h.1⟩
      have hclash := hstatus.symm.trans (h.1.trans (hall hfound))
      split at hclash <;> cases hclash
    · obtain ⟨htx, htxpaired⟩ := hnot hfound
      refine ⟨fun h => ⟨hfound, ?_⟩, fun h => ⟨?_, hpaired.trans htxpaired.symm⟩⟩
      · by_contra hno
        rw [if_neg hno] at hstatus
        cases hstatus.symm.trans (h.1.trans htx)
      · exact (hstatus.trans (if_pos h.2)).trans htx.symm

end

/-- The context the endpoint reads for a stored order. -/
def orderContextOf (collation : Collation) (db : Database) (order : PaymentOrder) :
    AdminOrderContext where
  paymentOrder := order
  ledgerEntries := selectNewestFirst collation db (fun e => e.relatedId == some order.orderId)
  paymentPair := db.paymentLedgerPairs.find? order.orderId

/-- A response is about a stored order. -/
theorem adminOrder_found {collation : Collation} {now : DateTime} {db : Database}
    {orderId : PyStr} {response : AdminOrderResponse}
    (h : adminOrder collation now db orderId = .ok (some response)) :
    ∃ order, db.paymentOrders.find? orderId = some order := by
  cases hfind : db.paymentOrders.find? orderId with
  | some order => exact ⟨order, rfl⟩
  | none =>
    simp only [adminOrder, fetchAdminOrderContext, hfind] at h
    cases h

theorem adminOrder_eq_ok {collation : Collation} {now : DateTime} {db : Database}
    {order : PaymentOrder} (ho : order ∈ db.paymentOrders.rows)
    {response : AdminOrderResponse} :
    adminOrder collation now db order.orderId = .ok (some response) ↔
      FiniteOrder db order ∧
        response = adminOrderValues now (orderContextOf collation db order) := by
  have hfind : db.paymentOrders.find? order.orderId = some order := db.paymentOrders.find?_of_mem ho
  have hfetch : fetchAdminOrderContext collation db order.orderId =
      some (orderContextOf collation db order) := by
    rw [fetchAdminOrderContext, hfind]
    rfl
  have hentries : (∀ e ∈ (orderContextOf collation db order).ledgerEntries, FiniteAmounts e) ↔
      ∀ r ∈ db.ledgerEntries.rows, r.relatedId = some order.orderId → FiniteAmounts r := by
    simp only [orderContextOf, mem_selectNewestFirst, beq_iff_eq, and_imp]
  rw [FiniteOrder, ← hentries]
  refine Iff.trans ?_ (@buildAdminOrderResponse_eq_ok now (orderContextOf collation db order) response)
  simp only [adminOrder, hfetch]
  cases buildAdminOrderResponse now (orderContextOf collation db order) <;> simp [Except.map]

/-- Both views have a response, and the entry has an item in the order view, which
reports the pairing status and the paired transaction of the transaction view,
exactly if the amounts of the order and of its entries are finite and the tables
are as `OrderViewAgrees` says. -/
theorem order_view_agrees_iff (calls : List Call) (collation : Collation) (now now' : DateTime)
    (order : PaymentOrder) (ho : order ∈ (run calls).paymentOrders.rows) (e : LedgerEntry)
    (he : e ∈ (run calls).ledgerEntries.rows) (hr : e.relatedId = some order.orderId) :
    (∃ orderResponse txResponse,
      adminOrder collation now (run calls) order.orderId = .ok (some orderResponse) ∧
      adminTx collation now' (run calls) e.txId = .ok (some txResponse) ∧
      (∃ item ∈ orderResponse.ledgerEntries, item.txId = e.txId) ∧
      ∀ item ∈ orderResponse.ledgerEntries, item.txId = e.txId →
        item.pairingStatus = txResponse.pairingStatus ∧
          item.pairedTxId = txResponse.pairedTxId) ↔
      FiniteOrder (run calls) order ∧ OrderViewAgrees (run calls) order.orderId e := by
  have hfind : (run calls).paymentOrders.find? order.orderId = some order :=
    KeyedTable.find?_of_mem _ ho
  have hk := order_orderId_ne ho
  let context := orderContextOf collation (run calls) order
  let item := ledgerItemValues now e context.paymentPair (some order)
  let pairing := resolvePairing (contextOf collation (run calls) e)
  have hmem : item ∈ (adminOrderValues now context).ledgerEntries := by
    refine List.mem_map_of_mem (mem_selectNewestFirst.mpr ⟨he, ?_⟩)
    rw [hr, beq_self_eq_true]
  have hunique : ∀ other ∈ (adminOrderValues now context).ledgerEntries, other.txId = e.txId →
      other = item := by
    intro other hother htx
    obtain ⟨e', he', rfl⟩ := List.mem_map.mp hother
    obtain rfl : e' = e :=
      (run calls).ledgerEntries.eq_of_key (mem_selectNewestFirst.mp he').1 he htx
    rfl
  have hagrees : (item.pairingStatus = pairing.1 ∧ item.pairedTxId = pairing.2.1) ↔
      OrderViewAgrees (run calls) order.orderId e := by
    rw [OrderViewAgrees]
    by_cases hother : OtherDomain e
    · have htruthy : truthy e.relatedId = true := by
        rw [hr]
        exact truthy_some hk
      rw [and_iff_right hother, or_iff_left (fun h => h.1 hother)]
      exact order_item_other collation now htruthy hother _
    · rw [and_iff_right hother, or_iff_right (fun h => hother h.1)]
      exact order_item_domain collation now hfind he hr hk hother
  constructor
  · intro hviews
    obtain ⟨orderResponse, txResponse, horder, htx, -, hall⟩ := hviews
    obtain ⟨hfinite, rfl⟩ := (adminOrder_eq_ok ho).mp horder
    obtain rfl := adminTx_values he htx
    exact ⟨hfinite, hagrees.mp (hall item hmem rfl)⟩
  · intro htables
    obtain ⟨hfinite, hview⟩ := htables
    have hreports := hagrees.mpr hview
    refine ⟨_, _, (adminOrder_eq_ok ho).mpr ⟨hfinite, rfl⟩,
      (adminTx_eq_ok he).mpr ⟨hfinite.2 e he hr, rfl⟩, ⟨item, hmem, rfl⟩, ?_⟩
    intro other hother htx
    rw [hunique other hother htx]
    exact hreports

/-- An order is paid, and the receiving entry carries another related type. -/
def hiddenPeerRun : List Call :=
  [⟨.order (plainOrder "po-1" "PAID"), .still 1⟩,
    ⟨.ledger (plainEvent "tx-1" "w1" "PAYMENT" "po-1"), .still 2⟩,
    ⟨.ledger (typedEvent "tx-2" "w2" "RECEIVE" "po-1" (some (py "REFUND"))), .still 3⟩]

def hiddenPeerOrder : PaymentOrder := storedOrder (plainOrder "po-1" "PAID") 1

def hiddenPeerEntry : LedgerEntry := storedEntry (plainEvent "tx-1" "w1" "PAYMENT" "po-1") 2

theorem hiddenPeerEntry_agrees_iff :
    (∃ orderResponse txResponse,
      adminOrder .codePoints 9 (run hiddenPeerRun) hiddenPeerOrder.orderId =
        .ok (some orderResponse) ∧
      adminTx .codePoints 9 (run hiddenPeerRun) hiddenPeerEntry.txId = .ok (some txResponse) ∧
      (∃ item ∈ orderResponse.ledgerEntries, item.txId = hiddenPeerEntry.txId) ∧
      ∀ item ∈ orderResponse.ledgerEntries, item.txId = hiddenPeerEntry.txId →
        item.pairingStatus = txResponse.pairingStatus ∧
          item.pairedTxId = txResponse.pairedTxId) ↔
      FiniteOrder (run hiddenPeerRun) hiddenPeerOrder ∧
        OrderViewAgrees (run hiddenPeerRun) hiddenPeerOrder.orderId hiddenPeerEntry :=
  order_view_agrees_iff hiddenPeerRun .codePoints 9 9 hiddenPeerOrder (by decide) hiddenPeerEntry
    (by decide) rfl

/-- All amounts are finite, and the transaction view finds the receiving entry,
but the order view does not. -/
theorem hidden_peer_views_differ :
    FiniteOrder (run hiddenPeerRun) hiddenPeerOrder ∧ ∃ orderResponse txResponse,
      adminOrder .codePoints 9 (run hiddenPeerRun) (py "po-1") = .ok (some orderResponse) ∧
      adminTx .codePoints 9 (run hiddenPeerRun) (py "tx-1") = .ok (some txResponse) ∧
      txResponse.pairingStatus = .COMPLETE ∧ txResponse.pairedTxId = some (py "tx-2") ∧
      ∃ item ∈ orderResponse.ledgerEntries, item.txId = py "tx-1" ∧
        item.pairingStatus = .INCOMPLETE ∧ item.pairedTxId = none :=
  ⟨⟨by decide, by decide⟩, _, _, rfl, rfl, by decide, by decide, by decide⟩

/-! ## The wallet view -/

/-- What the endpoint answers for a wallet. -/
def adminWalletTx (collation : Collation) (now : DateTime) (db : Database) (walletId : PyStr)
    (fromTime toTime : Option DateTime) (limit : Nat) :
    Except ValidationError AdminWalletTxResponse :=
  buildAdminWalletTxResponse now walletId
    (fetchAdminWalletTx collation db walletId fromTime toTime limit)

/-- The entry has no order, and either no relation, or the related type
`PAYMENT_ORDER` without a second leg that the transaction view finds, or a related
type that is present and not `PAYMENT_ORDER`. -/
def WalletViewAgrees (db : Database) (e : LedgerEntry) : Prop :=
  e.relatedId.bind db.paymentOrders.find? = none ∧
    (truthy e.relatedId = false ∨
      (e.relatedType = some PAYMENT_ORDER ∧
        ∀ k, e.relatedId = some k → ¬ ∀ leg, Found db k e leg) ∨
      (e.relatedType ≠ none ∧ e.relatedType ≠ some PAYMENT_ORDER))

section
variable {calls : List Call} (collation : Collation) (now : DateTime) {e : LedgerEntry}

/-- Without an order, the pairing of an item agrees as `WalletViewAgrees` says. -/
theorem wallet_item_agrees_iff (he : e ∈ (run calls).ledgerEntries.rows)
    (ho : e.relatedId.bind (run calls).paymentOrders.find? = none) :
    let item := ledgerItemValues now e none none
    let pairing := resolvePairing (contextOf collation (run calls) e)
    (item.pairingStatus = pairing.1 ∧ item.pairedTxId = pairing.2.1) ↔
      WalletViewAgrees (run calls) e := by
  intro item pairing
  rw [WalletViewAgrees, and_iff_right ho]
  have hresolved : resolveRelatedType (contextOf collation (run calls) e) = PAYMENT_ORDER ↔
      e.relatedType = some PAYMENT_ORDER := by
    have horder : (contextOf collation (run calls) e).paymentOrder = none := ho
    rw [resolveRelatedType_iff, horder, Option.isSome_none, or_iff_left Bool.false_ne_true]
    refine and_iff_right_of_imp fun h => ?_
    rintro ⟨t, ht, -, hne⟩
    exact hne (Option.some.inj (ht.symm.trans h))
  cases hr : truthy e.relatedId with
  | false =>
    have hpairing : pairing = (.UNKNOWN, none, none, none) := resolvePairing_unknown (.inl hr)
    rw [hpairing]
    exact ⟨fun _ => .inl rfl, fun _ => item_unrelated now none hr⟩
  | true =>
    obtain ⟨k, hk, hne⟩ := truthy_iff.mp hr
    obtain ⟨hstatus, hpaired⟩ := @item_of_incomplete now e none none hr (fun p h => by cases h)
    simp only [Option.isSome_none, Bool.false_eq_true, false_or] at hstatus
    by_cases hpo : e.relatedType = some PAYMENT_ORDER
    · obtain ⟨hall, hnot, -⟩ := tx_view collation he hk hne (hresolved.mpr hpo)
      rw [if_pos (.inr hpo)] at hstatus
      have hleft : ((true = false) ∨ (e.relatedType = some PAYMENT_ORDER ∧
          ∀ k, e.relatedId = some k → ¬ ∀ leg, Found (run calls) k e leg) ∨
          (e.relatedType ≠ none ∧ e.relatedType ≠ some PAYMENT_ORDER)) ↔
          ¬ ∀ leg, Found (run calls) k e leg := by
        simp [hpo, hk]
      rw [hleft]
      refine ⟨fun h hfound => ?_, fun h => ⟨hstatus.trans (hnot h).1.symm,
        hpaired.trans (hnot h).2.symm⟩⟩
      cases hstatus.symm.trans (h.1.trans (hall hfound))
    · have hpairing : pairing = (.UNKNOWN, none, none, none) :=
        resolvePairing_unknown (.inr fun h => hpo (hresolved.mp h))
      rw [hpairing]
      by_cases hnone : e.relatedType = none
      · rw [if_pos (.inl hnone)] at hstatus
        refine ⟨fun h => ?_, fun h => ?_⟩
        · cases hstatus.symm.trans h.1
        · rcases h with h | h | h
          · cases h
          · exact absurd h.1 hpo
          · exact absurd hnone h.1
      · rw [if_neg (not_or.mpr ⟨hnone, hpo⟩)] at hstatus
        exact ⟨fun _ => .inr (.inr ⟨hnone, hpo⟩), fun _ => ⟨hstatus, hpaired⟩⟩

end

/-- The wallet view has a response if the amounts of its entries are finite. Each of
them then has an item, which reports the pairing status, the paired transaction, the
status and the status group of the transaction view exactly if the tables are as
`WalletViewAgrees` says. -/
theorem wallet_view_agrees_iff (calls : List Call) (collation : Collation) (now now' : DateTime)
    (walletId : PyStr) (fromTime toTime : Option DateTime) (limit : Nat) (e : LedgerEntry)
    (he : e ∈ fetchAdminWalletTx collation (run calls) walletId fromTime toTime limit) :
    ((∃ response, adminWalletTx collation now (run calls) walletId fromTime toTime limit =
        .ok response) ↔
      ∀ r ∈ fetchAdminWalletTx collation (run calls) walletId fromTime toTime limit,
        FiniteAmounts r) ∧
    ∀ response, adminWalletTx collation now (run calls) walletId fromTime toTime limit =
      .ok response → ∃ txResponse,
        adminTx collation now' (run calls) e.txId = .ok (some txResponse) ∧
        (∃ item ∈ response.entries, item.txId = e.txId) ∧
        ∀ item ∈ response.entries, item.txId = e.txId →
          ((item.pairingStatus = txResponse.pairingStatus ∧
              item.pairedTxId = txResponse.pairedTxId ∧ item.status = txResponse.status ∧
              item.statusGroup = txResponse.statusGroup) ↔
            WalletViewAgrees (run calls) e) := by
  have hmem : ∀ r ∈ fetchAdminWalletTx collation (run calls) walletId fromTime toTime limit,
      r ∈ (run calls).ledgerEntries.rows :=
    fun r hr => (mem_selectNewestFirst.mp (List.mem_of_mem_take hr)).1
  refine ⟨⟨?_, ?_⟩, ?_⟩
  · intro hexists
    obtain ⟨response, hresponse⟩ := hexists
    exact (buildAdminWalletTxResponse_eq_ok.mp hresponse).1
  · intro hall
    exact ⟨_, buildAdminWalletTxResponse_eq_ok.mpr ⟨hall, rfl⟩⟩
  intro response hresponse
  obtain ⟨hall, rfl⟩ := buildAdminWalletTxResponse_eq_ok.mp hresponse
  refine ⟨_, (adminTx_eq_ok (hmem e he)).mpr ⟨hall e he, rfl⟩,
    ⟨_, List.mem_map_of_mem he, rfl⟩, ?_⟩
  intro item hitem htx
  obtain ⟨e', he', rfl⟩ := List.mem_map.mp hitem
  obtain rfl : e' = e := (run calls).ledgerEntries.eq_of_key (hmem e' he') (hmem e he) htx
  show _ ∧ _ ∧ none = (e'.relatedId.bind (run calls).paymentOrders.find?).map (·.status) ∧
    resolveStatusGroup none =
      resolveStatusGroup ((e'.relatedId.bind (run calls).paymentOrders.find?).map (·.status)) ↔ _
  cases ho : e'.relatedId.bind (run calls).paymentOrders.find? with
  | some order =>
    refine ⟨fun h => ?_, fun h => ?_⟩
    · cases h.2.2.1
    · rw [WalletViewAgrees, ho] at h
      cases h.1
  | none =>
    have hitem := wallet_item_agrees_iff collation now (hmem e' he) ho
    exact ⟨fun h => hitem.mp ⟨h.1, h.2.1⟩,
      fun h => ⟨(hitem.mpr h).1, (hitem.mpr h).2, rfl, rfl⟩⟩

/-- An order with both legs. -/
def settledRun : List Call :=
  [⟨.order (plainOrder "po-1" "PAID"), .still 1⟩,
    ⟨.ledger (plainEvent "tx-1" "w1" "PAYMENT" "po-1"), .still 2⟩,
    ⟨.ledger (plainEvent "tx-2" "w2" "RECEIVE" "po-1"), .still 3⟩]

theorem settledRun_wallet_agrees_iff :
    ∃ response txResponse,
      adminWalletTx .codePoints 9 (run settledRun) (py "w1") none none 20 = .ok response ∧
      adminTx .codePoints 9 (run settledRun) hiddenPeerEntry.txId = .ok (some txResponse) ∧
      (∃ item ∈ response.entries, item.txId = hiddenPeerEntry.txId) ∧
      ∀ item ∈ response.entries, item.txId = hiddenPeerEntry.txId →
        ((item.pairingStatus = txResponse.pairingStatus ∧
            item.pairedTxId = txResponse.pairedTxId ∧ item.status = txResponse.status ∧
            item.statusGroup = txResponse.statusGroup) ↔
          WalletViewAgrees (run settledRun) hiddenPeerEntry) := by
  obtain ⟨hexists, hreports⟩ := wallet_view_agrees_iff settledRun .codePoints 9 9 (py "w1") none
    none 20 hiddenPeerEntry (by decide)
  obtain ⟨response, hresponse⟩ := hexists.mpr (by decide)
  obtain ⟨txResponse, hreport⟩ := hreports response hresponse
  exact ⟨response, txResponse, hresponse, hreport⟩

/-- The wallet view shows the settled payment as incomplete and without a status. -/
theorem settled_wallet_views_differ :
    ∃ response txResponse,
      adminWalletTx .codePoints 9 (run settledRun) (py "w1") none none 20 = .ok response ∧
      adminTx .codePoints 9 (run settledRun) (py "tx-1") = .ok (some txResponse) ∧
      txResponse.pairingStatus = .COMPLETE ∧ txResponse.pairedTxId = some (py "tx-2") ∧
      txResponse.status = some (py "PAID") ∧ txResponse.statusGroup = py "SUCCESS" ∧
      ∃ item ∈ response.entries,
        item.txId = py "tx-1" ∧ item.pairingStatus = .INCOMPLETE ∧ item.pairedTxId = none ∧
          item.status = none ∧ item.statusGroup = py "UNKNOWN" :=
  ⟨_, _, rfl, rfl, by decide, by decide, by decide, by decide, by decide⟩

end TxLookup.Api
