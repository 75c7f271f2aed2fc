import TxLookup.Db.AdminTx
import TxLookup.Library.Fold

/-!
# Assembly of the admin responses

A response merges the pair row, the peer row and the entry itself; the first
non-empty value wins, and an empty text counts as absent. The response models
refuse an amount that is not finite, such as a stored `NaN`.
-/
namespace TxLookup.Api

open Library Library.PyText Db

inductive PairingStatus where
  | COMPLETE
  | INCOMPLETE
  | UNKNOWN
  deriving DecidableEq, Repr

structure RelatedInfo where
  relatedId : PyStr
  relatedType : PyStr
  deriving DecidableEq, Repr

structure AdminTxResponse where
  txId : PyStr
  eventTime : DateTime
  entryType : PyStr
  amount : Decimal
  amountSigned : Option Decimal
  status : Option PyStr
  statusGroup : PyStr
  senderWalletId : Option PyStr
  receiverWalletId : Option PyStr
  related : Option RelatedInfo
  pairedTxId : Option PyStr
  merchantName : Option PyStr
  pairingStatus : PairingStatus
  dataLagSec : Option Int
  deriving DecidableEq, Repr

structure LedgerEntryItem where
  txId : PyStr
  eventTime : DateTime
  entryType : PyStr
  amount : Decimal
  amountSigned : Option Decimal
  walletId : PyStr
  status : Option PyStr
  statusGroup : PyStr
  pairedTxId : Option PyStr
  pairingStatus : PairingStatus
  dataLagSec : Option Int
  deriving DecidableEq, Repr

structure PaymentOrderDetail where
  orderId : PyStr
  userId : Option PyStr
  merchantName : Option PyStr
  amount : Decimal
  status : PyStr
  statusGroup : PyStr
  createdAt : DateTime
  deriving DecidableEq, Repr

structure AdminOrderResponse where
  order : PaymentOrderDetail
  ledgerEntries : List LedgerEntryItem
  pairingStatus : PairingStatus
  deriving DecidableEq, Repr

structure AdminWalletTxResponse where
  walletId : PyStr
  entries : List LedgerEntryItem
  count : Nat
  deriving DecidableEq, Repr

/-- The exception of a response model: its title, and the fields whose value is
not a finite number. The columns hold nothing else a model refuses. -/
structure ValidationError where
  title : PyStr
  fields : List PyStr
  deriving DecidableEq, Repr

/-- A model with these `Decimal` fields. An optional one may be absent. -/
def validated {α : Type} (title : PyStr) (amounts : List (PyStr × Option Decimal)) (model : α) :
    Except ValidationError α :=
  match amounts.filter (fun field => !field.2.all Decimal.isFinite) with
  | [] => .ok model
  | refused => .error ⟨title, refused.map Prod.fst⟩

def resolveRelatedType (context : AdminTxContext) : PyStr :=
  match context.ledgerEntry.relatedType with
  | some (c :: cs) => c :: cs
  | _ => if context.paymentOrder.isSome then PAYMENT_ORDER else py "UNKNOWN"

/-- The four values collected while resolving a pair. -/
structure PairLegs where
  paymentTxId : Option PyStr
  receiveTxId : Option PyStr
  payerWalletId : Option PyStr
  payeeWalletId : Option PyStr

def PairLegs.ofPair (paymentPair : Option PaymentLedgerPair) : PairLegs :=
  match paymentPair with
  | some pair => ⟨pair.paymentTxId, pair.receiveTxId, pair.payerWalletId, pair.payeeWalletId⟩
  | none => ⟨none, none, none, none⟩

/-- `x = x or entry.…` on the leg of the entry's type. -/
def PairLegs.fillFrom (legs : PairLegs) (entry : LedgerEntry) : PairLegs :=
  if entry.entryType = PAYMENT then
    { legs with
      paymentTxId := pyOr legs.paymentTxId (some entry.txId)
      payerWalletId := pyOr legs.payerWalletId (some entry.walletId) }
  else if entry.entryType = RECEIVE then
    { legs with
      receiveTxId := pyOr legs.receiveTxId (some entry.txId)
      payeeWalletId := pyOr legs.payeeWalletId (some entry.walletId) }
  else legs

/-- The pair row first, then the peer. -/
def PairLegs.ofStored (paymentPair : Option PaymentLedgerPair) (peerEntry : Option LedgerEntry) :
    PairLegs :=
  match peerEntry with
  | some peerEntry => (PairLegs.ofPair paymentPair).fillFrom peerEntry
  | none => PairLegs.ofPair paymentPair

/-- The entry itself comes last. -/
def PairLegs.ofContext (context : AdminTxContext) : PairLegs :=
  (PairLegs.ofStored context.paymentPair context.peerEntry).fillFrom context.ledgerEntry

/-- Pairing status, paired transaction, payer wallet and payee wallet. -/
def resolvePairing (context : AdminTxContext) :
    PairingStatus × Option PyStr × Option PyStr × Option PyStr :=
  let ledger := context.ledgerEntry
  let relatedType := resolveRelatedType context
  if truthy ledger.relatedId = false ∨ relatedType ≠ PAYMENT_ORDER then
    (.UNKNOWN, none, none, none)
  else
    let legs := PairLegs.ofContext context
    let complete := truthy legs.paymentTxId && truthy legs.receiveTxId
    let pairingStatus := if complete then PairingStatus.COMPLETE else .INCOMPLETE
    let pairedTxId :=
      if ledger.entryType = PAYMENT then legs.receiveTxId
      else if ledger.entryType = RECEIVE then legs.paymentTxId
      else none
    (pairingStatus, pairedTxId, legs.payerWalletId, legs.payeeWalletId)

/-- Whole seconds since the later of the two instants, at least 0. A stored
instant is never absent, so the `None` of the source does not occur. -/
def computeDataLagSec (now : DateTime) (entry : LedgerEntry) : Option Int :=
  let baseTime := max entry.ingestedAt entry.eventTime
  some (max 0 (Int.tdiv (now - baseTime) 1000000))

def successStatuses : List PyStr :=
  [py "SETTLED", py "COMPLETED", py "SUCCESS", py "SUCCEEDED", py "PAID"]

def failStatuses : List PyStr :=
  [py "FAILED", py "CANCELLED", py "CANCELED", py "REJECTED", py "DECLINED"]

def inProgressStatuses : List PyStr :=
  [py "CREATED", py "PENDING", py "PROCESSING", py "AUTHORIZED"]

def resolveStatusGroup (status : Option PyStr) : PyStr :=
  match status with
  | some (c :: cs) =>
    let normalized := upper (strip (c :: cs))
    if normalized ∈ successStatuses then py "SUCCESS"
    else if normalized ∈ failStatuses then py "FAIL"
    else if normalized ∈ inProgressStatuses then py "IN_PROGRESS"
    else py "UNKNOWN"
  | _ => py "UNKNOWN"

/-- The `Decimal` fields of an entry. -/
def ledgerAmounts (entry : LedgerEntry) : List (PyStr × Option Decimal) :=
  [(py "amount", some entry.amount), (py "amount_signed", entry.amountSigned)]

/-- The values of the response, given the reading of the clock. In the list
responses one reading serves all items. -/
def adminTxValues (now : DateTime) (context : AdminTxContext) : AdminTxResponse :=
  let ledger := context.ledgerEntry
  let pairing := resolvePairing context
  let related := match ledger.relatedId with
    | some (c :: cs) => some { relatedId := c :: cs, relatedType := resolveRelatedType context }
    | _ => none
  let status := context.paymentOrder.map (·.status)
  { txId := ledger.txId
    eventTime := ledger.eventTime
    entryType := ledger.entryType
    amount := ledger.amount
    amountSigned := ledger.amountSigned
    status
    statusGroup := resolveStatusGroup status
    senderWalletId := pairing.2.2.1
    receiverWalletId := pairing.2.2.2
    related
    pairedTxId := pairing.2.1
    merchantName := context.paymentOrder.bind (·.merchantName)
    pairingStatus := pairing.1
    dataLagSec := computeDataLagSec now ledger }

def buildAdminTxResponse (now : DateTime) (context : AdminTxContext) :
    Except ValidationError AdminTxResponse :=
  validated (py "AdminTxResponse") (ledgerAmounts context.ledgerEntry) (adminTxValues now context)

def ledgerItemValues (now : DateTime) (entry : LedgerEntry)
    (paymentPair : Option PaymentLedgerPair) (paymentOrder : Option PaymentOrder) :
    LedgerEntryItem :=
  let status := paymentOrder.map (·.status)
  let completePair := paymentPair.filter
    (fun pair => truthy pair.paymentTxId && truthy pair.receiveTxId)
  let pairing : PairingStatus × Option PyStr :=
    if truthy entry.relatedId then
      match completePair with
      | some pair =>
        (.COMPLETE,
          if entry.entryType = PAYMENT then pair.receiveTxId
          else if entry.entryType = RECEIVE then pair.paymentTxId
          else none)
      | none =>
        if paymentPair.isSome ∨ entry.relatedType = none ∨ entry.relatedType = some PAYMENT_ORDER
        then (.INCOMPLETE, none) else (.UNKNOWN, none)
    else (.UNKNOWN, none)
  { txId := entry.txId
    eventTime := entry.eventTime
    entryType := entry.entryType
    amount := entry.amount
    amountSigned := entry.amountSigned
    walletId := entry.walletId
    status
    statusGroup := resolveStatusGroup status
    pairedTxId := pairing.2
    pairingStatus := pairing.1
    dataLagSec := computeDataLagSec now entry }

def buildLedgerEntryItem (now : DateTime) (entry : LedgerEntry)
    (paymentPair : Option PaymentLedgerPair) (paymentOrder : Option PaymentOrder) :
    Except ValidationError LedgerEntryItem :=
  validated (py "LedgerEntryItem") (ledgerAmounts entry)
    (ledgerItemValues now entry paymentPair paymentOrder)

def orderDetailValues (order : PaymentOrder) : PaymentOrderDetail where
  orderId := order.orderId
  userId := order.userId
  merchantName := order.merchantName
  amount := order.amount
  status := order.status
  statusGroup := resolveStatusGroup (some order.status)
  createdAt := order.createdAt

def overallPairing (context : AdminOrderContext) : PairingStatus :=
  if context.paymentPair.any
      (fun pair => truthy pair.paymentTxId && truthy pair.receiveTxId) then .COMPLETE
  else if context.ledgerEntries.isEmpty then .UNKNOWN
  else .INCOMPLETE

def buildAdminOrderResponse (now : DateTime) (context : AdminOrderContext) :
    Except ValidationError AdminOrderResponse := do
  let order := context.paymentOrder
  let orderDetail ← validated (py "PaymentOrderDetail") [(py "amount", some order.amount)]
    (orderDetailValues order)
  let items ← context.ledgerEntries.mapM
    (fun e => buildLedgerEntryItem now e context.paymentPair (some order))
  return { order := orderDetail, ledgerEntries := items, pairingStatus := overallPairing context }

def buildAdminWalletTxResponse (now : DateTime) (walletId : PyStr) (entries : List LedgerEntry) :
    Except ValidationError AdminWalletTxResponse := do
  let items ← entries.mapM (fun e => buildLedgerEntryItem now e none none)
  return { walletId, entries := items, count := items.length }

/-! ## When a response exists -/

/-- The response models take the amounts of the entry. -/
def FiniteAmounts (entry : LedgerEntry) : Prop :=
  entry.amount.isFinite = true ∧ entry.amountSigned.all Decimal.isFinite = true

instance (entry : LedgerEntry) : Decidable (FiniteAmounts entry) :=
  inferInstanceAs (Decidable (_ ∧ _))

theorem validated_eq_ok {α : Type} {title : PyStr} {amounts : List (PyStr × Option Decimal)}
    {model x : α} : validated title amounts model = .ok x ↔
      (∀ field ∈ amounts, field.2.all Decimal.isFinite = true) ∧ x = model := by
  have hnone : amounts.filter (fun field => !field.2.all Decimal.isFinite) = [] ↔
      ∀ field ∈ amounts, field.2.all Decimal.isFinite = true := by
    simp [List.filter_eq_nil_iff]
  rw [← hnone]
  unfold validated
  split
  · next h =>
    rw [h, and_iff_right rfl, Except.ok.injEq]
    exact eq_comm
  · next h =>
    refine iff_of_false (fun hok => by cases hok) fun hok => ?_
    exact h hok.1

/-- A refusal names the model, and each field it names has an amount that is not finite. -/
theorem validated_eq_error {α : Type} {title : PyStr} {amounts : List (PyStr × Option Decimal)}
    {model : α} {exc : ValidationError} (h : validated title amounts model = .error exc) :
    exc.title = title ∧ exc.fields ≠ [] ∧ ∀ name ∈ exc.fields, ∃ amount,
      (name, some amount) ∈ amounts ∧ amount.isFinite = false := by
  unfold validated at h
  split at h
  · cases h
  · next hrefused =>
    cases h
    refine ⟨rfl, fun hnil => hrefused (List.map_eq_nil_iff.mp hnil), fun name hname => ?_⟩
    obtain ⟨field, hfield, rfl⟩ := List.mem_map.mp hname
    obtain ⟨hmem, hrefuses⟩ := List.mem_filter.mp hfield
    obtain ⟨name, value⟩ := field
    cases value with
    | none => cases hrefuses
    | some amount => exact ⟨amount, hmem, by simpa using hrefuses⟩

theorem validated_map {α β : Type} (f : α → β) (title : PyStr)
    (amounts : List (PyStr × Option Decimal)) (model : α) :
    (validated title amounts model).map f = validated title amounts (f model) := by
  unfold validated
  split <;> rfl

theorem ledgerAmounts_finite (entry : LedgerEntry) :
    (∀ field ∈ ledgerAmounts entry, field.2.all Decimal.isFinite = true) ↔ FiniteAmounts entry := by
  simp [ledgerAmounts, FiniteAmounts]

section
variable {now : DateTime}

theorem buildAdminTxResponse_eq_ok {context : AdminTxContext} {response : AdminTxResponse} :
    buildAdminTxResponse now context = .ok response ↔
      FiniteAmounts context.ledgerEntry ∧ response = adminTxValues now context := by
  rw [buildAdminTxResponse, validated_eq_ok, ledgerAmounts_finite]

theorem buildLedgerEntryItem_eq_ok {entry : LedgerEntry} {pair : Option PaymentLedgerPair}
    {order : Option PaymentOrder} {item : LedgerEntryItem} :
    buildLedgerEntryItem now entry pair order = .ok item ↔
      FiniteAmounts entry ∧ item = ledgerItemValues now entry pair order := by
  rw [buildLedgerEntryItem, validated_eq_ok, ledgerAmounts_finite]

/-- The values of an order response. -/
def adminOrderValues (now : DateTime) (context : AdminOrderContext) : AdminOrderResponse where
  order := orderDetailValues context.paymentOrder
  ledgerEntries := context.ledgerEntries.map
    (fun e => ledgerItemValues now e context.paymentPair (some context.paymentOrder))
  pairingStatus := overallPairing context

/-- One amount that is not finite, of the order or of any of its entries, and there
is no response. -/
theorem buildAdminOrderResponse_eq_ok {context : AdminOrderContext}
    {response : AdminOrderResponse} : buildAdminOrderResponse now context = .ok response ↔
      (context.paymentOrder.amount.isFinite = true ∧
        ∀ e ∈ context.ledgerEntries, FiniteAmounts e) ∧
      response = adminOrderValues now context := by
  have hitems := fun items => @mapM_eq_ok _ _ _ _ _ _
    (fun e item => @buildLedgerEntryItem_eq_ok now e context.paymentPair
      (some context.paymentOrder) item) context.ledgerEntries items
  unfold buildAdminOrderResponse
  simp only [bind_eq_ok, validated_eq_ok, hitems, List.forall_mem_singleton, Option.all_some]
  constructor
  · intro hbuilt
    obtain ⟨_, ⟨hamount, rfl⟩, _, ⟨hall, rfl⟩, hreturn⟩ := hbuilt
    cases hreturn
    exact ⟨⟨hamount, hall⟩, rfl⟩
  · intro hfinite
    obtain ⟨⟨hamount, hall⟩, rfl⟩ := hfinite
    exact ⟨_, ⟨hamount, rfl⟩, _, ⟨hall, rfl⟩, rfl⟩

/-- The values of a wallet response. -/
def adminWalletTxValues (now : DateTime) (walletId : PyStr) (entries : List LedgerEntry) :
    AdminWalletTxResponse where
  walletId := walletId
  entries := entries.map (fun e => ledgerItemValues now e none none)
  count := entries.length

theorem buildAdminWalletTxResponse_eq_ok {walletId : PyStr} {entries : List LedgerEntry}
    {response : AdminWalletTxResponse} :
    buildAdminWalletTxResponse now walletId entries = .ok response ↔
      (∀ e ∈ entries, FiniteAmounts e) ∧ response = adminWalletTxValues now walletId entries := by
  have hitems := fun items => @mapM_eq_ok _ _ _ _ _ _
    (fun e item => @buildLedgerEntryItem_eq_ok now e none none item) entries items
  unfold buildAdminWalletTxResponse
  simp only [bind_eq_ok, hitems]
  constructor
  · intro hbuilt
    obtain ⟨_, ⟨hall, rfl⟩, hreturn⟩ := hbuilt
    cases hreturn
    refine ⟨hall, ?_⟩
    rw [adminWalletTxValues, List.length_map]
  · intro hfinite
    obtain ⟨hall, rfl⟩ := hfinite
    refine ⟨_, ⟨hall, rfl⟩, ?_⟩
    rw [adminWalletTxValues, List.length_map]
    rfl

end

/-! ## Both legs alike -/

namespace PairLegs

def tx (legs : PairLegs) : Leg → Option PyStr
  | .payment => legs.paymentTxId
  | .receive => legs.receiveTxId

def wallet (legs : PairLegs) : Leg → Option PyStr
  | .payment => legs.payerWalletId
  | .receive => legs.payeeWalletId

/-- An entry fills in its transaction and its wallet. -/
theorem fillFrom_own (legs : PairLegs) {entry : LedgerEntry} {leg : Leg}
    (h : entry.entryType = leg.entryType) :
    (legs.fillFrom entry).tx leg = pyOr (legs.tx leg) (some entry.txId) ∧
      (legs.fillFrom entry).wallet leg = pyOr (legs.wallet leg) (some entry.walletId) := by
  cases leg with
  | payment =>
    have hp : entry.entryType = PAYMENT := h
    rw [fillFrom, if_pos hp]
    exact ⟨rfl, rfl⟩
  | receive =>
    have hr : entry.entryType = RECEIVE := h
    have hne : entry.entryType ≠ PAYMENT := fun hp => payment_ne_receive (hp.symm.trans hr)
    rw [fillFrom, if_neg hne, if_pos hr]
    exact ⟨rfl, rfl⟩

/-- An entry of another type leaves the leg alone. -/
theorem fillFrom_ne (legs : PairLegs) {entry : LedgerEntry} {leg : Leg}
    (h : entry.entryType ≠ leg.entryType) :
    (legs.fillFrom entry).tx leg = legs.tx leg ∧
      (legs.fillFrom entry).wallet leg = legs.wallet leg := by
  cases leg with
  | payment =>
    have hp : entry.entryType ≠ PAYMENT := h
    rw [fillFrom, if_neg hp]
    split <;> exact ⟨rfl, rfl⟩
  | receive =>
    have hr : entry.entryType ≠ RECEIVE := h
    rw [fillFrom, if_neg hr]
    split <;> exact ⟨rfl, rfl⟩

theorem tx_fillFrom (legs : PairLegs) {entry : LedgerEntry} {leg : Leg}
    (h : entry.entryType = leg.entryType) :
    (legs.fillFrom entry).tx leg = pyOr (legs.tx leg) (some entry.txId) :=
  (fillFrom_own legs h).1

theorem tx_fillFrom_ne (legs : PairLegs) {entry : LedgerEntry} {leg : Leg}
    (h : entry.entryType ≠ leg.entryType) : (legs.fillFrom entry).tx leg = legs.tx leg :=
  (fillFrom_ne legs h).1

/-- A transaction that is already known stays. -/
theorem tx_fillFrom_of_truthy {legs : PairLegs} {leg : Leg} (h : truthy (legs.tx leg) = true)
    (entry : LedgerEntry) : (legs.fillFrom entry).tx leg = legs.tx leg := by
  by_cases ht : entry.entryType = leg.entryType
  · rw [tx_fillFrom _ ht, pyOr, if_pos h]
  · exact tx_fillFrom_ne _ ht

theorem tx_fillFrom_of_none {legs : PairLegs} {leg : Leg} (h : legs.tx leg = none)
    (entry : LedgerEntry) : (legs.fillFrom entry).tx leg =
      if entry.entryType = leg.entryType then some entry.txId else none := by
  by_cases ht : entry.entryType = leg.entryType
  · rw [tx_fillFrom _ ht, h, if_pos ht]
    rfl
  · rw [tx_fillFrom_ne _ ht, h, if_neg ht]

theorem tx_ofPair (paymentPair : Option PaymentLedgerPair) (leg : Leg) :
    (ofPair paymentPair).tx leg = paymentPair.bind leg.tx := by
  cases paymentPair <;> cases leg <;> rfl

theorem wallet_ofPair (paymentPair : Option PaymentLedgerPair) (leg : Leg) :
    (ofPair paymentPair).wallet leg = paymentPair.bind leg.wallet := by
  cases paymentPair <;> cases leg <;> rfl

theorem tx_ofStored {peerEntry : LedgerEntry} {leg : Leg} (h : peerEntry.entryType = leg.entryType)
    (paymentPair : Option PaymentLedgerPair) : (ofStored paymentPair (some peerEntry)).tx leg =
      pyOr (paymentPair.bind leg.tx) (some peerEntry.txId) := by
  rw [ofStored, tx_fillFrom _ h, tx_ofPair]

/-- An entry supplies the leg of its own type when nothing else does. -/
theorem tx_ofContext_own {context : AdminTxContext} {leg : Leg}
    (h : context.ledgerEntry.entryType = leg.entryType) : (ofContext context).tx leg =
      pyOr ((ofStored context.paymentPair context.peerEntry).tx leg)
        (some context.ledgerEntry.txId) :=
  tx_fillFrom _ h

theorem tx_ofContext_opposite {context : AdminTxContext} {leg : Leg}
    (h : context.ledgerEntry.entryType = leg.entryType) : (ofContext context).tx leg.opposite =
      (ofStored context.paymentPair context.peerEntry).tx leg.opposite :=
  tx_fillFrom_ne _ (fun ho => leg.entryType_opposite (ho.symm.trans h))

end PairLegs

theorem resolvePairing_unknown {context : AdminTxContext}
    (h : truthy context.ledgerEntry.relatedId = false ∨
      resolveRelatedType context ≠ PAYMENT_ORDER) :
    resolvePairing context = (.UNKNOWN, none, none, none) := by
  unfold resolvePairing
  exact if_pos h

/-- The wallets of an entry of a payment order are those of the legs. -/
theorem resolvePairing_wallets {context : AdminTxContext}
    (h : ¬ (truthy context.ledgerEntry.relatedId = false ∨
      resolveRelatedType context ≠ PAYMENT_ORDER)) :
    (resolvePairing context).2.2 = ((PairLegs.ofContext context).payerWalletId,
      (PairLegs.ofContext context).payeeWalletId) := by
  unfold resolvePairing
  simp only [h, if_false]

/-- The transaction on the other leg of an entry, given the two legs. -/
def pairedOf (tx : Leg → Option PyStr) (entry : LedgerEntry) : Option PyStr :=
  if entry.entryType = PAYMENT then tx .receive
  else if entry.entryType = RECEIVE then tx .payment
  else none

theorem pairedOf_leg {entry : LedgerEntry} {leg : Leg} (ht : entry.entryType = leg.entryType)
    (tx : Leg → Option PyStr) : pairedOf tx entry = tx leg.opposite := by
  unfold pairedOf
  rw [ht]
  cases leg with
  | payment => exact if_pos rfl
  | receive => exact (if_neg payment_ne_receive.symm).trans (if_pos rfl)

theorem pairedOf_other {entry : LedgerEntry} (h : ∀ leg : Leg, entry.entryType ≠ leg.entryType)
    (tx : Leg → Option PyStr) : pairedOf tx entry = none :=
  (if_neg (h .payment)).trans (if_neg (h .receive))

/-- The status and the paired transaction of an entry of a payment order. -/
theorem resolvePairing_known {context : AdminTxContext}
    (hr : truthy context.ledgerEntry.relatedId = true)
    (hty : resolveRelatedType context = PAYMENT_ORDER) :
    (resolvePairing context).1 =
      (if ∀ leg : Leg, truthy ((PairLegs.ofContext context).tx leg) = true
        then .COMPLETE else .INCOMPLETE) ∧
    (resolvePairing context).2.1 =
      pairedOf (PairLegs.ofContext context).tx context.ledgerEntry := by
  have hguard : ¬ (truthy context.ledgerEntry.relatedId = false ∨
      resolveRelatedType context ≠ PAYMENT_ORDER) := by
    simp [hr, hty]
  have hboth : (∀ leg : Leg, truthy ((PairLegs.ofContext context).tx leg) = true) ↔
      (truthy (PairLegs.ofContext context).paymentTxId &&
        truthy (PairLegs.ofContext context).receiveTxId) = true := by
    rw [Leg.forall_iff_opposite .payment, Bool.and_eq_true]
    rfl
  unfold resolvePairing
  simp only [hguard, if_false]
  refine ⟨?_, rfl⟩
  split <;> split <;> simp_all

/-- An entry of a leg is complete when both legs are known. -/
theorem resolvePairing_leg {context : AdminTxContext} {leg : Leg}
    (ht : context.ledgerEntry.entryType = leg.entryType)
    (hr : truthy context.ledgerEntry.relatedId = true)
    (hty : resolveRelatedType context = PAYMENT_ORDER) :
    ((resolvePairing context).1 = .COMPLETE ↔
      truthy ((PairLegs.ofContext context).tx leg) = true ∧
        truthy ((PairLegs.ofContext context).tx leg.opposite) = true) ∧
    (resolvePairing context).1 ≠ .UNKNOWN ∧
    (resolvePairing context).2.1 = (PairLegs.ofContext context).tx leg.opposite := by
  obtain ⟨hstatus, hpaired⟩ := resolvePairing_known hr hty
  rw [hstatus, hpaired, pairedOf_leg ht, ← Leg.forall_iff_opposite leg
    (p := fun l => truthy ((PairLegs.ofContext context).tx l) = true)]
  refine ⟨?_, ?_, rfl⟩
  · split <;> simp_all
  · split <;> decide

end TxLookup.Api
