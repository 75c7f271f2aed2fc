import TxLookup.Api.Endpoint
import TxLookup.Api.Views
import TxLookup.Consumer.Redelivery
import TxLookup.Scripts.SyntheticEvents

/-!
# The published scenarios

The script publishes one payment in four scenarios. Whatever the run id, however the
messages are spread over partitions, and however they are redelivered, interleaved and
committed, the consumer ends with the same tables: the newest version of both legs and
of the order, a complete pair, and views that name each leg to the other. Of the
scenario of malformed events nothing is stored.
-/
namespace TxLookup.Scripts

open Library Library.PyText Library.JsonText Library.IsoTime Library.Runs Db Db.LatestWins
open Consumer Consumer.Group Common Api

/-- Amount, time and version of the three events of a payment. -/
structure EventVersion where
  amount : PyStr
  eventTime : DateTime
  version : Int

/-- A payload with its stream and its key. -/
structure ScenarioRecord where
  stream : TopicKind
  key : PyStr
  payload : PyDict

inductive Scenario where
  | happy
  | duplicate
  | outOfOrder
  | error
  deriving DecidableEq

section
variable (runId : PyStr)

def orderIdOf : PyStr := py "po-" ++ runId

/-- `payment_tx` and `receive_tx`. -/
def txIdOf : Leg → PyStr
  | .payment => py "tx-pay-" ++ runId
  | .receive => py "tx-rec-" ++ runId

def walletOf : Leg → PyStr
  | .payment => py "wallet-payer"
  | .receive => py "wallet-payee"

def legRecord (leg : Leg) (v : EventVersion) : ScenarioRecord :=
  ⟨.ledger, txIdOf runId leg, ledgerEvent (txIdOf runId leg) (walletOf leg) leg.entryType v.amount
    (orderIdOf runId) v.eventTime v.version⟩

def orderRecord (v : EventVersion) : ScenarioRecord :=
  ⟨.paymentOrder, orderIdOf runId,
    paymentOrderEvent (orderIdOf runId) v.amount v.eventTime v.version⟩

/-- Both legs and the order, in one version. -/
def versionRecords (v : EventVersion) : List ScenarioRecord :=
  [legRecord runId .payment v, legRecord runId .receive v, orderRecord runId v]

variable (now : DateTime)

/-- The record without a wallet whose amount is no number. -/
def invalidLedger : ScenarioRecord :=
  ⟨.ledger, py "tx-invalid-ledger-" ++ runId,
    [(py "tx_id", .str (py "tx-invalid-ledger-" ++ runId)),
      (py "entry_type", .str PAYMENT),
      (py "amount", .str (py "not-a-number")),
      (py "related_id", .str (orderIdOf runId)),
      (py "created_at", .str (iso now))]⟩

/-- The record without a status. -/
def invalidOrder : ScenarioRecord :=
  ⟨.paymentOrder, py "po-invalid-" ++ runId,
    [(py "order_id", .str (py "po-invalid-" ++ runId)),
      (py "amount", .str (py "100.00")),
      (py "created_at", .str (iso now))]⟩

/-- Three minutes. -/
def staleness : Int := 180000000

/-- The records of the first scenario, which the second repeats. -/
def happyRecords : List ScenarioRecord := versionRecords runId ⟨py "100.00", now, 1⟩

/-- `_build_scenario_records`. -/
def buildScenarioRecords : Scenario → List ScenarioRecord
  | .happy => happyRecords runId now
  | .duplicate => happyRecords runId now ++ happyRecords runId now
  | .outOfOrder =>
    versionRecords runId ⟨py "200.00", now, 2⟩ ++
      versionRecords runId ⟨py "150.00", now - staleness, 1⟩
  | .error => [invalidLedger runId now, invalidOrder runId now]

/-- `publish_scenario`, under a configuration whose topics are those of the profile. -/
def publishScenario (floatRepr : PyFloat → PyStr) (profile : EventContractProfile)
    (scenario : Scenario) : Except PyExc (List Published) :=
  (buildScenarioRecords runId now scenario).mapM fun record =>
    publish floatRepr (profile.topicOf record.stream) record.key record.payload

end

/-- The logs hold these messages and no others, each at least once. -/
structure Carries (broker : Broker) (msgs : List Published) : Prop where
  only : ∀ tp, ∀ msg ∈ broker.log tp,
    ∃ p ∈ msgs, msg.topic = p.topic ∧ msg.key = some p.key ∧ msg.value = some p.value
  all : ∀ p ∈ msgs, ∃ tp, ∃ msg ∈ broker.log tp,
    msg.topic = p.topic ∧ msg.key = some p.key ∧ msg.value = some p.value

/-- The versions of the payment, the newest first. -/
def versions (now : DateTime) : Scenario → List EventVersion
  | .happy | .duplicate => [⟨py "100.00", now, 1⟩]
  | .outOfOrder => [⟨py "200.00", now, 2⟩, ⟨py "150.00", now - staleness, 1⟩]
  | .error => []

/-- The version that is in force in the end. -/
def newest (now : DateTime) : Scenario → EventVersion
  | .outOfOrder => ⟨py "200.00", now, 2⟩
  | _ => ⟨py "100.00", now, 1⟩

section
variable {runId : PyStr} {now : DateTime} {scenario : Scenario}

theorem mem_buildScenarioRecords (h : scenario ≠ .error) {record : ScenarioRecord} :
    record ∈ buildScenarioRecords runId now scenario ↔
      ∃ v ∈ versions now scenario, record ∈ versionRecords runId v := by
  cases scenario with
  | happy => simp [buildScenarioRecords, happyRecords, versions]
  | duplicate => simp [buildScenarioRecords, happyRecords, versions]
  | outOfOrder => simp [buildScenarioRecords, versions, or_and_right, exists_or]
  | error => exact absurd rfl h

theorem newest_mem (h : scenario ≠ .error) : newest now scenario ∈ versions now scenario := by
  cases scenario with
  | error => exact absurd rfl h
  | _ => exact List.mem_cons_self

theorem wholeSecond_staleness (t : Int) : wholeSecond (t - staleness) < wholeSecond t := by
  unfold wholeSecond staleness
  omega

/-- Every other version is older by whole seconds. -/
theorem newest_latest {v : EventVersion} (hv : v ∈ versions now scenario) :
    v = newest now scenario ∨
      wholeSecond v.eventTime < wholeSecond (newest now scenario).eventTime := by
  cases scenario with
  | error => cases hv
  | outOfOrder =>
    rcases List.mem_cons.mp hv with rfl | hv
    · exact .inl rfl
    · rw [List.mem_singleton.mp hv]
      exact .inr (wholeSecond_staleness now)
  | _ => exact .inl (List.mem_singleton.mp hv)

end

/-! ## The events -/

/-- `str.rstrip`. -/
def rstrip (s : PyStr) : PyStr := (s.reverse.dropWhile isSpace).reverse

/-- What stands before the run id is not stripped. -/
theorem strip_append {pre : PyStr} (hne : pre ≠ []) (hpre : ∀ c ∈ pre, isSpace c = false)
    (s : PyStr) : strip (pre ++ s) = pre ++ rstrip s := by
  have hkeep : ∀ t : PyStr, t ≠ [] → (∀ c ∈ t, isSpace c = false) → ∀ rest,
      (t ++ rest).dropWhile isSpace = t ++ rest := by
    intro t ht hspace rest
    obtain ⟨c, t, rfl⟩ := List.exists_cons_of_ne_nil ht
    rw [List.cons_append, List.dropWhile_cons_of_neg]
    rw [hspace c List.mem_cons_self]
    exact Bool.false_ne_true
  have hback : ∀ t : PyStr, (t ++ pre.reverse).dropWhile isSpace =
      t.dropWhile isSpace ++ pre.reverse := by
    intro t
    induction t with
    | nil =>
      have h := hkeep pre.reverse (List.reverse_ne_nil_iff.mpr hne)
        (fun c hc => hpre c (List.mem_reverse.mp hc)) []
      rwa [List.append_nil] at h
    | cons c t ih =>
      rw [List.cons_append, List.dropWhile_cons, List.dropWhile_cons, ih]
      split <;> rfl
  rw [strip, hkeep pre hne hpre, List.reverse_append, hback, List.reverse_append,
    List.reverse_reverse, rstrip]

section
variable (runId : PyStr)

/-- The identifiers the consumer reads. -/
def legTx (leg : Leg) : PyStr := strip (txIdOf runId leg)

def orderKey : PyStr := strip (orderIdOf runId)

theorem legTx_payment : legTx runId .payment = py "tx-pay-" ++ rstrip runId :=
  strip_append (by decide) (by decide) runId

theorem legTx_receive : legTx runId .receive = py "tx-rec-" ++ rstrip runId :=
  strip_append (by decide) (by decide) runId

theorem orderKey_eq : orderKey runId = py "po-" ++ rstrip runId :=
  strip_append (by decide) (by decide) runId

theorem legTx_ne_nil (leg : Leg) : legTx runId leg ≠ [] := by
  cases leg with
  | payment =>
    rw [legTx_payment]
    exact List.cons_ne_nil _ _
  | receive =>
    rw [legTx_receive]
    exact List.cons_ne_nil _ _

theorem orderKey_ne_nil : orderKey runId ≠ [] := by
  rw [orderKey_eq]
  exact List.cons_ne_nil _ _

theorem legTx_injective {leg leg' : Leg} (h : legTx runId leg = legTx runId leg') :
    leg = leg' := by
  have hlegs : legTx runId .payment ≠ legTx runId .receive := by
    rw [legTx_payment, legTx_receive]
    intro heq
    simp [py] at heq
  cases leg <;> cases leg'
  · rfl
  · exact absurd h hlegs
  · exact absurd h.symm hlegs
  · rfl

/-- The number of an amount that spells one. -/
def amountOf (text : PyStr) : Decimal := ((numericText text).map decimalOf).getD (.finite false 0 0)

def legEvent (leg : Leg) (v : EventVersion) : LedgerEntryUpserted where
  txId := legTx runId leg
  walletId := walletOf leg
  entryType := leg.entryType
  amount := amountOf v.amount
  amountSigned := some (amountOf (signedAmount leg.entryType v.amount))
  relatedId := some (orderKey runId)
  relatedType := some PAYMENT_ORDER
  eventTime := wholeSecond v.eventTime
  createdAt := wholeSecond v.eventTime
  updatedAt := some (wholeSecond v.eventTime)
  sourceVersion := some v.version
  txId_ne := legTx_ne_nil runId leg
  walletId_ne := by cases leg <;> decide
  entryType_ne := by cases leg <;> decide

def orderEvent (v : EventVersion) : PaymentOrderUpserted where
  orderId := orderKey runId
  userId := some (py "user-synthetic")
  merchantName := some (py "MERCHANT-SYNTHETIC")
  amount := amountOf v.amount
  status := py "SETTLED"
  createdAt := wholeSecond v.eventTime
  updatedAt := some (wholeSecond v.eventTime)
  sourceVersion := some v.version
  orderId_ne := orderKey_ne_nil runId
  status_ne := by decide

/-- The events of a version. -/
def versionEvents (v : EventVersion) : List Event :=
  [.ledger (legEvent runId .payment v), .ledger (legEvent runId .receive v),
    .order (orderEvent runId v)]

end

/-- The constants of the script. -/
structure EventVersion.Sound (v : EventVersion) : Prop where
  amount : ∀ leg : Leg, (numericText (signedAmount leg.entryType v.amount)).isSome = true ∧
    (signedAmount leg.entryType v.amount).length ≤ 28
  formed : wellFormed v.amount = true
  positive : v.version ≠ 0 ∧ v.version.natAbs ≤ 2 ^ 63

theorem sound_of_mem {v : EventVersion} {now : DateTime} {scenario : Scenario}
    (h : v ∈ versions now scenario) : v.Sound := by
  have hamounts : ∀ text ∈ [py "100.00", py "200.00", py "150.00"],
      (∀ leg : Leg, (numericText (signedAmount leg.entryType text)).isSome = true ∧
        (signedAmount leg.entryType text).length ≤ 28) ∧ wellFormed text = true := by
    intro text htext
    simp only [List.mem_cons, List.not_mem_nil, or_false] at htext
    rcases htext with rfl | rfl | rfl
    all_goals exact ⟨fun leg => by cases leg <;> decide +kernel, by decide⟩
  have hv : v.amount ∈ [py "100.00", py "200.00", py "150.00"] ∧ (v.version = 1 ∨ v.version = 2) := by
    cases scenario with
    | error => cases h
    | outOfOrder =>
      simp only [versions, List.mem_cons, List.not_mem_nil, or_false] at h
      rcases h with rfl | rfl <;> simp
    | _ =>
      rw [List.mem_singleton.mp h]
      simp
  obtain ⟨htext, hversion⟩ := hv
  exact ⟨(hamounts _ htext).1, (hamounts _ htext).2, by omega⟩

theorem spells_amountOf {text : PyStr} (h : (numericText text).isSome = true)
    (hlength : text.length ≤ 28) : Spells text (amountOf text) := by
  obtain ⟨n, hn⟩ := Option.isSome_iff_exists.mp h
  refine ⟨n, hn, hlength, ?_⟩
  rw [amountOf, hn]
  rfl

theorem legEvent_written {v : EventVersion} (hv : v.Sound) (runId : PyStr) (leg : Leg) :
    LedgerWritten (legEvent runId leg v) (txIdOf runId leg) (walletOf leg) leg.entryType v.amount
      (orderIdOf runId) v.eventTime v.version where
  tx := rfl
  wallet := by cases leg <;> rfl
  type := by cases leg <;> rfl
  number := spells_amountOf (hv.amount .receive).1 (hv.amount .receive).2
  signed := ⟨_, rfl, spells_amountOf (hv.amount leg).1 (hv.amount leg).2⟩
  related := rfl
  relatedType := rfl
  time := rfl
  created := rfl
  updated := rfl
  sourceVersion := rfl

theorem orderEvent_written {v : EventVersion} (hv : v.Sound) (runId : PyStr) :
    OrderWritten (orderEvent runId v) (orderIdOf runId) v.amount v.eventTime v.version where
  order := rfl
  user := rfl
  merchant := rfl
  number := spells_amountOf (hv.amount .receive).1 (hv.amount .receive).2
  status := rfl
  created := rfl
  updated := rfl
  sourceVersion := rfl

end TxLookup.Scripts
