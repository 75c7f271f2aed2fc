import TxLookup.Scripts.Scenarios

/-!
# What the scenarios leave behind

The messages of a scenario are read as the events of its versions, and whatever the
group does with them, the newest version is what the tables show once every offset is
committed.
-/
namespace TxLookup.Scripts

open Library Library.PyText Library.JsonText Library.IsoTime Library.Settle Library.Runs Db
open Db.LatestWins Consumer Consumer.Group Common Api

/-! ## From the records to the events -/

section
variable {α β : Type} {R : α → β → Prop} {as : List α} {bs : List β}

theorem exists_right (h : List.Forall₂ R as bs) {a : α} (ha : a ∈ as) : ∃ b ∈ bs, R a b := by
  induction h with
  | nil => cases ha
  | cons hr _ ih =>
    rcases List.mem_cons.mp ha with rfl | ha
    · exact ⟨_, List.mem_cons_self, hr⟩
    · obtain ⟨b, hb, hrel⟩ := ih ha
      exact ⟨b, List.mem_cons_of_mem _ hb, hrel⟩

theorem exists_left (h : List.Forall₂ R as bs) {b : β} (hb : b ∈ bs) : ∃ a ∈ as, R a b :=
  exists_right h.flip hb

end

section
variable {floatOf : PyStr → PyFloat} {rt : TextRuntime} {config : AppConfig} {runId : PyStr}
  {now : DateTime} {scenario : Scenario} {broker : Broker} {msgs : List Published}

theorem publish_ok {floatRepr : PyFloat → PyStr} {topic key : PyStr} {payload : PyDict}
    {p : Published} (h : publish floatRepr topic key payload = .ok p) :
    p.topic = topic ∧ p.value = encode ((Json.obj payload).dumpsAscii floatRepr) := by
  obtain ⟨keyBytes, -, h⟩ := bind_eq_ok.mp h
  cases h
  exact ⟨rfl, rfl⟩

/-- Any message that carries the published record is read as the event. -/
def ReadAs (rt : TextRuntime) (profile : EventContractProfile) (record : ScenarioRecord)
    (event : Event) : Prop :=
  ∀ p, publish rt.floatRepr (profile.topicOf record.stream) record.key record.payload = .ok p →
    ∀ msg : Message, msg.topic = p.topic → msg.value = some p.value →
      eventOf rt.toPyRuntime profile msg = .ok event

theorem readAs_of {profile : EventContractProfile} {record : ScenarioRecord} {event : Event}
    (hrt : ReadsWritten rt floatOf)
    (hplain : Plain floatOf (fun c => isScalar c = true) (.obj record.payload))
    (hparse : parsePayload rt.toPyRuntime profile (profile.topicOf record.stream) record.payload =
      .ok event) : ReadAs rt profile record event := by
  intro p hp msg htopic hvalue
  obtain ⟨hptopic, hpvalue⟩ := publish_ok hp
  refine eventOf_written (loadPayload_written hrt hplain (hvalue.trans (congrArg some hpvalue))) ?_
  rw [htopic, hptopic]
  exact hparse

theorem wellFormed_txIdOf (hid : wellFormed runId = true) (leg : Leg) :
    wellFormed (txIdOf runId leg) = true := by
  cases leg with
  | payment => exact wellFormed_append (by decide) hid
  | receive => exact wellFormed_append (by decide) hid

theorem wellFormed_orderIdOf (hid : wellFormed runId = true) :
    wellFormed (orderIdOf runId) = true :=
  wellFormed_append (by decide) hid

theorem legRecord_read {profile : EventContractProfile} (hrt : ReadsWritten rt floatOf)
    (hprofile : Shipped rt.toPyRuntime profile) (hid : wellFormed runId = true) {v : EventVersion}
    (hv : v.Sound) (ht : ReadsTime rt.toPyRuntime v.eventTime) (leg : Leg) :
    ReadAs rt profile (legRecord runId leg v) (.ledger (legEvent runId leg v)) := by
  refine readAs_of hrt ?_ ?_
  · exact plain_ledgerEvent (wellFormed_txIdOf hid leg) (by cases leg <;> decide)
      (by cases leg <;> decide) hv.formed (wellFormed_orderIdOf hid) hv.positive.2
  · exact ledgerEvent_read hrt hprofile (legEvent_written hv runId leg) ht hv.positive.1

theorem orderRecord_read {profile : EventContractProfile} (hrt : ReadsWritten rt floatOf)
    (hprofile : Shipped rt.toPyRuntime profile) (hid : wellFormed runId = true) {v : EventVersion}
    (hv : v.Sound) (ht : ReadsTime rt.toPyRuntime v.eventTime) :
    ReadAs rt profile (orderRecord runId v) (.order (orderEvent runId v)) := by
  refine readAs_of hrt ?_ ?_
  · exact plain_paymentOrderEvent (wellFormed_orderIdOf hid) hv.formed hv.positive.2
  · exact paymentOrderEvent_read hrt hprofile (orderEvent_written hv runId) ht hv.positive.1

/-- A version's records are read as its events. -/
theorem versionRecords_read {profile : EventContractProfile} (hrt : ReadsWritten rt floatOf)
    (hprofile : Shipped rt.toPyRuntime profile) (hid : wellFormed runId = true) {v : EventVersion}
    (hv : v.Sound) (ht : ReadsTime rt.toPyRuntime v.eventTime) :
    List.Forall₂ (ReadAs rt profile) (versionRecords runId v) (versionEvents runId v) :=
  .cons (legRecord_read hrt hprofile hid hv ht .payment)
    (.cons (legRecord_read hrt hprofile hid hv ht .receive)
      (.cons (orderRecord_read hrt hprofile hid hv ht) .nil))

/-- The logs hold the events of the versions. -/
theorem brokerEvents_versions (hrt : ReadsWritten rt floatOf)
    (hprofile : Shipped rt.toPyRuntime config.profile) (hid : wellFormed runId = true)
    (htimes : ∀ v ∈ versions now scenario, ReadsTime rt.toPyRuntime v.eventTime)
    (hpub : publishScenario runId now rt.floatRepr config.profile scenario = .ok msgs)
    (hcarries : Carries broker msgs) {tps : List TopicPartition}
    (hcover : ∀ tp, broker.log tp ≠ [] → tp ∈ tps) (hscenario : scenario ≠ .error)
    (event : Event) : event ∈ broker.events rt.toPyRuntime config tps ↔
      ∃ v ∈ versions now scenario, event ∈ versionEvents runId v := by
  have hread : ∀ v ∈ versions now scenario, List.Forall₂ (ReadAs rt config.profile)
      (versionRecords runId v) (versionEvents runId v) :=
    fun v hv => versionRecords_read hrt hprofile hid (sound_of_mem hv) (htimes v hv)
  have hpublished := mapM_eq_ok_iff.mp hpub
  rw [mem_brokerEvents]
  constructor
  · intro h
    obtain ⟨tp, -, msg, hmsg, hevent⟩ := h
    obtain ⟨p, hp, htopic, -, hvalue⟩ := hcarries.only tp msg hmsg
    obtain ⟨record, hrecord, hpublish⟩ := exists_left hpublished hp
    obtain ⟨v, hv, hrecord⟩ := (mem_buildScenarioRecords hscenario).mp hrecord
    obtain ⟨written, hwritten, hreads⟩ := exists_right (hread v hv) hrecord
    have hsame := hreads p hpublish msg htopic hvalue
    rw [hevent] at hsame
    cases hsame
    exact ⟨v, hv, hwritten⟩
  · intro h
    obtain ⟨v, hv, hevent⟩ := h
    obtain ⟨record, hrecord, hreads⟩ := exists_left (hread v hv) hevent
    obtain ⟨p, hp, hpublish⟩ := exists_right hpublished
      ((mem_buildScenarioRecords hscenario).mpr ⟨v, hv, hrecord⟩)
    obtain ⟨tp, msg, hmsg, htopic, -, hvalue⟩ := hcarries.all p hp
    exact ⟨tp, hcover tp (List.ne_nil_of_mem hmsg), msg, hmsg, hreads p hpublish msg htopic hvalue⟩

end

/-! ## The tables -/

/-- A stamped row that is later than the other rows of its key is what a run of them
settles to. -/
theorem settle_of_latest {ρ : Type} (T : StampedTable ρ) {rows : List ρ} {k : PyStr} {m : ρ}
    (hm : m ∈ rows) (hkey : T.key m = k)
    (hstamped : ∀ r ∈ rows, T.key r = k → MetadataClass.updatedAt.Holds (T.stamp r))
    (hlatest : ∀ r ∈ rows, T.key r = k → r ≠ m →
      MetadataClass.updatedAt.rank (T.stamp r) < MetadataClass.updatedAt.rank (T.stamp m)) :
    settle T.wins (rows.filter (fun r => T.key r = k)) = some m := by
  have hm' : m ∈ rows.filter (fun r => T.key r = k) :=
    List.mem_filter.mpr ⟨hm, decide_eq_true hkey⟩
  have hwins := @wins_of_class _ T .updatedAt k rows hstamped
  refine settle_of_top ⟨hm', fun r hr hne => ?_⟩
  obtain ⟨hr', hk⟩ := List.mem_filter.mp hr
  have hlt := hlatest r hr' (of_decide_eq_true hk) hne
  rw [hwins m hm' r hr, hwins r hr m hm', decide_eq_true_eq, decide_eq_false_iff_not]
  exact ⟨hlt.le, not_le.mpr hlt⟩

/-- What the tables show of a payment in one version. -/
structure Settled (runId : PyStr) (v : EventVersion) (db : Database) : Prop where
  leg : ∀ leg, (db.ledgerEntries.find? (legTx runId leg)).map ledgerEntriesStamped.business =
    some (storedEntry (legEvent runId leg v) 0)
  legsOnly : ∀ e ∈ db.ledgerEntries.rows, ∃ leg, e.txId = legTx runId leg
  order : (db.paymentOrders.find? (orderKey runId)).map paymentOrdersStamped.business =
    some (storedOrder (orderEvent runId v) 0)
  orderOnly : ∀ o ∈ db.paymentOrders.rows, o.orderId = orderKey runId
  pair : (db.paymentLedgerPairs.find? (orderKey runId)).map pairView =
    some ⟨some (legTx runId .payment), some (legTx runId .receive), some (walletOf .payment),
      some (walletOf .receive), some (wholeSecond v.eventTime)⟩
  pairOnly : ∀ k, k ≠ orderKey runId → db.paymentLedgerPairs.find? k = none

/-- The calls apply the events of the versions, in any order and any number. -/
def AppliesVersions (runId : PyStr) (now : DateTime) (scenario : Scenario)
    (calls : List Call) : Prop :=
  ∀ event, event ∈ eventsOf calls ↔ ∃ v ∈ versions now scenario, event ∈ versionEvents runId v

section
variable {runId : PyStr} {now : DateTime} {scenario : Scenario} {calls : List Call}

theorem AppliesVersions.ledgerEvent (h : AppliesVersions runId now scenario calls)
    {event : LedgerEntryUpserted} :
    event ∈ ledgerEvents (eventsOf calls) ↔
      ∃ v ∈ versions now scenario, ∃ leg, event = legEvent runId leg v := by
  rw [ledgerEvents, List.mem_filterMap]
  constructor
  · intro hmem
    obtain ⟨written, hwritten, hledger⟩ := hmem
    obtain ⟨v, hv, hin⟩ := (h written).mp hwritten
    simp only [versionEvents, List.mem_cons, List.not_mem_nil, or_false] at hin
    rcases hin with rfl | rfl | rfl
    · cases hledger
      exact ⟨v, hv, .payment, rfl⟩
    · cases hledger
      exact ⟨v, hv, .receive, rfl⟩
    · cases hledger
  · intro hmem
    obtain ⟨v, hv, leg, rfl⟩ := hmem
    refine ⟨.ledger (legEvent runId leg v), (h _).mpr ⟨v, hv, ?_⟩, rfl⟩
    cases leg <;> simp [versionEvents]

theorem AppliesVersions.orderEvent (h : AppliesVersions runId now scenario calls)
    {event : PaymentOrderUpserted} :
    event ∈ orderEvents (eventsOf calls) ↔
      ∃ v ∈ versions now scenario, event = Scripts.orderEvent runId v := by
  rw [orderEvents, List.mem_filterMap]
  constructor
  · intro hmem
    obtain ⟨written, hwritten, horder⟩ := hmem
    obtain ⟨v, hv, hin⟩ := (h written).mp hwritten
    simp only [versionEvents, List.mem_cons, List.not_mem_nil, or_false] at hin
    rcases hin with rfl | rfl | rfl
    · cases horder
    · cases horder
    · cases horder
      exact ⟨v, hv, rfl⟩
  · intro hmem
    obtain ⟨v, hv, rfl⟩ := hmem
    refine ⟨.order (Scripts.orderEvent runId v), (h _).mpr ⟨v, hv, ?_⟩, rfl⟩
    simp [versionEvents]

theorem entryType_injective {leg leg' : Leg} (h : leg.entryType = leg'.entryType) : leg = leg' := by
  cases leg <;> cases leg'
  · rfl
  · exact absurd h payment_ne_receive
  · exact absurd h.symm payment_ne_receive
  · rfl

/-- Both legs keep to the pairing contract. -/
theorem AppliesVersions.contract (h : AppliesVersions runId now scenario calls) :
    PairContract (eventsOf calls) where
  sameRelation := by
    intro event hevent event' hevent' htx
    obtain ⟨v, -, leg, rfl⟩ := h.ledgerEvent.mp hevent
    obtain ⟨v', -, leg', rfl⟩ := h.ledgerEvent.mp hevent'
    obtain rfl := legTx_injective runId htx
    exact ⟨rfl, rfl⟩
  relatedType := by
    intro event hevent
    obtain ⟨v, -, leg, rfl⟩ := h.ledgerEvent.mp hevent
    exact .inr rfl
  oneLeg := by
    intro side event hevent event' hevent' _ _ htype htype'
    obtain ⟨v, -, leg, rfl⟩ := h.ledgerEvent.mp hevent
    obtain ⟨v', -, leg', rfl⟩ := h.ledgerEvent.mp hevent'
    obtain rfl := entryType_injective (htype.trans htype'.symm)
    rfl

/-- The newest version of a leg is what its row shows. -/
theorem AppliesVersions.leg_row (h : AppliesVersions runId now scenario calls)
    (hclock : ClockMonotone calls) (hscenario : scenario ≠ .error) (leg : Leg) :
    ((run calls).ledgerEntries.find? (legTx runId leg)).map ledgerEntriesStamped.business =
      some (storedEntry (legEvent runId leg (newest now scenario)) 0) := by
  rw [run, runFrom_ledgerEntries]
  refine (find?_upsertRun_business ledgerEntriesStamped rfl hclock.ledgerRows).trans ?_
  rw [ledgerRows_business]
  have hrow : ∀ r ∈ ledgerProposals (eventsOf calls), ledgerEntriesStamped.key r = legTx runId leg →
      ∃ v ∈ versions now scenario, r = storedEntry (legEvent runId leg v) 0 := by
    intro r hr hkey
    obtain ⟨event, hevent, rfl⟩ := List.mem_map.mp hr
    obtain ⟨v, hv, leg', rfl⟩ := h.ledgerEvent.mp hevent
    obtain rfl := legTx_injective runId hkey
    exact ⟨v, hv, rfl⟩
  refine settle_of_latest ledgerEntriesStamped ?_ rfl ?_ ?_
  · exact List.mem_map_of_mem (h.ledgerEvent.mpr ⟨_, newest_mem hscenario, leg, rfl⟩)
  · intro r hr hkey
    obtain ⟨v, -, rfl⟩ := hrow r hr hkey
    rfl
  · intro r hr hkey hne
    obtain ⟨v, hv, rfl⟩ := hrow r hr hkey
    rcases newest_latest hv with rfl | hlt
    · exact absurd rfl hne
    · exact hlt

theorem AppliesVersions.order_row (h : AppliesVersions runId now scenario calls)
    (hclock : ClockMonotone calls) (hscenario : scenario ≠ .error) :
    ((run calls).paymentOrders.find? (orderKey runId)).map paymentOrdersStamped.business =
      some (storedOrder (Scripts.orderEvent runId (newest now scenario)) 0) := by
  rw [run, runFrom_paymentOrders]
  refine (find?_upsertRun_business paymentOrdersStamped rfl hclock.orderRows).trans ?_
  rw [orderRows_business]
  have hrow : ∀ r ∈ orderProposals (eventsOf calls),
      ∃ v ∈ versions now scenario, r = storedOrder (Scripts.orderEvent runId v) 0 := by
    intro r hr
    obtain ⟨event, hevent, rfl⟩ := List.mem_map.mp hr
    obtain ⟨v, hv, rfl⟩ := h.orderEvent.mp hevent
    exact ⟨v, hv, rfl⟩
  refine settle_of_latest paymentOrdersStamped ?_ rfl ?_ ?_
  · exact List.mem_map_of_mem (h.orderEvent.mpr ⟨_, newest_mem hscenario, rfl⟩)
  · intro r hr _
    obtain ⟨v, -, rfl⟩ := hrow r hr
    rfl
  · intro r hr _ hne
    obtain ⟨v, hv, rfl⟩ := hrow r hr
    rcases newest_latest hv with rfl | hlt
    · exact absurd rfl hne
    · exact hlt

/-- Every row is a leg of the payment. -/
theorem AppliesVersions.leg_of_row (h : AppliesVersions runId now scenario calls) {e : LedgerEntry}
    (he : e ∈ (run calls).ledgerEntries.rows) : ∃ leg, e.txId = legTx runId leg := by
  obtain ⟨event, hevent, t, rfl⟩ := ledger_row_event he
  obtain ⟨v, -, leg, rfl⟩ := h.ledgerEvent.mp hevent
  exact ⟨leg, rfl⟩

/-- Every stored order row comes from an event. -/
theorem order_row_event {o : PaymentOrder} (ho : o ∈ (run calls).paymentOrders.rows) :
    ∃ event ∈ orderEvents (eventsOf calls), ∃ t, storedOrder event t = o := by
  have hf := (run calls).paymentOrders.find?_of_mem ho
  rw [run, runFrom_paymentOrders] at hf
  have hsettled := (find?_upsertRun paymentOrdersStamped rfl _).symm.trans hf
  obtain ⟨call, hcall, hrow⟩ := List.mem_filterMap.mp (List.mem_filter.mp (settle_mem hsettled)).1
  obtain ⟨event, hevent, rfl⟩ := Option.map_eq_some_iff.mp hrow
  exact ⟨event, List.mem_filterMap.mpr ⟨call.event, List.mem_map_of_mem hcall, hevent⟩, _, rfl⟩

theorem AppliesVersions.order_of_row (h : AppliesVersions runId now scenario calls)
    {o : PaymentOrder}
    (ho : o ∈ (run calls).paymentOrders.rows) : o.orderId = orderKey runId := by
  obtain ⟨event, hevent, t, rfl⟩ := order_row_event ho
  obtain ⟨v, -, rfl⟩ := h.orderEvent.mp hevent
  rfl

/-- The pair row names both legs, their wallets and the time of the newest version. -/
theorem AppliesVersions.pair_row (h : AppliesVersions runId now scenario calls)
    (hclock : ClockMonotone calls) (hscenario : scenario ≠ .error) :
    ((run calls).paymentLedgerPairs.find? (orderKey runId)).map pairView =
      some ⟨some (legTx runId .payment), some (legTx runId .receive), some (walletOf .payment),
        some (walletOf .receive), some (wholeSecond (newest now scenario).eventTime)⟩ := by
  have hunique := h.contract.uniqueLegs (orderKey runId)
  have hbusiness : ∀ e ∈ (run calls).ledgerEntries.rows, ∃ leg,
      ledgerEntriesStamped.business e =
        storedEntry (legEvent runId leg (newest now scenario)) 0 := by
    intro e he
    obtain ⟨leg, htx⟩ := h.leg_of_row he
    have hrow := h.leg_row hclock hscenario leg
    have hfind : (run calls).ledgerEntries.find? e.txId = some e :=
      (run calls).ledgerEntries.find?_of_mem he
    rw [← htx, hfind] at hrow
    exact ⟨leg, Option.some.inj hrow⟩
  have hleg : ∀ leg, ∃ e, legOf (run calls).ledgerEntries (orderKey runId) leg = some e ∧
      e.txId = legTx runId leg ∧ e.walletId = walletOf leg := by
    intro leg
    obtain ⟨e, hfind, hrow⟩ := Option.map_eq_some_iff.mp (h.leg_row hclock hscenario leg)
    have hmem := ((run calls).ledgerEntries.find?_eq_some_iff.mp hfind).1
    have hrelated : e.relatedId = some (orderKey runId) := congrArg LedgerEntry.relatedId hrow
    have htype : e.entryType = leg.entryType := congrArg LedgerEntry.entryType hrow
    exact ⟨e, legOf_of_mem hunique (mem_relationRows.mpr ⟨hmem, hrelated⟩) htype,
      congrArg LedgerEntry.txId hrow, congrArg LedgerEntry.walletId hrow⟩
  obtain ⟨pay, hpay, hpayTx, hpayWallet⟩ := hleg .payment
  obtain ⟨receipt, hreceipt, hreceiptTx, hreceiptWallet⟩ := hleg .receive
  have hne : relationRows (run calls).ledgerEntries (orderKey runId) ≠ [] :=
    List.ne_nil_of_mem (legOf_spec hpay).1
  have htime : latestEventTime ((relationRows (run calls).ledgerEntries (orderKey runId)).map
      asSnapshot) = some (wholeSecond (newest now scenario).eventTime) := by
    obtain ⟨t, ht, ⟨snapshot, hsnapshot, rfl⟩, -⟩ :=
      latestEventTime_spec (List.map_eq_nil_iff.not.mpr hne)
    obtain ⟨e, he, rfl⟩ := List.mem_map.mp hsnapshot
    obtain ⟨leg, hrow⟩ := hbusiness e (mem_relationRows.mp he).1
    rw [ht]
    exact congrArg some (congrArg LedgerEntry.eventTime hrow)
  rw [pairs_show_ledger calls h.contract hclock, ledgerView,
    if_neg (not_or.mpr ⟨orderKey_ne_nil runId, hne⟩), hpay, hreceipt, htime]
  simp only [Option.map_some, hpayTx, hreceiptTx, hpayWallet, hreceiptWallet]

/-- No other relation has a pair row. -/
theorem AppliesVersions.pair_only (h : AppliesVersions runId now scenario calls)
    (hclock : ClockMonotone calls) {k : PyStr} (hk : k ≠ orderKey runId) :
    (run calls).paymentLedgerPairs.find? k = none := by
  have hnil : relationRows (run calls).ledgerEntries k = [] := by
    rw [List.eq_nil_iff_forall_not_mem]
    intro e he
    obtain ⟨hmem, hrelated⟩ := mem_relationRows.mp he
    obtain ⟨event, hevent, t, rfl⟩ := ledger_row_event hmem
    obtain ⟨v, -, leg, rfl⟩ := h.ledgerEvent.mp hevent
    exact hk (Option.some.inj hrelated).symm
  have hview := pairs_show_ledger calls h.contract hclock k
  rw [ledgerView, if_pos (Or.inr hnil)] at hview
  exact Option.map_eq_none_iff.mp hview

/-- A payment whose messages have all been applied is settled in its newest version. -/
theorem AppliesVersions.settled (h : AppliesVersions runId now scenario calls)
    (hclock : ClockMonotone calls) (hscenario : scenario ≠ .error) :
    Settled runId (newest now scenario) (run calls) where
  leg := h.leg_row hclock hscenario
  legsOnly := fun _ he => h.leg_of_row he
  order := h.order_row hclock hscenario
  orderOnly := fun _ ho => h.order_of_row ho
  pair := h.pair_row hclock hscenario
  pairOnly := fun _ hk => h.pair_only hclock hk

end

/-! ## The views -/

/-- The answer of the transaction view for a leg of a settled payment. -/
def settledResponse (runId : PyStr) (v : EventVersion) (leg : Leg) (dataLagSec : Option Int) :
    AdminTxResponse where
  txId := legTx runId leg
  eventTime := wholeSecond v.eventTime
  entryType := leg.entryType
  amount := amountOf v.amount
  amountSigned := some (amountOf (signedAmount leg.entryType v.amount))
  status := some (py "SETTLED")
  statusGroup := py "SUCCESS"
  senderWalletId := some (walletOf .payment)
  receiverWalletId := some (walletOf .receive)
  related := some ⟨orderKey runId, PAYMENT_ORDER⟩
  pairedTxId := some (legTx runId leg.opposite)
  merchantName := some (py "MERCHANT-SYNTHETIC")
  pairingStatus := .COMPLETE
  dataLagSec := dataLagSec

theorem truthy_walletOf (leg : Leg) : truthy (some (walletOf leg)) = true := by
  cases leg <;> rfl

/-- A complete pair row decides what an entry of a leg reports. -/
theorem resolvePairing_settled {runId : PyStr} {e : LedgerEntry} {o : PaymentOrder}
    {p : PaymentLedgerPair} {leg : Leg} (htype : e.entryType = leg.entryType)
    (hrelated : truthy e.relatedId = true) (hdomain : e.relatedType = some PAYMENT_ORDER)
    (hlegs : ∀ leg : Leg, leg.tx p = some (legTx runId leg))
    (hwallets : ∀ leg : Leg, leg.wallet p = some (walletOf leg)) :
    resolvePairing ⟨e, some o, some p, none⟩ = (.COMPLETE, some (legTx runId leg.opposite),
      some (walletOf .payment), some (walletOf .receive)) := by
  have hknown : resolveRelatedType ⟨e, some o, some p, none⟩ = PAYMENT_ORDER := by
    rw [resolveRelatedType, hdomain]
    rfl
  have hguard : ¬ (truthy e.relatedId = false ∨
      resolveRelatedType ⟨e, some o, some p, none⟩ ≠ PAYMENT_ORDER) := by
    rw [hrelated, hknown]
    decide
  have hpay : p.paymentTxId = some (legTx runId .payment) := hlegs .payment
  have hreceive : p.receiveTxId = some (legTx runId .receive) := hlegs .receive
  have hpayer : p.payerWalletId = some (walletOf .payment) := hwallets .payment
  have hpayee : p.payeeWalletId = some (walletOf .receive) := hwallets .receive
  have htx : ∀ leg, truthy (some (legTx runId leg)) = true := fun leg =>
    truthy_some (legTx_ne_nil runId leg)
  have hfilled : PairLegs.ofContext ⟨e, some o, some p, none⟩ = ⟨some (legTx runId .payment),
      some (legTx runId .receive), some (walletOf .payment), some (walletOf .receive)⟩ := by
    simp only [PairLegs.ofContext, PairLegs.ofStored, PairLegs.ofPair, PairLegs.fillFrom, hpay,
      hreceive, hpayer, hpayee, pyOr, htx, truthy_walletOf, if_true, ite_self]
  unfold resolvePairing
  simp only [hguard, if_false, hfilled, htx, Bool.and_self, if_true, htype]
  cases leg with
  | payment => rfl
  | receive => rfl

/-- The columns hold the amounts of a version as they are, and a response shows them. -/
def ExactAmounts (v : EventVersion) : Prop :=
  ((amountOf v.amount).held = amountOf v.amount ∧ (amountOf v.amount).isFinite = true) ∧
    ∀ leg : Leg, (amountOf (signedAmount leg.entryType v.amount)).held =
        amountOf (signedAmount leg.entryType v.amount) ∧
      (amountOf (signedAmount leg.entryType v.amount)).isFinite = true

theorem newest_exact (now : DateTime) (scenario : Scenario) :
    ExactAmounts (newest now scenario) := by
  have hcases : (newest now scenario).amount = py "100.00" ∨
      (newest now scenario).amount = py "200.00" := by
    cases scenario with
    | outOfOrder => exact .inr rfl
    | _ => exact .inl rfl
  unfold ExactAmounts
  rcases hcases with hamount | hamount
  · rw [hamount]
    decide
  · rw [hamount]
    decide

/-- Both legs of a settled payment are shown complete, each with the other. -/
theorem Settled.response {runId : PyStr} {v : EventVersion} {db : Database}
    (h : Settled runId v db) (hexact : ExactAmounts v) (collation : Collation) (now : DateTime)
    (leg : Leg) :
    ∃ e, db.ledgerEntries.find? (legTx runId leg) = some e ∧
      adminTx collation now db (legTx runId leg) =
        .ok (some (settledResponse runId v leg (computeDataLagSec now e))) := by
  obtain ⟨e, hfind, hrow⟩ := Option.map_eq_some_iff.mp (h.leg leg)
  obtain ⟨o, horder, horderRow⟩ := Option.map_eq_some_iff.mp h.order
  obtain ⟨p, hpair, hview⟩ := Option.map_eq_some_iff.mp h.pair
  have hlegs : ∀ leg : Leg, leg.tx p = some (legTx runId leg) := by
    intro leg
    cases leg with
    | payment => exact congrArg PairView.paymentTxId hview
    | receive => exact congrArg PairView.receiveTxId hview
  have hwallets : ∀ leg : Leg, leg.wallet p = some (walletOf leg) := by
    intro leg
    cases leg with
    | payment => exact congrArg PairView.payerWalletId hview
    | receive => exact congrArg PairView.payeeWalletId hview
  have hrelated : e.relatedId = some (orderKey runId) := congrArg LedgerEntry.relatedId hrow
  have htruthy : truthy e.relatedId = true := hrelated ▸ truthy_some (orderKey_ne_nil runId)
  have hpeer : needsPeer (some p) = false := by
    rw [needsPeer_iff]
    intro leg
    rw [Option.bind_some, hlegs leg]
    exact truthy_some (legTx_ne_nil runId leg)
  have hcontext : contextOf collation db e = ⟨e, some o, some p, none⟩ := by
    simp only [contextOf, hrelated, Option.bind_some, horder, hpair, hpeer, Bool.and_false,
      Bool.false_eq_true, if_false]
  refine ⟨e, hfind, ?_⟩
  have he := (db.ledgerEntries.find?_eq_some_iff.mp hfind).1
  have htx : e.txId = legTx runId leg := congrArg LedgerEntry.txId hrow
  have htype : e.entryType = leg.entryType := congrArg LedgerEntry.entryType hrow
  have hdomain : e.relatedType = some PAYMENT_ORDER := congrArg LedgerEntry.relatedType hrow
  have htime : e.eventTime = wholeSecond v.eventTime := congrArg LedgerEntry.eventTime hrow
  have hamount : e.amount = amountOf v.amount :=
    (congrArg LedgerEntry.amount hrow).trans hexact.1.1
  have hsigned : e.amountSigned = some (amountOf (signedAmount leg.entryType v.amount)) :=
    (congrArg LedgerEntry.amountSigned hrow).trans (congrArg some (hexact.2 leg).1)
  have hfinite : FiniteAmounts e := by
    rw [FiniteAmounts, hamount, hsigned]
    exact ⟨hexact.1.2, (hexact.2 leg).2⟩
  have hstatus : o.status = py "SETTLED" := congrArg PaymentOrder.status horderRow
  have hmerchant : o.merchantName = some (py "MERCHANT-SYNTHETIC") :=
    congrArg PaymentOrder.merchantName horderRow
  have hresolve := @resolvePairing_settled runId e o p leg htype htruthy hdomain hlegs hwallets
  have hknown : resolveRelatedType ⟨e, some o, some p, none⟩ = PAYMENT_ORDER := by
    rw [resolveRelatedType, hdomain]
    rfl
  have hgroup : resolveStatusGroup (some (py "SETTLED")) = py "SUCCESS" := by decide
  obtain ⟨c, cs, hcons⟩ := List.exists_cons_of_ne_nil (orderKey_ne_nil runId)
  rw [← htx, adminTx_eq_ok he, and_iff_right hfinite, hcontext]
  simp only [adminTxValues, settledResponse, hresolve, hknown, hrelated, hcons, htx, htype,
    htime, hamount, hsigned, hstatus, hmerchant, hgroup, Option.map_some, Option.bind_some]

/-! ## The malformed events -/

section
variable {floatOf : PyStr → PyFloat} {rt : TextRuntime} {config : AppConfig} {runId : PyStr}
  {now : DateTime} {scenario : Scenario} {broker : Broker} {msgs : List Published}

/-- No message that carries the published record is read as an event. -/
def Unreadable (rt : TextRuntime) (profile : EventContractProfile) (record : ScenarioRecord) :
    Prop :=
  ∀ p, publish rt.floatRepr (profile.topicOf record.stream) record.key record.payload = .ok p →
    ∀ msg : Message, msg.topic = p.topic → msg.value = some p.value →
      ∀ event, eventOf rt.toPyRuntime profile msg ≠ .ok event

/-- A required field of its own name is absent. -/
theorem unreadable_of_absent {profile : EventContractProfile} {record : ScenarioRecord}
    {field : PyStr} (hrt : ReadsWritten rt floatOf) (hprofile : Shipped rt.toPyRuntime profile)
    (hplain : Plain floatOf (fun c => isScalar c = true) (.obj record.payload))
    (hrequired : field ∈ canonicalV1.coreRequiredFor record.stream)
    (hkey : requiredKey field = field)
    (hunaliased : (canonicalV1.aliasesFor record.stream).lookup field = none)
    (habsent : record.payload.get field = .null) : Unreadable rt profile record := by
  intro p hp msg htopic hvalue event hevent
  obtain ⟨hptopic, hpvalue⟩ := publish_ok hp
  have hload := loadPayload_written hrt hplain (hvalue.trans (congrArg some hpvalue))
  rw [eventOf, hload] at hevent
  have hparse : parsePayload rt.toPyRuntime profile (profile.topicOf record.stream)
      record.payload = .ok event := by
    rw [← hptopic, ← htopic]
    exact hevent
  have hnormal :=
    ((parsePayload_ok hprofile (topicKind_topicOf profile record.stream)).mp hparse).1
  refine hnormal.required (missingRequired_iff.mpr ⟨field, hrequired, ?_⟩)
  rw [hkey, get_unaliased hunaliased, habsent]
  rfl

theorem invalidLedger_unreadable {profile : EventContractProfile} (hrt : ReadsWritten rt floatOf)
    (hprofile : Shipped rt.toPyRuntime profile) (hid : wellFormed runId = true) :
    Unreadable rt profile (invalidLedger runId now) := by
  have hrequired : py "wallet_id" ∈ canonicalV1.coreRequiredFor .ledger := by decide
  refine unreadable_of_absent hrt hprofile ?_ hrequired rfl rfl rfl
  refine plain_object [py "tx_id", py "entry_type", py "amount", py "related_id", py "created_at"]
    rfl (by decide) (by decide) ?_
  simp only [invalidLedger, List.forall_mem_cons, List.not_mem_nil, false_implies, implies_true,
    and_true]
  exact ⟨plain_scalars (wellFormed_append (by decide) hid), plain_scalars (by decide),
    plain_scalars (by decide), plain_scalars (wellFormed_orderIdOf hid), plain_iso _⟩

theorem invalidOrder_unreadable {profile : EventContractProfile} (hrt : ReadsWritten rt floatOf)
    (hprofile : Shipped rt.toPyRuntime profile) (hid : wellFormed runId = true) :
    Unreadable rt profile (invalidOrder runId now) := by
  have hrequired : py "status" ∈ canonicalV1.coreRequiredFor .paymentOrder := by decide
  refine unreadable_of_absent hrt hprofile ?_ hrequired rfl rfl rfl
  refine plain_object [py "order_id", py "amount", py "created_at"] rfl (by decide) (by decide) ?_
  simp only [invalidOrder, List.forall_mem_cons, List.not_mem_nil, false_implies, implies_true,
    and_true]
  exact ⟨plain_scalars (wellFormed_append (by decide) hid), plain_scalars (by decide),
    plain_iso _⟩

/-- The logs of the error scenario hold no event. -/
theorem brokerEvents_error (hrt : ReadsWritten rt floatOf)
    (hprofile : Shipped rt.toPyRuntime config.profile) (hid : wellFormed runId = true)
    (hpub : publishScenario runId now rt.floatRepr config.profile .error = .ok msgs)
    (hcarries : Carries broker msgs) (tps : List TopicPartition) (event : Event) :
    event ∉ broker.events rt.toPyRuntime config tps := by
  intro hmem
  obtain ⟨tp, -, msg, hmsg, hevent⟩ := mem_brokerEvents.mp hmem
  obtain ⟨p, hp, htopic, -, hvalue⟩ := hcarries.only tp msg hmsg
  obtain ⟨record, hrecord, hpublish⟩ := exists_left (mapM_eq_ok_iff.mp hpub) hp
  have hcases : record = invalidLedger runId now ∨ record = invalidOrder runId now := by
    simpa [buildScenarioRecords] using hrecord
  rcases hcases with rfl | rfl
  · exact invalidLedger_unreadable hrt hprofile hid p hpublish msg htopic hvalue event hevent
  · exact invalidOrder_unreadable hrt hprofile hid p hpublish msg htopic hvalue event hevent

end

/-! ## Every run of the group -/

section
variable {floatOf : PyStr → PyFloat} {rt : TextRuntime} {config : AppConfig} {broker : Broker}

/-- A group that has applied no event of a log has recorded its messages. -/
theorem recorded_of_unread {tps : List TopicPartition} {events : List GroupEvent} {g : Group}
    (hcover : ∀ tp, broker.log tp ≠ [] → tp ∈ tps)
    (hnone : ∀ event, event ∉ broker.events rt.toPyRuntime config tps)
    (hsafe : Meets (Group.step rt.toPyRuntime config broker)
      (Delivers broker (Safe rt.toPyRuntime config)) (start .empty [] []) events)
    (hrun : runAll (Group.step rt.toPyRuntime config broker) (start .empty [] []) events = some g)
    (hdone : ∀ tp ∈ tps, g.committed tp = (broker.log tp).length) {tp : TopicPartition}
    {msg : Message} (hmsg : msg ∈ broker.log tp) :
    ∃ sink payload, .recorded sink payload ∈ g.world.trace ∧ RecordFor msg payload := by
  have hprogress := progress_kept hsafe hrun
  have htp : tp ∈ tps := hcover tp (List.ne_nil_of_mem hmsg)
  obtain ⟨i, hi, hget⟩ := List.getElem_of_mem hmsg
  have hbefore : i < g.position tp := (hi.trans_eq (hdone tp htp).symm).trans_le
    (hprogress.committed_le tp)
  obtain ⟨e, he, hkeeps⟩ := hprogress.done_before tp i msg hbefore
    (List.getElem?_eq_some_iff.mpr ⟨hi, hget⟩)
  cases hkeeps with
  | applied call =>
    obtain ⟨⟨tp', hmsg'⟩, hevent⟩ := appliesLogs_run (appliesLogs_start _ _ _) hrun msg call he
    exact absurd (mem_brokerEvents.mpr
      ⟨tp', hcover tp' (List.ne_nil_of_mem hmsg'), msg, hmsg', hevent⟩) (hnone _)
  | recorded sink hrecord => exact ⟨sink, _, he, hrecord⟩

end

/-! ### A sample run -/

/-- Partition 0 of each topic holds the topic's messages in the order they were published. -/
def publishedLog (msgs : List Published) : Broker where
  log q :=
    if q.partition = 0 then
      (msgs.filter (fun p => p.topic = q.topic)).mapIdx fun i p =>
        ⟨q.topic, 0, i, some p.key, some p.value, none⟩
    else []
  placed q i msg h := by
    split at h
    · next hq =>
      rw [List.getElem?_mapIdx] at h
      obtain ⟨p, -, rfl⟩ := Option.map_eq_some_iff.mp h
      exact ⟨rfl, hq.symm, rfl⟩
    · cases h

theorem mem_publishedLog {msgs : List Published} {q : TopicPartition} {msg : Message} :
    msg ∈ (publishedLog msgs).log q ↔ q.partition = 0 ∧
      ∃ i, ∃ hi : i < (msgs.filter (fun p => p.topic = q.topic)).length,
        msg = ⟨q.topic, 0, i, some ((msgs.filter (fun p => p.topic = q.topic))[i]).key,
          some ((msgs.filter (fun p => p.topic = q.topic))[i]).value, none⟩ := by
  unfold publishedLog
  by_cases hq : q.partition = 0
  · simp only [hq, if_true, true_and, List.mem_mapIdx]
    exact exists_congr fun i => exists_congr fun hi => eq_comm
  · simp [hq]

theorem carries_publishedLog (msgs : List Published) : Carries (publishedLog msgs) msgs where
  only := by
    intro tp msg hmsg
    obtain ⟨-, i, hi, rfl⟩ := mem_publishedLog.mp hmsg
    obtain ⟨hp, htopic⟩ := List.mem_filter.mp (List.getElem_mem hi)
    exact ⟨_, hp, (of_decide_eq_true htopic).symm, rfl, rfl⟩
  all := by
    intro p hp
    have hmem : p ∈ msgs.filter (fun q => q.topic = p.topic) :=
      List.mem_filter.mpr ⟨hp, decide_eq_true rfl⟩
    obtain ⟨i, hi, hget⟩ := List.getElem_of_mem hmem
    refine ⟨⟨p.topic, 0⟩, _, mem_publishedLog.mpr ⟨rfl, i, hi, rfl⟩, rfl, ?_, ?_⟩
    · exact congrArg (fun q : Published => some q.key) hget
    · exact congrArg (fun q : Published => some q.value) hget

/-- The times of the sample and the conversions of its numbers. -/
def scriptRuntime : TextRuntime :=
  { readerRuntime with
    decimal := exactRuntime.decimal
    intOf := Json.toInt
    fromisoformat := fun text =>
      if text = py "2026-01-01T00:00:00+00:00" then some ⟨1767225600000000, some 0⟩
      else if text = py "2025-12-31T23:57:00+00:00" then some ⟨1767225420000000, some 0⟩
      else none }

theorem wellFormed_of_ascii {s : PyStr} (h : ascii s = true) : wellFormed s = true := by
  rw [wellFormed_iff]
  intro c hc
  have hlow := of_decide_eq_true (List.all_eq_true.mp h c hc)
  rw [isScalar_iff]
  omega

theorem scriptRuntime_reads : ReadsWritten scriptRuntime sampleFloatOf where
  loads := rfl
  floats := sampleFloats
  bytes := by
    intro text htext
    show readerRuntime.jsonLoads (encode text) = jsonLoadsText sampleFloatOf text
    simp only [readerRuntime, decode?_encode (wellFormed_of_ascii htext)]
  decimal := by
    intro text n hn _
    show (numericText text).map decimalOf = some (decimalOf n)
    rw [hn]
    rfl
  intOf := fun _ => rfl

def sampleNow : DateTime := 1767225600250000

def sampleRun : PyStr := py "demo"

def sampleMessages : List Published :=
  (publishScenario sampleRun sampleNow sampleFloatRepr canonicalV1 .outOfOrder).toOption.getD []

def ledgerPartition : TopicPartition := ⟨canonicalV1.topicOf .ledger, 0⟩

def orderPartition : TopicPartition := ⟨canonicalV1.topicOf .paymentOrder, 0⟩

/-- An owner dies on the second ledger message and the next one starts over. -/
def scenarioEvents : List GroupEvent :=
  [.deliver ledgerPartition (sampleCircumstances 0),
    .deliver orderPartition (sampleCircumstances 1), .die ledgerPartition (sampleCircumstances 2) 1,
    .assign ledgerPartition, .deliver ledgerPartition (sampleCircumstances 3),
    .deliver ledgerPartition (sampleCircumstances 4),
    .deliver orderPartition (sampleCircumstances 5),
    .deliver ledgerPartition (sampleCircumstances 6),
    .deliver ledgerPartition (sampleCircumstances 7), .commitArrives ledgerPartition 4,
    .commitArrives orderPartition 2]

/-- The run ends with every offset committed, under a clock that never went back. -/
def Completed (g : Group) : Prop :=
  (∀ tp ∈ [ledgerPartition, orderPartition],
    g.committed tp = ((publishedLog sampleMessages).log tp).length) ∧
    ClockMonotone (appliedCalls g.world.trace)

instance (g : Group) : Decidable (Completed g) :=
  inferInstanceAs (Decidable (_ ∧ List.Pairwise (· ≤ ·) _))

theorem scenarioEvents_complete : (runAll
    (Group.step scriptRuntime.toPyRuntime sampleConfig (publishedLog sampleMessages))
    (start .empty [] []) scenarioEvents).any (fun g => decide (Completed g)) = true := by
  decide +kernel

theorem readsTime_sample {v : EventVersion} (hv : v ∈ versions sampleNow .outOfOrder) :
    ReadsTime scriptRuntime.toPyRuntime v.eventTime := by
  simp only [versions, List.mem_cons, List.not_mem_nil, or_false] at hv
  have hnow : isoformat (wholeSecond sampleNow) = py "2026-01-01T00:00:00+00:00" := by
    decide +kernel
  have holder : isoformat (wholeSecond (sampleNow - staleness)) =
      py "2025-12-31T23:57:00+00:00" := by decide +kernel
  rcases hv with rfl | rfl
  · refine ⟨by decide, ?_⟩
    rw [hnow]
    rfl
  · refine ⟨by decide, ?_⟩
    rw [holder]
    rfl

theorem sampleMessages_published :
    publishScenario sampleRun sampleNow sampleFloatRepr canonicalV1 .outOfOrder =
      .ok sampleMessages := by
  have hsome : (publishScenario sampleRun sampleNow sampleFloatRepr canonicalV1
      .outOfOrder).toOption.isSome = true := by decide +kernel
  unfold sampleMessages
  cases hpub : publishScenario sampleRun sampleNow sampleFloatRepr canonicalV1 .outOfOrder with
  | error exc =>
    rw [hpub] at hsome
    cases hsome
  | ok msgs => rfl

/-- The sample's messages are in two partitions. -/
theorem sampleLog_cover (tp : TopicPartition) (hne : (publishedLog sampleMessages).log tp ≠ []) :
    tp ∈ [ledgerPartition, orderPartition] := by
  have htopics : ∀ p ∈ sampleMessages, p.topic = ledgerPartition.topic ∨
      p.topic = orderPartition.topic := by decide +kernel
  obtain ⟨msg, hmsg⟩ := List.exists_mem_of_ne_nil _ hne
  obtain ⟨p, hp, htopic, -, -⟩ := (carries_publishedLog sampleMessages).only tp msg hmsg
  obtain ⟨hzero, i, hi, rfl⟩ := mem_publishedLog.mp hmsg
  have hsame : tp.topic = p.topic := htopic
  obtain ⟨topic, partition⟩ := tp
  obtain rfl : partition = 0 := hzero
  simp only [List.mem_cons, List.not_mem_nil, or_false]
  rcases htopics p hp with h | h
  · exact .inl (congrArg (TopicPartition.mk · 0) (hsame.trans h))
  · exact .inr (congrArg (TopicPartition.mk · 0) (hsame.trans h))

end TxLookup.Scripts
