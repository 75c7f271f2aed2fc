import TxLookup.Consumer.PairView

/-!
# Arrival order and replay

Two runs agree when their business tables are equal up to ingestion times and
their pair tables show the same view. The business tables agree because each key
is a latest-wins run; the pair tables agree because both are views of ledgers
that do.
-/
namespace TxLookup.Consumer

open Library Db Db.LatestWins KeyedTable

/-- Equal business columns in both versioned tables and equal views of the pairs. -/
structure Agrees (db₁ db₂ : Database) : Prop where
  ledgerEntries : Agree ledgerEntriesStamped.business db₁.ledgerEntries db₂.ledgerEntries
  paymentOrders : Agree paymentOrdersStamped.business db₁.paymentOrders db₂.paymentOrders
  paymentLedgerPairs : Agree pairView db₁.paymentLedgerPairs db₂.paymentLedgerPairs

/-! ## The rows events propose -/

/-- The ledger rows of the events, all columns but the ingestion time. -/
def ledgerProposals (events : List Event) : List LedgerEntry :=
  (ledgerEvents events).map (fun event => storedEntry event 0)

/-- The order rows of the events, all columns but the ingestion time. -/
def orderProposals (events : List Event) : List PaymentOrder :=
  (orderEvents events).map (fun event => storedOrder event 0)

theorem ledgerRows_business (calls : List Call) :
    (calls.filterMap Call.ledgerRow).map ledgerEntriesStamped.business =
      ledgerProposals (eventsOf calls) := by
  rw [ledgerProposals, ledgerEvents, eventsOf, List.map_filterMap, List.map_filterMap,
    List.filterMap_map]
  refine congrArg (fun f => calls.filterMap f) (funext fun call => ?_)
  rw [Call.ledgerRow, Option.map_map]
  rfl

theorem orderRows_business (calls : List Call) :
    (calls.filterMap Call.orderRow).map paymentOrdersStamped.business =
      orderProposals (eventsOf calls) := by
  rw [orderProposals, orderEvents, eventsOf, List.map_filterMap, List.map_filterMap,
    List.filterMap_map]
  refine congrArg (fun f => calls.filterMap f) (funext fun call => ?_)
  rw [Call.orderRow, Option.map_map]
  rfl

theorem ClockMonotone.ingested {calls : List Call} (h : ClockMonotone calls) :
    calls.Pairwise (fun old new => old.env.ingestedNow ≤ new.env.ingestedNow) := by
  have hmem : ∀ call : Call, call.env.ingestedNow ∈ call.readings := by
    intro call
    unfold Call.readings
    split <;> exact List.mem_cons_self
  exact (List.pairwise_flatMap.mp h).2.imp (fun hle => hle _ (hmem _) _ (hmem _))

theorem ClockMonotone.ledgerRows {calls : List Call} (h : ClockMonotone calls) :
    IngestedInOrder ledgerEntriesStamped (calls.filterMap Call.ledgerRow) := by
  rw [IngestedInOrder, List.pairwise_filterMap]
  refine h.ingested.imp (fun hle old hold new hnew => ?_)
  obtain ⟨_, _, rfl⟩ := ledgerRow_eq_some.mp hold
  obtain ⟨_, _, rfl⟩ := ledgerRow_eq_some.mp hnew
  exact hle

theorem ClockMonotone.orderRows {calls : List Call} (h : ClockMonotone calls) :
    IngestedInOrder paymentOrdersStamped (calls.filterMap Call.orderRow) := by
  rw [IngestedInOrder, List.pairwise_filterMap]
  refine h.ingested.imp (fun hle old hold new hnew => ?_)
  obtain ⟨_, _, rfl⟩ := Option.map_eq_some_iff.mp hold
  obtain ⟨_, _, rfl⟩ := Option.map_eq_some_iff.mp hnew
  exact hle

/-! ## Equal ledgers, equal views -/

theorem eq_of_business {e e' : LedgerEntry}
    (h : ledgerEntriesStamped.business e' = ledgerEntriesStamped.business e) :
    e'.relatedId = e.relatedId ∧ e'.entryType = e.entryType ∧ e'.eventTime = e.eventTime := by
  have hr := congrArg LedgerEntry.relatedId h
  have ht := congrArg LedgerEntry.entryType h
  have hv := congrArg LedgerEntry.eventTime h
  exact ⟨hr, ht, hv⟩

theorem relationRows_agree {l₁ l₂ : ledgerEntries.Table}
    (h : Agree ledgerEntriesStamped.business l₁ l₂) {k : PyStr} {e : LedgerEntry}
    (he : e ∈ relationRows l₁ k) : ∃ e' ∈ relationRows l₂ k,
      ledgerEntriesStamped.business e' = ledgerEntriesStamped.business e := by
  obtain ⟨hm, hr⟩ := mem_relationRows.mp he
  obtain ⟨e', hm', _, hb⟩ := h.exists_mem hm
  exact ⟨e', mem_relationRows.mpr ⟨hm', (eq_of_business hb).1.trans hr⟩, hb⟩

theorem legOf_spec {ledger : ledgerEntries.Table} {k : PyStr} {leg : Leg} {e : LedgerEntry}
    (h : legOf ledger k leg = some e) :
    e ∈ relationRows ledger k ∧ e.entryType = leg.entryType := by
  have ht := List.find?_some h
  exact ⟨List.mem_of_find?_eq_some h, of_decide_eq_true ht⟩

/-- A row of a leg is the leg, when legs are unique. -/
theorem legOf_of_mem {ledger : ledgerEntries.Table} {k : PyStr} (hu : UniqueLegs ledger k)
    {leg : Leg} {e : LedgerEntry} (he : e ∈ relationRows ledger k)
    (ht : e.entryType = leg.entryType) : legOf ledger k leg = some e := by
  have hsome : (legOf ledger k leg).isSome := List.find?_isSome.mpr ⟨e, he, decide_eq_true ht⟩
  obtain ⟨e', he'⟩ := Option.isSome_iff_exists.mp hsome
  obtain ⟨hm', ht'⟩ := legOf_spec he'
  rw [he', hu leg e' hm' e he ht' ht]

theorem legOf_agree {l₁ l₂ : ledgerEntries.Table} {k : PyStr}
    (h : Agree ledgerEntriesStamped.business l₁ l₂) (hu : UniqueLegs l₂ k) {leg : Leg}
    {e : LedgerEntry} (he : legOf l₁ k leg = some e) :
    (legOf l₂ k leg).map ledgerEntriesStamped.business =
      some (ledgerEntriesStamped.business e) := by
  obtain ⟨hm, ht⟩ := legOf_spec he
  obtain ⟨e', hm', hb⟩ := relationRows_agree h hm
  rw [legOf_of_mem hu hm' ((eq_of_business hb).2.1.trans ht), Option.map_some, hb]

/-- Ledgers equal up to ingestion times have the same legs up to them. -/
theorem legOf_congr {l₁ l₂ : ledgerEntries.Table} {k : PyStr}
    (h : Agree ledgerEntriesStamped.business l₁ l₂) (hu₁ : UniqueLegs l₁ k)
    (hu₂ : UniqueLegs l₂ k) (leg : Leg) : (legOf l₁ k leg).map ledgerEntriesStamped.business =
      (legOf l₂ k leg).map ledgerEntriesStamped.business := by
  cases h₁ : legOf l₁ k leg with
  | some e => exact (legOf_agree h hu₂ h₁).symm
  | none =>
    cases h₂ : legOf l₂ k leg with
    | none => rfl
    | some e =>
      have hl := legOf_agree h.symm hu₁ h₂
      rw [h₁] at hl
      cases hl

theorem ledgerView_congr {l₁ l₂ : ledgerEntries.Table} {k : PyStr}
    (h : Agree ledgerEntriesStamped.business l₁ l₂) (hu₁ : UniqueLegs l₁ k)
    (hu₂ : UniqueLegs l₂ k) : ledgerView l₁ k = ledgerView l₂ k := by
  have hnil : ∀ {l l' : ledgerEntries.Table}, Agree ledgerEntriesStamped.business l l' →
      relationRows l k = [] → relationRows l' k = [] := by
    intro l l' hl hnil
    rw [List.eq_nil_iff_forall_not_mem]
    intro e he
    obtain ⟨e', he', _⟩ := relationRows_agree hl.symm he
    rw [hnil] at he'
    cases he'
  have htimes : ∀ {l l' : ledgerEntries.Table}, Agree ledgerEntriesStamped.business l l' →
      ∀ s ∈ (relationRows l k).map asSnapshot, ∃ s' ∈ (relationRows l' k).map asSnapshot,
        s'.eventTime = s.eventTime := by
    intro l l' hl s hs
    obtain ⟨e, he, rfl⟩ := List.mem_map.mp hs
    obtain ⟨e', he', hb⟩ := relationRows_agree hl he
    exact ⟨_, List.mem_map_of_mem he', (eq_of_business hb).2.2⟩
  have hleg : ∀ {β : Type} (f : LedgerEntry → β),
      (∀ e, f (ledgerEntriesStamped.business e) = f e) → ∀ leg,
        (legOf l₁ k leg).map f = (legOf l₂ k leg).map f := by
    intro β f hf leg
    have hcongr := congrArg (Option.map f) (legOf_congr h hu₁ hu₂ leg)
    simpa only [Option.map_map, Function.comp_def, hf] using hcongr
  have hguard : (k = [] ∨ relationRows l₁ k = []) ↔ (k = [] ∨ relationRows l₂ k = []) :=
    or_congr Iff.rfl ⟨hnil h, hnil h.symm⟩
  unfold ledgerView
  rw [latestEventTime_congr (htimes h) (htimes h.symm)]
  simp only [hguard, hleg (·.txId) (fun _ => rfl), hleg (·.walletId) (fun _ => rfl)]

/-- Runs under the contract agree as soon as their business tables do. -/
theorem agrees_of_tables {calls₁ calls₂ : List Call} (hc₁ : PairContract (eventsOf calls₁))
    (hc₂ : PairContract (eventsOf calls₂)) (hclock₁ : ClockMonotone calls₁)
    (hclock₂ : ClockMonotone calls₂)
    (hledger : Agree ledgerEntriesStamped.business (run calls₁).ledgerEntries
      (run calls₂).ledgerEntries)
    (horders : Agree paymentOrdersStamped.business (run calls₁).paymentOrders
      (run calls₂).paymentOrders) : Agrees (run calls₁) (run calls₂) where
  ledgerEntries := hledger
  paymentOrders := horders
  paymentLedgerPairs := fun k => by
    rw [pairs_show_ledger calls₁ hc₁ hclock₁, pairs_show_ledger calls₂ hc₂ hclock₂]
    exact ledgerView_congr hledger (hc₁.uniqueLegs k) (hc₂.uniqueLegs k)

/-! ## Arrival order -/

/-- The pairing contract, with an update stamp on all events of a key or else a
version on all of them, and identical events where these tie. -/
structure ArrivalContract (events : List Event) : Prop extends PairContract events where
  ledgerClass : OneClass ledgerEntriesStamped (· ≠ .ingestedAt) (ledgerProposals events)
  ledgerTies : TiesIdentical ledgerEntriesStamped (ledgerProposals events)
  orderClass : OneClass paymentOrdersStamped (· ≠ .ingestedAt) (orderProposals events)
  orderTies : TiesIdentical paymentOrdersStamped (orderProposals events)

/-- The contract speaks of the set of events only. -/
theorem ArrivalContract.mono {events events' : List Event} (h : ArrivalContract events)
    (hsub : events' ⊆ events) : ArrivalContract events' := by
  have hl : ledgerProposals events' ⊆ ledgerProposals events :=
    List.map_subset _ (List.filterMap_subset _ hsub)
  have ho : orderProposals events' ⊆ orderProposals events :=
    List.map_subset _ (List.filterMap_subset _ hsub)
  exact {
    toPairContract := h.toPairContract.mono hsub
    ledgerClass := h.ledgerClass.subset hl
    ledgerTies := h.ledgerTies.subset hl
    orderClass := h.orderClass.subset ho
    orderTies := h.orderTies.subset ho }

theorem ArrivalContract.perm {events events' : List Event} (h : ArrivalContract events)
    (hp : events.Perm events') : ArrivalContract events' := h.mono hp.symm.subset

/-- Runs of the same events agree, whatever their order and however often each
event is applied. -/
theorem agrees_of_same {calls₁ calls₂ : List Call} (hc : ArrivalContract (eventsOf calls₁))
    (hsame : ∀ event, event ∈ eventsOf calls₁ ↔ event ∈ eventsOf calls₂)
    (hclock₁ : ClockMonotone calls₁) (hclock₂ : ClockMonotone calls₂) :
    Agrees (run calls₁) (run calls₂) := by
  have hl : ∀ row, row ∈ ledgerProposals (eventsOf calls₁) ↔
      row ∈ ledgerProposals (eventsOf calls₂) := by
    intro row
    simp only [ledgerProposals, ledgerEvents, List.mem_map, List.mem_filterMap, hsame]
  have ho : ∀ row, row ∈ orderProposals (eventsOf calls₁) ↔
      row ∈ orderProposals (eventsOf calls₂) := by
    intro row
    simp only [orderProposals, orderEvents, List.mem_map, List.mem_filterMap, hsame]
  refine agrees_of_tables hc.toPairContract
    (hc.toPairContract.mono fun event h => (hsame event).mpr h) hclock₁ hclock₂
    (fun k => ?_) (fun k => ?_)
  · rw [run, run, runFrom_ledgerEntries, runFrom_ledgerEntries]
    refine upsertRun_same ledgerEntriesStamped hclock₁.ledgerRows hclock₂.ledgerRows ?_
      (ledgerRows_business calls₁ ▸ hc.ledgerClass) (ledgerRows_business calls₁ ▸ hc.ledgerTies) k
    rw [ledgerRows_business, ledgerRows_business]
    exact hl
  · rw [run, run, runFrom_paymentOrders, runFrom_paymentOrders]
    refine upsertRun_same paymentOrdersStamped hclock₁.orderRows hclock₂.orderRows ?_
      (orderRows_business calls₁ ▸ hc.orderClass) (orderRows_business calls₁ ▸ hc.orderTies) k
    rw [orderRows_business, orderRows_business]
    exact ho

theorem agrees_of_perm {calls₁ calls₂ : List Call} (hc : ArrivalContract (eventsOf calls₁))
    (hp : (eventsOf calls₁).Perm (eventsOf calls₂)) (hclock₁ : ClockMonotone calls₁)
    (hclock₂ : ClockMonotone calls₂) : Agrees (run calls₁) (run calls₂) :=
  agrees_of_same hc (fun _ => hp.mem_iff) hclock₁ hclock₂

/-! ## Replay -/

/-- The pairing contract, with one class of metadata for each key. -/
structure ReplayContract (events : List Event) : Prop extends PairContract events where
  ledgerClass : OneClass ledgerEntriesStamped (fun _ => True) (ledgerProposals events)
  orderClass : OneClass paymentOrdersStamped (fun _ => True) (orderProposals events)

theorem ReplayContract.replayed {log again : List Call} (hc : ReplayContract (eventsOf log))
    (hs : eventsOf again <:+ eventsOf log) : PairContract (eventsOf (log ++ again)) := by
  refine hc.toPairContract.mono ?_
  rw [eventsOf, List.map_append]
  exact List.append_subset.mpr ⟨List.Subset.refl _, hs.subset⟩

theorem agrees_of_replay {log again : List Call} (hc : ReplayContract (eventsOf log))
    (hs : eventsOf again <:+ eventsOf log) (hclock : ClockMonotone (log ++ again)) :
    Agrees (run (log ++ again)) (run log) := by
  have hsl : ledgerProposals (eventsOf again) <:+ ledgerProposals (eventsOf log) :=
    (hs.filterMap _).map _
  have hso : orderProposals (eventsOf again) <:+ orderProposals (eventsOf log) :=
    (hs.filterMap _).map _
  refine agrees_of_tables (hc.replayed hs) hc.toPairContract hclock hclock.left
    (fun k => ?_) (fun k => ?_)
  · have hrows := hclock.ledgerRows
    rw [run, run, runFrom_ledgerEntries, runFrom_ledgerEntries]
    rw [List.filterMap_append] at hrows ⊢
    rw [← ledgerRows_business, ← ledgerRows_business] at hsl
    exact upsertRun_replay ledgerEntriesStamped hrows hsl
      (ledgerRows_business log ▸ hc.ledgerClass) k
  · have hrows := hclock.orderRows
    rw [run, run, runFrom_paymentOrders, runFrom_paymentOrders]
    rw [List.filterMap_append] at hrows ⊢
    rw [← orderRows_business, ← orderRows_business] at hso
    exact upsertRun_replay paymentOrdersStamped hrows hso
      (orderRows_business log ▸ hc.orderClass) k

end TxLookup.Consumer
