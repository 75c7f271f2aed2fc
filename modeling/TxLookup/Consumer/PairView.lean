import TxLookup.Consumer.PairHistory
import TxLookup.Library.FirstMatch

/-!
# The pair table as a view of the ledger

The abstract pair table is a function of the ledger: the two legs of a relation,
their wallets and the latest event time. Under the event contract and a clock
that never goes back, the stored table shows that view after every call.
-/
namespace TxLookup.Consumer

open Library Db KeyedTable

/-- The columns of a pair row that derive from the ledger. -/
structure PairView where
  paymentTxId : Option PyStr
  receiveTxId : Option PyStr
  payerWalletId : Option PyStr
  payeeWalletId : Option PyStr
  eventTime : Option DateTime
  deriving DecidableEq

def pairView (p : PaymentLedgerPair) : PairView :=
  ⟨p.paymentTxId, p.receiveTxId, p.payerWalletId, p.payeeWalletId, p.eventTime⟩

def relationRows (ledger : ledgerEntries.Table) (k : PyStr) : List LedgerEntry :=
  ledger.rows.filter (fun e => e.relatedId = some k)

def legOf (ledger : ledgerEntries.Table) (k : PyStr) (leg : Leg) : Option LedgerEntry :=
  (relationRows ledger k).find? (fun e => e.entryType = leg.entryType)

/-- The view of a relation, which an empty identifier or an empty relation lacks. -/
def ledgerView (ledger : ledgerEntries.Table) (k : PyStr) : Option PairView :=
  if k = [] ∨ relationRows ledger k = [] then none
  else some {
    paymentTxId := (legOf ledger k .payment).map (·.txId)
    receiveTxId := (legOf ledger k .receive).map (·.txId)
    payerWalletId := (legOf ledger k .payment).map (·.walletId)
    payeeWalletId := (legOf ledger k .receive).map (·.walletId)
    eventTime := latestEventTime ((relationRows ledger k).map asSnapshot) }

/-- A relation has at most one row of each leg. -/
def UniqueLegs (ledger : ledgerEntries.Table) (k : PyStr) : Prop :=
  ∀ leg : Leg, ∀ e ∈ relationRows ledger k, ∀ e' ∈ relationRows ledger k,
    e.entryType = leg.entryType → e'.entryType = leg.entryType → e = e'

theorem mem_relationRows {ledger : ledgerEntries.Table} {k : PyStr} {e : LedgerEntry} :
    e ∈ relationRows ledger k ↔ e ∈ ledger.rows ∧ e.relatedId = some k := by
  rw [relationRows, List.mem_filter, decide_eq_true_eq]

/-! ## Independence of the row order -/

/-- The latest event time is attained and is an upper bound. -/
theorem latestEventTime_spec {entries : List LedgerEntrySnapshot} (hne : entries ≠ []) :
    ∃ t, latestEventTime entries = some t ∧ (∃ e ∈ entries, e.eventTime = t) ∧
      ∀ e ∈ entries, e.eventTime ≤ t := by
  induction entries using List.reverseRecOn with
  | nil => exact absurd rfl hne
  | append_singleton entries x ih =>
    have hlast : x ∈ entries ++ [x] := List.mem_append_right _ (List.mem_singleton_self x)
    unfold latestEventTime
    rw [List.foldl_append]
    change ∃ t, laterTime (latestEventTime entries) x = some t ∧ _
    by_cases hnil : entries = []
    · subst hnil
      refine ⟨x.eventTime, rfl, ⟨x, hlast, rfl⟩, fun e he => ?_⟩
      rw [List.nil_append, List.mem_singleton] at he
      rw [he]
    obtain ⟨t, ht, ⟨e, he, het⟩, hle⟩ := ih hnil
    rw [ht]
    by_cases hlt : t < x.eventTime
    · refine ⟨x.eventTime, if_pos hlt, ⟨x, hlast, rfl⟩, fun y hy => ?_⟩
      rcases List.mem_append.mp hy with hy | hy
      · exact (hle y hy).trans (le_of_lt hlt)
      · rw [List.mem_singleton.mp hy]
    · refine ⟨t, if_neg hlt, ⟨e, List.mem_append_left _ he, het⟩, fun y hy => ?_⟩
      rcases List.mem_append.mp hy with hy | hy
      · exact hle y hy
      · rw [List.mem_singleton.mp hy]
        exact not_lt.mp hlt

/-- Only the set of event times matters. -/
theorem latestEventTime_congr {l₁ l₂ : List LedgerEntrySnapshot}
    (h₁ : ∀ e ∈ l₁, ∃ e' ∈ l₂, e'.eventTime = e.eventTime)
    (h₂ : ∀ e ∈ l₂, ∃ e' ∈ l₁, e'.eventTime = e.eventTime) :
    latestEventTime l₁ = latestEventTime l₂ := by
  by_cases hnil : l₁ = []
  · subst hnil
    cases l₂ with
    | nil => rfl
    | cons e l₂ => obtain ⟨_, h, _⟩ := h₂ e List.mem_cons_self; cases h
  have hnil₂ : l₂ ≠ [] := by
    rintro rfl
    obtain ⟨e, he⟩ := List.exists_mem_of_ne_nil l₁ hnil
    obtain ⟨_, h, _⟩ := h₁ e he
    cases h
  obtain ⟨t₁, ht₁, ⟨e₁, he₁, heq₁⟩, hle₁⟩ := latestEventTime_spec hnil
  obtain ⟨t₂, ht₂, ⟨e₂, he₂, heq₂⟩, hle₂⟩ := latestEventTime_spec hnil₂
  have h12 : t₁ ≤ t₂ := by
    obtain ⟨e, he, heq⟩ := h₁ e₁ he₁
    rw [← heq₁, ← heq]
    exact hle₂ e he
  have h21 : t₂ ≤ t₁ := by
    obtain ⟨e, he, heq⟩ := h₂ e₂ he₂
    rw [← heq₂, ← heq]
    exact hle₁ e he
  rw [ht₁, ht₂, le_antisymm h12 h21]

theorem latestEventTime_perm {entries entries' : List LedgerEntrySnapshot}
    (h : entries'.Perm entries) : latestEventTime entries' = latestEventTime entries :=
  latestEventTime_congr (fun e he => ⟨e, h.mem_iff.mp he, rfl⟩)
    (fun e he => ⟨e, h.mem_iff.mpr he, rfl⟩)

/-- Where legs are unique, any row order leads to the leg of the view. -/
theorem legRow_eq_legOf {db : Database} {k : PyStr} (hu : UniqueLegs db.ledgerEntries k)
    (env : Surroundings) (leg : Leg) : legRow env k db leg = legOf db.ledgerEntries k leg := by
  have hp : (selectRelated env.scan db k).Perm (relationRows db.ledgerEntries k) := env.scan.perm _
  refine FirstMatch.AtMostOne.find?_perm (fun x hx y hy htx hty => ?_) hp
  exact hu leg x hx y hy (of_decide_eq_true htx) (of_decide_eq_true hty)

/-- The pairing step computes the view. -/
theorem freshPair_view {db : Database} {k : PyStr} (hu : UniqueLegs db.ledgerEntries k)
    (hk : k ≠ []) (hrows : relationRows db.ledgerEntries k ≠ []) (env : Surroundings) :
    some (pairView (freshPair env k db)) = ledgerView db.ledgerEntries k := by
  have hp : (selectRelated env.scan db k).Perm (relationRows db.ledgerEntries k) := env.scan.perm _
  have htime : (freshPair env k db).eventTime =
      latestEventTime ((relationRows db.ledgerEntries k).map asSnapshot) :=
    latestEventTime_perm (hp.map asSnapshot)
  have htx := fun leg => freshPair_tx env k db leg
  have hw := fun leg => freshPair_wallet env k db leg
  simp only [legRow_eq_legOf hu] at htx hw
  rw [ledgerView, if_neg (not_or.mpr ⟨hk, hrows⟩)]
  congr 1
  have h1 := htx .payment
  have h2 := htx .receive
  have h3 := hw .payment
  have h4 := hw .receive
  simp only [Leg.tx, Leg.wallet] at h1 h2 h3 h4
  rw [pairView, h1, h2, h3, h4, htime]

/-! ## The contract -/

/-- Events keep a transaction's relation and type, relate to payment orders only,
and bring at most one transaction of each leg to a relation. -/
structure PairContract (events : List Event) : Prop where
  sameRelation : SameRelation events
  relatedType : ∀ event ∈ ledgerEvents events,
    event.relatedType = none ∨ event.relatedType = some PAYMENT_ORDER
  oneLeg : ∀ leg : Leg, ∀ event ∈ ledgerEvents events, ∀ event' ∈ ledgerEvents events,
    event.relatedId.isSome → event.relatedId = event'.relatedId →
      event.entryType = leg.entryType → event'.entryType = leg.entryType → event.txId = event'.txId

theorem ledgerEvents_subset {events events' : List Event} (h : events' ⊆ events) :
    ledgerEvents events' ⊆ ledgerEvents events := by
  intro event he
  obtain ⟨ev, hev, hl⟩ := List.mem_filterMap.mp he
  exact List.mem_filterMap.mpr ⟨ev, h hev, hl⟩

/-- The contract speaks of the set of events only. -/
theorem PairContract.mono {events events' : List Event} (h : PairContract events)
    (hsub : events' ⊆ events) : PairContract events' where
  sameRelation := fun e he e' he' =>
    h.sameRelation e (ledgerEvents_subset hsub he) e' (ledgerEvents_subset hsub he')
  relatedType := fun e he => h.relatedType e (ledgerEvents_subset hsub he)
  oneLeg := fun leg e he e' he' =>
    h.oneLeg leg e (ledgerEvents_subset hsub he) e' (ledgerEvents_subset hsub he')

theorem PairContract.uniqueLegs {calls : List Call} (h : PairContract (eventsOf calls))
    (k : PyStr) : UniqueLegs (run calls).ledgerEntries k := by
  intro leg e he e' he' ht ht'
  obtain ⟨hm, hr⟩ := mem_relationRows.mp he
  obtain ⟨hm', hr'⟩ := mem_relationRows.mp he'
  obtain ⟨ev, hev, t, rfl⟩ := ledger_row_event hm
  obtain ⟨ev', hev', t', rfl⟩ := ledger_row_event hm'
  have hsome : ev.relatedId.isSome := Option.isSome_iff_exists.mpr ⟨k, hr⟩
  have htx := h.oneLeg leg ev hev ev' hev' hsome (Eq.trans hr hr'.symm) ht ht'
  exact (run calls).ledgerEntries.eq_of_key hm hm' htx

/-! ## The clock -/

/-- The clock readings a call takes, in order: one for the row, and two more
when it reaches the pairing step. -/
def Call.readings (call : Call) : List DateTime :=
  match call.event.ledger?.bind pairingTarget with
  | some _ => [call.env.ingestedNow, call.env.computeNow, call.env.pairNow]
  | none => [call.env.ingestedNow]

/-- No reading of the run is earlier than one before it. -/
def ClockMonotone (calls : List Call) : Prop := (calls.flatMap Call.readings).Pairwise (· ≤ ·)

theorem ClockMonotone.left {calls more : List Call} (h : ClockMonotone (calls ++ more)) :
    ClockMonotone calls := by
  rw [ClockMonotone, List.flatMap_append] at h
  exact (List.pairwise_append.mp h).1

theorem pairNow_mem_readings {call : Call} {k : PyStr} (h : call.Refreshes k) :
    call.env.pairNow ∈ call.readings := by
  obtain ⟨event, hev, ht⟩ := h
  have hb : call.event.ledger?.bind pairingTarget = some k := by rw [hev]; exact ht
  simp only [Call.readings, hb, List.mem_cons, true_or, or_true]

/-- A stored pair row is not stamped later than a refresh that follows. -/
theorem stored_stamp_le {calls : List Call} {call : Call} {k : PyStr}
    (hclock : ClockMonotone (calls ++ [call])) (href : call.Refreshes k) {p : PaymentLedgerPair}
    (hp : (run calls).paymentLedgerPairs.find? k = some p) : p.updatedAt ≤ call.env.pairNow := by
  obtain ⟨pre, writer, post, rfl, ⟨hw, hfresh, _⟩, _⟩ := provenance_of_run calls k p hp
  have hstamp : p.updatedAt = writer.env.pairNow := by rw [hfresh]; rfl
  rw [ClockMonotone, List.flatMap_append] at hclock
  rw [hstamp]
  apply (List.pairwise_append.mp hclock).2.2
  · exact List.mem_flatMap.mpr ⟨writer, by simp, pairNow_mem_readings hw⟩
  · exact List.mem_flatMap.mpr ⟨call, List.mem_singleton_self call, pairNow_mem_readings href⟩

/-- A call that recomputes a pair row runs the pairing step over the ledger and
the orders it leaves. -/
theorem run_of_refreshes {calls : List Call} {call : Call} {k : PyStr} (href : call.Refreshes k) :
    ∃ written : Database, run (calls ++ [call]) =
        (updatePairingForRelatedId call.env k written).1 ∧
      written.ledgerEntries = (run (calls ++ [call])).ledgerEntries ∧
      written.paymentLedgerPairs = (run calls).paymentLedgerPairs ∧
      freshPair call.env k written = freshPair call.env k (run (calls ++ [call])) := by
  obtain ⟨event, _, _, happly⟩ := apply_of_refreshes href (run calls)
  have hrun : run (calls ++ [call]) = (updatePairingForRelatedId call.env k
      (insertLedgerEntry call.env event (run calls))).1 := (run_concat calls call).trans happly
  have hledger : (insertLedgerEntry call.env event (run calls)).ledgerEntries =
      (run (calls ++ [call])).ledgerEntries := by
    rw [hrun, updatePairing_ledger]
  have horders : (insertLedgerEntry call.env event (run calls)).paymentOrders =
      (run (calls ++ [call])).paymentOrders := by
    rw [hrun, updatePairing_orders]
  exact ⟨_, hrun, hledger, insertLedgerEntry_pairs _ _ _, freshPair_congr _ _ hledger horders⟩

/-- Under the clock a refresh is refused for one reason only: the stored row is
complete and the proposed one is not. -/
theorem refresh_installs {calls : List Call} {call : Call} {k : PyStr}
    (hclock : ClockMonotone (calls ++ [call])) (href : call.Refreshes k)
    (hne : ∃ e ∈ (run (calls ++ [call])).ledgerEntries.rows, e.relatedId = some k)
    (hfull : ∀ p, (run calls).paymentLedgerPairs.find? k = some p → p.Complete →
      (freshPair call.env k (run (calls ++ [call]))).Complete) :
    (run (calls ++ [call])).paymentLedgerPairs.find? k =
      some (freshPair call.env k (run (calls ++ [call]))) := by
  obtain ⟨written, hrun, hledger, hpairs, hfresh⟩ := @run_of_refreshes calls call k href
  rw [← hfresh] at hfull ⊢
  rw [← hledger] at hne
  rw [hrun]
  refine updatePairing_installs call.env k written hne fun p hp => ?_
  rw [hpairs] at hp
  exact ⟨stored_stamp_le hclock href hp, hfull p hp⟩

/-! ## The table shows the view -/

/-- Under the contract a call with another target does not touch a relation. -/
theorem relationRows_unchanged {calls : List Call} {call : Call} {k : PyStr}
    (hc : PairContract (eventsOf (calls ++ [call]))) (hk : k ≠ []) (href : ¬ call.Refreshes k) :
    relationRows (run (calls ++ [call])).ledgerEntries k =
      relationRows (run calls).ledgerEntries k := by
  rw [run_concat, apply_ledgerEntries]
  cases hrow : call.ledgerRow with
  | none => rfl
  | some row =>
    obtain ⟨event, hev, rfl⟩ := ledgerRow_eq_some.mp hrow
    have hmem : event ∈ ledgerEvents (eventsOf (calls ++ [call])) :=
      mem_ledgerEvents (List.mem_append_right _ (List.mem_singleton_self call)) hev
    have hrel : event.relatedId ≠ some k := by
      intro hr
      refine href ⟨event, ?_, pairingTarget_eq_some.mpr ⟨hr, hk, hc.relatedType event hmem⟩⟩
      cases hcall : call.event with
      | ledger ev => rw [hcall] at hev; exact congrArg Event.ledger (Option.some.inj hev)
      | order ev => rw [hcall] at hev; cases hev
    refine filter_upsert (decide_eq_false hrel) (fun r hr htx => decide_eq_false ?_)
    obtain ⟨event', hev', t, rfl⟩ := ledger_row_event hr
    have hsame := hc.sameRelation event' (ledgerEvents_subset (eventsOf_subset_append calls _) hev') event hmem htx
    exact fun hr' => hrel (hsame.1.symm.trans hr')

/-- A leg of a shown row is a ledger row. -/
theorem shown_leg {ledger : ledgerEntries.Table} {k : PyStr} {p : PaymentLedgerPair}
    (h : some (pairView p) = ledgerView ledger k) {leg : Leg} (htx : (leg.tx p).isSome) :
    ∃ e ∈ ledger.rows, e.relatedId = some k ∧ e.entryType = leg.entryType := by
  unfold ledgerView at h
  split at h
  · cases h
  have hview := Option.some.inj h
  have hleg : leg.tx p = (legOf ledger k leg).map (·.txId) := by
    cases leg with
    | payment => exact congrArg PairView.paymentTxId hview
    | receive => exact congrArg PairView.receiveTxId hview
  rw [hleg, Option.isSome_map] at htx
  obtain ⟨e, he⟩ := Option.isSome_iff_exists.mp htx
  obtain ⟨hm, hr⟩ := mem_relationRows.mp (List.mem_of_find?_eq_some he)
  have hty := List.find?_some he
  exact ⟨e, hm, hr, of_decide_eq_true hty⟩

/-- A call installs the proposed row in the relation it refreshes: neither the
stamp nor the completeness of the stored row can refuse it. -/
theorem refreshed_row {calls : List Call} {call : Call} {k : PyStr}
    (hc : PairContract (eventsOf (calls ++ [call]))) (hclock : ClockMonotone (calls ++ [call]))
    (href : call.Refreshes k)
    (ih : ((run calls).paymentLedgerPairs.find? k).map pairView =
      ledgerView (run calls).ledgerEntries k) :
    (run (calls ++ [call])).paymentLedgerPairs.find? k =
        some (freshPair call.env k (run (calls ++ [call]))) ∧
      relationRows (run (calls ++ [call])).ledgerEntries k ≠ [] := by
  have hlast : call ∈ calls ++ [call] := List.mem_append_right _ (List.mem_singleton_self call)
  obtain ⟨event, hev, ht⟩ := id href
  have hev? : call.event.ledger? = some event := by rw [hev]; rfl
  have hrow : ∃ e ∈ (run (calls ++ [call])).ledgerEntries.rows, e.relatedId = some k := by
    obtain ⟨e, he, htx⟩ := ledger_key_stays hlast (ledgerRow_eq_some.mpr ⟨event, hev?, rfl⟩)
    obtain ⟨event', hev', t, rfl⟩ := ledger_row_event he
    have hsame := hc.sameRelation event' hev' event (mem_ledgerEvents hlast hev?) htx
    exact ⟨_, he, hsame.1.trans (pairingTarget_eq_some.mp ht).1⟩
  constructor
  · refine refresh_installs hclock href hrow fun p hp hcomplete => ?_
    rw [hp] at ih
    rw [complete_iff] at hcomplete ⊢
    intro leg
    obtain ⟨e, he, hr, hty⟩ := shown_leg ih (hcomplete leg)
    obtain ⟨e', he', _, hr', hty'⟩ := hc.sameRelation.row_stays he
    rw [freshPair_tx_isSome]
    exact ⟨e', he', hr'.trans hr, hty'.trans hty⟩
  · obtain ⟨e, he, hr⟩ := hrow
    exact List.ne_nil_of_mem (mem_relationRows.mpr ⟨he, hr⟩)

/-- After every call the pair table is the view of the ledger. -/
theorem pairs_show_ledger (calls : List Call) (hc : PairContract (eventsOf calls))
    (hclock : ClockMonotone calls) (k : PyStr) :
    ((run calls).paymentLedgerPairs.find? k).map pairView =
      ledgerView (run calls).ledgerEntries k := by
  induction calls using List.reverseRecOn with
  | nil =>
    have hnil : relationRows (run []).ledgerEntries k = [] := rfl
    rw [ledgerView, if_pos (Or.inr hnil)]
    rfl
  | append_singleton calls call ih =>
    have ih := ih (hc.mono (eventsOf_subset_append calls _)) hclock.left
    by_cases href : call.Refreshes k
    · obtain ⟨hrow, hne⟩ := refreshed_row hc hclock href ih
      obtain ⟨event, _, ht⟩ := href
      have hk := (pairingTarget_eq_some.mp ht).2.1
      rw [hrow]
      exact freshPair_view (hc.uniqueLegs k) hk hne call.env
    · have hpairs : (run (calls ++ [call])).paymentLedgerPairs.find? k =
          (run calls).paymentLedgerPairs.find? k := by
        rw [run_concat]
        exact apply_pairs_of_not_refreshes href (run calls)
      rw [hpairs, ih]
      by_cases hk : k = []
      · rw [ledgerView, ledgerView, if_pos (Or.inl hk), if_pos (Or.inl hk)]
      · have hrows := relationRows_unchanged hc hk href
        unfold ledgerView legOf
        rw [hrows]

end TxLookup.Consumer
