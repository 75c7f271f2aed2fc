import TxLookup.Api.Endpoint
import TxLookup.Consumer.Arrival

/-!
# What readers see of arrival order and replay

The response is a function of the business columns and the pair view, up to
`data_lag_sec`. Databases that agree therefore answer alike, and runs that agree
come from permuted events and from replays.
-/
namespace TxLookup.Api

open Library Db Db.LatestWins Consumer KeyedTable

/-- The response without its data lag. -/
def forgetLag (response : AdminTxResponse) : AdminTxResponse := { response with dataLagSec := none }

/-- A pair row of which only the view is kept. -/
def rowOfView (view : PairView) : PaymentLedgerPair where
  paymentOrderId := []
  paymentTxId := view.paymentTxId
  receiveTxId := view.receiveTxId
  payerWalletId := view.payerWalletId
  payeeWalletId := view.payeeWalletId
  amount := none
  status := none
  eventTime := view.eventTime
  updatedAt := 0
  ingestedAt := 0

/-- A context without what the response does not read. -/
def businessContext (context : AdminTxContext) : AdminTxContext where
  ledgerEntry := ledgerEntriesStamped.business context.ledgerEntry
  paymentOrder := context.paymentOrder.map paymentOrdersStamped.business
  paymentPair := (context.paymentPair.map pairView).map rowOfView
  peerEntry := context.peerEntry.map ledgerEntriesStamped.business

theorem forgetLag_build (now : DateTime) (context : AdminTxContext) :
    (buildAdminTxResponse now context).map forgetLag =
      (buildAdminTxResponse 0 (businessContext context)).map forgetLag := by
  rw [buildAdminTxResponse, buildAdminTxResponse, validated_map, validated_map]
  obtain ⟨entry, order, pair, peer⟩ := context
  cases order <;> cases pair <;> cases peer <;> rfl

theorem forgetLag_some (built : Except ValidationError AdminTxResponse) :
    (built.map some).map (Option.map forgetLag) = (built.map forgetLag).map some := by
  cases built <;> rfl

theorem head?_of_unique {α : Type} {l : List α} (hu : ∀ x ∈ l, ∀ y ∈ l, x = y) {x : α}
    (hx : x ∈ l) : l.head? = some x := by
  cases l with
  | nil => cases hx
  | cons y l => exact congrArg some (hu y List.mem_cons_self x hx)

/-- Where legs are unique the fallback query has at most one candidate. -/
theorem peers_unique {db : Database} {collation : Collation} {e : LedgerEntry}
    (hu : ∀ k, UniqueLegs db.ledgerEntries k) :
    ∀ x ∈ selectNewestFirst collation db (isPeer e),
      ∀ y ∈ selectNewestFirst collation db (isPeer e), x = y := by
  have htype : ∃ leg : Leg, (if e.entryType = PAYMENT then RECEIVE else PAYMENT) = leg.entryType := by
    split
    · exact ⟨.receive, rfl⟩
    · exact ⟨.payment, rfl⟩
  obtain ⟨leg, hleg⟩ := htype
  intro x hx y hy
  obtain ⟨hxm, hxp⟩ := mem_selectNewestFirst.mp hx
  obtain ⟨hym, hyp⟩ := mem_selectNewestFirst.mp hy
  simp only [isPeer, hleg, Bool.and_eq_true, beq_iff_eq, Option.isSome_iff_exists] at hxp hyp
  obtain ⟨⟨⟨⟨k, hk⟩, hxr⟩, _⟩, hxt⟩ := hxp
  obtain ⟨⟨⟨_, hyr⟩, _⟩, hyt⟩ := hyp
  exact hu k leg x (mem_relationRows.mpr ⟨hxm, hxr.trans hk⟩) y
    (mem_relationRows.mpr ⟨hym, hyr.trans hk⟩) hxt hyt

theorem isPeer_business {e e' c c' : LedgerEntry}
    (he : ledgerEntriesStamped.business e = ledgerEntriesStamped.business e')
    (hc : ledgerEntriesStamped.business c = ledgerEntriesStamped.business c') :
    isPeer e c = isPeer e' c' := by
  have h : isPeer (ledgerEntriesStamped.business e) (ledgerEntriesStamped.business c) =
      isPeer (ledgerEntriesStamped.business e') (ledgerEntriesStamped.business c') := by
    rw [he, hc]
  exact h

section
variable {db₁ db₂ : Database} (h : Agrees db₁ db₂) (hu₁ : ∀ k, UniqueLegs db₁.ledgerEntries k)
  (hu₂ : ∀ k, UniqueLegs db₂.ledgerEntries k) {e₁ e₂ : LedgerEntry}
  (he : ledgerEntriesStamped.business e₁ = ledgerEntriesStamped.business e₂)
include h hu₂ he

theorem peer_agree (collation₁ collation₂ : Collation) {x : LedgerEntry}
    (hx : (selectNewestFirst collation₁ db₁ (isPeer e₁)).head? = some x) :
    ((selectNewestFirst collation₂ db₂ (isPeer e₂)).head?).map ledgerEntriesStamped.business =
      some (ledgerEntriesStamped.business x) := by
  obtain ⟨hm, hp⟩ := mem_selectNewestFirst.mp (List.mem_of_mem_head? hx)
  obtain ⟨y, hy, _, hb⟩ := h.ledgerEntries.exists_mem hm
  have hyp : isPeer e₂ y = true := (isPeer_business he hb.symm).symm.trans hp
  rw [head?_of_unique (peers_unique hu₂) (mem_selectNewestFirst.mpr ⟨hy, hyp⟩), Option.map_some, hb]

include hu₁

theorem peers_agree (collation₁ collation₂ : Collation) :
    ((selectNewestFirst collation₁ db₁ (isPeer e₁)).head?).map ledgerEntriesStamped.business =
      ((selectNewestFirst collation₂ db₂ (isPeer e₂)).head?).map ledgerEntriesStamped.business := by
  cases h₁ : (selectNewestFirst collation₁ db₁ (isPeer e₁)).head? with
  | some x => exact (peer_agree h hu₂ he collation₁ collation₂ h₁).symm
  | none =>
    cases h₂ : (selectNewestFirst collation₂ db₂ (isPeer e₂)).head? with
    | none => rfl
    | some y =>
      have hsym : Agrees db₂ db₁ :=
        ⟨h.ledgerEntries.symm, h.paymentOrders.symm, h.paymentLedgerPairs.symm⟩
      have hy := peer_agree hsym hu₁ he.symm collation₂ collation₁ h₂
      rw [h₁] at hy
      cases hy

theorem businessContext_congr (collation₁ collation₂ : Collation) :
    businessContext (contextOf collation₁ db₁ e₁) =
      businessContext (contextOf collation₂ db₂ e₂) := by
  have hrel : e₁.relatedId = e₂.relatedId := (eq_of_business he).1
  have hpair : (e₁.relatedId.bind db₁.paymentLedgerPairs.find?).map pairView =
      (e₂.relatedId.bind db₂.paymentLedgerPairs.find?).map pairView := by
    rw [hrel]
    cases e₂.relatedId with
    | none => rfl
    | some k => exact h.paymentLedgerPairs k
  have horder : (e₁.relatedId.bind db₁.paymentOrders.find?).map paymentOrdersStamped.business =
      (e₂.relatedId.bind db₂.paymentOrders.find?).map paymentOrdersStamped.business := by
    rw [hrel]
    cases e₂.relatedId with
    | none => rfl
    | some k => exact h.paymentOrders k
  have hneeds : ∀ pair : Option PaymentLedgerPair,
      needsPeer pair = needsPeer ((pair.map pairView).map rowOfView) := by
    rintro (_ | p) <;> rfl
  have hpeer := peers_agree h hu₁ hu₂ he collation₁ collation₂
  simp only [businessContext, contextOf]
  rw [he, hpair, horder]
  congr 1
  rw [hneeds, hneeds (e₂.relatedId.bind _), hpair, hrel, apply_ite (Option.map _),
    apply_ite (Option.map _), hpeer]

end

/-- Databases that agree, with unique legs, answer every lookup alike. -/
theorem adminTx_congr {db₁ db₂ : Database} (h : Agrees db₁ db₂)
    (hu₁ : ∀ k, UniqueLegs db₁.ledgerEntries k) (hu₂ : ∀ k, UniqueLegs db₂.ledgerEntries k)
    (collation₁ collation₂ : Collation) (now₁ now₂ : DateTime) (txId : PyStr) :
    (adminTx collation₁ now₁ db₁ txId).map (Option.map forgetLag) =
      (adminTx collation₂ now₂ db₂ txId).map (Option.map forgetLag) := by
  have hrow := h.ledgerEntries txId
  cases hf₁ : db₁.ledgerEntries.find? txId with
  | none =>
    cases hf₂ : db₂.ledgerEntries.find? txId with
    | none => simp only [adminTx, fetchAdminTxContext, hf₁, hf₂]
    | some e₂ => rw [hf₁, hf₂] at hrow; cases hrow
  | some e₁ =>
    cases hf₂ : db₂.ledgerEntries.find? txId with
    | none => rw [hf₁, hf₂] at hrow; cases hrow
    | some e₂ =>
      rw [hf₁, hf₂] at hrow
      have he := Option.some.inj hrow
      obtain ⟨hm₁, hk₁⟩ := (find?_eq_some_iff _).mp hf₁
      obtain ⟨hm₂, hk₂⟩ := (find?_eq_some_iff _).mp hf₂
      have ha₁ := adminTx_of_mem collation₁ now₁ hm₁
      have ha₂ := adminTx_of_mem collation₂ now₂ hm₂
      change adminTx collation₁ now₁ db₁ (ledgerEntries.key e₁) = _ at ha₁
      change adminTx collation₂ now₂ db₂ (ledgerEntries.key e₂) = _ at ha₂
      rw [hk₁] at ha₁
      rw [hk₂] at ha₂
      rw [ha₁, ha₂, forgetLag_some, forgetLag_some, forgetLag_build, forgetLag_build now₂,
        businessContext_congr h hu₁ hu₂ he]

/-- However the events arrive, the tables agree and every lookup answers alike. -/
theorem arrival_order_irrelevant (events : List Event) (hc : ArrivalContract events)
    (calls₁ calls₂ : List Call) (hp₁ : (eventsOf calls₁).Perm events)
    (hp₂ : (eventsOf calls₂).Perm events) (hclock₁ : ClockMonotone calls₁)
    (hclock₂ : ClockMonotone calls₂) :
    Agrees (run calls₁) (run calls₂) ∧ ∀ (collation : Collation) (now₁ now₂ : DateTime)
      (txId : PyStr), (adminTx collation now₁ (run calls₁) txId).map (Option.map forgetLag) =
        (adminTx collation now₂ (run calls₂) txId).map (Option.map forgetLag) := by
  have hc₁ : ArrivalContract (eventsOf calls₁) := hc.perm hp₁.symm
  have hpair₂ : PairContract (eventsOf calls₂) := hc.toPairContract.mono hp₂.subset
  have hagree := agrees_of_perm hc₁ (hp₁.trans hp₂.symm) hclock₁ hclock₂
  refine ⟨hagree, fun collation now₁ now₂ txId => ?_⟩
  exact adminTx_congr hagree hc₁.toPairContract.uniqueLegs hpair₂.uniqueLegs collation collation
    now₁ now₂ txId

/-- Two versions of a payment, its receiving leg and two versions of the order. -/
def datedEvents : List Event :=
  [.ledger { plainEvent "tx-1" "w1" "PAYMENT" "po-1" with updatedAt := some 5 },
    .ledger { plainEvent "tx-1" "w9" "PAYMENT" "po-1" with updatedAt := some 3 },
    .ledger { plainEvent "tx-2" "w2" "RECEIVE" "po-1" with sourceVersion := some 1 },
    .order { plainOrder "po-1" "CREATED" with sourceVersion := some 1 },
    .order { plainOrder "po-1" "PAID" with sourceVersion := some 2 }]

/-- The events one after the other, from time `start` on. -/
def callsAt (start : Nat) (events : List Event) : List Call :=
  (events.zipIdx start).map (fun p => ⟨p.1, .still p.2⟩)

theorem datedEvents_contract : ArrivalContract datedEvents where
  sameRelation := by unfold SameRelation; decide
  relatedType := by decide
  oneLeg := by intro leg; cases leg <;> decide
  ledgerClass := by
    intro k
    by_cases hk : k = py "tx-2"
    · exact ⟨.sourceVersion, nofun, by rw [hk]; decide⟩
    · have hdated : ∀ r ∈ ledgerProposals datedEvents, r.txId ≠ py "tx-2" →
          MetadataClass.updatedAt.Holds (ledgerEntriesStamped.stamp r) := by decide
      exact ⟨.updatedAt, nofun, fun r hr hkr => hdated r hr (fun h => hk (hkr.symm.trans h))⟩
  ledgerTies := by intro c; cases c <;> decide
  orderClass := by
    have hdated : ∀ r ∈ orderProposals datedEvents,
        MetadataClass.sourceVersion.Holds (paymentOrdersStamped.stamp r) := by decide
    exact fun k => ⟨.sourceVersion, nofun, fun r hr _ => hdated r hr⟩
  orderTies := by intro c; cases c <;> decide

theorem datedEvents_reversed :
    Agrees (run (callsAt 0 datedEvents)) (run (callsAt 0 datedEvents.reverse)) ∧
      ∀ (collation : Collation) (now₁ now₂ : DateTime) (txId : PyStr),
        (adminTx collation now₁ (run (callsAt 0 datedEvents)) txId).map (Option.map forgetLag) =
          (adminTx collation now₂ (run (callsAt 0 datedEvents.reverse)) txId).map (Option.map forgetLag) :=
  arrival_order_irrelevant datedEvents datedEvents_contract _ _ (by decide) (by decide)
    (by unfold ClockMonotone; decide) (by unfold ClockMonotone; decide)

/-- Replaying the end of a log changes no answer but its data lag. -/
theorem replay_invisible (log again : List Call) (hc : ReplayContract (eventsOf log))
    (hs : eventsOf again <:+ eventsOf log) (hclock : ClockMonotone (log ++ again))
    (collation : Collation) (now now' : DateTime) (txId : PyStr) :
    (adminTx collation now' (run (log ++ again)) txId).map (Option.map forgetLag) =
      (adminTx collation now (run log) txId).map (Option.map forgetLag) := by
  have hagree := agrees_of_replay hc hs hclock
  exact adminTx_congr hagree (hc.replayed hs).uniqueLegs hc.toPairContract.uniqueLegs
    collation collation now' now txId

/-- A stamped payment between two metadata-free versions of its receiving leg. -/
def loggedEvents : List Event :=
  [.ledger (plainEvent "tx-2" "w2" "RECEIVE" "po-1"),
    .ledger { plainEvent "tx-1" "w1" "PAYMENT" "po-1" with updatedAt := some 5 },
    .ledger (plainEvent "tx-2" "w3" "RECEIVE" "po-1"), .order (plainOrder "po-1" "PAID")]

theorem loggedEvents_contract : ReplayContract (eventsOf (callsAt 0 loggedEvents)) where
  sameRelation := by unfold SameRelation; decide
  relatedType := by decide
  oneLeg := by intro leg; cases leg <;> decide
  ledgerClass := by
    intro k
    by_cases hk : k = py "tx-1"
    · exact ⟨.updatedAt, trivial, by rw [hk]; decide⟩
    · have hplain : ∀ r ∈ ledgerProposals loggedEvents, r.txId ≠ py "tx-1" →
          MetadataClass.ingestedAt.Holds (ledgerEntriesStamped.stamp r) := by decide
      exact ⟨.ingestedAt, trivial, fun r hr hkr => hplain r hr (fun h => hk (hkr.symm.trans h))⟩
  orderClass := by
    have hplain : ∀ r ∈ orderProposals loggedEvents,
        MetadataClass.ingestedAt.Holds (paymentOrdersStamped.stamp r) := by decide
    exact fun k => ⟨.ingestedAt, trivial, fun r hr _ => hplain r hr⟩

theorem loggedEvents_replayed :
    (adminTx .codePoints 99 (run (callsAt 0 loggedEvents ++ callsAt 9 (loggedEvents.drop 1)))
        (py "tx-1")).map (Option.map forgetLag) =
      (adminTx .codePoints 9 (run (callsAt 0 loggedEvents)) (py "tx-1")).map (Option.map forgetLag) :=
  replay_invisible (callsAt 0 loggedEvents) (callsAt 9 (loggedEvents.drop 1)) loggedEvents_contract
    (by decide) (by unfold ClockMonotone; decide) .codePoints 9 99 (py "tx-1")

end TxLookup.Api
