import TxLookup.Api.Service
import TxLookup.Consumer.PairHistory

/-!
# The transaction endpoint over a reachable database

Soundness: a leg of a stored pair row is still a ledger row of that type and
relation, because a transaction keeps both. Completeness: wherever the pair row
lacks a leg, the fallback query looks into the ledger itself.
-/
namespace TxLookup.Api

open Library Db Consumer KeyedTable

/-- What the endpoint answers for a transaction; `none` is the 404. -/
def adminTx (collation : Collation) (now : DateTime) (db : Database) (txId : PyStr) :
    Except ValidationError (Option AdminTxResponse) :=
  match fetchAdminTxContext collation db txId with
  | none => .ok none
  | some context => (buildAdminTxResponse now context).map some

/-- The context the endpoint reads for a stored entry. -/
def contextOf (collation : Collation) (db : Database) (e : LedgerEntry) : AdminTxContext where
  ledgerEntry := e
  paymentOrder := e.relatedId.bind db.paymentOrders.find?
  paymentPair := e.relatedId.bind db.paymentLedgerPairs.find?
  peerEntry :=
    if truthy e.relatedId && needsPeer (e.relatedId.bind db.paymentLedgerPairs.find?) then
      (selectNewestFirst collation db (isPeer e)).head?
    else none

theorem adminTx_of_mem (collation : Collation) (now : DateTime) {db : Database} {e : LedgerEntry}
    (he : e ∈ db.ledgerEntries.rows) : adminTx collation now db e.txId =
      (buildAdminTxResponse now (contextOf collation db e)).map some := by
  have hf : db.ledgerEntries.find? e.txId = some e := db.ledgerEntries.find?_of_mem he
  simp only [adminTx, fetchAdminTxContext, hf]
  rfl

/-- A stored entry is reported if its amounts are finite. -/
theorem adminTx_eq_ok {collation : Collation} {now : DateTime} {db : Database} {e : LedgerEntry}
    (he : e ∈ db.ledgerEntries.rows) {answer : Option AdminTxResponse} :
    adminTx collation now db e.txId = .ok answer ↔
      FiniteAmounts e ∧ answer = some (adminTxValues now (contextOf collation db e)) := by
  rw [adminTx_of_mem collation now he]
  cases hbuilt : buildAdminTxResponse now (contextOf collation db e) with
  | error exc =>
    refine iff_of_false (fun h => by cases h) fun h => ?_
    have hok := @buildAdminTxResponse_eq_ok now (contextOf collation db e) _ |>.mpr ⟨h.1, rfl⟩
    rw [hbuilt] at hok
    cases hok
  | ok response =>
    obtain ⟨hfinite, rfl⟩ := buildAdminTxResponse_eq_ok.mp hbuilt
    have hfinite : FiniteAmounts e := hfinite
    rw [and_iff_right hfinite]
    constructor
    · intro h
      cases h
      rfl
    · intro h
      rw [h]
      rfl

theorem adminTx_exists_iff {collation : Collation} {now : DateTime} {db : Database}
    {e : LedgerEntry} (he : e ∈ db.ledgerEntries.rows) :
    (∃ response, adminTx collation now db e.txId = .ok (some response)) ↔ FiniteAmounts e := by
  constructor
  · intro hexists
    obtain ⟨response, hresponse⟩ := hexists
    exact ((adminTx_eq_ok he).mp hresponse).1
  · intro hfinite
    exact ⟨_, (adminTx_eq_ok he).mpr ⟨hfinite, rfl⟩⟩

/-- A response of the endpoint carries the values of its context. -/
theorem adminTx_values {collation : Collation} {now : DateTime} {db : Database} {e : LedgerEntry}
    (he : e ∈ db.ledgerEntries.rows) {response : AdminTxResponse}
    (hresponse : adminTx collation now db e.txId = .ok (some response)) :
    response = adminTxValues now (contextOf collation db e) :=
  Option.some.inj ((adminTx_eq_ok he).mp hresponse).2

/-- Under the contract every leg of a stored pair row is a current ledger row of
the leg's type in the relation. -/
theorem pair_leg_row {calls : List Call} (h : SameRelation (eventsOf calls)) {k tx : PyStr}
    {p : PaymentLedgerPair} (hp : (run calls).paymentLedgerPairs.find? k = some p) {leg : Leg}
    (htx : leg.tx p = some tx) : ∃ r ∈ (run calls).ledgerEntries.rows,
      r.txId = tx ∧ r.entryType = leg.entryType ∧ r.relatedId = some k := by
  obtain ⟨pre, call, post, rfl, hw, _⟩ := provenance_of_run calls k p hp
  rw [hw.2.1] at htx
  obtain ⟨_, _, e, he, hetx, hety, herel, _⟩ := freshPair_backed _ _ _ leg htx
  rw [List.append_cons] at h ⊢
  obtain ⟨r, hr, hrtx, hrrel, hrty⟩ := h.row_stays he
  exact ⟨r, hr, hrtx.trans hetx, hrty.trans hety, hrrel.trans herel⟩

theorem needsPeer_iff (paymentPair : Option PaymentLedgerPair) : needsPeer paymentPair = false ↔
    ∀ leg : Leg, truthy (paymentPair.bind leg.tx) = true := by
  cases paymentPair with
  | none =>
    constructor
    · intro h; cases h
    · intro h; cases h .payment
  | some p =>
    rw [needsPeer, Bool.not_eq_false', Bool.and_eq_true]
    constructor
    · rintro ⟨hp, hr⟩ (_ | _)
      · exact hp
      · exact hr
    · intro h
      exact ⟨h .payment, h .receive⟩

section
variable {db : Database} {e : LedgerEntry} {leg : Leg} {k : PyStr} (collation : Collation)

/-- The peer of an entry of a leg is the other leg. -/
theorem peerEntry_mem (he : e ∈ db.ledgerEntries.rows) (ht : e.entryType = leg.entryType)
    (hr : e.relatedId = some k) {q : LedgerEntry}
    (hq : (contextOf collation db e).peerEntry = some q) :
    q ∈ db.ledgerEntries.rows ∧ q.relatedId = some k ∧ q.entryType = leg.opposite.entryType := by
  simp only [contextOf] at hq
  split at hq
  · rw [← queriedLeg_of_leg ht]
    exact (mem_peers_iff he hr).mp (List.mem_of_mem_head? hq)
  · cases hq

theorem own_truthy (hne : e.txId ≠ []) (ht : e.entryType = leg.entryType) :
    truthy ((PairLegs.ofContext (contextOf collation db e)).tx leg) = true := by
  have hself : truthy (some e.txId) = true := truthy_some hne
  rw [PairLegs.tx_ofContext_own ht, truthy_pyOr]
  change (_ || truthy (some e.txId)) = true
  rw [hself, Bool.or_true]

/-- A row of the opposite type in the ledger is never overlooked. -/
theorem opposite_truthy (hids : ∀ r ∈ db.ledgerEntries.rows, r.txId ≠ [])
    (he : e ∈ db.ledgerEntries.rows) (ht : e.entryType = leg.entryType)
    (hr : e.relatedId = some k) (hk : k ≠ [])
    (hex : ∃ r ∈ db.ledgerEntries.rows,
      r.relatedId = some k ∧ r.entryType = leg.opposite.entryType) :
    truthy ((PairLegs.ofContext (contextOf collation db e)).tx leg.opposite) = true := by
  rw [PairLegs.tx_ofContext_opposite ht]
  cases hq : (contextOf collation db e).peerEntry with
  | some q =>
    obtain ⟨hqm, _, hqt⟩ := peerEntry_mem collation he ht hr hq
    have hself : truthy (some q.txId) = true := truthy_some (hids q hqm)
    rw [PairLegs.tx_ofStored hqt, truthy_pyOr, hself, Bool.or_true]
  | none =>
    -- the peer query was skipped: it cannot have come back empty
    have hneeds : needsPeer (contextOf collation db e).paymentPair = false := by
      by_contra hn
      rw [Bool.not_eq_false] at hn
      obtain ⟨r, hrm, hrr, hrt⟩ := hex
      have hmem : r ∈ selectNewestFirst collation db (isPeer e) :=
        (mem_peers_iff he hr).mpr ⟨hrm, hrr, (queriedLeg_of_leg ht).symm ▸ hrt⟩
      have htr : truthy e.relatedId = true := by rw [hr]; exact truthy_some hk
      simp only [contextOf] at hq hn
      rw [htr, hn, Bool.and_self, if_pos rfl, List.head?_eq_none_iff] at hq
      rw [hq] at hmem
      cases hmem
    rw [PairLegs.ofStored, PairLegs.tx_ofPair]
    exact (needsPeer_iff _).mp hneeds leg.opposite

end

section
variable {calls : List Call} {e : LedgerEntry} {leg : Leg} {k : PyStr} (collation : Collation)

/-- What the pair row and the peer say of the other leg. -/
def otherLeg (calls : List Call) (e : LedgerEntry) (leg : Leg) : Option PyStr :=
  (PairLegs.ofContext (contextOf collation (run calls) e)).tx leg.opposite

/-- A reported other leg is a current ledger row of the opposite type. -/
theorem otherLeg_sound (h : SameRelation (eventsOf calls)) (he : e ∈ (run calls).ledgerEntries.rows)
    (ht : e.entryType = leg.entryType) (hr : e.relatedId = some k) {tx : PyStr}
    (htx : otherLeg collation calls e leg = some tx) : ∃ r ∈ (run calls).ledgerEntries.rows,
      r.txId = tx ∧ r.entryType = leg.opposite.entryType ∧ r.relatedId = some k := by
  have hpair : ((contextOf collation (run calls) e).paymentPair.bind leg.opposite.tx) = some tx →
      ∃ r ∈ (run calls).ledgerEntries.rows,
        r.txId = tx ∧ r.entryType = leg.opposite.entryType ∧ r.relatedId = some k := by
    intro hp
    obtain ⟨p, hfind, hleg⟩ := Option.bind_eq_some_iff.mp hp
    simp only [contextOf, hr, Option.bind_some] at hfind
    exact pair_leg_row h hfind hleg
  rw [otherLeg, PairLegs.tx_ofContext_opposite ht] at htx
  cases hq : (contextOf collation (run calls) e).peerEntry with
  | none =>
    rw [hq, PairLegs.ofStored, PairLegs.tx_ofPair] at htx
    exact hpair htx
  | some q =>
    obtain ⟨hqm, hqr, hqt⟩ := peerEntry_mem collation he ht hr hq
    rw [hq, PairLegs.tx_ofStored hqt, pyOr] at htx
    split at htx
    · exact hpair htx
    · exact ⟨q, hqm, Option.some.inj htx, hqt, hqr⟩

theorem otherLeg_complete (he : e ∈ (run calls).ledgerEntries.rows)
    (ht : e.entryType = leg.entryType) (hr : e.relatedId = some k) (hk : k ≠ [])
    (hex : ∃ r ∈ (run calls).ledgerEntries.rows,
      r.entryType = leg.opposite.entryType ∧ r.relatedId = some k) :
    truthy (otherLeg collation calls e leg) = true := by
  obtain ⟨r, hrm, hrt, hrr⟩ := hex
  exact opposite_truthy collation (fun _ => ledger_txId_ne) he ht hr hk ⟨r, hrm, hrr, hrt⟩

end

/-- The endpoint has a response if the amounts of the entry are finite. Unless the
response says UNKNOWN, it says COMPLETE exactly when the ledger holds rows of both
types in the relation of the entry, and then it names one of the opposite type. -/
theorem admin_tx_reports_ledger (calls : List Call) (h : SameRelation (eventsOf calls))
    (collation : Collation) (now : DateTime) (e : LedgerEntry)
    (he : e ∈ (run calls).ledgerEntries.rows) (leg : Leg) (ht : e.entryType = leg.entryType) :
    ((∃ response, adminTx collation now (run calls) e.txId = .ok (some response)) ↔
      FiniteAmounts e) ∧
    ∀ response, adminTx collation now (run calls) e.txId = .ok (some response) →
      response.pairingStatus ≠ .UNKNOWN →
        (response.pairingStatus = .COMPLETE ↔ ∀ l : Leg, ∃ r ∈ (run calls).ledgerEntries.rows,
          r.entryType = l.entryType ∧ r.relatedId = e.relatedId) ∧
        (response.pairingStatus = .COMPLETE → ∃ r ∈ (run calls).ledgerEntries.rows,
          response.pairedTxId = some r.txId ∧ r.entryType = leg.opposite.entryType ∧
            r.relatedId = e.relatedId) := by
  refine ⟨adminTx_exists_iff he, fun response hresponse hknown => ?_⟩
  obtain rfl := adminTx_values he hresponse
  change (resolvePairing (contextOf collation (run calls) e)).1 ≠ .UNKNOWN at hknown
  have hguard : truthy e.relatedId = true ∧
      resolveRelatedType (contextOf collation (run calls) e) = PAYMENT_ORDER := by
    by_contra hn
    apply hknown
    rw [resolvePairing_unknown]
    rcases not_and_or.mp hn with hr | hty
    · exact Or.inl (Bool.eq_false_iff.mpr hr)
    · exact Or.inr hty
  obtain ⟨k, hr, hk⟩ := truthy_iff.mp hguard.1
  have hleg : (contextOf collation (run calls) e).ledgerEntry.entryType = leg.entryType := ht
  obtain ⟨hcomplete, _, hpaired⟩ := resolvePairing_leg hleg hguard.1 hguard.2
  change ((resolvePairing _).1 = .COMPLETE ↔ _) ∧ ((resolvePairing _).1 = .COMPLETE → _)
  have hother : truthy (otherLeg collation calls e leg) = true ↔
      ∃ r ∈ (run calls).ledgerEntries.rows,
        r.entryType = leg.opposite.entryType ∧ r.relatedId = some k := by
    constructor
    · intro htr
      obtain ⟨tx, htx, _⟩ := truthy_iff.mp htr
      obtain ⟨r, hrm, _, hrt, hrr⟩ := otherLeg_sound collation h he ht hr htx
      exact ⟨r, hrm, hrt, hrr⟩
    · exact otherLeg_complete collation he ht hr hk
  rw [hr, hcomplete]
  constructor
  · constructor
    · rintro ⟨_, htr⟩ l
      by_cases hl : l = leg
      · exact ⟨e, he, by rw [hl]; exact ht, hr⟩
      · have hopp : l = leg.opposite := by cases l <;> cases leg <;> first | rfl | exact absurd rfl hl
        rw [hopp]
        exact hother.mp htr
    · intro hall
      exact ⟨own_truthy collation (ledger_txId_ne he) ht, hother.mpr (hall leg.opposite)⟩
  · rintro ⟨_, htr⟩
    obtain ⟨tx, htx, _⟩ := truthy_iff.mp htr
    obtain ⟨r, hrm, hrtx, hrt, hrr⟩ := otherLeg_sound collation h he ht hr htx
    refine ⟨r, hrm, ?_, hrt, hrr⟩
    rw [hrtx]
    exact hpaired.trans htx

/-- Both legs of an order, the second under a clock that went back. -/
def bothLegsRun : List Call :=
  [⟨.ledger (plainEvent "tx-1" "w1" "PAYMENT" "po-1"), .still 5⟩,
    ⟨.ledger (plainEvent "tx-2" "w2" "RECEIVE" "po-1"), .still 2⟩]

/-- The stored row of the first event. -/
def bothLegsEntry : LedgerEntry := storedEntry (plainEvent "tx-1" "w1" "PAYMENT" "po-1") 5

theorem bothLegsEntry_reported :
    ∃ response, adminTx .codePoints 9 (run bothLegsRun) bothLegsEntry.txId = .ok (some response) ∧
      (response.pairingStatus ≠ .UNKNOWN →
        (response.pairingStatus = .COMPLETE ↔
          ∀ l : Leg, ∃ r ∈ (run bothLegsRun).ledgerEntries.rows,
            r.entryType = l.entryType ∧ r.relatedId = bothLegsEntry.relatedId) ∧
        (response.pairingStatus = .COMPLETE → ∃ r ∈ (run bothLegsRun).ledgerEntries.rows,
          response.pairedTxId = some r.txId ∧ r.entryType = Leg.payment.opposite.entryType ∧
            r.relatedId = bothLegsEntry.relatedId)) := by
  obtain ⟨hexists, hreports⟩ := admin_tx_reports_ledger bothLegsRun
    (by unfold SameRelation; decide) .codePoints 9 bothLegsEntry (by decide) .payment rfl
  obtain ⟨response, hresponse⟩ := hexists.mpr (by decide)
  exact ⟨response, hresponse, hreports response hresponse⟩

end TxLookup.Api
