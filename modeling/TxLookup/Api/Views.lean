import TxLookup.Api.Endpoint

/-!
# What the views of an entry report

The transaction view resolves the related type, and looks for a missing leg in
the ledger, for one leg only. A list item is built from the entry with the pair
row and the order it is given.
-/
namespace TxLookup.Api

open Library Db Consumer KeyedTable

/-- The stored pair row of the relation names a transaction on the leg. -/
def PairHas (db : Database) (k : PyStr) (leg : Leg) : Prop :=
  ∃ p, db.paymentLedgerPairs.find? k = some p ∧ (leg.tx p).isSome = true

/-- The ledger has a row of the leg's type in the relation. -/
def HasRow (db : Database) (k : PyStr) (leg : Leg) : Prop :=
  ∃ r ∈ db.ledgerEntries.rows, r.relatedId = some k ∧ r.entryType = leg.entryType

/-- The transaction view of the entry finds a transaction for the leg: in the
pair row, in the entry itself, or by its query, which looks for one leg only. -/
def Found (db : Database) (k : PyStr) (e : LedgerEntry) (leg : Leg) : Prop :=
  PairHas db k leg ∨ e.entryType = leg.entryType ∨ leg = queriedLeg e ∧ HasRow db k leg

/-- The entry carries a related type other than `PAYMENT_ORDER`. -/
def OtherDomain (e : LedgerEntry) : Prop :=
  ∃ t, e.relatedType = some t ∧ t ≠ [] ∧ t ≠ PAYMENT_ORDER

/-- The view counts an entry to its payment order if its type says so, or if it
has none and the order exists. -/
theorem resolveRelatedType_iff {context : AdminTxContext} :
    resolveRelatedType context = PAYMENT_ORDER ↔ ¬ OtherDomain context.ledgerEntry ∧
      (context.ledgerEntry.relatedType = some PAYMENT_ORDER ∨
        context.paymentOrder.isSome = true) := by
  unfold resolveRelatedType
  split
  · next c cs ht =>
    rw [ht, Option.some.injEq]
    constructor
    · intro hpo
      refine ⟨fun ⟨t, ht', _, hne⟩ => hne ?_, .inl hpo⟩
      rw [← hpo]
      exact Option.some.inj (ht'.symm.trans ht)
    · intro h
      by_contra hne
      exact h.1 ⟨c :: cs, ht, List.cons_ne_nil c cs, hne⟩
  · next hty =>
    have hempty : ¬ OtherDomain context.ledgerEntry := by
      rintro ⟨t, ht, hne, -⟩
      obtain ⟨c, cs, rfl⟩ := List.exists_cons_of_ne_nil hne
      exact hty c cs ht
    have hpo : context.ledgerEntry.relatedType ≠ some PAYMENT_ORDER := fun h => hty _ _ h
    rw [and_iff_right hempty, or_iff_right hpo]
    constructor
    · intro h
      by_contra hnone
      rw [if_neg hnone] at h
      exact absurd h (by decide)
    · exact fun h => if_pos h

/-! ## What the transaction view finds -/

section
variable {calls : List Call} {k : PyStr} {e : LedgerEntry} (collation : Collation)

/-- A leg of a stored pair row is never the empty text. -/
theorem pair_leg_ne {p : PaymentLedgerPair}
    (hp : (run calls).paymentLedgerPairs.find? k = some p) {leg : Leg} {tx : PyStr}
    (htx : leg.tx p = some tx) : tx ≠ [] := by
  obtain ⟨pre, call, post, rfl, hw, _⟩ := provenance_of_run calls k p hp
  rw [hw.2.1] at htx
  obtain ⟨_, _, r, hr, rfl, _⟩ := freshPair_backed _ _ _ leg htx
  exact ledger_txId_ne hr

/-- The pair row's entry for a leg is absent or a transaction. -/
theorem pairLeg_cases (leg : Leg) :
    (((run calls).paymentLedgerPairs.find? k).bind leg.tx = none ∧ ¬ PairHas (run calls) k leg) ∨
    ∃ tx, tx ≠ [] ∧ ((run calls).paymentLedgerPairs.find? k).bind leg.tx = some tx ∧
      PairHas (run calls) k leg := by
  cases hp : (run calls).paymentLedgerPairs.find? k with
  | none =>
    refine .inl ⟨rfl, fun ⟨p, hp', _⟩ => ?_⟩
    rw [hp] at hp'
    cases hp'
  | some p =>
    cases htx : leg.tx p with
    | none =>
      refine .inl ⟨htx, fun ⟨p', hp', hsome⟩ => ?_⟩
      obtain rfl := Option.some.inj (hp.symm.trans hp')
      rw [htx] at hsome
      cases hsome
    | some tx => exact .inr ⟨tx, pair_leg_ne hp htx, htx, p, hp, by rw [htx]; rfl⟩

/-- The query is skipped when the pair row has both legs, and otherwise finds
any row of the queried leg. -/
theorem peerEntry_cases (he : e ∈ (run calls).ledgerEntries.rows) (hr : e.relatedId = some k)
    (hk : k ≠ []) :
    (∃ q, (contextOf collation (run calls) e).peerEntry = some q ∧
      q ∈ (run calls).ledgerEntries.rows ∧ q.relatedId = some k ∧
        q.entryType = (queriedLeg e).entryType) ∨
    ((contextOf collation (run calls) e).peerEntry = none ∧
      (PairHas (run calls) k (queriedLeg e) ∨ ¬ HasRow (run calls) k (queriedLeg e))) := by
  have hpeer : (contextOf collation (run calls) e).peerEntry =
      if needsPeer ((run calls).paymentLedgerPairs.find? k) = true then
        (selectNewestFirst collation (run calls) (isPeer e)).head? else none := by
    simp only [contextOf, hr, truthy_some hk, Option.bind_some, Bool.true_and]
  rw [hpeer]
  split
  · cases hq : (selectNewestFirst collation (run calls) (isPeer e)).head? with
    | some q => exact .inl ⟨q, rfl, (mem_peers_iff he hr).mp (List.mem_of_mem_head? hq)⟩
    | none =>
      refine .inr ⟨rfl, .inr fun hpeer => ?_⟩
      obtain ⟨r, hrow, hrel, hty⟩ := hpeer
      have hmem : r ∈ selectNewestFirst collation (run calls) (isPeer e) :=
        (mem_peers_iff he hr).mpr ⟨hrow, hrel, hty⟩
      rw [List.head?_eq_none_iff.mp hq] at hmem
      cases hmem
  · next hneeds =>
    refine .inr ⟨rfl, .inl ?_⟩
    have hboth := (needsPeer_iff _).mp (Bool.eq_false_iff.mpr hneeds) (queriedLeg e)
    rcases @pairLeg_cases calls k (queriedLeg e) with ⟨hnone, -⟩ | ⟨_, -, -, hhas⟩
    · rw [hnone] at hboth
      cases hboth
    · exact hhas

/-- The pair row comes first, then the peer or the entry itself, which are never
of the same type. -/
theorem legs_value (he : e ∈ (run calls).ledgerEntries.rows) (hr : e.relatedId = some k)
    (hk : k ≠ []) (leg : Leg) :
    (PairLegs.ofContext (contextOf collation (run calls) e)).tx leg =
      match ((run calls).paymentLedgerPairs.find? k).bind leg.tx with
      | some tx => some tx
      | none =>
        if e.entryType = leg.entryType then some e.txId
        else if leg = queriedLeg e then
          (contextOf collation (run calls) e).peerEntry.map (·.txId)
        else none := by
  have hpair : (contextOf collation (run calls) e).paymentPair =
      (run calls).paymentLedgerPairs.find? k := by
    rw [contextOf, hr]
    rfl
  have hentry : (contextOf collation (run calls) e).ledgerEntry = e := rfl
  rw [PairLegs.ofContext, hpair, hentry]
  have hbase := PairLegs.tx_ofPair ((run calls).paymentLedgerPairs.find? k) leg
  rcases @pairLeg_cases calls k leg with ⟨hnone, -⟩ | ⟨tx, hne, hsome, -⟩
  · rw [hnone] at hbase
    rw [hnone]
    rcases peerEntry_cases collation he hr hk with ⟨q, hq, hqm, -, hqt⟩ | ⟨hq, -⟩
    · rw [hq]
      have hstored := PairLegs.tx_fillFrom_of_none hbase q
      rw [hqt] at hstored
      by_cases hleg : leg = queriedLeg e
      · have hown : e.entryType ≠ leg.entryType := hleg ▸ queriedLeg_ne e
        rw [if_pos (queriedLeg_eq_iff.mpr hleg)] at hstored
        have hkept : truthy (((PairLegs.ofPair _).fillFrom q).tx leg) = true :=
          hstored ▸ truthy_some (ledger_txId_ne hqm)
        rw [PairLegs.ofStored, PairLegs.tx_fillFrom_of_truthy hkept, hstored, if_neg hown,
          if_pos hleg]
        rfl
      · rw [if_neg (fun h => hleg (queriedLeg_eq_iff.mp h))] at hstored
        rw [PairLegs.ofStored, PairLegs.tx_fillFrom_of_none hstored, if_neg hleg]
    · rw [hq, PairLegs.ofStored, PairLegs.tx_fillFrom_of_none hbase]
      simp only [Option.map_none, ite_self]
  · have hkept : truthy ((PairLegs.ofPair ((run calls).paymentLedgerPairs.find? k)).tx leg) = true :=
      (hbase.trans hsome) ▸ truthy_some hne
    have hstored : ∀ peer, (PairLegs.ofStored ((run calls).paymentLedgerPairs.find? k) peer).tx leg =
        some tx := by
      intro peer
      cases peer with
      | none => exact hbase.trans hsome
      | some q => exact (PairLegs.tx_fillFrom_of_truthy hkept q).trans (hbase.trans hsome)
    have hfilled : truthy ((PairLegs.ofStored ((run calls).paymentLedgerPairs.find? k)
        (contextOf collation (run calls) e).peerEntry).tx leg) = true :=
      hstored _ ▸ truthy_some hne
    rw [PairLegs.tx_fillFrom_of_truthy hfilled, hstored, hsome]

/-- What the transaction view holds for a leg is a transaction if the view finds
one, and else absent. -/
theorem legs_found (he : e ∈ (run calls).ledgerEntries.rows) (hr : e.relatedId = some k)
    (hk : k ≠ []) (leg : Leg) :
    (Found (run calls) k e leg →
      truthy ((PairLegs.ofContext (contextOf collation (run calls) e)).tx leg) = true) ∧
    (¬ Found (run calls) k e leg →
      (PairLegs.ofContext (contextOf collation (run calls) e)).tx leg = none) := by
  rw [legs_value collation he hr hk leg]
  rcases @pairLeg_cases calls k leg with ⟨hnone, hno⟩ | ⟨tx, hne, hsome, hhas⟩
  · rw [hnone]
    by_cases ht : e.entryType = leg.entryType
    · rw [if_pos ht]
      exact ⟨fun _ => truthy_some (ledger_txId_ne he), fun h => absurd (.inr (.inl ht)) h⟩
    rw [if_neg ht]
    by_cases hleg : leg = queriedLeg e
    · rw [if_pos hleg]
      rcases peerEntry_cases collation he hr hk with ⟨q, hq, hqm, hqr, hqt⟩ | ⟨hq, hskipped⟩
      · rw [hq]
        refine ⟨fun _ => truthy_some (ledger_txId_ne hqm), fun h => absurd ?_ h⟩
        exact .inr (.inr ⟨hleg, q, hqm, hqr, hleg ▸ hqt⟩)
      · rw [hq]
        refine ⟨fun h => ?_, fun _ => rfl⟩
        rw [← hleg] at hskipped
        rcases h with h | h | h
        · exact absurd h hno
        · exact absurd h ht
        · exact (hskipped.resolve_left hno h.2).elim
    · rw [if_neg hleg]
      refine ⟨fun h => ?_, fun _ => rfl⟩
      rcases h with h | h | h
      · exact absurd h hno
      · exact absurd h ht
      · exact absurd h.1 hleg
  · rw [hsome]
    exact ⟨fun _ => truthy_some hne, fun h => absurd (.inl hhas) h⟩

/-- The transaction view of an entry of a payment order. -/
theorem tx_view (he : e ∈ (run calls).ledgerEntries.rows) (hr : e.relatedId = some k)
    (hk : k ≠ [])
    (hty : resolveRelatedType (contextOf collation (run calls) e) = PAYMENT_ORDER) :
    ((∀ leg, Found (run calls) k e leg) →
      (resolvePairing (contextOf collation (run calls) e)).1 = .COMPLETE) ∧
    ((¬ ∀ leg, Found (run calls) k e leg) →
      (resolvePairing (contextOf collation (run calls) e)).1 = .INCOMPLETE ∧
        (resolvePairing (contextOf collation (run calls) e)).2.1 = none) ∧
    ∀ p, (run calls).paymentLedgerPairs.find? k = some p → p.Complete →
      (resolvePairing (contextOf collation (run calls) e)).2.1 = pairedOf (fun leg => leg.tx p) e := by
  have htruthy : truthy (contextOf collation (run calls) e).ledgerEntry.relatedId = true := by
    show truthy e.relatedId = true
    rw [hr]
    exact truthy_some hk
  obtain ⟨hstatus, hpaired⟩ := resolvePairing_known htruthy hty
  have hfound := legs_found collation he hr hk
  rw [hstatus, hpaired]
  refine ⟨fun hall => if_pos fun leg => (hfound leg).1 (hall leg), fun hnot => ⟨?_, ?_⟩, ?_⟩
  · refine if_neg fun hall => hnot fun leg => ?_
    by_contra hno
    have htrue := hall leg
    rw [(hfound leg).2 hno] at htrue
    cases htrue
  · show pairedOf _ e = none
    by_cases hleg : ∃ leg : Leg, e.entryType = leg.entryType
    · obtain ⟨leg, ht⟩ := hleg
      rw [pairedOf_leg ht]
      refine (hfound leg.opposite).2 fun hopp => hnot ((Leg.forall_iff_opposite leg).mpr ⟨?_, hopp⟩)
      exact .inr (.inl ht)
    · exact pairedOf_other (fun leg ht => hleg ⟨leg, ht⟩) _
  · intro p hp hcomplete
    have hlegs : (PairLegs.ofContext (contextOf collation (run calls) e)).tx =
        fun leg => leg.tx p := by
      funext leg
      obtain ⟨tx, htx⟩ := Option.isSome_iff_exists.mp ((complete_iff p).mp hcomplete leg)
      rw [legs_value collation he hr hk leg, hp, Option.bind_some, htx]
    rw [hlegs]
    rfl

end

/-! ## What a list item reports -/

section
variable (now : DateTime) {e : LedgerEntry} {pair : Option PaymentLedgerPair}
  (order : Option PaymentOrder)

theorem item_unrelated (h : truthy e.relatedId = false) :
    (ledgerItemValues now e pair order).pairingStatus = .UNKNOWN ∧
      (ledgerItemValues now e pair order).pairedTxId = none := by
  simp [ledgerItemValues, h]

theorem item_of_complete (hr : truthy e.relatedId = true) {p : PaymentLedgerPair}
    (hp : ∀ leg : Leg, truthy (leg.tx p) = true) :
    (ledgerItemValues now e (some p) order).pairingStatus = .COMPLETE ∧
      (ledgerItemValues now e (some p) order).pairedTxId = pairedOf (fun leg => leg.tx p) e := by
  have hpay : truthy p.paymentTxId = true := hp .payment
  have hrec : truthy p.receiveTxId = true := hp .receive
  simp only [ledgerItemValues, hr, hpay, hrec, Option.filter, Bool.and_self, if_true]
  exact ⟨trivial, rfl⟩

theorem item_of_incomplete (hr : truthy e.relatedId = true)
    (hp : ∀ p, pair = some p → ¬ ∀ leg : Leg, truthy (leg.tx p) = true) :
    (ledgerItemValues now e pair order).pairingStatus =
      (if pair.isSome ∨ e.relatedType = none ∨ e.relatedType = some PAYMENT_ORDER
        then .INCOMPLETE else .UNKNOWN) ∧
      (ledgerItemValues now e pair order).pairedTxId = none := by
  have hfilter : pair.filter (fun p => truthy p.paymentTxId && truthy p.receiveTxId) = none := by
    cases pair with
    | none => rfl
    | some p =>
      refine if_neg fun h => hp p rfl ?_
      rw [Bool.and_eq_true] at h
      exact (Leg.forall_iff_opposite .payment).mpr h
  simp only [ledgerItemValues, hr, if_true, hfilter]
  split <;> exact ⟨rfl, rfl⟩

end

end TxLookup.Api
