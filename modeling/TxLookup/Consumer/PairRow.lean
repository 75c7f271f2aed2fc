import TxLookup.Consumer.Tables

/-!
# What one call does to the pair table

One call leaves every pair row alone, or replaces the row of its own relation by
the row computed from the current ledger; the lemmas say exactly when and what
is known of the replacement, for both legs alike.
-/
namespace TxLookup.Consumer

open Library Db KeyedTable

/-- The ledger row a leg names, with its wallet, is in the ledger. -/
def Backed (ledger : ledgerEntries.Table) (relatedId : PyStr) (leg : Leg) (tx wallet : PyStr) :
    Prop :=
  ∃ e ∈ ledger.rows, e.txId = tx ∧ e.entryType = leg.entryType ∧ e.relatedId = some relatedId ∧
    e.walletId = wallet

/-- The row of the ledger from which a leg is computed. -/
def legRow (env : Surroundings) (relatedId : PyStr) (db : Database) (leg : Leg) :
    Option LedgerEntry :=
  (selectRelated env.scan db relatedId).find? (fun e => e.entryType = leg.entryType)

/-- The snapshot the pairing step computes. -/
def freshSnapshot (env : Surroundings) (relatedId : PyStr) (db : Database) : PairingSnapshot :=
  computePairing relatedId ((selectRelated env.scan db relatedId).map asSnapshot)
    ((db.paymentOrders.find? relatedId).map orderSnapshot) env.computeNow

/-- The row the pairing step proposes. -/
def freshPair (env : Surroundings) (relatedId : PyStr) (db : Database) : PaymentLedgerPair :=
  pairValues (freshSnapshot env relatedId db) env.pairNow

theorem mem_selectRelated {scan : ScanOrder} {db : Database} {relatedId : PyStr}
    {e : LedgerEntry} : e ∈ selectRelated scan db relatedId ↔
      e ∈ db.ledgerEntries.rows ∧ e.relatedId = some relatedId := by
  rw [selectRelated, (scan.perm _).mem_iff, List.mem_filter, decide_eq_true_eq]

theorem firstOfType_snapshots (entryType : PyStr) (rows : List LedgerEntry) :
    firstOfType entryType (rows.map asSnapshot) =
      (rows.find? (fun e => e.entryType = entryType)).map asSnapshot := by
  rw [firstOfType, List.find?_map]
  rfl

section
variable (env : Surroundings) (relatedId : PyStr) (db : Database)

theorem firstOfType_legRow (leg : Leg) :
    firstOfType leg.entryType ((selectRelated env.scan db relatedId).map asSnapshot) =
      (legRow env relatedId db leg).map asSnapshot :=
  firstOfType_snapshots _ _

theorem freshPair_tx (leg : Leg) : leg.tx (freshPair env relatedId db) =
    (legRow env relatedId db leg).map (·.txId) := by
  cases leg <;>
    simp only [Leg.tx, freshPair, pairValues, freshSnapshot, computePairing,
      firstOfType_snapshots, Option.map_map] <;> rfl

theorem freshPair_wallet (leg : Leg) : leg.wallet (freshPair env relatedId db) =
    (legRow env relatedId db leg).map (·.walletId) := by
  cases leg <;>
    simp only [Leg.wallet, freshPair, pairValues, freshSnapshot, computePairing,
      firstOfType_snapshots, Option.map_map] <;> rfl

theorem freshPair_status : (freshPair env relatedId db).status =
    (db.paymentOrders.find? relatedId).map (·.status) := by
  show ((db.paymentOrders.find? relatedId).map orderSnapshot).map (·.status) = _
  rw [Option.map_map]
  rfl

/-- The amount is that of the order, or else of the first leg there is. -/
theorem freshPair_amount_eq : (freshPair env relatedId db).amount =
    ((db.paymentOrders.find? relatedId).map (·.amount)).or
      (((legRow env relatedId db .payment).or (legRow env relatedId db .receive)).map
        (·.amount)) := by
  have hpay := firstOfType_legRow env relatedId db .payment
  have hrec := firstOfType_legRow env relatedId db .receive
  simp only [Leg.entryType] at hpay hrec
  simp only [freshPair, pairValues, freshSnapshot, computePairing, hpay, hrec]
  cases db.paymentOrders.find? relatedId with
  | some order => rfl
  | none =>
    cases legRow env relatedId db .payment with
    | some e => rfl
    | none => cases legRow env relatedId db .receive <;> rfl

theorem legRow_spec {leg : Leg} {e : LedgerEntry} (h : legRow env relatedId db leg = some e) :
    e ∈ db.ledgerEntries.rows ∧ e.relatedId = some relatedId ∧ e.entryType = leg.entryType := by
  have hmem := mem_selectRelated.mp (List.mem_of_find?_eq_some h)
  have ht := List.find?_some h
  exact ⟨hmem.1, hmem.2, by simpa using ht⟩

theorem legRow_isSome_iff (leg : Leg) : (legRow env relatedId db leg).isSome ↔
    ∃ e ∈ db.ledgerEntries.rows, e.relatedId = some relatedId ∧ e.entryType = leg.entryType := by
  rw [legRow, List.find?_isSome]
  constructor
  · rintro ⟨e, he, ht⟩
    obtain ⟨hm, hr⟩ := mem_selectRelated.mp he
    exact ⟨e, hm, hr, by simpa using ht⟩
  · rintro ⟨e, hm, hr, ht⟩
    exact ⟨e, mem_selectRelated.mpr ⟨hm, hr⟩, by simpa using ht⟩

theorem freshPair_tx_isSome (leg : Leg) : (leg.tx (freshPair env relatedId db)).isSome ↔
    ∃ e ∈ db.ledgerEntries.rows, e.relatedId = some relatedId ∧ e.entryType = leg.entryType := by
  rw [freshPair_tx, Option.isSome_map, legRow_isSome_iff]

/-- Every leg of the proposed row is a ledger row, with its wallet. -/
theorem freshPair_backed (leg : Leg) {tx : PyStr}
    (h : leg.tx (freshPair env relatedId db) = some tx) :
    ∃ wallet, leg.wallet (freshPair env relatedId db) = some wallet ∧
      Backed db.ledgerEntries relatedId leg tx wallet := by
  rw [freshPair_tx] at h
  obtain ⟨e, he, htx⟩ := Option.map_eq_some_iff.mp h
  obtain ⟨hm, hr, ht⟩ := legRow_spec env relatedId db he
  refine ⟨e.walletId, ?_, e, hm, htx, ht, hr, rfl⟩
  rw [freshPair_wallet, he]
  rfl

theorem freshPair_tx_wallet (leg : Leg) : (leg.tx (freshPair env relatedId db)).isSome =
    (leg.wallet (freshPair env relatedId db)).isSome := by
  rw [freshPair_tx, freshPair_wallet, Option.isSome_map, Option.isSome_map]

/-- The two legs have different entry types, hence are different rows. -/
theorem freshPair_legs_ne {tx : PyStr} (h : (freshPair env relatedId db).paymentTxId = some tx) :
    (freshPair env relatedId db).receiveTxId ≠ some tx := by
  intro h'
  obtain ⟨_, _, e, he, htx, ht, _⟩ := freshPair_backed env relatedId db Leg.payment h
  obtain ⟨_, _, e', he', htx', ht', _⟩ := freshPair_backed env relatedId db Leg.receive h'
  have hee : e = e' := db.ledgerEntries.eq_of_key he he' (htx.trans htx'.symm)
  subst hee
  exact payment_ne_receive (ht.symm.trans ht')

theorem freshSnapshot_complete : (freshSnapshot env relatedId db).complete = true ↔
    (freshPair env relatedId db).Complete := by
  simp only [PaymentLedgerPair.Complete, freshPair, pairValues, freshSnapshot, computePairing,
    Bool.and_eq_true, Option.isSome_map]

end

theorem existingComplete_iff (existing : Option PaymentLedgerPair) :
    existingComplete existing = true ↔ ∃ p, existing = some p ∧ p.Complete := by
  cases existing with
  | none => simp [existingComplete]
  | some p => simp [existingComplete, PaymentLedgerPair.Complete]

theorem shouldUpdatePair_iff (existing new : Bool) :
    shouldUpdatePair existing new = true ↔ (existing = true → new = true) := by
  cases existing <;> cases new <;> decide

/-! ## The pairing step -/

/-- A pair row is not newer than the stamp, and is not complete unless the
proposed row is: the two reasons for which a refresh could be refused. -/
def Refreshable (db : Database) (relatedId : PyStr) (fresh : PaymentLedgerPair) : Prop :=
  ∀ p, db.paymentLedgerPairs.find? relatedId = some p →
    p.updatedAt ≤ fresh.updatedAt ∧ (p.Complete → fresh.Complete)

section
variable (env : Surroundings) (relatedId : PyStr) (db : Database)

/-- The three ways the step can end: the relation has no ledger row, the guard
keeps a complete row, or the proposed row goes to the table. -/
theorem updatePairing_cases :
    ((¬ ∃ e ∈ db.ledgerEntries.rows, e.relatedId = some relatedId) ∧
      updatePairingForRelatedId env relatedId db = (db, none)) ∨
    ((∃ e ∈ db.ledgerEntries.rows, e.relatedId = some relatedId) ∧
      (∃ p, db.paymentLedgerPairs.find? relatedId = some p ∧ p.Complete ∧
        ¬ (freshPair env relatedId db).Complete) ∧
      updatePairingForRelatedId env relatedId db =
        (db, some { freshSnapshot env relatedId db with skipped := true })) ∨
    ((∃ e ∈ db.ledgerEntries.rows, e.relatedId = some relatedId) ∧
      (∀ p, db.paymentLedgerPairs.find? relatedId = some p → p.Complete →
        (freshPair env relatedId db).Complete) ∧
      updatePairingForRelatedId env relatedId db =
        ({ db with
            paymentLedgerPairs := upsertRow paymentLedgerPairs
              (freshPair env relatedId db) db.paymentLedgerPairs },
          some (freshSnapshot env relatedId db))) := by
  have hrows : (selectRelated env.scan db relatedId).isEmpty = true ↔
      ¬ ∃ e ∈ db.ledgerEntries.rows, e.relatedId = some relatedId := by
    rw [List.isEmpty_iff, List.eq_nil_iff_forall_not_mem]
    simp only [mem_selectRelated, not_exists]
  have hguard : shouldUpdatePair (existingComplete (db.paymentLedgerPairs.find? relatedId))
      (freshSnapshot env relatedId db).complete = true ↔
      ∀ p, db.paymentLedgerPairs.find? relatedId = some p → p.Complete →
        (freshPair env relatedId db).Complete := by
    rw [shouldUpdatePair_iff, existingComplete_iff, freshSnapshot_complete]
    simp only [forall_exists_index, and_imp]
  unfold updatePairingForRelatedId
  by_cases hempty : (selectRelated env.scan db relatedId).isEmpty = true
  · exact Or.inl ⟨hrows.mp hempty, if_pos hempty⟩
  have hne := not_not.mp (mt hrows.mpr hempty)
  by_cases hpass : shouldUpdatePair (existingComplete (db.paymentLedgerPairs.find? relatedId))
      (freshSnapshot env relatedId db).complete = true
  · exact Or.inr (Or.inr ⟨hne, hguard.mp hpass, (if_neg hempty).trans (if_pos hpass)⟩)
  · refine Or.inr (Or.inl ⟨hne, ?_, (if_neg hempty).trans (if_neg hpass)⟩)
    have hkept := mt hguard.mpr hpass
    simp only [not_forall] at hkept
    obtain ⟨p, hp, hcomplete, hnot⟩ := hkept
    exact ⟨p, hp, hcomplete, hnot⟩

theorem updatePairing_ne {k : PyStr} (hk : k ≠ relatedId) :
    (updatePairingForRelatedId env relatedId db).1.paymentLedgerPairs.find? k =
      db.paymentLedgerPairs.find? k := by
  rcases updatePairing_cases env relatedId db with ⟨-, he⟩ | ⟨-, -, he⟩ | ⟨-, -, he⟩
  · rw [he]
  · rw [he]
  · rw [he]
    exact find?_upsert_ne _ _ _ hk

/-- The step leaves the row of its relation alone or installs the proposed row,
the latter never at the price of a complete row. -/
theorem updatePairing_self :
    (updatePairingForRelatedId env relatedId db).1.paymentLedgerPairs.find? relatedId =
      db.paymentLedgerPairs.find? relatedId ∨
    ((updatePairingForRelatedId env relatedId db).1.paymentLedgerPairs.find? relatedId =
        some (freshPair env relatedId db) ∧
      ∀ p, db.paymentLedgerPairs.find? relatedId = some p → p.Complete →
        (freshPair env relatedId db).Complete) := by
  rcases updatePairing_cases env relatedId db with ⟨-, he⟩ | ⟨-, -, he⟩ | ⟨-, hpass, he⟩
  · exact Or.inl (by rw [he])
  · exact Or.inl (by rw [he])
  · rw [he]
    rcases upsert_pair_cases (freshPair env relatedId db) db.paymentLedgerPairs with
      ⟨p, hp, -, hstays⟩ | ⟨-, hinstalled⟩
    · exact Or.inl (hstays.trans hp.symm)
    · exact Or.inr ⟨hinstalled, hpass⟩

/-- With ledger rows for the relation and nothing to refuse it, the proposed row
is installed. -/
theorem updatePairing_installs
    (hne : ∃ e ∈ db.ledgerEntries.rows, e.relatedId = some relatedId)
    (hr : Refreshable db relatedId (freshPair env relatedId db)) :
    (updatePairingForRelatedId env relatedId db).1.paymentLedgerPairs.find? relatedId =
      some (freshPair env relatedId db) := by
  rcases updatePairing_cases env relatedId db with ⟨hno, -⟩ | ⟨-, hkept, -⟩ | ⟨-, -, he⟩
  · exact absurd hne hno
  · obtain ⟨p, hp, hcomplete, hnot⟩ := hkept
    exact absurd ((hr p hp).2 hcomplete) hnot
  · rw [he]
    rcases upsert_pair_cases (freshPair env relatedId db) db.paymentLedgerPairs with
      ⟨p, hp, hlate, -⟩ | ⟨-, hinstalled⟩
    · exact absurd (hr p hp).1 (not_le.mpr hlate)
    · exact hinstalled

/-- A row that can be refused is refused. -/
theorem updatePairing_refused (hr : ¬ Refreshable db relatedId (freshPair env relatedId db)) :
    (updatePairingForRelatedId env relatedId db).1.paymentLedgerPairs.find? relatedId =
      db.paymentLedgerPairs.find? relatedId := by
  rcases updatePairing_cases env relatedId db with ⟨-, he⟩ | ⟨-, -, he⟩ | ⟨-, hpass, he⟩
  · rw [he]
  · rw [he]
  · rw [he]
    rcases upsert_pair_cases (freshPair env relatedId db) db.paymentLedgerPairs with
      ⟨p, hp, -, hstays⟩ | ⟨hearly, -⟩
    · exact hstays.trans hp.symm
    · exact absurd (fun p hp => ⟨hearly p hp, hpass p hp⟩) hr

end

/-! ## One call -/

theorem pairingTarget_eq_some {event : LedgerEntryUpserted} {relatedId : PyStr} :
    pairingTarget event = some relatedId ↔ event.relatedId = some relatedId ∧ relatedId ≠ [] ∧
      (event.relatedType = none ∨ event.relatedType = some PAYMENT_ORDER) := by
  unfold pairingTarget
  split
  · rename_i h
    obtain ⟨ht, hty⟩ := h
    obtain ⟨s, hs, hne⟩ := truthy_iff.mp ht
    constructor
    · intro he
      rw [hs] at he
      obtain rfl := Option.some.inj he
      exact ⟨hs, hne, hty⟩
    · exact fun h => h.1
  · rename_i h
    constructor
    · intro he; cases he
    · rintro ⟨hr, hne, hty⟩
      exact absurd ⟨by rw [hr]; exact truthy_some hne, hty⟩ h

/-- The call recomputes the pair row of `relatedId`. -/
def Call.Refreshes (call : Call) (relatedId : PyStr) : Prop :=
  ∃ event, call.event = .ledger event ∧ pairingTarget event = some relatedId

/-- A call that does not recompute a pair row leaves it alone. -/
theorem apply_pairs_of_not_refreshes {call : Call} {relatedId : PyStr}
    (h : ¬ call.Refreshes relatedId) (db : Database) :
    (call.apply db).paymentLedgerPairs.find? relatedId = db.paymentLedgerPairs.find? relatedId := by
  obtain ⟨event | event, env⟩ := call
  · simp only [Call.apply, upsertLedgerEntry]
    split
    · rename_i r hr
      have hne : relatedId ≠ r := by
        rintro rfl
        exact h ⟨event, rfl, hr⟩
      rw [updatePairing_ne _ _ _ hne]
      rfl
    · rfl
  · rfl

/-- A call that recomputes a pair row runs the pairing step on its own ledger write. -/
theorem apply_of_refreshes {call : Call} {relatedId : PyStr} (h : call.Refreshes relatedId)
    (db : Database) : ∃ event, call.event = .ledger event ∧
      pairingTarget event = some relatedId ∧
      call.apply db =
        (updatePairingForRelatedId call.env relatedId (insertLedgerEntry call.env event db)).1 := by
  obtain ⟨ev, env⟩ := call
  obtain ⟨event, rfl, ht⟩ := h
  refine ⟨event, rfl, ht, ?_⟩
  simp only [Call.apply, upsertLedgerEntry, ht]

theorem insertLedgerEntry_pairs (env : Surroundings) (event : LedgerEntryUpserted)
    (db : Database) : (insertLedgerEntry env event db).paymentLedgerPairs =
      db.paymentLedgerPairs := rfl

/-- The proposed row depends on the ledger, the order and the surroundings only,
so it may be computed from the database after the call. -/
theorem freshPair_congr (env : Surroundings) (relatedId : PyStr) {db db' : Database}
    (hl : db.ledgerEntries = db'.ledgerEntries) (ho : db.paymentOrders = db'.paymentOrders) :
    freshPair env relatedId db = freshPair env relatedId db' := by
  simp only [freshPair, freshSnapshot, selectRelated, hl, ho]

/-- What a call can do to one pair row. -/
theorem apply_pairs_cases (call : Call) (db : Database) (relatedId : PyStr) :
    (call.apply db).paymentLedgerPairs.find? relatedId =
      db.paymentLedgerPairs.find? relatedId ∨
    (call.Refreshes relatedId ∧
      (call.apply db).paymentLedgerPairs.find? relatedId =
        some (freshPair call.env relatedId (call.apply db)) ∧
      ∀ p, db.paymentLedgerPairs.find? relatedId = some p → p.Complete →
        (freshPair call.env relatedId (call.apply db)).Complete) := by
  by_cases h : call.Refreshes relatedId
  · obtain ⟨event, _, _, he⟩ := apply_of_refreshes h db
    have hc : freshPair call.env relatedId (insertLedgerEntry call.env event db) =
        freshPair call.env relatedId (call.apply db) := by
      rw [he]
      exact freshPair_congr _ _ (updatePairing_ledger _ _ _).symm (updatePairing_orders _ _ _).symm
    have hs := updatePairing_self call.env relatedId (insertLedgerEntry call.env event db)
    rw [← he, hc, insertLedgerEntry_pairs] at hs
    rcases hs with hs | hs
    · exact Or.inl hs
    · exact Or.inr ⟨h, hs⟩
  · exact Or.inl (apply_pairs_of_not_refreshes h db)

end TxLookup.Consumer
