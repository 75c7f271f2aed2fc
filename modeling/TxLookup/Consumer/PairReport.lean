import TxLookup.Consumer.PairOrder

/-!
# The reported pairing result

The caller is handed the computed snapshot, marked as skipped if the guard keeps
a complete row. The upsert has a guard of its own, on the stamps, which marks
nothing: a row stamped later than the clock reading stays, and the snapshot is
reported all the same.
-/
namespace TxLookup.Consumer

open Library Db KeyedTable

/-- The row has the legs, wallets, amount, status and time of the snapshot. -/
structure Stores (p : PaymentLedgerPair) (snapshot : PairingSnapshot) : Prop where
  paymentTxId : p.paymentTxId = snapshot.paymentTxId
  receiveTxId : p.receiveTxId = snapshot.receiveTxId
  payerWalletId : p.payerWalletId = snapshot.payerWalletId
  payeeWalletId : p.payeeWalletId = snapshot.payeeWalletId
  amount : p.amount = snapshot.amount
  status : p.status = snapshot.status
  eventTime : p.eventTime = snapshot.eventTime

/-- The result of the pairing step is what the tables hold after it. -/
structure ReportStored (env : Surroundings) (relatedId : PyStr) (db : Database) : Prop where
  updated : ∀ snapshot, (updatePairingForRelatedId env relatedId db).2 = some snapshot →
    snapshot.skipped = false →
      ∃ p, (updatePairingForRelatedId env relatedId db).1.paymentLedgerPairs.find? relatedId =
        some p ∧ Stores p snapshot
  skipped : ∀ snapshot, (updatePairingForRelatedId env relatedId db).2 = some snapshot →
    snapshot.skipped = true →
      (updatePairingForRelatedId env relatedId db).1.paymentLedgerPairs.find? relatedId =
        db.paymentLedgerPairs.find? relatedId ∧
      ∃ p, db.paymentLedgerPairs.find? relatedId = some p ∧ p.Complete
  nothing : (updatePairingForRelatedId env relatedId db).2 = none →
    (updatePairingForRelatedId env relatedId db).1 = db

/-- The latest event time of the relation. -/
structure LatestTime (ledger : ledgerEntries.Table) (relatedId : PyStr) (t : DateTime) : Prop where
  attained : ∃ e ∈ ledger.rows, e.relatedId = some relatedId ∧ e.eventTime = t
  bound : ∀ e ∈ ledger.rows, e.relatedId = some relatedId → e.eventTime ≤ t

/-- The row agrees with the ledger and the order: its legs are the first rows of
each type the SELECT returns, its amount is that of the order or else of the
first leg there is, its status is that of the order. -/
structure UpToDate (env : Surroundings) (relatedId : PyStr) (db : Database)
    (p : PaymentLedgerPair) : Prop where
  tx : ∀ leg : Leg, leg.tx p = (legRow env relatedId db leg).map (·.txId)
  wallet : ∀ leg : Leg, leg.wallet p = (legRow env relatedId db leg).map (·.walletId)
  amount : p.amount = ((db.paymentOrders.find? relatedId).map (·.amount)).or
    (((legRow env relatedId db .payment).or (legRow env relatedId db .receive)).map (·.amount))
  status : p.status = (db.paymentOrders.find? relatedId).map (·.status)
  eventTime : ∃ t, p.eventTime = some t ∧ LatestTime db.ledgerEntries relatedId t

/-- A stored row with a stamp after the clock reading does no harm: the relation
is empty, or the guard keeps the row, or the row is up to date. -/
def LateRowHarmless (env : Surroundings) (relatedId : PyStr) (db : Database) : Prop :=
  ∀ p, db.paymentLedgerPairs.find? relatedId = some p → env.pairNow < p.updatedAt →
    (∀ e ∈ db.ledgerEntries.rows, e.relatedId ≠ some relatedId) ∨
      (p.Complete ∧ ¬ BothLegs db.ledgerEntries relatedId) ∨ UpToDate env relatedId db p

section
variable (env : Surroundings) (relatedId : PyStr) (db : Database)

theorem freshSnapshot_eventTime
    (hne : ∃ e ∈ db.ledgerEntries.rows, e.relatedId = some relatedId) :
    ∃ t, (freshSnapshot env relatedId db).eventTime = some t ∧
      LatestTime db.ledgerEntries relatedId t := by
  have hrows : (selectRelated env.scan db relatedId).map asSnapshot ≠ [] := by
    intro hnil
    obtain ⟨e, he, hrel⟩ := hne
    have hmem : e ∈ selectRelated env.scan db relatedId := mem_selectRelated.mpr ⟨he, hrel⟩
    rw [List.map_eq_nil_iff.mp hnil] at hmem
    cases hmem
  obtain ⟨t, ht, ⟨s, hs, hst⟩, hle⟩ := latestEventTime_spec hrows
  refine ⟨t, ht, ?_, fun e he hrel => ?_⟩
  · obtain ⟨e, he, rfl⟩ := List.mem_map.mp hs
    obtain ⟨hmem, hrel⟩ := mem_selectRelated.mp he
    exact ⟨e, hmem, hrel, hst⟩
  · exact hle _ (List.mem_map_of_mem (mem_selectRelated.mpr ⟨he, hrel⟩))

theorem LatestTime.unique {ledger : ledgerEntries.Table} {t t' : DateTime}
    (h : LatestTime ledger relatedId t) (h' : LatestTime ledger relatedId t') : t = t' := by
  obtain ⟨e, he, hrel, het⟩ := h.attained
  obtain ⟨e', he', hrel', het'⟩ := h'.attained
  refine le_antisymm ?_ ?_
  · rw [← het]
    exact h'.bound e he hrel
  · rw [← het']
    exact h.bound e' he' hrel'

/-- A row that has what the step computes is up to date, and conversely. -/
theorem stores_fresh_iff (hne : ∃ e ∈ db.ledgerEntries.rows, e.relatedId = some relatedId)
    (p : PaymentLedgerPair) :
    Stores p (freshSnapshot env relatedId db) ↔ UpToDate env relatedId db p := by
  have htx := fun leg => freshPair_tx env relatedId db leg
  have hwallet := fun leg => freshPair_wallet env relatedId db leg
  have hamount := freshPair_amount_eq env relatedId db
  have hstatus := freshPair_status env relatedId db
  obtain ⟨t, htime, hlatest⟩ := freshSnapshot_eventTime env relatedId db hne
  constructor
  · intro h
    refine ⟨fun leg => ?_, fun leg => ?_, h.amount.trans hamount, h.status.trans hstatus,
      t, h.eventTime.trans htime, hlatest⟩
    · rw [← htx leg]
      cases leg with
      | payment => exact h.paymentTxId
      | receive => exact h.receiveTxId
    · rw [← hwallet leg]
      cases leg with
      | payment => exact h.payerWalletId
      | receive => exact h.payeeWalletId
  · intro h
    obtain ⟨t', htime', hlatest'⟩ := h.eventTime
    exact {
      paymentTxId := (h.tx .payment).trans (htx .payment).symm
      receiveTxId := (h.tx .receive).trans (htx .receive).symm
      payerWalletId := (h.wallet .payment).trans (hwallet .payment).symm
      payeeWalletId := (h.wallet .receive).trans (hwallet .receive).symm
      amount := h.amount.trans hamount.symm
      status := h.status.trans hstatus.symm
      eventTime := by rw [htime', htime, hlatest'.unique relatedId hlatest] }

theorem stores_freshPair : Stores (freshPair env relatedId db) (freshSnapshot env relatedId db) :=
  ⟨rfl, rfl, rfl, rfl, rfl, rfl, rfl⟩

end

/-! ## The report after each outcome -/

section
variable {env : Surroundings} {relatedId : PyStr} {db : Database}

theorem reportStored_of_nothing
    (he : updatePairingForRelatedId env relatedId db = (db, none)) :
    ReportStored env relatedId db := by
  refine ⟨fun s hsome _ => ?_, fun s hsome _ => ?_, fun _ => by rw [he]⟩
  · rw [he] at hsome
    cases hsome
  · rw [he] at hsome
    cases hsome

theorem reportStored_of_skipped {p : PaymentLedgerPair}
    (he : updatePairingForRelatedId env relatedId db =
      (db, some { freshSnapshot env relatedId db with skipped := true }))
    (hp : db.paymentLedgerPairs.find? relatedId = some p) (hcomplete : p.Complete) :
    ReportStored env relatedId db := by
  refine ⟨fun s hsome hskip => ?_, fun _ _ _ => ⟨by rw [he], p, hp, hcomplete⟩, fun hnone => ?_⟩
  · rw [he] at hsome
    rw [← Option.some.inj hsome] at hskip
    cases hskip
  · rw [he] at hnone
    cases hnone

/-- The report is right if the row found after the step is the reported one. -/
theorem reportStored_of_row {db' : Database} {p : PaymentLedgerPair}
    (he : updatePairingForRelatedId env relatedId db =
      (db', some (freshSnapshot env relatedId db)))
    (hp : db'.paymentLedgerPairs.find? relatedId = some p)
    (hs : Stores p (freshSnapshot env relatedId db)) : ReportStored env relatedId db := by
  refine ⟨fun s hsome _ => ?_, fun s hsome hskip => ?_, fun hnone => ?_⟩
  · rw [he] at hsome
    rw [← Option.some.inj hsome, he]
    exact ⟨p, hp, hs⟩
  · rw [he] at hsome
    rw [← Option.some.inj hsome] at hskip
    cases hskip
  · rw [he] at hnone
    cases hnone

theorem LateRowHarmless.reportStored (h : LateRowHarmless env relatedId db) :
    ReportStored env relatedId db := by
  rcases updatePairing_cases env relatedId db with ⟨-, he⟩ | ⟨-, hkept, he⟩ | ⟨hne, hpass, he⟩
  · exact reportStored_of_nothing he
  · obtain ⟨p, hp, hcomplete, -⟩ := hkept
    exact reportStored_of_skipped he hp hcomplete
  · rcases upsert_pair_cases (freshPair env relatedId db) db.paymentLedgerPairs with
      ⟨p, hp, hlate, hstays⟩ | ⟨-, hinstalled⟩
    · refine reportStored_of_row he hstays ?_
      rcases h p hp hlate with hno | ⟨hcomplete, hlegs⟩ | hup
      · obtain ⟨e, hmem, hrel⟩ := hne
        exact absurd hrel (hno e hmem)
      · exact absurd ((freshPair_complete_iff _ _ _).mp (hpass p hp hcomplete)) hlegs
      · exact (stores_fresh_iff env relatedId db hne p).mpr hup
    · exact reportStored_of_row he hinstalled (stores_freshPair env relatedId db)

theorem ReportStored.lateRowHarmless (h : ReportStored env relatedId db) :
    LateRowHarmless env relatedId db := by
  intro p hp hlate
  rcases updatePairing_cases env relatedId db with ⟨hno, -⟩ | ⟨-, hkept, -⟩ | ⟨hne, -, he⟩
  · exact Or.inl fun e hmem hrel => hno ⟨e, hmem, hrel⟩
  · obtain ⟨p', hp', hcomplete, hlegs⟩ := hkept
    obtain rfl := Option.some.inj (hp.symm.trans hp')
    rw [freshPair_complete_iff] at hlegs
    exact Or.inr (Or.inl ⟨hcomplete, hlegs⟩)
  · -- the upsert was refused, so the reported row must have been there before
    rcases upsert_pair_cases (freshPair env relatedId db) db.paymentLedgerPairs with
      ⟨p', hp', -, hstays⟩ | ⟨hearly, -⟩
    · obtain rfl := Option.some.inj (hp.symm.trans hp')
      obtain ⟨q, hq, hs⟩ := h.updated _ (by rw [he]) rfl
      rw [he] at hq
      obtain rfl := Option.some.inj (hstays.symm.trans hq)
      exact Or.inr (Or.inr ((stores_fresh_iff env relatedId db hne p).mp hs))
    · exact absurd (hearly p hp) (not_le.mpr hlate)

end

/-- The reported result is the stored result exactly if no row with a later
stamp stands in the way. -/
theorem report_stored_iff (env : Surroundings) (relatedId : PyStr) (db : Database) :
    ReportStored env relatedId db ↔ LateRowHarmless env relatedId db :=
  ⟨ReportStored.lateRowHarmless, LateRowHarmless.reportStored⟩

/-- A payment was paired by a host whose clock reads 10; a host whose clock
reads 5 then writes the receipt and runs the pairing step. -/
def lateRowDb : Database :=
  insertLedgerEntry (.still 5) (plainEvent "tx-2" "w2" "RECEIVE" "po-1")
    (run [⟨.ledger (plainEvent "tx-1" "w1" "PAYMENT" "po-1"), .still 10⟩])

/-- The step reports a complete pair and stores nothing. -/
theorem late_row_misreported : ¬ ReportStored (.still 5) (py "po-1") lateRowDb := by
  intro h
  have hreported : ∃ snapshot,
      (updatePairingForRelatedId (.still 5) (py "po-1") lateRowDb).2 = some snapshot ∧
        snapshot.skipped = false ∧ snapshot.receiveTxId = some (py "tx-2") :=
    ⟨freshSnapshot (.still 5) (py "po-1") lateRowDb, by decide, rfl, by decide⟩
  have hstored : ((updatePairingForRelatedId (.still 5) (py "po-1")
      lateRowDb).1.paymentLedgerPairs.find? (py "po-1")).map (·.receiveTxId) = some none := by
    decide
  obtain ⟨snapshot, hsome, hskip, hreceive⟩ := hreported
  obtain ⟨p, hp, hs⟩ := h.updated snapshot hsome hskip
  rw [hp, Option.map_some, hs.receiveTxId, hreceive] at hstored
  cases hstored

/-- In a run with one clock that never goes back no such row exists, so every
report of the pairing step is right. -/
theorem report_stored_of_clock {calls : List Call} {call : Call} {event : LedgerEntryUpserted}
    {k : PyStr} (hclock : ClockMonotone (calls ++ [call])) (hevent : call.event = .ledger event)
    (htarget : pairingTarget event = some k) :
    ReportStored call.env k (insertLedgerEntry call.env event (run calls)) := by
  refine LateRowHarmless.reportStored fun p hp hlate => ?_
  rw [insertLedgerEntry_pairs] at hp
  exact absurd (stored_stamp_le hclock ⟨event, hevent, htarget⟩ hp) (not_le.mpr hlate)

end TxLookup.Consumer
