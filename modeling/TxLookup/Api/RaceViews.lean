import TxLookup.Api.Views
import TxLookup.Consumer.SessionLegs

/-!
# The transaction view between the statements of the consumers

The view reads committed rows while consumers are at work. Its query for the
missing leg looks into the ledger, so it reports what the ledger holds even where
the pair table has lost a pairing.
-/
namespace TxLookup.Api

open Library Library.Runs Db Consumer KeyedTable

/-- The leg of the view is absent, or it is a row of the relation with its wallet. -/
def PairLegs.ShowsRow (db : Database) (k : PyStr) (legs : PairLegs) (leg : Leg) : Prop :=
  (legs.tx leg = none ∧ legs.wallet leg = none) ∨ ∃ r ∈ db.ledgerEntries.rows,
    r.relatedId = some k ∧ r.entryType = leg.entryType ∧ legs.tx leg = some r.txId ∧
      legs.wallet leg = some r.walletId

namespace PairLegs

section
variable {db : Database} {k : PyStr} {leg : Leg}

/-- A row of the relation fills in its own leg, and leaves the other alone. -/
theorem ShowsRow.fillFrom {legs : PairLegs} (h : legs.ShowsRow db k leg)
    (hids : ∀ r ∈ db.ledgerEntries.rows, Identified r) {q : LedgerEntry}
    (hq : q ∈ db.ledgerEntries.rows) (hrel : q.relatedId = some k) :
    (legs.fillFrom q).ShowsRow db k leg := by
  by_cases ht : q.entryType = leg.entryType
  · obtain ⟨htx, hw⟩ := fillFrom_own legs ht
    rcases h with ⟨hnone, hnone'⟩ | ⟨r, hr, hrrel, hrt, hrtx, hrw⟩
    · rw [hnone] at htx
      rw [hnone'] at hw
      exact .inr ⟨q, hq, hrel, ht, htx, hw⟩
    · obtain ⟨hne, hne'⟩ := hids r hr
      rw [hrtx, pyOr, if_pos (truthy_some hne)] at htx
      rw [hrw, pyOr, if_pos (truthy_some hne')] at hw
      exact .inr ⟨r, hr, hrrel, hrt, htx, hw⟩
  · rw [ShowsRow, (fillFrom_ne legs ht).1, (fillFrom_ne legs ht).2]
    exact h

/-- A stored pair row shows rows of the ledger. -/
theorem showsRow_ofPair (hpairs : PairsBacked db)
    (hmatched : ∀ p ∈ db.paymentLedgerPairs.rows, Matched p) (k : PyStr) (leg : Leg) :
    (ofPair (db.paymentLedgerPairs.find? k)).ShowsRow db k leg := by
  rw [ShowsRow, tx_ofPair, wallet_ofPair]
  cases hp : db.paymentLedgerPairs.find? k with
  | none => exact .inl ⟨rfl, rfl⟩
  | some p =>
    obtain ⟨hm, hkey⟩ := (find?_eq_some_iff _).mp hp
    cases htx : leg.tx p with
    | none => exact .inl ⟨htx, hmatched p hm leg htx⟩
    | some tx =>
      obtain ⟨w, hw, r, hr, rfl, hrt, hrrel, rfl⟩ := hpairs p hm leg tx htx
      exact .inr ⟨r, hr, hrrel.trans (congrArg some hkey), hrt, htx, hw⟩

theorem ShowsRow.exists_row {legs : PairLegs} (h : legs.ShowsRow db k leg)
    (htx : truthy (legs.tx leg) = true) : ∃ r ∈ db.ledgerEntries.rows,
      r.relatedId = some k ∧ r.entryType = leg.entryType ∧ legs.tx leg = some r.txId ∧
        legs.wallet leg = some r.walletId := by
  rcases h with ⟨hnone, -⟩ | hrow
  · rw [hnone] at htx
    cases htx
  · exact hrow

end

end PairLegs

/-! ## The view of one entry -/

/-- What the consumers keep of the stored rows, whatever the order of their statements. -/
structure Standing (db : Database) : Prop where
  ids : ∀ r ∈ db.ledgerEntries.rows, Identified r
  pairs : PairsBacked db
  matched : ∀ p ∈ db.paymentLedgerPairs.rows, Matched p

section
variable {db : Database} {e : LedgerEntry} {leg : Leg} {k : PyStr} (collation : Collation)

/-- Both legs of the view are rows of the ledger. -/
theorem standing_shows (h : Standing db) (he : e ∈ db.ledgerEntries.rows)
    (ht : e.entryType = leg.entryType) (hr : e.relatedId = some k) (l : Leg) :
    (PairLegs.ofContext (contextOf collation db e)).ShowsRow db k l := by
  have hpair : (contextOf collation db e).paymentPair = db.paymentLedgerPairs.find? k := by
    rw [contextOf, hr]
    rfl
  refine PairLegs.ShowsRow.fillFrom ?_ h.ids he hr
  have hbase := PairLegs.showsRow_ofPair h.pairs h.matched k l
  rw [hpair]
  cases hq : (contextOf collation db e).peerEntry with
  | none => exact hbase
  | some q =>
    obtain ⟨hqm, hqr, -⟩ := peerEntry_mem collation he ht hr hq
    exact hbase.fillFrom h.ids hqm hqr

/-- The leg of the entry is never missing, and the other leg only if the ledger
does not have it. -/
theorem standing_finds (h : Standing db) (he : e ∈ db.ledgerEntries.rows)
    (ht : e.entryType = leg.entryType) (hr : e.relatedId = some k) (hk : k ≠ [])
    (hboth : BothLegs db.ledgerEntries k) (l : Leg) :
    truthy ((PairLegs.ofContext (contextOf collation db e)).tx l) = true := by
  by_cases hl : l = leg
  · subst hl
    exact own_truthy collation (h.ids e he).1 ht
  obtain rfl : l = leg.opposite := by
    cases l <;> cases leg <;> first | rfl | exact absurd rfl hl
  exact opposite_truthy collation (fun r hr => (h.ids r hr).1) he ht hr hk (hboth leg.opposite)

end

/-- The response for an entry of a payment order: the legs are those of the ledger. -/
theorem standing_reports {db : Database} (h : Standing db) (collation : Collation)
    (now : DateTime) {e : LedgerEntry} (he : e ∈ db.ledgerEntries.rows) {leg : Leg}
    (ht : e.entryType = leg.entryType) {response : AdminTxResponse}
    (hresponse : adminTx collation now db e.txId = .ok (some response))
    (hknown : response.pairingStatus ≠ .UNKNOWN) : ∃ k, e.relatedId = some k ∧
      (response.pairingStatus = .COMPLETE ↔ BothLegs db.ledgerEntries k) ∧
      (response.pairingStatus = .COMPLETE → ∃ row : Leg → LedgerEntry,
        (∀ l, row l ∈ db.ledgerEntries.rows ∧ (row l).relatedId = some k ∧
          (row l).entryType = l.entryType) ∧
        response.pairedTxId = some (row leg.opposite).txId ∧
        response.senderWalletId = some (row .payment).walletId ∧
        response.receiverWalletId = some (row .receive).walletId) := by
  obtain rfl := adminTx_values he hresponse
  change (resolvePairing (contextOf collation db e)).1 ≠ .UNKNOWN at hknown
  have hguard : ¬ (truthy e.relatedId = false ∨
      resolveRelatedType (contextOf collation db e) ≠ PAYMENT_ORDER) :=
    fun hn => hknown (by rw [resolvePairing_unknown hn])
  obtain ⟨hr, hty⟩ := not_or.mp hguard
  rw [Bool.not_eq_false] at hr
  rw [not_not] at hty
  obtain ⟨k, hrel, hk⟩ := truthy_iff.mp hr
  have hshows := standing_shows collation h he ht hrel
  obtain ⟨hstatus, -, hpaired⟩ := @resolvePairing_leg (contextOf collation db e) leg ht
    hr hty
  have hall := Leg.forall_iff_opposite leg
    (p := fun l => truthy ((PairLegs.ofContext (contextOf collation db e)).tx l) = true)
  rw [← hall] at hstatus
  refine ⟨k, hrel, ?_, fun hcomplete => ?_⟩
  · refine hstatus.trans ⟨fun htx l => ?_, fun hboth => standing_finds collation h he ht hrel hk hboth⟩
    obtain ⟨r, hrm, hrr, hrt, -⟩ := (hshows l).exists_row (htx l)
    exact ⟨r, hrm, hrr, hrt⟩
  · have hrow := fun l => (hshows l).exists_row (hstatus.mp hcomplete l)
    choose row hmem hrelated htype htx hwallet using hrow
    have hwallets := @resolvePairing_wallets (contextOf collation db e) hguard
    refine ⟨row, fun l => ⟨hmem l, hrelated l, htype l⟩, hpaired.trans (htx leg.opposite), ?_, ?_⟩
    · exact (congrArg Prod.fst hwallets).trans (hwallet .payment)
    · exact (congrArg Prod.snd hwallets).trans (hwallet .receive)

/-- In every state of every interleaving, a committed entry of a payment order with
finite amounts has a view. It is COMPLETE exactly if the committed ledger has both
legs, and its paired transaction and its two wallets are then those of committed rows. -/
theorem interleaved_view_reports {n : Nat} (events : Fin n → LedgerEntryUpserted)
    (hevents : Sessions.SameLegs events) (db : Database) (hdb : Sessions.Seeded events db)
    (start : DateTime) (run : List (Fin n × Statement)) (s : Sessions n)
    (hrun : runAll (Sessions.step events) (Sessions.start n db start) run = some s)
    (collation : Collation) (now : DateTime) (e : LedgerEntry)
    (he : e ∈ s.committed.ledgerEntries.rows) (leg : Leg) (ht : e.entryType = leg.entryType) :
    ((∃ response, adminTx collation now s.committed e.txId = .ok (some response)) ↔
      FiniteAmounts e) ∧
    ∀ response, adminTx collation now s.committed e.txId = .ok (some response) →
      response.pairingStatus ≠ .UNKNOWN → ∃ k, e.relatedId = some k ∧
        (response.pairingStatus = .COMPLETE ↔ BothLegs s.committed.ledgerEntries k) ∧
        (response.pairingStatus = .COMPLETE → ∃ row : Leg → LedgerEntry,
          (∀ l, row l ∈ s.committed.ledgerEntries.rows ∧ (row l).relatedId = some k ∧
            (row l).entryType = l.entryType) ∧
          response.pairedTxId = some (row leg.opposite).txId ∧
          response.senderWalletId = some (row .payment).walletId ∧
          response.receiverWalletId = some (row .receive).walletId) := by
  have hshown := Sessions.shown_run hevents hdb hrun
  refine ⟨adminTx_exists_iff he, fun response hresponse hknown => ?_⟩
  exact standing_reports ⟨hshown.ids, hshown.pairs, hshown.matched⟩ collation now he ht hresponse
    hknown

/-- After the race the pair row has one leg; the view of the payment has both. -/
theorem raceRun_view :
    ∃ s, runAll (Sessions.step twoLegs) (Sessions.start 2 Database.empty 0) raceRun = some s ∧
      ∃ e ∈ s.committed.ledgerEntries.rows,
        ∃ response, adminTx .codePoints 9 s.committed e.txId = .ok (some response) ∧
          (response.pairingStatus ≠ .UNKNOWN → ∃ k, e.relatedId = some k ∧
            (response.pairingStatus = .COMPLETE ↔ BothLegs s.committed.ledgerEntries k) ∧
            (response.pairingStatus = .COMPLETE → ∃ row : Leg → LedgerEntry,
              (∀ l, row l ∈ s.committed.ledgerEntries.rows ∧ (row l).relatedId = some k ∧
                (row l).entryType = l.entryType) ∧
              response.pairedTxId = some (row Leg.payment.opposite).txId ∧
              response.senderWalletId = some (row .payment).walletId ∧
              response.receiverWalletId = some (row .receive).walletId)) := by
  have hrun : ∃ s ∈ runAll (Sessions.step twoLegs) (Sessions.start 2 Database.empty 0) raceRun,
      ∃ e ∈ s.committed.ledgerEntries.rows,
        e.entryType = Leg.payment.entryType ∧ FiniteAmounts e := by decide
  obtain ⟨s, hs, e, he, ht, hfinite⟩ := hrun
  have hevents : Sessions.SameLegs twoLegs := by
    unfold Sessions.SameLegs
    decide
  have hseeded : Sessions.Seeded twoLegs Database.empty :=
    ⟨fun i r hr => (by cases hr), fun r hr => (by cases hr), fun p hp => (by cases hp),
      fun p hp => (by cases hp)⟩
  obtain ⟨hexists, hreports⟩ := interleaved_view_reports twoLegs hevents Database.empty hseeded 0
    raceRun s hs .codePoints 9 e he .payment ht
  obtain ⟨response, hresponse⟩ := hexists.mpr hfinite
  exact ⟨s, hs, e, he, response, hresponse, hreports response hresponse⟩

end TxLookup.Api
