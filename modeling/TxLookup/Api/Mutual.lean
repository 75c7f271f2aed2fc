import TxLookup.Api.Views
import TxLookup.Consumer.PairBacking

/-!
# When pairing is mutual

Three rules name an entry for a leg: the pair row, the query for the newest entry
of the other type, and the entry the request is about. With several entries of
one type in a relation they can name different ones.
-/
namespace TxLookup.Api

open Library Library.PyText Db Consumer KeyedTable

/-- All ledger events of one transaction agree on the relation, the entry type
and the wallet. -/
structure SameEntry (events : List Event) : Prop where
  relation : SameRelation events
  walletId : ∀ event ∈ ledgerEvents events, ∀ event' ∈ ledgerEvents events,
    event.txId = event'.txId → event.walletId = event'.walletId

/-- The rows of a transaction carry the same wallet at any two times of a run. -/
theorem SameEntry.wallet_stays {calls more : List Call} (h : SameEntry (eventsOf (calls ++ more)))
    {e e' : LedgerEntry} (he : e ∈ (run calls).ledgerEntries.rows)
    (he' : e' ∈ (run (calls ++ more)).ledgerEntries.rows) (htx : e'.txId = e.txId) :
    e'.walletId = e.walletId := by
  obtain ⟨event, hevent, t, rfl⟩ := ledger_row_event he
  obtain ⟨event', hevent', t', rfl⟩ := ledger_row_event he'
  have hold := ledgerEvents_subset (eventsOf_subset_append calls more) hevent
  exact h.walletId event' hevent' event hold htx

/-- The entry stands for the leg of its relation: the pair row names it, or names
nothing there and the entry comes before all others of the leg's type. -/
def Represents (collation : Collation) (db : Database) (k : PyStr) (leg : Leg)
    (e : LedgerEntry) : Prop :=
  e ∈ db.ledgerEntries.rows ∧ e.relatedId = some k ∧ e.entryType = leg.entryType ∧
    ((∃ p, db.paymentLedgerPairs.find? k = some p ∧ leg.tx p = some e.txId) ∨
      (¬ PairHas db k leg ∧ ∀ r ∈ db.ledgerEntries.rows, r.relatedId = some k →
        r.entryType = leg.entryType → collation.before e r))

/-- The entry belongs to a payment order: its type says so, or it has none and
the order exists. -/
def OfOrder (db : Database) (e : LedgerEntry) : Prop :=
  ¬ OtherDomain e ∧ (e.relatedType = some PAYMENT_ORDER ∨
    (e.relatedId.bind db.paymentOrders.find?).isSome = true)

/-- The wallet a response shows for a leg. -/
def AdminTxResponse.wallet (response : AdminTxResponse) : Leg → Option PyStr
  | .payment => response.senderWalletId
  | .receive => response.receiverWalletId

/-! ## The entry a response names for the other leg -/

section
variable {calls : List Call} {k : PyStr} {e : LedgerEntry} {leg : Leg} (collation : Collation)

theorem resolves_iff : resolveRelatedType (contextOf collation (run calls) e) = PAYMENT_ORDER ↔
    OfOrder (run calls) e :=
  resolveRelatedType_iff

/-- Without a leg in the pair row, the response names the newest entry of the
other type. -/
theorem peer_named_iff (he : e ∈ (run calls).ledgerEntries.rows)
    (ht : e.entryType = leg.entryType) (hr : e.relatedId = some k) (hk : k ≠ [])
    (hno : ¬ PairHas (run calls) k leg.opposite) {x : LedgerEntry}
    (hx : x ∈ (run calls).ledgerEntries.rows) (hxr : x.relatedId = some k)
    (hxt : x.entryType = leg.opposite.entryType) :
    (contextOf collation (run calls) e).peerEntry.map (·.txId) = some x.txId ↔
      ∀ r ∈ (run calls).ledgerEntries.rows, r.relatedId = some k →
        r.entryType = leg.opposite.entryType → collation.before x r := by
  have hneeds : needsPeer ((run calls).paymentLedgerPairs.find? k) = true := by
    by_contra hskip
    have hboth := (needsPeer_iff _).mp (Bool.eq_false_iff.mpr hskip) leg.opposite
    rcases @pairLeg_cases calls k leg.opposite with ⟨hnone, -⟩ | ⟨_, -, -, hhas⟩
    · rw [hnone] at hboth
      cases hboth
    · exact hno hhas
  have hpeer : (contextOf collation (run calls) e).peerEntry =
      (selectNewestFirst collation (run calls) (isPeer e)).head? := by
    simp only [contextOf, hr, truthy_some hk, Option.bind_some, hneeds, Bool.and_self, if_true]
  have hmem : ∀ r, r ∈ selectNewestFirst collation (run calls) (isPeer e) ↔
      r ∈ (run calls).ledgerEntries.rows ∧ r.relatedId = some k ∧
        r.entryType = leg.opposite.entryType := by
    intro r
    rw [mem_peers_iff he hr, queriedLeg_of_leg ht]
  rw [hpeer]
  constructor
  · intro hhead r hrow hrel hty
    obtain ⟨y, hy, htx⟩ := Option.map_eq_some_iff.mp hhead
    obtain ⟨hymem, hfirst⟩ := head?_selectNewestFirst.mp hy
    obtain rfl := (run calls).ledgerEntries.eq_of_key ((hmem y).mp hymem).1 hx htx
    exact hfirst r ((hmem r).mpr ⟨hrow, hrel, hty⟩)
  · intro hfirst
    rw [head?_selectNewestFirst.mpr ⟨(hmem x).mpr ⟨hx, hxr, hxt⟩, fun r hrow => ?_⟩]
    · rfl
    · obtain ⟨hrow, hrel, hty⟩ := (hmem r).mp hrow
      exact hfirst r hrow hrel hty

/-- What a response of one leg names for the other leg is what represents it. -/
theorem named_iff (he : e ∈ (run calls).ledgerEntries.rows) (ht : e.entryType = leg.entryType)
    (hr : e.relatedId = some k) (hk : k ≠ []) {x : LedgerEntry}
    (hx : x ∈ (run calls).ledgerEntries.rows) (hxr : x.relatedId = some k)
    (hxt : x.entryType = leg.opposite.entryType) :
    (PairLegs.ofContext (contextOf collation (run calls) e)).tx leg.opposite = some x.txId ↔
      Represents collation (run calls) k leg.opposite x := by
  have hown : e.entryType ≠ leg.opposite.entryType :=
    fun h => leg.entryType_opposite (h.symm.trans ht)
  rw [legs_value collation he hr hk, Represents, and_iff_right hx, and_iff_right hxr,
    and_iff_right hxt]
  rcases @pairLeg_cases calls k leg.opposite with ⟨hnone, hno⟩ | ⟨tx, -, hsome, hhas⟩
  · have hpair : ¬ ∃ p, (run calls).paymentLedgerPairs.find? k = some p ∧
        leg.opposite.tx p = some x.txId := by
      rintro ⟨p, hp, htx⟩
      exact hno ⟨p, hp, by rw [htx]; rfl⟩
    rw [hnone, or_iff_right hpair, and_iff_right hno]
    simp only [if_neg hown, queriedLeg_of_leg ht, if_true]
    exact peer_named_iff collation he ht hr hk hno hx hxr hxt
  · have hbind : ((run calls).paymentLedgerPairs.find? k).bind leg.opposite.tx = some x.txId ↔
        ∃ p, (run calls).paymentLedgerPairs.find? k = some p ∧ leg.opposite.tx p = some x.txId :=
      Option.bind_eq_some_iff
    rw [hsome] at hbind
    rw [hsome, or_iff_left (fun h => h.1 hhas)]
    exact hbind

/-- The values of an entry of the order name whatever represents the other leg, and
are complete if there is something. -/
theorem complete_of_represents (now : DateTime) (he : e ∈ (run calls).ledgerEntries.rows)
    (ht : e.entryType = leg.entryType) (hr : e.relatedId = some k) (hk : k ≠ [])
    (horder : OfOrder (run calls) e) {x : LedgerEntry}
    (hx : Represents collation (run calls) k leg.opposite x) :
    (adminTxValues now (contextOf collation (run calls) e)).pairingStatus = .COMPLETE ∧
      (adminTxValues now (contextOf collation (run calls) e)).pairedTxId = some x.txId := by
  have htruthy : truthy (contextOf collation (run calls) e).ledgerEntry.relatedId = true := by
    show truthy e.relatedId = true
    rw [hr]
    exact truthy_some hk
  have hleg : (contextOf collation (run calls) e).ledgerEntry.entryType = leg.entryType := ht
  have hnamed := (named_iff collation he ht hr hk hx.1 hx.2.1 hx.2.2.1).mpr hx
  obtain ⟨hcomplete, -, hpaired⟩ :=
    resolvePairing_leg hleg htruthy ((resolves_iff collation).mpr horder)
  refine ⟨hcomplete.mpr ⟨?_, ?_⟩, hpaired.trans hnamed⟩
  · exact own_truthy collation (ledger_txId_ne he) ht
  · rw [hnamed]
    exact truthy_some (ledger_txId_ne hx.1)

/-- A complete response of a leg's entry is about a payment order and names a
ledger row that represents the other leg. -/
theorem represents_of_complete (h : SameRelation (eventsOf calls)) {now : DateTime}
    {response : AdminTxResponse} (he : e ∈ (run calls).ledgerEntries.rows)
    (ht : e.entryType = leg.entryType)
    (hresponse : adminTx collation now (run calls) e.txId = .ok (some response))
    (hcomplete : response.pairingStatus = .COMPLETE) :
    ∃ k x, e.relatedId = some k ∧ k ≠ [] ∧ OfOrder (run calls) e ∧
      response.pairedTxId = some x.txId ∧
        Represents collation (run calls) k leg.opposite x := by
  obtain rfl := adminTx_values he hresponse
  have hstatus : (resolvePairing (contextOf collation (run calls) e)).1 = .COMPLETE := hcomplete
  have hguard : truthy e.relatedId = true ∧
      resolveRelatedType (contextOf collation (run calls) e) = PAYMENT_ORDER := by
    by_contra hno
    rw [resolvePairing_unknown] at hstatus
    · cases hstatus
    · rcases not_and_or.mp hno with hr | hty
      · exact .inl (Bool.eq_false_iff.mpr hr)
      · exact .inr hty
  obtain ⟨k, hr, hk⟩ := truthy_iff.mp hguard.1
  have hleg : (contextOf collation (run calls) e).ledgerEntry.entryType = leg.entryType := ht
  obtain ⟨hiff, -, hpaired⟩ := resolvePairing_leg hleg hguard.1 hguard.2
  obtain ⟨tx, htx, -⟩ := truthy_iff.mp (hiff.mp hstatus).2
  obtain ⟨x, hx, rfl, hxt, hxr⟩ := otherLeg_sound collation h he ht hr htx
  exact ⟨k, x, hr, hk, (resolves_iff collation).mp hguard.2, hpaired.trans htx,
    (named_iff collation he ht hr hk hx hxr hxt).mp htx⟩

/-! ## The wallet of the entry's own leg -/

theorem response_wallet (now : DateTime) (hr : truthy e.relatedId = true)
    (horder : OfOrder (run calls) e) :
    (adminTxValues now (contextOf collation (run calls) e)).wallet leg =
      (PairLegs.ofContext (contextOf collation (run calls) e)).wallet leg := by
  have hguard : ¬ (truthy (contextOf collation (run calls) e).ledgerEntry.relatedId = false ∨
      resolveRelatedType (contextOf collation (run calls) e) ≠ PAYMENT_ORDER) := by
    rintro (hfalse | hne)
    · cases hr.symm.trans hfalse
    · exact hne ((resolves_iff collation).mpr horder)
  have hpairing := resolvePairing_wallets hguard
  cases leg with
  | payment => exact congrArg Prod.fst hpairing
  | receive => exact congrArg Prod.snd hpairing

/-- The peer is of the other type, so the pair row and the entry decide. -/
theorem own_wallet (he : e ∈ (run calls).ledgerEntries.rows) (ht : e.entryType = leg.entryType)
    (hr : e.relatedId = some k) (hk : k ≠ []) :
    (PairLegs.ofContext (contextOf collation (run calls) e)).wallet leg =
      pyOr (((run calls).paymentLedgerPairs.find? k).bind leg.wallet) (some e.walletId) := by
  have hpair : (contextOf collation (run calls) e).paymentPair =
      (run calls).paymentLedgerPairs.find? k := by
    rw [contextOf, hr]
    rfl
  have hbase := PairLegs.wallet_ofPair ((run calls).paymentLedgerPairs.find? k) leg
  have hleg : (contextOf collation (run calls) e).ledgerEntry.entryType = leg.entryType := ht
  rw [PairLegs.ofContext, (PairLegs.fillFrom_own _ hleg).2, hpair]
  rcases peerEntry_cases collation he hr hk with ⟨q, hq, -, -, hqt⟩ | ⟨hq, -⟩
  · rw [queriedLeg_of_leg ht] at hqt
    have hother : q.entryType ≠ leg.entryType := fun h => leg.entryType_opposite (hqt.symm.trans h)
    rw [hq, PairLegs.ofStored, (PairLegs.fillFrom_ne _ hother).2, hbase]
    rfl
  · rw [hq, PairLegs.ofStored, hbase]
    rfl

/-- An entry that represents its leg is shown with its own wallet. -/
theorem own_wallet_of_represents (h : SameEntry (eventsOf calls)) (hk : k ≠ [])
    (hrep : Represents collation (run calls) k leg e) :
    (PairLegs.ofContext (contextOf collation (run calls) e)).wallet leg = some e.walletId := by
  obtain ⟨he, hr, ht, hnamed⟩ := hrep
  rw [own_wallet collation he ht hr hk]
  rcases hnamed with ⟨p, hp, htx⟩ | ⟨hno, -⟩
  · obtain ⟨pre, call, post, rfl, hwrites, -⟩ := provenance_of_run calls k p hp
    rw [hwrites.2.1] at htx
    obtain ⟨wallet, hwallet, e₀, he₀, htx₀, -, -, hw₀⟩ := freshPair_backed _ _ _ leg htx
    rw [List.append_cons] at h he hp ⊢
    rw [hp, Option.bind_some, hwrites.2.1, hwallet, ← hw₀, ← h.wallet_stays he₀ he htx₀.symm, pyOr]
    exact ite_self _
  · cases hp : (run calls).paymentLedgerPairs.find? k with
    | none => rfl
    | some p =>
      obtain ⟨-, hwell, -⟩ := pair_never_regresses calls k p hp
      have hnone : leg.wallet p = none := by
        rw [← Option.not_isSome_iff_eq_none]
        intro hsome
        refine hno ⟨p, hp, ?_⟩
        cases leg with
        | payment => exact hwell.payer.mpr hsome
        | receive => exact hwell.payee.mpr hsome
      rw [Option.bind_some, hnone]
      rfl

end

/-- Where transactions keep their relation, entry type and wallet, a complete
response names the entry's own wallet, and the entry it is paired with answers
likewise, exactly if the entry represents its leg and whatever represents the
other leg belongs to a payment order and has finite amounts. -/
theorem mutual_pairing_iff (calls : List Call) (h : SameEntry (eventsOf calls))
    (collation : Collation) (now now' : DateTime) (e : LedgerEntry)
    (he : e ∈ (run calls).ledgerEntries.rows) (leg : Leg) (ht : e.entryType = leg.entryType)
    (response : AdminTxResponse)
    (hresponse : adminTx collation now (run calls) e.txId = .ok (some response))
    (hcomplete : response.pairingStatus = .COMPLETE) :
    (response.wallet leg = some e.walletId ∧ ∃ e' ∈ (run calls).ledgerEntries.rows,
      response.pairedTxId = some e'.txId ∧ e'.entryType = leg.opposite.entryType ∧
        e'.relatedId = e.relatedId ∧
        ∃ response', adminTx collation now' (run calls) e'.txId = .ok (some response') ∧
          response'.pairingStatus = .COMPLETE ∧ response'.pairedTxId = some e.txId) ↔
      ∃ k, e.relatedId = some k ∧ Represents collation (run calls) k leg e ∧
        ∀ e', Represents collation (run calls) k leg.opposite e' →
          OfOrder (run calls) e' ∧ FiniteAmounts e' := by
  obtain ⟨k, x, hr, hk, hown, hpaired, hx⟩ :=
    represents_of_complete collation h.relation he ht hresponse hcomplete
  have hunique : ∀ e', Represents collation (run calls) k leg.opposite e' → e' = x := by
    intro e' he'
    refine (run calls).ledgerEntries.eq_of_key he'.1 hx.1 (Option.some.inj ?_)
    have hname := fun {y} hy => @named_iff calls k e leg collation he ht hr hk y hy
    exact ((hname he'.1 he'.2.1 he'.2.2.1).mpr he').symm.trans
      ((hname hx.1 hx.2.1 hx.2.2.1).mpr hx)
  constructor
  · rintro ⟨-, e', he', hnames, ht', -, response', hresponse', hcomplete', hpaired'⟩
    obtain rfl : x = e' := (run calls).ledgerEntries.eq_of_key hx.1 he'
      (Option.some.inj (hpaired.symm.trans hnames))
    obtain ⟨k', y, hr', -, horder, hnames', hy⟩ :=
      represents_of_complete collation h.relation he' ht' hresponse' hcomplete'
    obtain rfl : k' = k := Option.some.inj (hr'.symm.trans hx.2.1)
    obtain rfl : y = e := (run calls).ledgerEntries.eq_of_key hy.1 he
      (Option.some.inj (hnames'.symm.trans hpaired'))
    rw [Leg.opposite_opposite] at hy
    refine ⟨k', hr, hy, fun e' hrep => ?_⟩
    rw [hunique e' hrep]
    exact ⟨horder, ((adminTx_eq_ok he').mp hresponse').1⟩
  · rintro ⟨k', hr', hrep, hpeer⟩
    obtain rfl : k = k' := Option.some.inj (hr.symm.trans hr')
    obtain rfl := adminTx_values he hresponse
    obtain ⟨hxorder, hfinite⟩ := hpeer x hx
    rw [← Leg.opposite_opposite leg] at hrep
    have hanswer := complete_of_represents collation now' hx.1 hx.2.2.1 hx.2.1 hk hxorder hrep
    rw [Leg.opposite_opposite] at hrep
    have hwallet := own_wallet_of_represents collation h hk hrep
    have htruthy : truthy e.relatedId = true := by
      rw [hr]
      exact truthy_some hk
    exact ⟨(response_wallet collation now htruthy hown).trans hwallet, x, hx.1, hpaired,
      hx.2.2.1, hx.2.1.trans hr.symm, _, (adminTx_eq_ok hx.1).mpr ⟨hfinite, rfl⟩, hanswer⟩

/-- Two payments of an order, each from a wallet of its own, and one receiving entry. -/
def twoPaymentsRun : List Call :=
  [⟨.ledger (plainEvent "tx-1" "w1" "PAYMENT" "po-1"), .still 1⟩,
    ⟨.ledger (plainEvent "tx-2" "w2" "RECEIVE" "po-1"), .still 2⟩,
    ⟨.ledger (plainEvent "tx-3" "w3" "PAYMENT" "po-1"), .still 3⟩]

/-- The stored row of the first payment. -/
def firstPayment : LedgerEntry := storedEntry (plainEvent "tx-1" "w1" "PAYMENT" "po-1") 1

/-- What the endpoint answers for the first payment. -/
def firstPaymentResponse : AdminTxResponse :=
  adminTxValues 9 (contextOf .codePoints (run twoPaymentsRun) firstPayment)

theorem firstPayment_mutual_iff :
    (firstPaymentResponse.wallet .payment = some firstPayment.walletId ∧
      ∃ e' ∈ (run twoPaymentsRun).ledgerEntries.rows,
        firstPaymentResponse.pairedTxId = some e'.txId ∧
        e'.entryType = Leg.payment.opposite.entryType ∧ e'.relatedId = firstPayment.relatedId ∧
        ∃ response', adminTx .codePoints 9 (run twoPaymentsRun) e'.txId = .ok (some response') ∧
          response'.pairingStatus = .COMPLETE ∧
          response'.pairedTxId = some firstPayment.txId) ↔
      ∃ k, firstPayment.relatedId = some k ∧
        Represents .codePoints (run twoPaymentsRun) k .payment firstPayment ∧
        ∀ e', Represents .codePoints (run twoPaymentsRun) k Leg.payment.opposite e' →
          OfOrder (run twoPaymentsRun) e' ∧ FiniteAmounts e' :=
  mutual_pairing_iff twoPaymentsRun ⟨by unfold SameRelation; decide, by decide⟩ .codePoints 9 9
    firstPayment (by decide) .payment rfl firstPaymentResponse rfl (by decide)

/-- The second payment is shown with the wallet of the first, and the entry it is
paired with names the first. -/
theorem second_payment_not_mutual :
    SameDomain (eventsOf twoPaymentsRun) ∧ SameEntry (eventsOf twoPaymentsRun) ∧
    ∃ e ∈ (run twoPaymentsRun).ledgerEntries.rows, e.txId = py "tx-3" ∧
      e.entryType = PAYMENT ∧ e.walletId = py "w3" ∧
      ∃ response, adminTx .codePoints 9 (run twoPaymentsRun) (py "tx-3") = .ok (some response) ∧
        response.pairingStatus = .COMPLETE ∧ response.senderWalletId = some (py "w1") ∧
        response.pairedTxId = some (py "tx-2") ∧
        ∃ response', adminTx .codePoints 9 (run twoPaymentsRun) (py "tx-2") = .ok (some response') ∧
          response'.pairedTxId = some (py "tx-1") :=
  ⟨⟨by unfold SameRelation; decide, by decide⟩, ⟨by unfold SameRelation; decide, by decide⟩,
    storedEntry (plainEvent "tx-3" "w3" "PAYMENT" "po-1") 3, by decide, rfl, rfl, rfl,
    _, rfl, by decide, by decide, by decide, _, rfl, by decide⟩

end TxLookup.Api
