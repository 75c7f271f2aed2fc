import TxLookup.Consumer.PairView
import TxLookup.Library.Runs

/-!
# What the legs of a pair row name

A pair row copies ledger rows of its relation. Later events can overwrite such a
row; the pair row follows when its own relation is recomputed, which happens for
the `related_id` of the event alone and never turns a complete row into an
incomplete one. The legs are taken from all rows of the relation, whatever their
`related_type`.
-/
namespace TxLookup.Consumer

open Library Library.Runs Db KeyedTable

/-- The ledger holds rows of both leg types in the relation. -/
def BothLegs (ledger : ledgerEntries.Table) (k : PyStr) : Prop :=
  ∀ leg : Leg, ∃ e ∈ ledger.rows, e.relatedId = some k ∧ e.entryType = leg.entryType

instance (ledger : ledgerEntries.Table) (k : PyStr) : Decidable (BothLegs ledger k) :=
  inferInstanceAs (Decidable (∀ leg : Leg, ∃ e ∈ ledger.rows,
    e.relatedId = some k ∧ e.entryType = leg.entryType))

theorem freshPair_complete_iff (env : Surroundings) (k : PyStr) (db : Database) :
    (freshPair env k db).Complete ↔ BothLegs db.ledgerEntries k := by
  rw [complete_iff]
  exact forall_congr' fun leg => freshPair_tx_isSome env k db leg

/-- A stored pair row belongs to a relation some call recomputed. -/
theorem pair_key_ne {calls : List Call} {k : PyStr} {p : PaymentLedgerPair}
    (hp : (run calls).paymentLedgerPairs.find? k = some p) : k ≠ [] := by
  obtain ⟨_, call, _, _, ⟨hrefreshes, _, _⟩, _⟩ := provenance_of_run calls k p hp
  obtain ⟨event, _, htarget⟩ := hrefreshes
  exact (pairingTarget_eq_some.mp htarget).2.1

/-- The ledger write of an event in a payment order relation is followed by a
refresh of the relation. -/
theorem refreshes_of_ledgerRow {call : Call} {row : LedgerEntry} {k : PyStr}
    (hrow : call.ledgerRow = some row) (hrel : row.relatedId = some k) (hk : k ≠ [])
    (htype : row.relatedType = none ∨ row.relatedType = some PAYMENT_ORDER) : call.Refreshes k := by
  obtain ⟨event, hevent, rfl⟩ := ledgerRow_eq_some.mp hrow
  obtain ⟨ev | ev, env⟩ := call
  · obtain rfl : ev = event := Option.some.inj hevent
    exact ⟨ev, rfl, pairingTarget_eq_some.mpr ⟨hrel, hk, htype⟩⟩
  · cases hevent

theorem ledgerRow_of_refreshes {call : Call} {k : PyStr} (h : call.Refreshes k) :
    ∃ row, call.ledgerRow = some row ∧ row.relatedId = some k := by
  obtain ⟨event, hevent, htarget⟩ := h
  refine ⟨_, ledgerRow_eq_some.mpr ⟨event, ?_, rfl⟩, (pairingTarget_eq_some.mp htarget).1⟩
  rw [hevent]
  rfl

/-! ## Legs backed by the ledger -/

/-- Every leg of a pair row names a ledger row of the relation and of the leg's
type, in the wallet stored with the leg. -/
def PairsBacked (db : Database) : Prop :=
  ∀ p ∈ db.paymentLedgerPairs.rows, ∀ (leg : Leg) (tx : PyStr), leg.tx p = some tx →
    ∃ wallet, leg.wallet p = some wallet ∧
      Backed db.ledgerEntries p.paymentOrderId leg tx wallet

/-- An event that overwrites a row named by a pair row keeps its relation, and
leaves the relation of a complete pair row with both legs. -/
def KeepsLegs (db : Database) (call : Call) : Prop :=
  ∀ row old, call.ledgerRow = some row → db.ledgerEntries.find? row.txId = some old →
    ledgerEntries.wins row old = true → ∀ p ∈ db.paymentLedgerPairs.rows, ∀ leg : Leg,
      leg.tx p = some row.txId → row.relatedId = some p.paymentOrderId ∧
        (p.Complete →
          BothLegs (upsertRow ledgerEntries row db.ledgerEntries) p.paymentOrderId)

theorem ledger_of_ledgerRow {calls : List Call} {call : Call} {row : LedgerEntry}
    (hrow : call.ledgerRow = some row) : (run (calls ++ [call])).ledgerEntries =
      upsertRow ledgerEntries row (run calls).ledgerEntries := by
  rw [run_concat, apply_ledgerEntries, hrow]

/-- A pair row that was computed by the last call is backed. -/
theorem backed_of_fresh {db : Database} {env : Surroundings} {k : PyStr} {leg : Leg} {tx : PyStr}
    {p : PaymentLedgerPair} (hp : p = freshPair env k db) (htx : leg.tx p = some tx) :
    ∃ wallet, leg.wallet p = some wallet ∧ Backed db.ledgerEntries k leg tx wallet := by
  rw [hp] at htx ⊢
  exact freshPair_backed env k db leg htx

/-- One call keeps the pair rows backed if its event keeps the legs. -/
theorem backed_step {calls : List Call} {call : Call}
    (hclock : ClockMonotone (calls ++ [call]))
    (htype : ∀ row, call.ledgerRow = some row →
      row.relatedType = none ∨ row.relatedType = some PAYMENT_ORDER)
    (hbacked : PairsBacked (run calls)) (hkeeps : KeepsLegs (run calls) call) :
    PairsBacked (run (calls ++ [call])) := by
  intro p hp leg tx htx
  have hfind : (run (calls ++ [call])).paymentLedgerPairs.find? p.paymentOrderId = some p :=
    KeyedTable.find?_of_mem _ hp
  have hcases := apply_pairs_cases call (run calls) p.paymentOrderId
  rw [← run_concat, hfind] at hcases
  rcases hcases with hsame | ⟨-, hinstalled, -⟩
  · have hold : p ∈ (run calls).paymentLedgerPairs.rows :=
      ((KeyedTable.find?_eq_some_iff _).mp hsame.symm).1
    obtain ⟨wallet, hwallet, e, he, hetx, hety, herel, hewallet⟩ := hbacked p hold leg tx htx
    have hledger := apply_ledger_cases call (run calls) tx
    rw [← run_concat] at hledger
    have holdrow : (run calls).ledgerEntries.find? tx = some e :=
      hetx ▸ (run calls).ledgerEntries.find?_of_mem he
    rcases hledger with hstays | ⟨row, hrow, rfl, hnew, hwins⟩
    · have hmem := ((KeyedTable.find?_eq_some_iff _).mp (hstays.trans holdrow)).1
      exact ⟨wallet, hwallet, e, hmem, hetx, hety, herel, hewallet⟩
    · -- the row the leg names is overwritten, so its relation is recomputed
      obtain ⟨hrel, hboth⟩ := hkeeps row e hrow holdrow (hwins e holdrow) p hold leg htx
      rw [← ledger_of_ledgerRow hrow] at hboth
      have hrefreshes := refreshes_of_ledgerRow hrow hrel (pair_key_ne hsame.symm) (htype row hrow)
      have hmem := ((KeyedTable.find?_eq_some_iff _).mp hnew).1
      have hinstalls := refresh_installs hclock hrefreshes ⟨row, hmem, hrel⟩ (by
        intro p' hp' hcomplete
        obtain rfl : p = p' := Option.some.inj (hsame.trans hp')
        exact (freshPair_complete_iff _ _ _).mpr (hboth hcomplete))
      rw [hfind] at hinstalls
      exact backed_of_fresh (Option.some.inj hinstalls) htx
  · exact backed_of_fresh (Option.some.inj hinstalled) htx

/-- A call whose event does not keep the legs leaves a pair row without them. -/
theorem keepsLegs_of_backed {calls : List Call} {call : Call}
    (hbacked : PairsBacked (run (calls ++ [call]))) : KeepsLegs (run calls) call := by
  intro row old hrow hold hwins p hp leg htx
  have hfind : (run calls).paymentLedgerPairs.find? p.paymentOrderId = some p :=
    KeyedTable.find?_of_mem _ hp
  have hnew : (run (calls ++ [call])).ledgerEntries.find? row.txId = some row := by
    rw [ledger_of_ledgerRow hrow]
    refine (find?_upsert_self ledgerEntries.wins row (run calls).ledgerEntries).trans ?_
    show Settle.offer ledgerEntries.wins ((run calls).ledgerEntries.find? row.txId) row = some row
    rw [hold, Settle.offer, if_pos hwins]
  constructor
  · by_contra hrel
    have hno : ¬ call.Refreshes p.paymentOrderId := by
      intro h
      obtain ⟨row', hrow', hrel'⟩ := ledgerRow_of_refreshes h
      obtain rfl : row = row' := Option.some.inj (hrow.symm.trans hrow')
      exact hrel hrel'
    have hstays : (run (calls ++ [call])).paymentLedgerPairs.find? p.paymentOrderId = some p := by
      rw [run_concat, apply_pairs_of_not_refreshes hno, hfind]
    have hmem := ((KeyedTable.find?_eq_some_iff _).mp hstays).1
    obtain ⟨_, _, e, he, hetx, _, herel, _⟩ := hbacked p hmem leg row.txId htx
    have hfe : (run (calls ++ [call])).ledgerEntries.find? row.txId = some e :=
      hetx ▸ KeyedTable.find?_of_mem _ he
    obtain rfl : row = e := Option.some.inj (hnew.symm.trans hfe)
    exact hrel herel
  · intro hcomplete
    obtain ⟨p', hp', hcomplete'⟩ := apply_keeps_complete call ⟨p, hfind, hcomplete⟩
    rw [← run_concat] at hp'
    rw [← ledger_of_ledgerRow hrow]
    intro l
    obtain ⟨tx, htx'⟩ := Option.isSome_iff_exists.mp ((complete_iff p').mp hcomplete' l)
    obtain ⟨hmem, hkey⟩ := (KeyedTable.find?_eq_some_iff _).mp hp'
    obtain ⟨_, _, e, he, _, hety, herel, _⟩ := hbacked p' hmem l tx htx'
    exact ⟨e, he, herel.trans (congrArg some hkey), hety⟩

/-- In payment order relations and under the clock, the pair rows are backed by
the ledger throughout a run exactly if each event of the run that overwrites a
leg keeps its relation and leaves a complete pair row with both legs. -/
theorem pairs_backed_iff (calls : List Call) (hclock : ClockMonotone calls)
    (htypes : ∀ event ∈ ledgerEvents (eventsOf calls),
      event.relatedType = none ∨ event.relatedType = some PAYMENT_ORDER) :
    (∀ pre post, calls = pre ++ post → PairsBacked (run pre)) ↔
      Along Call.apply KeepsLegs Database.empty calls := by
  refine always_iff_along (fun p hp => by cases hp) fun pre call post hsplit hbacked => ?_
  rw [hsplit, List.append_cons] at hclock htypes
  refine ⟨keepsLegs_of_backed, backed_step hclock.left (fun row hrow => ?_) hbacked⟩
  obtain ⟨event, hevent, rfl⟩ := ledgerRow_eq_some.mp hrow
  exact htypes event (mem_ledgerEvents (by simp) hevent)

/-- Both legs of an order arrive, then the receiving wallet is corrected. -/
def correctedWalletRun : List Call :=
  [⟨.ledger (plainEvent "tx-1" "w1" "PAYMENT" "po-1"), .still 1⟩,
    ⟨.ledger (plainEvent "tx-2" "w2" "RECEIVE" "po-1"), .still 2⟩,
    ⟨.ledger (plainEvent "tx-2" "w3" "RECEIVE" "po-1"), .still 3⟩]

theorem correctedWalletRun_backed :
    (∀ pre post, correctedWalletRun = pre ++ post → PairsBacked (run pre)) ↔
      Along Call.apply KeepsLegs Database.empty correctedWalletRun :=
  pairs_backed_iff correctedWalletRun (by unfold ClockMonotone; decide) (by decide)

/-- Both legs of an order arrive, then the receiving leg turns out to be a refund. -/
def retypedLegRun : List Call :=
  [⟨.ledger (plainEvent "tx-1" "w1" "PAYMENT" "po-1"), .still 1⟩,
    ⟨.ledger (plainEvent "tx-2" "w2" "RECEIVE" "po-1"), .still 2⟩,
    ⟨.ledger (plainEvent "tx-2" "w2" "REFUND_IN" "po-1"), .still 3⟩]

/-- The runs meet the clock and the types, and end with a leg that has moved to
another order, or has another type. -/
theorem moved_leg_not_backed :
    (ClockMonotone movingLegRun ∧ (∀ event ∈ ledgerEvents (eventsOf movingLegRun),
        event.relatedType = none ∨ event.relatedType = some PAYMENT_ORDER) ∧
      ¬ PairsBacked (run movingLegRun)) ∧
    ClockMonotone retypedLegRun ∧ (∀ event ∈ ledgerEvents (eventsOf retypedLegRun),
        event.relatedType = none ∨ event.relatedType = some PAYMENT_ORDER) ∧
      ¬ PairsBacked (run retypedLegRun) := by
  refine ⟨⟨by unfold ClockMonotone; decide, by decide, fun h => ?_⟩,
    by unfold ClockMonotone; decide, by decide, fun h => ?_⟩
  · obtain ⟨_, _, e, he, htx, _, hrel, _⟩ := h movingLegPair (by decide) .receive (py "tx-2") rfl
    have hno : ∀ e ∈ (run movingLegRun).ledgerEntries.rows,
        e.txId = py "tx-2" → e.relatedId ≠ some (py "po-1") := by decide
    exact hno e he htx hrel
  · obtain ⟨_, _, e, he, htx, hty, _⟩ := h movingLegPair (by decide) .receive (py "tx-2") rfl
    have hno : ∀ e ∈ (run retypedLegRun).ledgerEntries.rows,
        e.txId = py "tx-2" → e.entryType ≠ RECEIVE := by decide
    exact hno e he htx hty

/-! ## Legs of the payment order domain -/

/-- All ledger events of one transaction agree on the relation, its type and the
entry type. -/
structure SameDomain (events : List Event) : Prop where
  relation : SameRelation events
  relatedType : ∀ event ∈ ledgerEvents events, ∀ event' ∈ ledgerEvents events,
    event.txId = event'.txId → event.relatedType = event'.relatedType

theorem SameDomain.mono {events events' : List Event} (h : SameDomain events)
    (hsub : events' ⊆ events) : SameDomain events' where
  relation := fun e he e' he' =>
    h.relation e (ledgerEvents_subset hsub he) e' (ledgerEvents_subset hsub he')
  relatedType := fun e he e' he' =>
    h.relatedType e (ledgerEvents_subset hsub he) e' (ledgerEvents_subset hsub he')

/-- Under the contract a row of an earlier state keeps its related type. -/
theorem SameDomain.row_stays {calls more : List Call} (h : SameDomain (eventsOf (calls ++ more)))
    {e : LedgerEntry} (he : e ∈ (run calls).ledgerEntries.rows) :
    ∃ e' ∈ (run (calls ++ more)).ledgerEntries.rows, e'.txId = e.txId ∧
      e'.relatedType = e.relatedType := by
  obtain ⟨e', he', htx, -, -⟩ := h.relation.row_stays he
  obtain ⟨event, hevent, t, rfl⟩ := ledger_row_event he
  obtain ⟨event', hevent', t', rfl⟩ := ledger_row_event he'
  have hold := ledgerEvents_subset (eventsOf_subset_append calls more) hevent
  exact ⟨_, he', htx, h.relatedType event' hevent' event hold htx⟩

/-- The entry relates to a payment order, as far as its own row says. -/
def InDomain (e : LedgerEntry) : Prop :=
  e.relatedType = none ∨ e.relatedType = some PAYMENT_ORDER

instance (e : LedgerEntry) : Decidable (InDomain e) := inferInstanceAs (Decidable (_ ∨ _))

/-- Every leg of a pair row names a ledger row of the payment order domain. -/
def PairsInDomain (db : Database) : Prop :=
  ∀ p ∈ db.paymentLedgerPairs.rows, ∀ (leg : Leg) (tx : PyStr), leg.tx p = some tx →
    ∃ e ∈ db.ledgerEntries.rows, e.txId = tx ∧ InDomain e

/-- When the call recomputes a pair row and is not refused, the first row of each
leg type that its SELECT returns is of the payment order domain. -/
def ChoosesInDomain (db : Database) (call : Call) : Prop :=
  ∀ event k, call.event = .ledger event → pairingTarget event = some k →
    Refreshable (insertLedgerEntry call.env event db) k
        (freshPair call.env k (insertLedgerEntry call.env event db)) →
      ∀ leg e, legRow call.env k (insertLedgerEntry call.env event db) leg = some e → InDomain e

theorem legRow_congr (env : Surroundings) (k : PyStr) {db db' : Database} (leg : Leg)
    (h : db.ledgerEntries = db'.ledgerEntries) : legRow env k db leg = legRow env k db' leg := by
  rw [legRow, legRow, selectRelated, selectRelated, h]

/-- One call keeps the pair table in the domain if it chooses its legs there. -/
theorem inDomain_step {calls : List Call} {call : Call}
    (hdomain : SameDomain (eventsOf (calls ++ [call]))) (hpairs : PairsInDomain (run calls))
    (hchooses : ChoosesInDomain (run calls) call) : PairsInDomain (run (calls ++ [call])) := by
  intro p hp leg tx htx
  have hfind : (run (calls ++ [call])).paymentLedgerPairs.find? p.paymentOrderId = some p :=
    KeyedTable.find?_of_mem _ hp
  have hkept : (run (calls ++ [call])).paymentLedgerPairs.find? p.paymentOrderId =
      (run calls).paymentLedgerPairs.find? p.paymentOrderId →
        ∃ e ∈ (run (calls ++ [call])).ledgerEntries.rows, e.txId = tx ∧ InDomain e := by
    intro hsame
    have hold := ((KeyedTable.find?_eq_some_iff _).mp (hsame.symm.trans hfind)).1
    obtain ⟨e, he, hetx, hetype⟩ := hpairs p hold leg tx htx
    obtain ⟨e', he', htx', htype'⟩ := hdomain.row_stays he
    refine ⟨e', he', htx'.trans hetx, ?_⟩
    rwa [InDomain, htype']
  have hcases := apply_pairs_cases call (run calls) p.paymentOrderId
  rw [← run_concat] at hcases
  rcases hcases with hsame | ⟨hrefreshes, hinstalled, -⟩
  · exact hkept hsame
  · obtain ⟨event, hevent, htarget, happly⟩ := apply_of_refreshes hrefreshes (run calls)
    rw [← run_concat] at happly
    by_cases hready : Refreshable (insertLedgerEntry call.env event (run calls)) p.paymentOrderId
        (freshPair call.env p.paymentOrderId (insertLedgerEntry call.env event (run calls)))
    · have hfresh : p = freshPair call.env p.paymentOrderId (run (calls ++ [call])) :=
        Option.some.inj (hfind.symm.trans hinstalled)
      rw [hfresh, freshPair_tx] at htx
      obtain ⟨e, he, hetx⟩ := Option.map_eq_some_iff.mp htx
      have hledger : (insertLedgerEntry call.env event (run calls)).ledgerEntries =
          (run (calls ++ [call])).ledgerEntries := by
        rw [happly, updatePairing_ledger]
      have hrow := legRow_spec _ _ _ he
      rw [← legRow_congr call.env p.paymentOrderId leg hledger] at he
      exact ⟨e, hrow.1, hetx, hchooses event p.paymentOrderId hevent htarget hready leg e he⟩
    · refine hkept ?_
      rw [happly, updatePairing_refused _ _ _ hready, insertLedgerEntry_pairs]

/-- A call that chooses a leg outside the domain puts it into the pair table. -/
theorem choosesInDomain_of_pairs {calls : List Call} {call : Call}
    (hpairs : PairsInDomain (run (calls ++ [call]))) : ChoosesInDomain (run calls) call := by
  intro event k hevent htarget hready leg e he
  obtain ⟨event', hevent', _, happly⟩ := apply_of_refreshes ⟨event, hevent, htarget⟩ (run calls)
  obtain rfl : event = event' := Event.ledger.inj (hevent.symm.trans hevent')
  obtain ⟨hmem, hrel, -⟩ := legRow_spec _ _ _ he
  have hinstalls := updatePairing_installs call.env k _ ⟨e, hmem, hrel⟩ hready
  rw [← happly, ← run_concat] at hinstalls
  have htx : leg.tx (freshPair call.env k (insertLedgerEntry call.env event (run calls))) =
      some e.txId := by
    rw [freshPair_tx, he]
    rfl
  obtain ⟨e', he', htx', hdomain⟩ :=
    hpairs _ ((KeyedTable.find?_eq_some_iff _).mp hinstalls).1 leg e.txId htx
  have hledger : (insertLedgerEntry call.env event (run calls)).ledgerEntries =
      (run (calls ++ [call])).ledgerEntries := by
    rw [run_concat, happly, updatePairing_ledger]
  rw [hledger] at hmem
  obtain rfl := KeyedTable.eq_of_key _ hmem he' htx'.symm
  exact hdomain

/-- Where transactions keep their relation, its type and their entry type, the
pair table holds payment order legs throughout a run exactly if every refresh of
the run that is not refused meets them first among the rows of its relation. -/
theorem pairs_in_domain_iff (calls : List Call) (hdomain : SameDomain (eventsOf calls)) :
    (∀ pre post, calls = pre ++ post → PairsInDomain (run pre)) ↔
      Along Call.apply ChoosesInDomain Database.empty calls := by
  refine always_iff_along (fun p hp => by cases hp) fun pre call post hsplit hpairs => ?_
  rw [hsplit, List.append_cons] at hdomain
  exact ⟨choosesInDomain_of_pairs,
    inDomain_step (hdomain.mono (eventsOf_subset_append _ _)) hpairs⟩

/-- A ledger event of the given related type. -/
def typedEvent (txId walletId entryType relatedId : String) (relatedType : Option PyStr) :
    LedgerEntryUpserted :=
  { plainEvent txId walletId entryType relatedId with relatedType := relatedType }

/-- An order is paid, and another domain uses the same identifier. -/
def mixedDomainRun : List Call :=
  [⟨.ledger (typedEvent "tx-1" "w1" "PAYMENT" "po-1" none), .still 1⟩,
    ⟨.ledger (typedEvent "tx-3" "w3" "REFUND_IN" "po-1" (some (py "REFUND"))), .still 2⟩]

theorem mixedDomainRun_in_domain :
    (∀ pre post, mixedDomainRun = pre ++ post → PairsInDomain (run pre)) ↔
      Along Call.apply ChoosesInDomain Database.empty mixedDomainRun :=
  pairs_in_domain_iff mixedDomainRun ⟨by unfold SameRelation; decide, by decide⟩

/-- The receiving entry belongs to another domain. -/
def foreignLegRun : List Call :=
  [⟨.ledger (typedEvent "tx-2" "w2" "RECEIVE" "po-1" (some (py "REFUND"))), .still 1⟩,
    ⟨.ledger (typedEvent "tx-1" "w1" "PAYMENT" "po-1" (some PAYMENT_ORDER)), .still 2⟩]

theorem foreign_leg_in_pair_table :
    SameDomain (eventsOf foreignLegRun) ∧ ¬ PairsInDomain (run foreignLegRun) := by
  refine ⟨⟨by unfold SameRelation; decide, by decide⟩, fun h => ?_⟩
  obtain ⟨e, he, htx, hdomain⟩ := h movingLegPair (by decide) .receive (py "tx-2") rfl
  have hno : ∀ e ∈ (run foreignLegRun).ledgerEntries.rows, e.txId = py "tx-2" → ¬ InDomain e := by
    decide
  exact hno e he htx hdomain

end TxLookup.Consumer
