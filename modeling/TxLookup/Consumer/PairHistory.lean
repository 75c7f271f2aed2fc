import TxLookup.Consumer.PairRow

/-!
# The history of a pair row

Along any sequential run, with arbitrary events, clocks and row orders, a pair
row is the row some earlier call computed from the ledger of that moment, and a
complete row is only ever replaced by a complete one.
-/
namespace TxLookup.Consumer

open Library Db KeyedTable

/-- `call`, made after the calls `pre`, wrote the pair row `p` of `k`. -/
def Writes (pre : List Call) (call : Call) (k : PyStr) (p : PaymentLedgerPair) : Prop :=
  call.Refreshes k ∧ p = freshPair call.env k (run (pre ++ [call])) ∧
    (run (pre ++ [call])).paymentLedgerPairs.find? k = some p

/-- The row was written by a call of the run and has been left alone since. -/
def Provenance (calls : List Call) (k : PyStr) (p : PaymentLedgerPair) : Prop :=
  ∃ pre call post, calls = pre ++ call :: post ∧ Writes pre call k p ∧
    ∀ mid, mid <+: post → (run (pre ++ call :: mid)).paymentLedgerPairs.find? k = some p

theorem Provenance.concat {calls : List Call} {k : PyStr} {p : PaymentLedgerPair}
    (h : Provenance calls k p) {call : Call}
    (hrow : (run (calls ++ [call])).paymentLedgerPairs.find? k = some p) :
    Provenance (calls ++ [call]) k p := by
  obtain ⟨pre, writer, post, rfl, hw, hkept⟩ := h
  refine ⟨pre, writer, post ++ [call], by simp, hw, fun mid hmid => ?_⟩
  rcases List.prefix_concat_iff.mp hmid with rfl | hmid
  · simpa using hrow
  · exact hkept mid hmid

/-- Every pair row in a reachable state has a provenance. -/
theorem provenance_of_run (calls : List Call) (k : PyStr) :
    ∀ p, (run calls).paymentLedgerPairs.find? k = some p → Provenance calls k p := by
  induction calls using List.reverseRecOn with
  | nil => intro p hp; cases hp
  | append_singleton calls call ih =>
    intro p hp
    have hcases := apply_pairs_cases call (run calls) k
    rw [← run_concat] at hcases
    rcases hcases with hsame | ⟨hr, hnew, _⟩
    · exact (ih p (hsame.symm.trans hp)).concat hp
    · have hfresh : p = freshPair call.env k (run (calls ++ [call])) :=
        Option.some.inj (hp.symm.trans hnew)
      refine ⟨calls, call, [], rfl, ⟨hr, hfresh, hp⟩, fun mid hmid => ?_⟩
      obtain rfl := List.prefix_nil.mp hmid
      exact hp

/-- One call keeps a complete row complete. -/
theorem apply_keeps_complete (call : Call) {db : Database} {k : PyStr}
    (h : ∃ p, db.paymentLedgerPairs.find? k = some p ∧ p.Complete) :
    ∃ p, (call.apply db).paymentLedgerPairs.find? k = some p ∧ p.Complete := by
  obtain ⟨p, hp, hc⟩ := h
  rcases apply_pairs_cases call db k with hsame | ⟨_, hnew, hkeep⟩
  · exact ⟨p, hsame.trans hp, hc⟩
  · exact ⟨_, hnew, hkeep p hp hc⟩

theorem runFrom_keeps_complete (calls : List Call) {db : Database} {k : PyStr}
    (h : ∃ p, db.paymentLedgerPairs.find? k = some p ∧ p.Complete) :
    ∃ p, (runFrom db calls).paymentLedgerPairs.find? k = some p ∧ p.Complete := by
  induction calls generalizing db with
  | nil => exact h
  | cons call calls ih => exact ih (apply_keeps_complete call h)

/-- What holds of a pair row in every state. -/
structure WellFormedPair (p : PaymentLedgerPair) : Prop where
  payer : p.paymentTxId.isSome ↔ p.payerWalletId.isSome
  payee : p.receiveTxId.isSome ↔ p.payeeWalletId.isSome
  distinct : ∀ tx, p.paymentTxId = some tx → p.receiveTxId ≠ some tx

theorem freshPair_wellFormed (env : Surroundings) (k : PyStr) (db : Database) :
    WellFormedPair (freshPair env k db) where
  payer := by
    have h := freshPair_tx_wallet env k db .payment
    exact Bool.coe_iff_coe.mpr h
  payee := by
    have h := freshPair_tx_wallet env k db .receive
    exact Bool.coe_iff_coe.mpr h
  distinct := fun _ h => freshPair_legs_ne env k db h

/-- A pair row is well formed in every reachable state, stays complete once it
is complete, and each of its legs was, with its wallet, a ledger row of the
relation and of the leg's type when the row was written. -/
theorem pair_never_regresses (calls : List Call) (k : PyStr) (p : PaymentLedgerPair)
    (hp : (run calls).paymentLedgerPairs.find? k = some p) :
    (p.Complete → ∀ more, ∃ p', (run (calls ++ more)).paymentLedgerPairs.find? k = some p' ∧
      p'.Complete) ∧
    WellFormedPair p ∧
    ∃ pre call post, calls = pre ++ call :: post ∧ Writes pre call k p ∧
      ∀ (leg : Leg) (tx : PyStr), leg.tx p = some tx → ∃ wallet, leg.wallet p = some wallet ∧
        Backed (run (pre ++ [call])).ledgerEntries k leg tx wallet := by
  obtain ⟨pre, call, post, hcalls, hw, _⟩ := provenance_of_run calls k p hp
  have hfresh := hw.2.1
  refine ⟨fun hc more => ?_, ?_, pre, call, post, hcalls, hw, fun leg tx htx => ?_⟩
  · rw [run_append]
    exact runFrom_keeps_complete more ⟨p, hp, hc⟩
  · rw [hfresh]
    exact freshPair_wellFormed _ _ _
  · rw [hfresh] at htx ⊢
    exact freshPair_backed _ _ _ leg htx

/-! ## A run in which a leg moves away -/

/-- The text, or `-` for the empty text. -/
def idText (s : String) : { s : PyStr // s ≠ [] } :=
  if h : py s = [] then ⟨[45], List.cons_ne_nil _ _⟩ else ⟨py s, h⟩

/-- A ledger event of a payment order, without metadata. -/
def plainEvent (txId walletId entryType relatedId : String) : LedgerEntryUpserted where
  txId := (idText txId).1
  walletId := (idText walletId).1
  entryType := (idText entryType).1
  amount := .finite false 1000 (-2)
  amountSigned := none
  relatedId := some (py relatedId)
  relatedType := some PAYMENT_ORDER
  eventTime := 0
  createdAt := 0
  updatedAt := none
  sourceVersion := none
  txId_ne := (idText txId).2
  walletId_ne := (idText walletId).2
  entryType_ne := (idText entryType).2

/-- An order event without metadata. -/
def plainOrder (orderId status : String) : PaymentOrderUpserted where
  orderId := (idText orderId).1
  userId := none
  merchantName := none
  amount := .finite false 1000 (-2)
  status := (idText status).1
  createdAt := 0
  updatedAt := none
  sourceVersion := none
  orderId_ne := (idText orderId).2
  status_ne := (idText status).2

/-- Both legs of an order arrive, then the receiving leg moves to another order. -/
def movingLegRun : List Call :=
  [⟨.ledger (plainEvent "tx-1" "w1" "PAYMENT" "po-1"), .still 1⟩,
    ⟨.ledger (plainEvent "tx-2" "w2" "RECEIVE" "po-1"), .still 2⟩,
    ⟨.ledger (plainEvent "tx-2" "w2" "RECEIVE" "po-2"), .still 3⟩,
    ⟨.ledger (plainEvent "tx-1" "w1" "PAYMENT" "po-1"), .still 4⟩]

/-- The row the second call wrote, which the fourth call leaves alone. -/
def movingLegPair : PaymentLedgerPair where
  paymentOrderId := py "po-1"
  paymentTxId := some (py "tx-1")
  receiveTxId := some (py "tx-2")
  payerWalletId := some (py "w1")
  payeeWalletId := some (py "w2")
  amount := some (.finite false 1000 (-2))
  status := none
  eventTime := some 0
  updatedAt := 2
  ingestedAt := 2

theorem movingLegPair_never_regresses :
    (movingLegPair.Complete → ∀ more, ∃ p',
      (run (movingLegRun ++ more)).paymentLedgerPairs.find? (py "po-1") = some p' ∧ p'.Complete) ∧
    WellFormedPair movingLegPair ∧
    ∃ pre call post, movingLegRun = pre ++ call :: post ∧
      Writes pre call (py "po-1") movingLegPair ∧
      ∀ (leg : Leg) (tx : PyStr), leg.tx movingLegPair = some tx →
        ∃ wallet, leg.wallet movingLegPair = some wallet ∧
          Backed (run (pre ++ [call])).ledgerEntries (py "po-1") leg tx wallet :=
  pair_never_regresses movingLegRun (py "po-1") movingLegPair (by decide)

end TxLookup.Consumer
