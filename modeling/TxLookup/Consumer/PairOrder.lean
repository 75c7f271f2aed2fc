import TxLookup.Consumer.PairBacking

/-!
# Amount and status of a pair row

Both columns are copied from the order when a ledger event recomputes the pair
row. An order event touches no pair row, so the copy is as old as the last
recomputation that was not blocked.
-/
namespace TxLookup.Consumer

open Library Db KeyedTable

theorem freshPair_amount (env : Surroundings) (k : PyStr) {db : Database} {order : PaymentOrder}
    (h : db.paymentOrders.find? k = some order) :
    (freshPair env k db).amount = some order.amount := by
  rw [freshPair_amount_eq, h]
  rfl

/-- The recomputation by this call writes nothing: its relation has no ledger
row left, or the guard keeps a complete row whose relation lacks a leg. -/
def Blocked (db : Database) (call : Call) (k : PyStr) : Prop :=
  (∀ e ∈ (call.apply db).ledgerEntries.rows, e.relatedId ≠ some k) ∨
    ∃ p, db.paymentLedgerPairs.find? k = some p ∧ p.Complete ∧
      ¬ BothLegs (call.apply db).ledgerEntries k

theorem blocked_keeps {calls : List Call} {call : Call} {k : PyStr} (href : call.Refreshes k)
    (h : Blocked (run calls) call k) : (run (calls ++ [call])).paymentLedgerPairs.find? k =
      (run calls).paymentLedgerPairs.find? k := by
  obtain ⟨written, hrun, hledger, hpairs, -⟩ := @run_of_refreshes calls call k href
  rw [Blocked, ← run_concat, ← hledger, ← hpairs] at h
  rw [hrun, ← hpairs]
  rcases updatePairing_cases call.env k written with ⟨-, he⟩ | ⟨-, -, he⟩ | ⟨hrows, hpass, -⟩
  · rw [he]
  · rw [he]
  · rcases h with hnone | ⟨p, hp, hcomplete, hlegs⟩
    · obtain ⟨e, he, hrel⟩ := hrows
      exact absurd hrel (hnone e he)
    · exact absurd ((freshPair_complete_iff _ _ _).mp (hpass p hp hcomplete)) hlegs

theorem not_blocked_installs {calls : List Call} {call : Call} {k : PyStr}
    (hclock : ClockMonotone (calls ++ [call])) (href : call.Refreshes k)
    (h : ¬ Blocked (run calls) call k) : (run (calls ++ [call])).paymentLedgerPairs.find? k =
      some (freshPair call.env k (run (calls ++ [call]))) := by
  rw [Blocked, ← run_concat, not_or] at h
  obtain ⟨hrows, hlegs⟩ := h
  have hne : ∃ e ∈ (run (calls ++ [call])).ledgerEntries.rows, e.relatedId = some k := by
    by_contra hno
    exact hrows fun e he hrel => hno ⟨e, he, hrel⟩
  refine refresh_installs hclock href hne fun p hp hcomplete => ?_
  by_contra hincomplete
  exact hlegs ⟨p, hp, hcomplete, fun hboth => hincomplete ((freshPair_complete_iff _ _ _).mpr hboth)⟩

/-- In the run, `call` is the last one whose recomputation of the pair row of
`k` was not blocked; `pre` comes before it and `post` after it. -/
structure LastRefresh (calls : List Call) (k : PyStr) (pre : List Call) (call : Call)
    (post : List Call) : Prop where
  split : calls = pre ++ call :: post
  refreshes : call.Refreshes k
  passed : ¬ Blocked (run pre) call k
  blocked : ∀ mid later rest, post = mid ++ later :: rest → later.Refreshes k →
    Blocked (run (pre ++ call :: mid)) later k

theorem LastRefresh.concat {calls : List Call} {k : PyStr} {pre post : List Call} {call later : Call}
    (h : LastRefresh calls k pre call post)
    (hlater : later.Refreshes k → Blocked (run calls) later k) :
    LastRefresh (calls ++ [later]) k pre call (post ++ [later]) where
  split := by rw [h.split, List.append_assoc, List.cons_append]
  refreshes := h.refreshes
  passed := h.passed
  blocked := by
    intro mid call' rest hsplit href
    rcases List.append_eq_append_iff.mp hsplit with ⟨front, rfl, hright⟩ | ⟨front, hleft, hright⟩
    · cases front with
      | nil =>
        obtain ⟨rfl, -⟩ := List.cons.inj hright
        rw [List.append_nil, ← h.split]
        exact hlater href
      | cons x front =>
        have hlen := congrArg List.length hright
        simp only [List.length_append, List.length_cons, List.length_nil] at hlen
        omega
    · cases front with
      | nil =>
        obtain ⟨rfl, -⟩ := List.cons.inj hright
        rw [List.append_nil] at hleft
        rw [← hleft, ← h.split]
        exact hlater href
      | cons x front =>
        obtain ⟨rfl, -⟩ := List.cons.inj hright
        exact h.blocked mid call' front hleft href

/-- Under the clock a pair row is the one its last refresh computed. -/
theorem row_of_last_refresh (calls : List Call) (hclock : ClockMonotone calls) (k : PyStr) :
    ∀ p, (run calls).paymentLedgerPairs.find? k = some p → ∃ pre call post,
      LastRefresh calls k pre call post ∧ p = freshPair call.env k (run (pre ++ [call])) := by
  induction calls using List.reverseRecOn with
  | nil =>
    intro p hp
    cases hp
  | append_singleton calls call ih =>
    intro p hp
    have ih := ih hclock.left
    by_cases hnew : call.Refreshes k ∧ ¬ Blocked (run calls) call k
    · obtain ⟨href, hpass⟩ := hnew
      have hfresh := not_blocked_installs hclock href hpass
      refine ⟨calls, call, [], ⟨rfl, href, hpass, ?_⟩, Option.some.inj (hp.symm.trans hfresh)⟩
      intro mid later rest hsplit
      cases mid <;> cases hsplit
    · have hblocked : call.Refreshes k → Blocked (run calls) call k :=
        fun href => not_not.mp fun h => hnew ⟨href, h⟩
      have hkept : (run (calls ++ [call])).paymentLedgerPairs.find? k =
          (run calls).paymentLedgerPairs.find? k := by
        by_cases href : call.Refreshes k
        · exact blocked_keeps href (hblocked href)
        · rw [run_concat]
          exact apply_pairs_of_not_refreshes href (run calls)
      obtain ⟨pre, writer, post, hlast, hrow⟩ := ih p (hkept.symm.trans hp)
      exact ⟨pre, writer, post ++ [call], hlast.concat hblocked, hrow⟩

/-- Status and amount of a pair row are those its order had at the last refresh
of the row, and thus the current ones exactly if the order still has them. -/
theorem pair_copies_order_of_last_refresh (calls : List Call) (hclock : ClockMonotone calls)
    (k : PyStr) (p : PaymentLedgerPair) (hp : (run calls).paymentLedgerPairs.find? k = some p) :
    ∃ pre call post, LastRefresh calls k pre call post ∧
      p.status = ((run (pre ++ [call])).paymentOrders.find? k).map (·.status) ∧
      (∀ order, (run (pre ++ [call])).paymentOrders.find? k = some order →
        p.amount = some order.amount) ∧
      ∀ order, (run calls).paymentOrders.find? k = some order →
        (p.status = some order.status ∧ p.amount = some order.amount ↔
          ∃ copied, (run (pre ++ [call])).paymentOrders.find? k = some copied ∧
            copied.status = order.status ∧ copied.amount = order.amount) := by
  obtain ⟨pre, call, post, hlast, hrow⟩ := row_of_last_refresh calls hclock k p hp
  have hstatus : p.status = ((run (pre ++ [call])).paymentOrders.find? k).map (·.status) := by
    rw [hrow, freshPair_status]
  have hamount : ∀ order, (run (pre ++ [call])).paymentOrders.find? k = some order →
      p.amount = some order.amount := by
    intro order horder
    rw [hrow]
    exact freshPair_amount call.env k horder
  refine ⟨pre, call, post, hlast, hstatus, hamount, fun order _ => ⟨fun h => ?_, fun h => ?_⟩⟩
  · obtain ⟨copied, hcopied, hcs⟩ := Option.map_eq_some_iff.mp (hstatus.symm.trans h.1)
    exact ⟨copied, hcopied, hcs, Option.some.inj ((hamount copied hcopied).symm.trans h.2)⟩
  · obtain ⟨copied, hcopied, hcs, hca⟩ := h
    rw [hstatus, hamount copied hcopied, hcopied, hca]
    exact ⟨congrArg some hcs, rfl⟩

/-- An order arrives after its payment. -/
def lateOrderRun : List Call :=
  [⟨.ledger (plainEvent "tx-1" "w1" "PAYMENT" "po-1"), .still 1⟩,
    ⟨.order (plainOrder "po-1" "PAID"), .still 2⟩]

/-- The pair row its first call wrote. -/
def lateOrderPair : PaymentLedgerPair where
  paymentOrderId := py "po-1"
  paymentTxId := some (py "tx-1")
  receiveTxId := none
  payerWalletId := some (py "w1")
  payeeWalletId := none
  amount := some (.finite false 1000 (-2))
  status := none
  eventTime := some 0
  updatedAt := 1
  ingestedAt := 1

theorem lateOrderPair_copies : ∃ pre call post,
    LastRefresh lateOrderRun (py "po-1") pre call post ∧
      lateOrderPair.status =
        ((run (pre ++ [call])).paymentOrders.find? (py "po-1")).map (·.status) ∧
      (∀ order, (run (pre ++ [call])).paymentOrders.find? (py "po-1") = some order →
        lateOrderPair.amount = some order.amount) ∧
      ∀ order, (run lateOrderRun).paymentOrders.find? (py "po-1") = some order →
        (lateOrderPair.status = some order.status ∧ lateOrderPair.amount = some order.amount ↔
          ∃ copied, (run (pre ++ [call])).paymentOrders.find? (py "po-1") = some copied ∧
            copied.status = order.status ∧ copied.amount = order.amount) :=
  pair_copies_order_of_last_refresh lateOrderRun (by unfold ClockMonotone; decide) (py "po-1")
    lateOrderPair (by decide)

/-- The pair row of that run never gets the status of its order. -/
theorem late_order_not_copied :
    ClockMonotone lateOrderRun ∧ (∀ event ∈ ledgerEvents (eventsOf lateOrderRun),
      event.relatedType = none ∨ event.relatedType = some PAYMENT_ORDER) ∧
    lateOrderPair ∈ (run lateOrderRun).paymentLedgerPairs.rows ∧
    ∃ order, (run lateOrderRun).paymentOrders.find? lateOrderPair.paymentOrderId = some order ∧
      lateOrderPair.status ≠ some order.status :=
  ⟨by unfold ClockMonotone; decide, by decide, by decide,
    storedOrder (plainOrder "po-1" "PAID") 2, by decide, by decide⟩

end TxLookup.Consumer
