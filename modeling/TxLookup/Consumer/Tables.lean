import TxLookup.Consumer.Processor
import TxLookup.Db.LatestWins

/-!
# The business tables of a run

Seen from the two business tables, a run of calls is a run of latest-wins
upserts of the rows the calls propose; pairing never touches them. Every row is
the proposal of some call, and a key that was ever written stays.
-/
namespace TxLookup.Consumer

open Library Library.Settle Db Db.LatestWins KeyedTable

namespace Event

def ledger? : Event → Option LedgerEntryUpserted
  | .ledger event => some event
  | .order _ => none

def order? : Event → Option PaymentOrderUpserted
  | .order event => some event
  | .ledger _ => none

end Event

/-- The ledger row the call proposes. -/
def Call.ledgerRow (call : Call) : Option LedgerEntry :=
  call.event.ledger?.map (fun event => storedEntry event call.env.ingestedNow)

/-- The order row the call proposes. -/
def Call.orderRow (call : Call) : Option PaymentOrder :=
  call.event.order?.map (fun event => storedOrder event call.env.ingestedNow)

def ledgerEvents (events : List Event) : List LedgerEntryUpserted := events.filterMap Event.ledger?

def orderEvents (events : List Event) : List PaymentOrderUpserted := events.filterMap Event.order?

/-- The events of a list of calls. -/
def eventsOf (calls : List Call) : List Event := calls.map (·.event)

theorem eventsOf_subset_append (calls more : List Call) :
    eventsOf calls ⊆ eventsOf (calls ++ more) := by
  rw [eventsOf, eventsOf, List.map_append]
  exact List.subset_append_left _ _

/-- The pairing step writes to the pair table alone. -/
theorem updatePairing_frame (env : Surroundings) (relatedId : PyStr) (db : Database) :
    (updatePairingForRelatedId env relatedId db).1 =
      { db with
        paymentLedgerPairs :=
          (updatePairingForRelatedId env relatedId db).1.paymentLedgerPairs } := by
  unfold updatePairingForRelatedId
  simp only
  split
  · rfl
  · split <;> rfl

theorem updatePairing_ledger (env : Surroundings) (relatedId : PyStr) (db : Database) :
    (updatePairingForRelatedId env relatedId db).1.ledgerEntries = db.ledgerEntries := by
  rw [updatePairing_frame]

theorem updatePairing_orders (env : Surroundings) (relatedId : PyStr) (db : Database) :
    (updatePairingForRelatedId env relatedId db).1.paymentOrders = db.paymentOrders := by
  rw [updatePairing_frame]

theorem apply_ledgerEntries (call : Call) (db : Database) :
    (call.apply db).ledgerEntries =
      match call.ledgerRow with
      | some row => upsertRow ledgerEntries row db.ledgerEntries
      | none => db.ledgerEntries := by
  obtain ⟨event | event, env⟩ := call
  · simp only [Call.apply, upsertLedgerEntry, Call.ledgerRow, Event.ledger?, Option.map_some]
    split
    · rw [updatePairing_ledger]
      rfl
    · rfl
  · rfl

theorem apply_paymentOrders (call : Call) (db : Database) :
    (call.apply db).paymentOrders =
      match call.orderRow with
      | some row => upsertRow paymentOrders row db.paymentOrders
      | none => db.paymentOrders := by
  obtain ⟨event | event, env⟩ := call
  · simp only [Call.apply, upsertLedgerEntry, Call.orderRow, Event.order?, Option.map_none]
    split
    · rw [updatePairing_orders]
      rfl
    · rfl
  · rfl

/-- What a call can do to one ledger row: nothing, or put its own row there. -/
theorem apply_ledger_cases (call : Call) (db : Database) (txId : PyStr) :
    (call.apply db).ledgerEntries.find? txId = db.ledgerEntries.find? txId ∨
    ∃ row, call.ledgerRow = some row ∧ row.txId = txId ∧
      (call.apply db).ledgerEntries.find? txId = some row ∧
      ∀ old, db.ledgerEntries.find? txId = some old → ledgerEntries.wins row old = true := by
  rw [apply_ledgerEntries]
  cases hrow : call.ledgerRow with
  | none => exact .inl rfl
  | some row =>
    by_cases hk : txId = row.txId
    · subst hk
      have hself := find?_upsert_self ledgerEntries.wins row db.ledgerEntries
      cases hold : db.ledgerEntries.find? row.txId with
      | none =>
        refine .inr ⟨row, rfl, rfl, hself.trans ?_, fun old h => by cases h⟩
        exact congrArg (fun cur => offer ledgerEntries.wins cur row) hold
      | some old =>
        have hoffer : (upsertRow ledgerEntries row db.ledgerEntries).find? row.txId =
            offer ledgerEntries.wins (some old) row :=
          hself.trans (congrArg (fun cur => offer ledgerEntries.wins cur row) hold)
        cases hwins : ledgerEntries.wins row old with
        | true =>
          refine .inr ⟨row, rfl, rfl, ?_, fun old' h => ?_⟩
          · rw [hoffer, offer, if_pos hwins]
          · obtain rfl := Option.some.inj h
            exact hwins
        | false =>
          left
          rw [hoffer, offer, hwins]
          rfl
    · exact .inl (find?_upsert_ne ledgerEntries.wins row db.ledgerEntries hk)

theorem runFrom_ledgerEntries (calls : List Call) (db : Database) :
    (runFrom db calls).ledgerEntries =
      upsertRun ledgerEntriesStamped (calls.filterMap Call.ledgerRow) db.ledgerEntries := by
  induction calls generalizing db with
  | nil => rfl
  | cons call calls ih =>
    change (runFrom (call.apply db) calls).ledgerEntries = _
    rw [ih, apply_ledgerEntries]
    cases hrow : call.ledgerRow with
    | none => rw [List.filterMap_cons_none hrow]
    | some row =>
      rw [List.filterMap_cons_some hrow]
      rfl

theorem runFrom_paymentOrders (calls : List Call) (db : Database) :
    (runFrom db calls).paymentOrders =
      upsertRun paymentOrdersStamped (calls.filterMap Call.orderRow) db.paymentOrders := by
  induction calls generalizing db with
  | nil => rfl
  | cons call calls ih =>
    change (runFrom (call.apply db) calls).paymentOrders = _
    rw [ih, apply_paymentOrders]
    cases hrow : call.orderRow with
    | none => rw [List.filterMap_cons_none hrow]
    | some row =>
      rw [List.filterMap_cons_some hrow]
      rfl

/-- The ledger row of a transaction settles the proposals for it. -/
theorem find?_run_ledger (calls : List Call) (txId : PyStr) :
    (run calls).ledgerEntries.find? txId =
      settle ledgerEntries.wins
        ((calls.filterMap Call.ledgerRow).filter (fun r => r.txId = txId)) := by
  rw [run, runFrom_ledgerEntries]
  exact find?_upsertRun ledgerEntriesStamped rfl _

/-- Every stored ledger row was proposed by a call. -/
theorem ledger_row_proposed {calls : List Call} {e : LedgerEntry}
    (he : e ∈ (run calls).ledgerEntries.rows) : ∃ call ∈ calls, call.ledgerRow = some e := by
  have hf := (run calls).ledgerEntries.find?_of_mem he
  rw [find?_run_ledger] at hf
  exact List.mem_filterMap.mp (List.mem_filter.mp (settle_mem hf)).1

/-- A transaction a call proposed a row for stays in the ledger. -/
theorem ledger_key_stays {calls : List Call} {call : Call} {e : LedgerEntry} (hc : call ∈ calls)
    (he : call.ledgerRow = some e) : ∃ e' ∈ (run calls).ledgerEntries.rows, e'.txId = e.txId := by
  have hne : ((calls.filterMap Call.ledgerRow).filter (fun r => r.txId = e.txId)) ≠ [] :=
    List.ne_nil_of_mem (List.mem_filter.mpr
      ⟨List.mem_filterMap.mpr ⟨call, hc, he⟩, decide_eq_true rfl⟩)
  obtain ⟨e', he'⟩ := settle_isSome ledgerEntries.wins hne
  rw [← find?_run_ledger] at he'
  exact ⟨e', ((find?_eq_some_iff _).mp he').1, key_of_find? _ he'⟩

/-- All ledger events of one transaction agree on the relation and the type. -/
def SameRelation (events : List Event) : Prop :=
  ∀ event ∈ ledgerEvents events, ∀ event' ∈ ledgerEvents events, event.txId = event'.txId →
    event.relatedId = event'.relatedId ∧ event.entryType = event'.entryType

theorem ledgerRow_eq_some {call : Call} {e : LedgerEntry} :
    call.ledgerRow = some e ↔ ∃ event, call.event.ledger? = some event ∧
      storedEntry event call.env.ingestedNow = e :=
  Option.map_eq_some_iff

theorem mem_ledgerEvents {calls : List Call} {call : Call} {event : LedgerEntryUpserted}
    (hc : call ∈ calls) (he : call.event.ledger? = some event) :
    event ∈ ledgerEvents (eventsOf calls) :=
  List.mem_filterMap.mpr ⟨call.event, List.mem_map_of_mem hc, he⟩

/-- Every stored ledger row comes from an event. -/
theorem ledger_row_event {calls : List Call} {e : LedgerEntry}
    (he : e ∈ (run calls).ledgerEntries.rows) :
    ∃ event ∈ ledgerEvents (eventsOf calls), ∃ t, storedEntry event t = e := by
  obtain ⟨call, hc, hrow⟩ := ledger_row_proposed he
  obtain ⟨event, hev, hval⟩ := ledgerRow_eq_some.mp hrow
  exact ⟨event, mem_ledgerEvents hc hev, _, hval⟩

/-- Identifiers of stored rows are never empty. -/
theorem ledger_txId_ne {calls : List Call} {e : LedgerEntry}
    (he : e ∈ (run calls).ledgerEntries.rows) : e.txId ≠ [] := by
  obtain ⟨event, _, _, rfl⟩ := ledger_row_event he
  exact event.txId_ne

/-- Every stored order row comes from an event, so its identifier is not empty. -/
theorem order_orderId_ne {calls : List Call} {o : PaymentOrder}
    (ho : o ∈ (run calls).paymentOrders.rows) : o.orderId ≠ [] := by
  have hf := (run calls).paymentOrders.find?_of_mem ho
  rw [run, runFrom_paymentOrders] at hf
  have hsettled := (find?_upsertRun paymentOrdersStamped rfl _).symm.trans hf
  obtain ⟨call, -, hrow⟩ := List.mem_filterMap.mp (List.mem_filter.mp (settle_mem hsettled)).1
  obtain ⟨event, -, rfl⟩ := Option.map_eq_some_iff.mp hrow
  exact event.orderId_ne

/-- Under the contract a row of an earlier state keeps its relation and type. -/
theorem SameRelation.row_stays {calls more : List Call} (h : SameRelation (eventsOf (calls ++ more)))
    {e : LedgerEntry} (he : e ∈ (run calls).ledgerEntries.rows) :
    ∃ e' ∈ (run (calls ++ more)).ledgerEntries.rows, e'.txId = e.txId ∧
      e'.relatedId = e.relatedId ∧ e'.entryType = e.entryType := by
  obtain ⟨call, hc, hrow⟩ := ledger_row_proposed he
  have hc' := List.mem_append_left more hc
  obtain ⟨e', he', htx⟩ := ledger_key_stays hc' hrow
  obtain ⟨event, hev, rfl⟩ := ledgerRow_eq_some.mp hrow
  obtain ⟨event', hev', t, rfl⟩ := ledger_row_event he'
  obtain ⟨hrel, hty⟩ := h event' hev' event (mem_ledgerEvents hc' hev) htx
  exact ⟨_, he', htx, hrel, hty⟩

end TxLookup.Consumer
