import TxLookup.Consumer.Pairing

/-!
# The two upsert operations

Each operation runs in one session. A ledger event writes its own row and then,
for a payment order relation, recomputes the pair row of its `related_id`.
-/
namespace TxLookup.Consumer

open Library Db

def ledgerValues (event : LedgerEntryUpserted) (ingestedAt : DateTime) : LedgerEntry where
  txId := event.txId
  walletId := event.walletId
  entryType := event.entryType
  amount := event.amount
  amountSigned := event.amountSigned
  relatedId := event.relatedId
  relatedType := event.relatedType
  eventTime := event.eventTime
  createdAt := event.createdAt
  updatedAt := event.updatedAt
  sourceVersion := event.sourceVersion
  ingestedAt := ingestedAt

def orderValues (event : PaymentOrderUpserted) (ingestedAt : DateTime) : PaymentOrder where
  orderId := event.orderId
  userId := event.userId
  merchantName := event.merchantName
  amount := event.amount
  status := event.status
  createdAt := event.createdAt
  updatedAt := event.updatedAt
  sourceVersion := event.sourceVersion
  ingestedAt := ingestedAt

/-- The row of a ledger event as the columns hold it. A value that a column refuses
makes the statement raise: its transaction fails, and is no call of a run. -/
def storedEntry (event : LedgerEntryUpserted) (ingestedAt : DateTime) : LedgerEntry :=
  (ledgerValues event ingestedAt).held

def storedOrder (event : PaymentOrderUpserted) (ingestedAt : DateTime) : PaymentOrder :=
  (orderValues event ingestedAt).held

/-- The relation whose pair row a ledger event recomputes, if any. -/
def pairingTarget (event : LedgerEntryUpserted) : Option PyStr :=
  if truthy event.relatedId ∧ (event.relatedType = none ∨ event.relatedType = some PAYMENT_ORDER)
  then event.relatedId else none

def insertLedgerEntry (env : Surroundings) (event : LedgerEntryUpserted) (db : Database) :
    Database :=
  { db with
    ledgerEntries :=
      upsertRow ledgerEntries (storedEntry event env.ingestedNow) db.ledgerEntries }

/-- The new database, the missing-version flag and the pairing snapshot. -/
def upsertLedgerEntry (env : Surroundings) (event : LedgerEntryUpserted) (db : Database) :
    Database × Bool × Option PairingSnapshot :=
  let inserted := insertLedgerEntry env event db
  let missingVersion := event.updatedAt.isNone && event.sourceVersion.isNone
  match pairingTarget event with
  | some relatedId =>
    let paired := updatePairingForRelatedId env relatedId inserted
    (paired.1, missingVersion, paired.2)
  | none => (inserted, missingVersion, none)

def upsertPaymentOrder (env : Surroundings) (event : PaymentOrderUpserted) (db : Database) :
    Database × Bool :=
  ({ db with
      paymentOrders :=
        upsertRow paymentOrders (storedOrder event env.ingestedNow) db.paymentOrders },
    event.updatedAt.isNone && event.sourceVersion.isNone)

/-! ## Sequential runs -/

inductive Event where
  | ledger (event : LedgerEntryUpserted)
  | order (event : PaymentOrderUpserted)
  deriving DecidableEq

/-- No column refuses a value of the event, whenever it is ingested. The pair row is
made of values that are stored already. -/
def Event.accepted : Event → Bool
  | .ledger event => (ledgerValues event 0).accepted
  | .order event => (orderValues event 0).accepted

/-- One call of an upsert operation. -/
structure Call where
  event : Event
  env : Surroundings

def Call.apply (db : Database) (call : Call) : Database :=
  match call.event with
  | .ledger event => (upsertLedgerEntry call.env event db).1
  | .order event => (upsertPaymentOrder call.env event db).1

/-- For an accepted event the statement stores the row that a call stores. -/
theorem insertLedgerEntry_accepted {event : LedgerEntryUpserted} {env : Surroundings}
    (h : (Event.ledger event).accepted = true) (db : Database) :
    latestWinsUpsert ledgerEntriesStamped (ledgerValues event env.ingestedNow) db.ledgerEntries =
      some (insertLedgerEntry env event db).ledgerEntries :=
  if_pos h

theorem upsertPaymentOrder_accepted {event : PaymentOrderUpserted} {env : Surroundings}
    (h : (Event.order event).accepted = true) (db : Database) :
    latestWinsUpsert paymentOrdersStamped (orderValues event env.ingestedNow) db.paymentOrders =
      some (upsertPaymentOrder env event db).1.paymentOrders :=
  if_pos h

/-- The database after a list of calls. -/
def runFrom (db : Database) (calls : List Call) : Database := calls.foldl Call.apply db

def run (calls : List Call) : Database := runFrom Database.empty calls

theorem run_append (calls more : List Call) : run (calls ++ more) = runFrom (run calls) more :=
  List.foldl_append

theorem run_concat (calls : List Call) (call : Call) :
    run (calls ++ [call]) = call.apply (run calls) := by
  rw [run_append]
  rfl

end TxLookup.Consumer
