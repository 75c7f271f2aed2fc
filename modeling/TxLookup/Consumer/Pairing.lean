import TxLookup.Consumer.Events
import TxLookup.Db.Upsert

/-!
# Pair computation

`compute_pairing` takes the rows in whatever order the database returned them.
The age of an incomplete pair feeds a metric only and is kept in microseconds.
-/
namespace TxLookup.Consumer

open Library Db

structure LedgerEntrySnapshot where
  txId : PyStr
  walletId : PyStr
  entryType : PyStr
  amount : Decimal
  eventTime : DateTime
  deriving DecidableEq, Repr

structure PaymentOrderSnapshot where
  orderId : PyStr
  amount : Decimal
  status : PyStr
  deriving DecidableEq, Repr

structure PairingSnapshot where
  paymentOrderId : PyStr
  paymentTxId : Option PyStr
  receiveTxId : Option PyStr
  payerWalletId : Option PyStr
  payeeWalletId : Option PyStr
  amount : Option Decimal
  status : Option PyStr
  eventTime : Option DateTime
  complete : Bool
  incompleteAge : Option Int
  skipped : Bool := false
  deriving DecidableEq, Repr

def asSnapshot (entry : LedgerEntry) : LedgerEntrySnapshot where
  txId := entry.txId
  walletId := entry.walletId
  entryType := entry.entryType
  amount := entry.amount
  eventTime := entry.eventTime

/-- The first entry of a type, in the order given. -/
def firstOfType (entryType : PyStr) (entries : List LedgerEntrySnapshot) :
    Option LedgerEntrySnapshot :=
  entries.find? (fun e => e.entryType = entryType)

/-- One round of the loop that takes the latest event time. -/
def laterTime (eventTime : Option DateTime) (entry : LedgerEntrySnapshot) : Option DateTime :=
  match eventTime with
  | none => some entry.eventTime
  | some t => if t < entry.eventTime then some entry.eventTime else some t

/-- The running maximum of the event times. -/
def latestEventTime (entries : List LedgerEntrySnapshot) : Option DateTime :=
  entries.foldl laterTime none

def computePairing (paymentOrderId : PyStr) (entries : List LedgerEntrySnapshot)
    (paymentOrder : Option PaymentOrderSnapshot) (now : DateTime) : PairingSnapshot :=
  let paymentEntry := firstOfType PAYMENT entries
  let receiveEntry := firstOfType RECEIVE entries
  let complete := paymentEntry.isSome && receiveEntry.isSome
  let eventTime := latestEventTime entries
  let incompleteAge :=
    if complete then none else eventTime.map (fun t => max 0 (now - t))
  let amount := match paymentOrder with
    | some order => some order.amount
    | none =>
      match paymentEntry with
      | some e => some e.amount
      | none => receiveEntry.map (·.amount)
  { paymentOrderId
    paymentTxId := paymentEntry.map (·.txId)
    receiveTxId := receiveEntry.map (·.txId)
    payerWalletId := paymentEntry.map (·.walletId)
    payeeWalletId := receiveEntry.map (·.walletId)
    amount
    status := paymentOrder.map (·.status)
    eventTime
    complete
    incompleteAge }

def shouldUpdatePair (existingComplete newComplete : Bool) : Bool :=
  if existingComplete && !newComplete then false else true

/-- The row the pairing step proposes for a snapshot. -/
def pairValues (snapshot : PairingSnapshot) (ingestedAt : DateTime) : PaymentLedgerPair where
  paymentOrderId := snapshot.paymentOrderId
  paymentTxId := snapshot.paymentTxId
  receiveTxId := snapshot.receiveTxId
  payerWalletId := snapshot.payerWalletId
  payeeWalletId := snapshot.payeeWalletId
  amount := snapshot.amount
  status := snapshot.status
  eventTime := snapshot.eventTime
  updatedAt := ingestedAt
  ingestedAt := ingestedAt

/-- An order in which an unordered SELECT may return its rows. -/
structure ScanOrder where
  arrange : List LedgerEntry → List LedgerEntry
  perm : ∀ rows, (arrange rows).Perm rows

/-- Rows in the order of the heap. -/
def ScanOrder.heap : ScanOrder := ⟨id, fun rows => List.Perm.refl rows⟩

/-- What a call reads from outside the database: three clock readings, in the
order they are taken, and the row order of its unordered SELECT. -/
structure Surroundings where
  ingestedNow : DateTime
  computeNow : DateTime
  pairNow : DateTime
  scan : ScanOrder

/-- All clocks read `t`, rows come in heap order. -/
def Surroundings.still (t : DateTime) : Surroundings := ⟨t, t, t, .heap⟩

/-- `SELECT … FROM ledger_entries WHERE related_id = …`, without ORDER BY. -/
def selectRelated (scan : ScanOrder) (db : Database) (relatedId : PyStr) : List LedgerEntry :=
  scan.arrange (db.ledgerEntries.rows.filter (fun e => e.relatedId = some relatedId))

def orderSnapshot (order : PaymentOrder) : PaymentOrderSnapshot where
  orderId := order.orderId
  amount := order.amount
  status := order.status

/-- Both legs of the stored pair row are set. -/
def existingComplete (existing : Option PaymentLedgerPair) : Bool :=
  match existing with
  | some pair => pair.paymentTxId.isSome && pair.receiveTxId.isSome
  | none => false

def updatePairingForRelatedId (env : Surroundings) (relatedId : PyStr) (db : Database) :
    Database × Option PairingSnapshot :=
  let entries := selectRelated env.scan db relatedId
  if entries.isEmpty then (db, none)
  else
    let paymentOrder := db.paymentOrders.find? relatedId
    let snapshot := computePairing relatedId (entries.map asSnapshot)
      (paymentOrder.map orderSnapshot) env.computeNow
    let existingPair := db.paymentLedgerPairs.find? relatedId
    if shouldUpdatePair (existingComplete existingPair) snapshot.complete then
      let values := pairValues snapshot env.pairNow
      ({ db with
          paymentLedgerPairs := upsertRow paymentLedgerPairs values db.paymentLedgerPairs },
        some snapshot)
    else (db, some { snapshot with skipped := true })

end TxLookup.Consumer
