import TxLookup.Consumer.Runtime

/-!
# Parsed events

An event is only ever built by `from_dict`, which rejects empty identifiers, so
the two structures carry that fact. Fields are checked in the order of the
source, and every error text is the source's.
-/
namespace TxLookup.Consumer

open Library Library.PyText Db

structure LedgerEntryUpserted where
  txId : PyStr
  walletId : PyStr
  entryType : PyStr
  amount : Decimal
  amountSigned : Option Decimal
  relatedId : Option PyStr
  relatedType : Option PyStr
  eventTime : DateTime
  createdAt : DateTime
  updatedAt : Option DateTime
  sourceVersion : Option Int
  txId_ne : txId ≠ []
  walletId_ne : walletId ≠ []
  entryType_ne : entryType ≠ []
  deriving DecidableEq

structure PaymentOrderUpserted where
  orderId : PyStr
  userId : Option PyStr
  merchantName : Option PyStr
  amount : Decimal
  status : PyStr
  createdAt : DateTime
  updatedAt : Option DateTime
  sourceVersion : Option Int
  orderId_ne : orderId ≠ []
  status_ne : status ≠ []
  deriving DecidableEq

variable (rt : PyRuntime)

/-- `raise EventValidationError(f"{field} is required")` on an empty text. -/
def requireText (field : String) (s : PyStr) : Except PyExc { s : PyStr // s ≠ [] } :=
  if h : s = [] then .error (.eventValidation (py (field ++ " is required"))) else .ok ⟨s, h⟩

def parseDecimal (value : Json) (field : String) : Except PyExc Decimal :=
  match value with
  | .null => .error (.eventValidation (py (field ++ " is required")))
  | value =>
    match rt.decimal (rt.str value) with
    | some d => .ok d
    | none => .error (.eventValidation
        (py (field ++ " must be numeric (got ") ++ rt.reprOf value ++ py ")"))

/-- The instants of the years 1 to 9999 UTC. -/
def representable (t : DateTime) : Bool :=
  -62135596800000000 ≤ t && t ≤ 253402300799999999

/-- `astimezone(utc)` of an aware value, `replace(tzinfo=utc)` of a naive one. -/
def toUtc (parsed : IsoDatetime) : Except PyExc DateTime :=
  match parsed.utcoffset with
  | none => .ok parsed.wall
  | some offset =>
    if representable (parsed.wall - offset) then .ok (parsed.wall - offset)
    else .error (.overflow (py "date value out of range"))

/-- `Z` at the end stands for a zero offset. -/
def zuluOffset (text : PyStr) : PyStr :=
  if text.getLast? = some 90 then text.dropLast ++ py "+00:00" else text

def parseDatetime (value : Json) (field : String) : Except PyExc DateTime :=
  match value with
  | .null => .error (.eventValidation (py (field ++ " is required")))
  | .str s =>
    match rt.fromisoformat (zuluOffset (strip s)) with
    | some parsed => toUtc parsed
    | none => .error (.eventValidation
        (py (field ++ " must be ISO-8601 string (got ") ++ rt.reprOf value ++ py ")"))
  | value => .error (.eventValidation
      (py (field ++ " must be ISO-8601 string (got ") ++ rt.reprOf value ++ py ")"))

def parseOptionalDatetime (value : Json) : Except PyExc (Option DateTime) :=
  match value with
  | .null => .ok none
  | value => (parseDatetime rt value "updated_at").map some

def parseOptionalInt (value : Json) : Except PyExc (Option Int) :=
  match value with
  | .null => .ok none
  | value =>
    match rt.intOf value with
    | some n => .ok (some n)
    | none => .error (.eventValidation
        (py "version must be int (got " ++ rt.reprOf value ++ py ")"))

/-- `str(value or "").strip()`. -/
def requiredText (value : Json) : PyStr := strip (rt.str (value.or (.str [])))

/-- `str(value).strip() if value is not None else None`. -/
def optionalText (value : Json) : Option PyStr :=
  match value with
  | .null => none
  | value => some (strip (rt.str value))

def LedgerEntryUpserted.fromDict (payload : PyDict) : Except PyExc LedgerEntryUpserted := do
  let txId ← requireText "tx_id" (requiredText rt (payload.get (py "tx_id")))
  let walletId ← requireText "wallet_id" (requiredText rt (payload.get (py "wallet_id")))
  let entryType ← requireText "entry_type"
    (requiredText rt ((payload.get (py "entry_type")).or (payload.get (py "type"))))
  let amount ← parseDecimal rt (payload.get (py "amount")) "amount"
  let amountSigned ← match payload.get (py "amount_signed") with
    | .null => pure none
    | value => (parseDecimal rt value "amount_signed").map some
  let eventTimeValue := ((payload.get (py "event_time")).or
    (payload.get (py "source_created_at"))).or (payload.get (py "created_at"))
  let eventTime ← parseDatetime rt eventTimeValue "event_time"
  let createdValue := ((payload.get (py "source_created_at")).or
    (payload.get (py "created_at"))).or (payload.get (py "event_time"))
  let createdAt ← parseDatetime rt createdValue "created_at"
  let updatedAt ← parseOptionalDatetime rt (payload.get (py "updated_at"))
  let versionValue := (payload.get (py "version")).or (payload.get (py "source_version"))
  let sourceVersion ← parseOptionalInt rt versionValue
  return {
    txId := txId.1
    walletId := walletId.1
    entryType := entryType.1
    amount, amountSigned
    relatedId := optionalText rt (payload.get (py "related_id"))
    relatedType := optionalText rt (payload.get (py "related_type"))
    eventTime, createdAt, updatedAt, sourceVersion
    txId_ne := txId.2
    walletId_ne := walletId.2
    entryType_ne := entryType.2 }

def PaymentOrderUpserted.fromDict (payload : PyDict) : Except PyExc PaymentOrderUpserted := do
  let orderId ← requireText "order_id" (requiredText rt (payload.get (py "order_id")))
  let status ← requireText "status" (requiredText rt (payload.get (py "status")))
  let amount ← parseDecimal rt (payload.get (py "amount")) "amount"
  let createdAt ← parseDatetime rt (payload.get (py "created_at")) "created_at"
  let updatedAt ← parseOptionalDatetime rt (payload.get (py "updated_at"))
  let versionValue := (payload.get (py "version")).or (payload.get (py "source_version"))
  let sourceVersion ← parseOptionalInt rt versionValue
  return {
    orderId := orderId.1
    userId := optionalText rt (payload.get (py "user_id"))
    merchantName := optionalText rt (payload.get (py "merchant_name"))
    amount
    status := status.1
    createdAt, updatedAt, sourceVersion
    orderId_ne := orderId.2
    status_ne := status.2 }

end TxLookup.Consumer
