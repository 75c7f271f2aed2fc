import TxLookup.Consumer.Runtime

/-!
# Dead-letter records

A record is a mapping built by the caller. The table sink stores selected texts
of it, the file sink one JSON line; either can fail on its own, and either can
refuse the contents: the database takes no NUL and no lone surrogate, the file
no lone surrogate.
-/
namespace TxLookup.Consumer

open Library Library.PyText Db

structure ConsumerDlqEvent where
  topic : PyStr
  partition : Option Int
  offset : Option Int
  key : Option PyStr
  payload : Option PyStr
  error : PyStr
  correlationId : Option PyStr
  ingestedAt : DateTime

variable (rt : PyRuntime)

def toText : Json → Option PyStr
  | .null => none
  | .str s => some s
  | value => some (rt.jsonDumps value)

/-- `str(value or "").strip() or "unknown"`. -/
def textOrUnknown (value : Json) : PyStr :=
  match strip (rt.str (value.or (.str []))) with
  | [] => py "unknown"
  | c :: cs => c :: cs

def Json.int? : Json → Option Int
  | .int n => some n
  | _ => none

/-- The row `write_dlq_db` adds. -/
def dlqRow (payload : PyDict) (now : DateTime) : ConsumerDlqEvent where
  topic := textOrUnknown rt (payload.get (py "topic"))
  partition := Json.int? (payload.get (py "partition"))
  offset := Json.int? (payload.get (py "offset"))
  key := toText rt (payload.get (py "key"))
  payload := toText rt (payload.get (py "payload"))
  error := textOrUnknown rt (payload.get (py "error"))
  correlationId := toText rt (payload.get (py "correlation_id"))
  ingestedAt := now

/-- The line `write_dlq_file` appends. -/
def dlqLine (payload : PyDict) : PyStr := rt.jsonDumps (.obj payload) ++ py "\n"

/-- Every text of the row is one the database accepts. -/
def ConsumerDlqEvent.accepted (row : ConsumerDlqEvent) : Bool :=
  storable row.topic && row.key.all storable && row.payload.all storable && storable row.error &&
    row.correlationId.all storable

inductive DlqBackend where
  | file
  | db
  deriving DecidableEq, Repr

/-- The session of the table sink, and the file, work at a write. -/
structure SinkHealth where
  session : Bool
  file : Bool
  deriving DecidableEq, Repr

/-- The sink that stores a record. -/
inductive Sink where
  | table
  | file
  deriving DecidableEq, Repr

/-- Which sink `_write_dlq_payload` ends up storing the record in, if any: the
table for the `db` backend, the file otherwise or when the table fails. -/
def storingSink (backend : DlqBackend) (health : SinkHealth) (payload : PyDict) (now : DateTime) :
    Option Sink :=
  if backend = .db ∧ health.session = true ∧ (dlqRow rt payload now).accepted = true then
    some .table
  else if health.file = true ∧ encodable (dlqLine rt payload) = true then some .file
  else none

end TxLookup.Consumer
