import TxLookup.Common.Observability
import TxLookup.Consumer.Contract
import TxLookup.Consumer.Dlq
import TxLookup.Consumer.Processor

/-!
# The consumer loop

A run is the list of what the polls return. Each message comes with what the
outside world does during its iteration: which external call raises, what the
clocks read, in which order rows are scanned. A session that raises is rolled
back. Metrics and log lines are left out; they raise nothing and decide nothing.
-/
namespace TxLookup.Consumer

open Library Library.PyText Db Common

structure Message where
  topic : PyStr
  partition : Int
  offset : Int
  key : Option Bytes
  value : Option Bytes
  headers : Headers
  deriving DecidableEq

/-- The external calls of one iteration that raise, with what they raise. -/
structure Faults where
  /-- The session cannot be opened. -/
  session : Option PyExc
  /-- A business statement or the session commit raises. -/
  transaction : Option PyExc
  /-- `consumer.commit` raises after the session commit. -/
  commitAfterApply : Option PyExc
  sinks : SinkHealth
  /-- `consumer.commit` raises in the exception handler. -/
  commitAfterDlq : Option PyExc

/-- No external call raises. -/
def Faults.none : Faults := ⟨.none, .none, .none, ⟨true, true⟩, .none⟩

/-- What the iteration of a message meets. -/
structure Delivery where
  msg : Message
  env : Surroundings
  faults : Faults
  /-- `datetime.now(timezone.utc)` for the record, and for the row of the table. -/
  now : DateTime
  nowIso : PyStr

/-- What `consumer.poll` returns; `expired` is the answer of `_idle_expired`. -/
inductive Poll where
  | nothing (expired : Bool)
  | partitionEof (expired : Bool)
  | brokerError (exc : PyExc)
  | interrupt
  | message (delivery : Delivery)

/-- What an iteration does to the outside, in order. -/
inductive Effect where
  /-- The transaction that applies the message, by this call, has been committed. -/
  | applied (msg : Message) (call : Call)
  /-- A dead-letter record has been stored. -/
  | recorded (sink : Sink) (payload : PyDict)
  /-- `consumer.commit(msg)` has been called. -/
  | offsetCommit (msg : Message) (succeeded : Bool)

structure World where
  db : Database
  dlqEvents : List ConsumerDlqEvent
  dlqFile : List PyStr
  trace : List Effect

/-- Whether the loop goes on to the next poll. -/
inductive Outcome where
  | running
  | stopped
  | raised (exc : PyExc)
  deriving DecidableEq

structure AppConfig where
  dlqBackend : DlqBackend
  profile : EventContractProfile

variable (rt : PyRuntime) (config : AppConfig)

def classifyError : PyExc → PyStr
  | .contractCoreViolation _ => py "contract_core_violation"
  | .unsupportedTopic _ => py "unsupported_topic"
  | .jsonDecode _ | .eventValidation _ => py "parse_error"
  | _ => py "internal_error"

/-- `json.loads(msg.value() or b"{}")`, which must be an object. -/
def loadPayload (msg : Message) : Except PyExc PyDict :=
  let value := match msg.value with
    | some (b :: bs) => b :: bs
    | _ => [123, 125]
  match rt.jsonLoads value with
  | .error exc => .error exc
  | .ok (.obj fields) => .ok fields
  | .ok _ => .error (.eventValidation (py "payload must be a JSON object"))

def parseEvent (normalized : NormalizedPayload) : Except PyExc Event :=
  match normalized.topicKind with
  | .ledger => (LedgerEntryUpserted.fromDict rt normalized.payload).map .ledger
  | .paymentOrder => (PaymentOrderUpserted.fromDict rt normalized.payload).map .order

def raiseIf : Option PyExc → Except PyExc Unit
  | some exc => .error exc
  | none => .ok ()

/-- The event to apply. The session is open when the payload is parsed. -/
def handlePayload (topic : PyStr) (payload : PyDict) (faults : Faults) : Except PyExc Event := do
  let normalized ← normalizePayloadForTopic rt topic payload config.profile
  raiseIf faults.session
  let event ← parseEvent rt normalized
  raiseIf faults.transaction
  return event

/-- The correlation id: of the headers, or else of a payload that was read. -/
def correlationId (msg : Message) : Option PyStr :=
  match extractCorrelationIdFromHeaders rt msg.headers, loadPayload rt msg with
  | some id, _ => some id
  | none, .ok payload => extractCorrelationIdFromPayload rt payload
  | none, .error _ => none

/-- What the `try` block comes to before the offset commit: the event whose
transaction is committed, or the exception. -/
def process (delivery : Delivery) : Except PyExc Event := do
  let payload ← loadPayload rt delivery.msg
  handlePayload rt config delivery.msg.topic payload delivery.faults

def optionalStr : Option PyStr → Json
  | some s => .str s
  | none => .null

/-- `msg.key().decode("utf-8") if msg.key() else None`. -/
def decodedKey (msg : Message) : Except PyExc (Option PyStr) :=
  match msg.key with
  | some (b :: bs) =>
    match decode? (b :: bs) with
    | some key => .ok (some key)
    | none => .error (.unicode (py "'utf-8' codec can't decode byte"))
  | _ => .ok none

/-- `msg.value().decode("utf-8", errors="replace") if msg.value() else None`. -/
def payloadText (msg : Message) : Option PyStr :=
  match msg.value with
  | some (b :: bs) => some (decodeReplace (b :: bs))
  | _ => none

/-- The record of a failed message. -/
def dlqPayload (delivery : Delivery) (key : Option PyStr) (exc : PyExc) : PyDict :=
  [(py "topic", .str delivery.msg.topic),
    (py "partition", .int delivery.msg.partition),
    (py "offset", .int delivery.msg.offset),
    (py "key", optionalStr key),
    (py "payload", optionalStr (payloadText delivery.msg)),
    (py "error", .str (classifyError exc)),
    (py "error_detail", .str exc.str),
    (py "profile_id", .str config.profile.profileId),
    (py "correlation_id", optionalStr (correlationId rt delivery.msg)),
    (py "ingested_at", .str delivery.nowIso)]

/-- Both sinks may fail: the exceptions are logged and swallowed. -/
def writeDlqPayload (health : SinkHealth) (payload : PyDict) (now : DateTime) (w : World) : World :=
  match storingSink rt config.dlqBackend health payload now with
  | some .table =>
    { w with
      dlqEvents := w.dlqEvents ++ [dlqRow rt payload now]
      trace := w.trace ++ [.recorded .table payload] }
  | some .file =>
    { w with
      dlqFile := w.dlqFile ++ [dlqLine rt payload]
      trace := w.trace ++ [.recorded .file payload] }
  | none => w

def World.commitOffset (w : World) (msg : Message) (fault : Option PyExc) : World :=
  { w with trace := w.trace ++ [.offsetCommit msg fault.isNone] }

def outcomeOf : Option PyExc → Outcome
  | some exc => .raised exc
  | none => .running

/-- The exception handler. An exception inside it leaves the loop. -/
def handleError (delivery : Delivery) (exc : PyExc) (w : World) : World × Outcome :=
  match decodedKey delivery.msg with
  | .error keyExc => (w, .raised keyExc)
  | .ok key =>
    let w := writeDlqPayload rt config delivery.faults.sinks
      (dlqPayload rt config delivery key exc) delivery.now w
    (w.commitOffset delivery.msg delivery.faults.commitAfterDlq,
      outcomeOf delivery.faults.commitAfterDlq)

/-- The iteration of a message: the world after it, whether the loop goes on,
and whether the message counts as processed. -/
def consumeMessage (delivery : Delivery) (w : World) : World × Outcome × Bool :=
  match process rt config delivery with
  | .error exc =>
    let r := handleError rt config delivery exc w
    (r.1, r.2, false)
  | .ok event =>
    let applied := { w with
      db := Call.apply w.db ⟨event, delivery.env⟩
      trace := w.trace ++ [Effect.applied delivery.msg ⟨event, delivery.env⟩] }
    let w := applied.commitOffset delivery.msg delivery.faults.commitAfterApply
    match delivery.faults.commitAfterApply with
    | none => (w, .running, true)
    | some exc =>
      let r := handleError rt config delivery exc w
      (r.1, r.2, false)

structure LoopState where
  world : World
  processed : Nat
  outcome : Outcome

/-- The state `run_consumer` starts its loop in, over these tables and this file. -/
def LoopState.start (db : Database) (dlqEvents : List ConsumerDlqEvent) (dlqFile : List PyStr) :
    LoopState where
  world := { db, dlqEvents, dlqFile, trace := [] }
  processed := 0
  outcome := .running

def iterate (st : LoopState) (poll : Poll) : LoopState :=
  match poll with
  | .nothing expired | .partitionEof expired =>
    { st with outcome := if expired then .stopped else .running }
  | .brokerError exc => { st with outcome := .raised exc }
  | .interrupt => { st with outcome := .stopped }
  | .message delivery =>
    let r := consumeMessage rt config delivery st.world
    { world := r.1
      processed := if r.2.2 then st.processed + 1 else st.processed
      outcome := r.2.1 }

/-- The loop, until the polls are used up or it ends. -/
def runConsumer (maxMessages : Option Int) (st : LoopState) : List Poll → LoopState
  | [] => st
  | poll :: polls =>
    if st.outcome = .running then
      if maxMessages.any (fun m : Int => m ≤ (st.processed : Int)) then { st with outcome := .stopped }
      else runConsumer maxMessages (iterate rt config st poll) polls
    else st

end TxLookup.Consumer
