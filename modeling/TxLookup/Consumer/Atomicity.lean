import TxLookup.Consumer.Offsets
import TxLookup.Library.Transaction

/-!
# What a dead-lettered message has changed

The iteration of a message, down to its database calls: each may raise, and the
session scope commits all writes of the message or none. It does what the coarser
model of the loop does with the exception its session ends with. The handler is
the same before and after the session commit.
-/
namespace TxLookup.Consumer

open Library Library.Transaction Db

/-- The database calls of the session that applies an event. -/
inductive SessionCall where
  | upsertRow
  | selectEntries
  | selectOrder
  | selectPair
  | upsertPair
  | commit
  deriving DecidableEq

/-! ## The operations, call by call -/

namespace InSession

variable (fault : SessionCall → Option PyExc)

def updatePairingForRelatedId (env : Surroundings) (relatedId : PyStr) :
    SessionM Database PyExc (Option PairingSnapshot) := do
  let entries ← SessionM.query (fault .selectEntries)
    (fun db => selectRelated env.scan db relatedId)
  if entries.isEmpty then return none
  else
    let paymentOrder ← SessionM.query (fault .selectOrder)
      (fun db => db.paymentOrders.find? relatedId)
    let snapshot := computePairing relatedId (entries.map asSnapshot)
      (paymentOrder.map orderSnapshot) env.computeNow
    let existingPair ← SessionM.query (fault .selectPair)
      (fun db => db.paymentLedgerPairs.find? relatedId)
    if shouldUpdatePair (existingComplete existingPair) snapshot.complete then
      let values := pairValues snapshot env.pairNow
      SessionM.execute (fault .upsertPair) (fun db =>
        { db with
          paymentLedgerPairs := upsertRow paymentLedgerPairs values db.paymentLedgerPairs })
      return some snapshot
    else return some { snapshot with skipped := true }

def upsertLedgerEntry (env : Surroundings) (event : LedgerEntryUpserted) :
    SessionM Database PyExc (Bool × Option PairingSnapshot) := do
  SessionM.execute (fault .upsertRow) (insertLedgerEntry env event)
  let missingVersion := event.updatedAt.isNone && event.sourceVersion.isNone
  match pairingTarget event with
  | some relatedId =>
    let pairingSnapshot ← updatePairingForRelatedId fault env relatedId
    return (missingVersion, pairingSnapshot)
  | none => return (missingVersion, none)

def upsertPaymentOrder (env : Surroundings) (event : PaymentOrderUpserted) :
    SessionM Database PyExc Bool := do
  SessionM.execute (fault .upsertRow) (fun db => (Consumer.upsertPaymentOrder env event db).1)
  return event.updatedAt.isNone && event.sourceVersion.isNone

/-- The body of the session; the flag and the snapshot go to the metrics. -/
def applyEvent (env : Surroundings) (event : Event) : SessionM Database PyExc Unit := do
  match event with
  | .ledger event =>
    let _ ← upsertLedgerEntry fault env event
    return ()
  | .order event =>
    let _ ← upsertPaymentOrder fault env event
    return ()

end InSession

/-- The calls of the pairing step, in order. -/
def pairingCalls (env : Surroundings) (relatedId : PyStr) (db : Database) : List SessionCall :=
  let entries := selectRelated env.scan db relatedId
  if entries.isEmpty then [.selectEntries]
  else
    let snapshot := computePairing relatedId (entries.map asSnapshot)
      ((db.paymentOrders.find? relatedId).map orderSnapshot) env.computeNow
    if shouldUpdatePair (existingComplete (db.paymentLedgerPairs.find? relatedId))
        snapshot.complete
      then [.selectEntries, .selectOrder, .selectPair, .upsertPair]
      else [.selectEntries, .selectOrder, .selectPair]

/-- The calls that apply an event, in order, before the commit. -/
def eventCalls (env : Surroundings) (event : Event) (db : Database) : List SessionCall :=
  match event with
  | .ledger event =>
    .upsertRow :: (match pairingTarget event with
      | some relatedId => pairingCalls env relatedId (insertLedgerEntry env event db)
      | none => [])
  | .order _ => [.upsertRow]

section
variable (fault : SessionCall → Option PyExc) (env : Surroundings)

theorem does_updatePairing (relatedId : PyStr) (db : Database) :
    Does (InSession.updatePairingForRelatedId fault env relatedId) db
      ((pairingCalls env relatedId db).map fault) (updatePairingForRelatedId env relatedId db).2
      (updatePairingForRelatedId env relatedId db).1 := by
  unfold InSession.updatePairingForRelatedId pairingCalls updatePairingForRelatedId
  simp only
  by_cases hempty : (selectRelated env.scan db relatedId).isEmpty = true
  · rw [if_pos hempty, if_pos hempty]
    refine (Does.query _ _ db).bind ?_
    rw [if_pos hempty]
    exact Does.pure _ db
  rw [if_neg hempty, if_neg hempty]
  by_cases hupdate : shouldUpdatePair (existingComplete (db.paymentLedgerPairs.find? relatedId))
      (computePairing relatedId ((selectRelated env.scan db relatedId).map asSnapshot)
        ((db.paymentOrders.find? relatedId).map orderSnapshot) env.computeNow).complete = true
  · rw [if_pos hupdate, if_pos hupdate]
    refine (Does.query (fault .selectEntries) _ db).bind ?_
    rw [if_neg hempty]
    refine (Does.query (fault .selectOrder) _ db).bind ?_
    refine (Does.query (fault .selectPair) _ db).bind ?_
    rw [if_pos hupdate]
    exact (Does.execute (fault .upsertPair) _ db).bind (Does.pure _ _)
  · rw [if_neg hupdate, if_neg hupdate]
    refine (Does.query (fault .selectEntries) _ db).bind ?_
    rw [if_neg hempty]
    refine (Does.query (fault .selectOrder) _ db).bind ?_
    refine (Does.query (fault .selectPair) _ db).bind ?_
    rw [if_neg hupdate]
    exact Does.pure _ db

/-- The calls of a ledger event, after its own row. -/
theorem does_upsertLedgerEntry (event : LedgerEntryUpserted) (db : Database) :
    Does (InSession.upsertLedgerEntry fault env event) db
      ((eventCalls env (.ledger event) db).map fault) (upsertLedgerEntry env event db).2
      (upsertLedgerEntry env event db).1 := by
  unfold InSession.upsertLedgerEntry eventCalls upsertLedgerEntry
  refine (Does.execute (fault .upsertRow) _ db).bind ?_
  cases pairingTarget event with
  | none => exact Does.pure _ _
  | some relatedId =>
    have hpairing := (does_updatePairing fault env relatedId (insertLedgerEntry env event db)).bind
      (k := fun snapshot => pure (event.updatedAt.isNone && event.sourceVersion.isNone, snapshot))
      (Does.pure _ _)
    rw [List.append_nil] at hpairing
    exact hpairing

theorem does_upsertPaymentOrder (event : PaymentOrderUpserted) (db : Database) :
    Does (InSession.upsertPaymentOrder fault env event) db
      ((eventCalls env (.order event) db).map fault) (upsertPaymentOrder env event db).2
      (upsertPaymentOrder env event db).1 :=
  (Does.execute (fault .upsertRow) _ db).bind (Does.pure _ _)

/-- The body of the session does what the call does. -/
theorem does_applyEvent (event : Event) (db : Database) :
    Does (InSession.applyEvent fault env event) db ((eventCalls env event db).map fault) ()
      (Call.apply db ⟨event, env⟩) := by
  rw [← List.append_nil ((eventCalls env event db).map fault)]
  cases event with
  | ledger event => exact (does_upsertLedgerEntry fault env event db).bind (Does.pure _ _)
  | order event => exact (does_upsertPaymentOrder fault env event db).bind (Does.pure _ _)

end

/-! ## The iteration, call by call -/

/-- The external calls of one iteration that raise, with what they raise. -/
structure CallFaults where
  /-- The session cannot be opened. -/
  session : Option PyExc
  statement : SessionCall → Option PyExc
  /-- `consumer.commit` raises after the session commit. -/
  commitAfterApply : Option PyExc
  sinks : SinkHealth
  /-- `consumer.commit` raises in the exception handler. -/
  commitAfterDlq : Option PyExc

/-- What the iteration of a message meets, down to its database calls. -/
structure Attempt where
  msg : Message
  env : Surroundings
  faults : CallFaults
  now : DateTime
  nowIso : PyStr

/-- The same iteration, with what its transaction raises. -/
def Attempt.delivery (attempt : Attempt) (transaction : Option PyExc) : Delivery where
  msg := attempt.msg
  env := attempt.env
  faults :=
    { session := attempt.faults.session
      transaction := transaction
      commitAfterApply := attempt.faults.commitAfterApply
      sinks := attempt.faults.sinks
      commitAfterDlq := attempt.faults.commitAfterDlq }
  now := attempt.now
  nowIso := attempt.nowIso

variable (rt : PyRuntime) (config : AppConfig)

namespace InSession

/-- `with session_scope() as session`: what the block returns or raises, and the
database after it. -/
def sessionScope {α : Type} (faults : CallFaults) (body : SessionM Database PyExc α)
    (db : Database) : Except PyExc α × Database :=
  match faults.session with
  | some exc => (.error exc, db)
  | none =>
    let r := SessionM.scope (faults.statement .commit) body ⟨db, db⟩
    (r.1, r.2.committed)

def handlePayload (topic : PyStr) (payload : PyDict) (env : Surroundings) (faults : CallFaults)
    (db : Database) : Except PyExc Event × Database :=
  match normalizePayloadForTopic rt topic payload config.profile with
  | .error exc => (.error exc, db)
  | .ok normalized =>
    sessionScope faults
      (do
        let event ← SessionM.ofExcept (parseEvent rt normalized)
        applyEvent faults.statement env event
        return event)
      db

/-- The `try` block before the offset commit. -/
def process (attempt : Attempt) (db : Database) : Except PyExc Event × Database :=
  match loadPayload rt attempt.msg with
  | .error exc => (.error exc, db)
  | .ok payload => handlePayload rt config attempt.msg.topic payload attempt.env attempt.faults db

def consumeMessage (attempt : Attempt) (w : World) : World × Outcome × Bool :=
  match process rt config attempt w.db with
  | (.error exc, db) =>
    let r := handleError rt config (attempt.delivery none) exc { w with db }
    (r.1, r.2, false)
  | (.ok event, db) =>
    let applied := { w with
      db
      trace := w.trace ++ [Effect.applied attempt.msg ⟨event, attempt.env⟩] }
    let w := applied.commitOffset attempt.msg attempt.faults.commitAfterApply
    match attempt.faults.commitAfterApply with
    | none => (w, .running, true)
    | some exc =>
      let r := handleError rt config (attempt.delivery none) exc w
      (r.1, r.2, false)

end InSession

/-- The event topic and value of the message make, by the contract. -/
def eventOf (profile : EventContractProfile) (msg : Message) : Except PyExc Event := do
  let payload ← loadPayload rt msg
  let normalized ← normalizePayloadForTopic rt msg.topic payload profile
  parseEvent rt normalized

/-- What the transaction of the message raises, if anything: the first fault
among the calls it makes, up to the commit. -/
def Attempt.transactionFault (attempt : Attempt) (db : Database) : Option PyExc :=
  match eventOf rt config.profile attempt.msg with
  | .error _ => none
  | .ok event =>
    firstFault ((eventCalls attempt.env event db).map attempt.faults.statement ++
      [attempt.faults.statement .commit])

variable {rt config}

theorem transactionFault_eq_none {attempt : Attempt} {db : Database} {event : Event}
    (hevent : eventOf rt config.profile attempt.msg = .ok event) :
    attempt.transactionFault rt config db = none ↔
      ∀ call ∈ eventCalls attempt.env event db ++ [.commit],
        attempt.faults.statement call = none := by
  have hcalls : (eventCalls attempt.env event db).map attempt.faults.statement ++
      [attempt.faults.statement .commit] =
        (eventCalls attempt.env event db ++ [SessionCall.commit]).map
          attempt.faults.statement := by
    rw [List.map_append, List.map_singleton]
  rw [Attempt.transactionFault, hevent]
  show firstFault (_ ++ _) = none ↔ _
  rw [hcalls, firstFault_eq_none, List.forall_mem_map]

theorem ok_bind {α β : Type} (a : α) (f : α → Except PyExc β) : (Except.ok a >>= f) = f a := rfl

theorem eventOf_eq_ok {profile : EventContractProfile} {msg : Message} {event : Event} :
    eventOf rt profile msg = .ok event ↔ ∃ payload normalized, loadPayload rt msg = .ok payload ∧
      normalizePayloadForTopic rt msg.topic payload profile = .ok normalized ∧
      parseEvent rt normalized = .ok event := by
  simp only [eventOf, bind_eq_ok]
  constructor
  · rintro ⟨payload, hload, normalized, hnorm, hparse⟩
    exact ⟨payload, normalized, hload, hnorm, hparse⟩
  · rintro ⟨payload, normalized, hload, hnorm, hparse⟩
    exact ⟨payload, hload, normalized, hnorm, hparse⟩

/-- The session of an event commits what the call does, or changes nothing and
raises the first fault. -/
theorem sessionScope_event {faults : CallFaults} (hsession : faults.session = none)
    (env : Surroundings) (event : Event) (db : Database) :
    InSession.sessionScope faults
        (do
          let event ← SessionM.ofExcept (.ok event)
          InSession.applyEvent faults.statement env event
          return event)
        db =
      match firstFault ((eventCalls env event db).map faults.statement ++
          [faults.statement .commit]) with
      | none => (.ok event, Call.apply db ⟨event, env⟩)
      | some exc => (.error exc, db) := by
  have hbody := (Does.ofOk event db).bind
    (k := fun event => do
      InSession.applyEvent faults.statement env event
      return event)
    ((does_applyEvent faults.statement env event db).bind (Does.pure event _))
  rw [List.nil_append, List.append_nil] at hbody
  obtain ⟨hok, herror⟩ := hbody.scope (faults.statement .commit)
  unfold InSession.sessionScope
  rw [hsession]
  cases hfault : firstFault ((eventCalls env event db).map faults.statement ++
      [faults.statement .commit]) with
  | none => rw [hok hfault]
  | some exc => rw [herror exc hfault]

/-- The session scope commits the writes of the message together or not at all,
and raises what the coarser model is given as the fault of the transaction. -/
theorem process_atomic (attempt : Attempt) (db : Database) :
    InSession.process rt config attempt db =
      (process rt config (attempt.delivery (attempt.transactionFault rt config db)),
        match process rt config (attempt.delivery (attempt.transactionFault rt config db)) with
        | .ok event => Call.apply db ⟨event, attempt.env⟩
        | .error _ => db) := by
  have hprocess : process rt config (attempt.delivery (attempt.transactionFault rt config db)) =
      (loadPayload rt attempt.msg >>= fun payload =>
        normalizePayloadForTopic rt attempt.msg.topic payload config.profile >>= fun normalized =>
        raiseIf attempt.faults.session >>= fun _ =>
        parseEvent rt normalized >>= fun event =>
        raiseIf (attempt.transactionFault rt config db) >>= fun _ => .ok event) := rfl
  rw [hprocess]
  unfold InSession.process
  cases hload : loadPayload rt attempt.msg with
  | error exc => rfl
  | ok payload =>
    simp only [InSession.handlePayload]
    cases hnorm : normalizePayloadForTopic rt attempt.msg.topic payload config.profile with
    | error exc => simp only [ok_bind, hnorm]; rfl
    | ok normalized =>
      cases hsession : attempt.faults.session with
      | some exc => simp only [InSession.sessionScope, ok_bind, hnorm, hsession]; rfl
      | none =>
        cases hparse : parseEvent rt normalized with
        | error exc =>
          simp only [InSession.sessionScope, ok_bind, hnorm, hsession, hparse]
          rfl
        | ok event =>
          have hevent : eventOf rt config.profile attempt.msg = .ok event :=
            eventOf_eq_ok.mpr ⟨payload, normalized, hload, hnorm, hparse⟩
          have hfault : attempt.transactionFault rt config db =
              firstFault ((eventCalls attempt.env event db).map attempt.faults.statement ++
                [attempt.faults.statement .commit]) := by
            rw [Attempt.transactionFault, hevent]
          have hscope := sessionScope_event hsession attempt.env event db
          simp only [ok_bind, hnorm, hparse]
          rw [hscope, ← hfault]
          cases attempt.transactionFault rt config db with
          | none => rfl
          | some exc => rfl

/-- Call by call or with one fault for the whole transaction, the iteration comes
to the same. -/
theorem consumeMessage_refines (attempt : Attempt) (w : World) :
    InSession.consumeMessage rt config attempt w =
      consumeMessage rt config (attempt.delivery (attempt.transactionFault rt config w.db)) w := by
  have hprocess := @process_atomic rt config attempt w.db
  unfold InSession.consumeMessage consumeMessage
  cases hp : process rt config (attempt.delivery (attempt.transactionFault rt config w.db)) with
  | error exc =>
    rw [hp] at hprocess
    rw [hprocess]
    rfl
  | ok event =>
    rw [hp] at hprocess
    rw [hprocess]
    rfl

/-! ## What the handler finds and leaves -/

/-- A dead-letter record has been written. -/
def Recorded (w w' : World) : Prop := w'.dlqEvents ≠ w.dlqEvents ∨ w'.dlqFile ≠ w.dlqFile

variable (rt config) in
/-- The exception that reaches the handler. -/
def failure (delivery : Delivery) : Option PyExc :=
  match process rt config delivery with
  | .error exc => some exc
  | .ok _ => delivery.faults.commitAfterApply

variable (rt config) in
/-- The world in which the `try` block is left. -/
def afterTry (delivery : Delivery) (w : World) : World :=
  match process rt config delivery with
  | .error _ => w
  | .ok event =>
    World.commitOffset
      { w with
        db := Call.apply w.db ⟨event, delivery.env⟩
        trace := w.trace ++ [.applied delivery.msg ⟨event, delivery.env⟩] }
      delivery.msg delivery.faults.commitAfterApply

theorem consumeMessage_of_failure {delivery : Delivery} {exc : PyExc}
    (h : failure rt config delivery = some exc) (w : World) :
    consumeMessage rt config delivery w =
      ((handleError rt config delivery exc (afterTry rt config delivery w)).1,
        (handleError rt config delivery exc (afterTry rt config delivery w)).2, false) := by
  unfold failure at h
  unfold consumeMessage afterTry
  cases hp : process rt config delivery with
  | error exc' =>
    rw [hp] at h
    obtain rfl := Option.some.inj h
    rfl
  | ok event =>
    rw [hp] at h
    simp only [h]

theorem consumeMessage_of_success {delivery : Delivery} (h : failure rt config delivery = none)
    (w : World) : consumeMessage rt config delivery w =
      (afterTry rt config delivery w, .running, true) := by
  unfold failure at h
  unfold consumeMessage afterTry
  cases hp : process rt config delivery with
  | error exc =>
    rw [hp] at h
    cases h
  | ok event =>
    rw [hp] at h
    simp only [h]

theorem writeDlqPayload_db (health : SinkHealth) (payload : PyDict) (now : DateTime) (w : World) :
    (writeDlqPayload rt config health payload now w).db = w.db := by
  unfold writeDlqPayload
  split <;> rfl

theorem handleError_db (delivery : Delivery) (exc : PyExc) (w : World) :
    (handleError rt config delivery exc w).1.db = w.db := by
  unfold handleError
  split
  · rfl
  · exact writeDlqPayload_db _ _ _ w

/-- An undecodable key leaves the loop before anything is written. -/
theorem handleError_of_key {delivery : Delivery} {keyExc : PyExc}
    (hkey : decodedKey delivery.msg = .error keyExc) (exc : PyExc) (w : World) :
    handleError rt config delivery exc w = (w, .raised keyExc) := by
  unfold handleError
  rw [hkey]

/-- A record is written exactly if a sink stores it. -/
theorem recorded_writeDlqPayload (health : SinkHealth) (payload : PyDict) (now : DateTime)
    (w : World) : Recorded w (writeDlqPayload rt config health payload now w) ↔
      (storingSink rt config.dlqBackend health payload now).isSome = true := by
  have hgrown : ∀ {α : Type} (xs : List α) (x : α), xs ++ [x] ≠ xs := by
    intro α xs x h
    have hlength := congrArg List.length h
    rw [List.length_append, List.length_singleton] at hlength
    omega
  unfold writeDlqPayload Recorded
  split
  · next h =>
    rw [h]
    exact ⟨fun _ => rfl, fun _ => .inl (hgrown _ _)⟩
  · next h =>
    rw [h]
    exact ⟨fun _ => rfl, fun _ => .inr (hgrown _ _)⟩
  · next h =>
    rw [h]
    exact ⟨fun hrecorded => by rcases hrecorded with h | h <;> exact absurd rfl h,
      fun hsome => by cases hsome⟩

/-- Where the key can be read and a sink takes the record, the record is written. -/
theorem handleError_recorded {delivery : Delivery} {key : Option PyStr}
    (hkey : decodedKey delivery.msg = .ok key) {exc : PyExc}
    (htakes : TableTakes rt config delivery key ∨ FileTakes rt config delivery key exc)
    (w : World) : Recorded w (handleError rt config delivery exc w).1 := by
  have hsome := (recorded_writeDlqPayload delivery.faults.sinks
    (dlqPayload rt config delivery key exc) delivery.now w).mpr
      ((storingSink_isSome delivery key exc).mpr htakes)
  unfold handleError
  rw [hkey]
  exact hsome

variable (rt config) in
/-- The sinks work: whatever the iteration raises, one of them takes the record. -/
def SinksWork (attempt : Attempt) (db : Database) : Prop :=
  let delivery := attempt.delivery (attempt.transactionFault rt config db)
  ∀ exc key, failure rt config delivery = some exc → decodedKey attempt.msg = .ok key →
    TableTakes rt config delivery key ∨ FileTakes rt config delivery key exc

variable (rt config) in
/-- All writes of the message are committed. -/
def Committed (attempt : Attempt) (w w' : World) : Prop :=
  ∃ event new, eventOf rt config.profile attempt.msg = .ok event ∧
    w'.trace = w.trace ++ new ∧ .applied attempt.msg ⟨event, attempt.env⟩ ∈ new ∧
    w'.db = Call.apply w.db ⟨event, attempt.env⟩

/-- The loop is left, and the offset of the message is not committed. -/
def LeftUncommitted (attempt : Attempt) (w w' : World) (outcome : Outcome) : Prop :=
  (∃ exc, outcome = .raised exc) ∧
    ∀ new, w'.trace = w.trace ++ new → .offsetCommit attempt.msg true ∉ new

/-- Once the transaction is committed, the iteration keeps its writes. -/
theorem consumeMessage_db {delivery : Delivery} {event : Event}
    (hp : process rt config delivery = .ok event) (w : World) :
    (consumeMessage rt config delivery w).1.db = Call.apply w.db ⟨event, delivery.env⟩ := by
  have htry : (afterTry rt config delivery w).db = Call.apply w.db ⟨event, delivery.env⟩ := by
    unfold afterTry
    rw [hp]
    rfl
  cases hfailure : failure rt config delivery with
  | none => rw [consumeMessage_of_success hfailure, htry]
  | some exc =>
    rw [consumeMessage_of_failure hfailure]
    exact (handleError_db delivery exc _).trans htry

variable (rt config) in
/-- If a record has been written, the tables are as before; if not, the message is
committed, or the loop is left with its offset uncommitted. -/
def WithoutEffect (attempt : Attempt) (w : World) (r : World × Outcome × Bool) : Prop :=
  (Recorded w r.1 → r.1.db = w.db) ∧
    (¬ Recorded w r.1 → Committed rt config attempt w r.1 ∨ LeftUncommitted attempt w r.1 r.2.1)

section
variable {attempt : Attempt} {w : World} (hsinks : SinksWork rt config attempt w.db)
include hsinks

/-- The handler starts from the tables as they were. -/
theorem unapplied_without_effect {exc : PyExc}
    (hp : process rt config (attempt.delivery (attempt.transactionFault rt config w.db)) =
      .error exc) :
    WithoutEffect rt config attempt w (consumeMessage rt config
      (attempt.delivery (attempt.transactionFault rt config w.db)) w) := by
  have hfailure : failure rt config
      (attempt.delivery (attempt.transactionFault rt config w.db)) = some exc := by
    rw [failure, hp]
  have htry : afterTry rt config
      (attempt.delivery (attempt.transactionFault rt config w.db)) w = w := by
    rw [afterTry, hp]
  rw [consumeMessage_of_failure hfailure, htry]
  refine ⟨fun _ => handleError_db _ _ w, fun hnot => .inr ?_⟩
  cases hkey : decodedKey attempt.msg with
  | ok key => exact absurd (handleError_recorded hkey (hsinks exc key hfailure hkey) w) hnot
  | error keyExc =>
    rw [handleError_of_key hkey]
    refine ⟨⟨keyExc, rfl⟩, fun new hnew hmem => ?_⟩
    rw [List.self_eq_append_right.mp hnew] at hmem
    cases hmem

/-- The handler starts from the committed writes of the message. -/
theorem applied_without_effect_iff {event : Event}
    (hp : process rt config (attempt.delivery (attempt.transactionFault rt config w.db)) =
      .ok event)
    (hcommitted : Committed rt config attempt w (consumeMessage rt config
      (attempt.delivery (attempt.transactionFault rt config w.db)) w).1) :
    WithoutEffect rt config attempt w (consumeMessage rt config
        (attempt.delivery (attempt.transactionFault rt config w.db)) w) ↔
      ¬ (attempt.faults.commitAfterApply ≠ none ∧ KeyReadable attempt.msg ∧
        Call.apply w.db ⟨event, attempt.env⟩ ≠ w.db) := by
  have hdb := consumeMessage_db hp w
  have hfailure : failure rt config
      (attempt.delivery (attempt.transactionFault rt config w.db)) =
        attempt.faults.commitAfterApply := by
    rw [failure, hp]
    rfl
  have hsame : (afterTry rt config
        (attempt.delivery (attempt.transactionFault rt config w.db)) w).dlqEvents = w.dlqEvents ∧
      (afterTry rt config
        (attempt.delivery (attempt.transactionFault rt config w.db)) w).dlqFile = w.dlqFile := by
    unfold afterTry
    rw [hp]
    exact ⟨rfl, rfl⟩
  cases hcommit : attempt.faults.commitAfterApply with
  | none =>
    rw [hcommit] at hfailure
    have hnot : ¬ Recorded w (consumeMessage rt config
        (attempt.delivery (attempt.transactionFault rt config w.db)) w).1 := by
      rw [consumeMessage_of_success hfailure, Recorded, hsame.1, hsame.2]
      rintro (h | h) <;> exact h rfl
    exact ⟨fun _ h => h.1 rfl, fun _ => ⟨fun h => absurd h hnot, fun _ => .inl hcommitted⟩⟩
  | some exc =>
    rw [hcommit] at hfailure
    cases hkey : decodedKey attempt.msg with
    | error keyExc =>
      have hnot : ¬ Recorded w (consumeMessage rt config
          (attempt.delivery (attempt.transactionFault rt config w.db)) w).1 := by
        rw [consumeMessage_of_failure hfailure, handleError_of_key hkey, Recorded, hsame.1,
          hsame.2]
        rintro (h | h) <;> exact h rfl
      exact ⟨fun _ h => not_keyReadable_of_error hkey h.2.1,
        fun _ => ⟨fun h => absurd h hnot, fun _ => .inl hcommitted⟩⟩
    | ok key =>
      have hrecorded : Recorded w (consumeMessage rt config
          (attempt.delivery (attempt.transactionFault rt config w.db)) w).1 := by
        have hwritten := handleError_recorded hkey (hsinks exc key hfailure hkey)
          (afterTry rt config (attempt.delivery (attempt.transactionFault rt config w.db)) w)
        rw [Recorded, hsame.1, hsame.2] at hwritten
        rw [consumeMessage_of_failure hfailure]
        exact hwritten
      constructor
      · rintro ⟨hunchanged, -⟩ ⟨-, -, hchanged⟩
        exact hchanged (hdb.symm.trans (hunchanged hrecorded))
      · intro hno
        refine ⟨fun _ => hdb.trans ?_, fun h => absurd hrecorded h⟩
        by_contra hchanged
        exact hno ⟨Option.some_ne_none exc, keyReadable_of_ok hkey, hchanged⟩

end

/-- With working sinks, a recorded message has changed nothing and any other is
committed, or leaves the loop with its offset uncommitted, exactly if it is not
the case that the message is applied, its transaction changes the tables,
`consumer.commit` raises after it, and the key can be read. -/
theorem dead_letter_without_effect_iff (attempt : Attempt) (w : World)
    (hsinks : SinksWork rt config attempt w.db) :
    WithoutEffect rt config attempt w (InSession.consumeMessage rt config attempt w) ↔
      ¬ ∃ event, eventOf rt config.profile attempt.msg = .ok event ∧
        attempt.faults.session = none ∧
        (∀ call ∈ eventCalls attempt.env event w.db ++ [.commit],
          attempt.faults.statement call = none) ∧
        attempt.faults.commitAfterApply ≠ none ∧ KeyReadable attempt.msg ∧
        Call.apply w.db ⟨event, attempt.env⟩ ≠ w.db := by
  rw [consumeMessage_refines]
  have hprocess := fun event => @process_eq_ok rt config
    (attempt.delivery (attempt.transactionFault rt config w.db)) event
  cases hp : process rt config (attempt.delivery (attempt.transactionFault rt config w.db)) with
  | error exc =>
    refine ⟨fun _ => ?_, fun _ => unapplied_without_effect hsinks hp⟩
    rintro ⟨event, hevent, hsession, hcalls, -⟩
    obtain ⟨payload, normalized, hload, hnorm, hparse⟩ := eventOf_eq_ok.mp hevent
    have hok := (hprocess event).mpr ⟨payload, normalized, hload, hnorm, hsession, hparse,
      (transactionFault_eq_none hevent).mpr hcalls⟩
    cases hp.symm.trans hok
  | ok event =>
    obtain ⟨payload, normalized, hload, hnorm, hsession, hparse, htransaction⟩ :=
      (hprocess event).mp hp
    have hevent : eventOf rt config.profile attempt.msg = .ok event :=
      eventOf_eq_ok.mpr ⟨payload, normalized, hload, hnorm, hparse⟩
    have hcalls := (transactionFault_eq_none hevent).mp htransaction
    have heffects : Effect.applied attempt.msg ⟨event, attempt.env⟩ ∈ effects rt config
        (attempt.delivery (attempt.transactionFault rt config w.db)) := by
      rw [effects, hp]
      exact List.mem_append_left _ List.mem_cons_self
    rw [applied_without_effect_iff hsinks hp ⟨event, effects rt config
      (attempt.delivery (attempt.transactionFault rt config w.db)), hevent,
      consumeMessage_trace _ w, heffects, consumeMessage_db hp w⟩, not_iff_not]
    constructor
    · intro h
      exact ⟨event, hevent, hsession, hcalls, h⟩
    · rintro ⟨event', hevent', -, -, h⟩
      obtain rfl := Except.ok.inj (hevent.symm.trans hevent')
      exact h

/-- A message on which nothing fails but `consumer.commit` after the transaction. -/
def uncommittedAttempt : Attempt where
  msg := ⟨py "payment.order.upserted", 0, 7, none, some orderBytes, none⟩
  env := .still 1767225600000000
  faults :=
    { session := none
      statement := fun _ => none
      commitAfterApply := some (.other (py "KafkaError"))
      sinks := ⟨true, true⟩
      commitAfterDlq := none }
  now := 1767225600000000
  nowIso := py "2026-01-01T00:00:00+00:00"

/-- No table has a row, and no record is stored. -/
def emptyWorld : World := ⟨Database.empty, [], [], []⟩

theorem uncommittedAttempt_sinks :
    SinksWork sampleRuntime sampleConfig uncommittedAttempt emptyWorld.db := by
  intro exc key _ hkey
  obtain rfl : none = key := Except.ok.inj hkey
  exact .inl ⟨rfl, rfl, by decide⟩

theorem uncommittedAttempt_without_effect_iff :
    WithoutEffect sampleRuntime sampleConfig uncommittedAttempt emptyWorld
        (InSession.consumeMessage sampleRuntime sampleConfig uncommittedAttempt emptyWorld) ↔
      ¬ ∃ event, eventOf sampleRuntime canonicalV1 uncommittedAttempt.msg = .ok event ∧
        uncommittedAttempt.faults.session = none ∧
        (∀ call ∈ eventCalls uncommittedAttempt.env event emptyWorld.db ++ [.commit],
          uncommittedAttempt.faults.statement call = none) ∧
        uncommittedAttempt.faults.commitAfterApply ≠ none ∧
        KeyReadable uncommittedAttempt.msg ∧
        Call.apply emptyWorld.db ⟨event, uncommittedAttempt.env⟩ ≠ emptyWorld.db :=
  dead_letter_without_effect_iff uncommittedAttempt emptyWorld uncommittedAttempt_sinks

/-- The order of the recorded message is in the tables. -/
theorem applied_message_recorded :
    let r := InSession.consumeMessage sampleRuntime sampleConfig uncommittedAttempt emptyWorld
    SinksWork sampleRuntime sampleConfig uncommittedAttempt emptyWorld.db ∧
      r.1.dlqEvents.length = 1 ∧ r.1.db.paymentOrders.rows.length = 1 ∧
      ¬ WithoutEffect sampleRuntime sampleConfig uncommittedAttempt emptyWorld r := by
  intro r
  have hrow : r.1.dlqEvents.length = 1 := rfl
  have horder : r.1.db.paymentOrders.rows.length = 1 := rfl
  refine ⟨uncommittedAttempt_sinks, hrow, horder, fun h => ?_⟩
  have hsame : r.1.db = emptyWorld.db := h.1 (.inl fun hnone => by
    rw [hnone] at hrow
    cases hrow)
  rw [hsame] at horder
  cases horder

end TxLookup.Consumer
