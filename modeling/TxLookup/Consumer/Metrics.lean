import TxLookup.Consumer.Group
import TxLookup.Consumer.Freshness
import TxLookup.Consumer.KafkaLag

/-!
# The instruments of the consumer

Counters are the lists of what was added to them, with the attributes; a value is
a count in such a list. An iteration updates them at the places the source does,
so an exception leaves what was counted before it. Along every run of the loop the
counters balance: with each other, with the progress of the loop and with what it
has done to the outside. Ages are kept in microseconds.
-/
namespace TxLookup.Consumer

open Library Library.Transaction Db

structure VersionMissingCounter where
  logEvery : Nat := 100
  processed : Nat := 0
  missingVersion : Nat := 0

namespace VersionMissingCounter

/-- The counter after a call, and whether it asks for a log line. -/
def record (counter : VersionMissingCounter) (missing : Bool) : VersionMissingCounter × Bool :=
  let counter := { counter with
    processed := counter.processed + 1
    missingVersion := counter.missingVersion + if missing then 1 else 0 }
  (counter, counter.processed % counter.logEvery == 0)

def summary (counter : VersionMissingCounter) : PyStr :=
  py "processed=" ++ dumpInt counter.processed ++ py " version_missing_cnt=" ++
    dumpInt counter.missingVersion

end VersionMissingCounter

structure PairingMetrics where
  logEvery : Nat := 100
  total : Nat := 0
  incomplete : Nat := 0
  incompleteAgeSum : Int := 0
  incompleteAgeMax : Int := 0

/-- The metrics after a call of `record`, and whether they ask for a log line. -/
def PairingMetrics.record (pairing : PairingMetrics) (complete : Bool)
    (incompleteAge : Option Int) : PairingMetrics × Bool :=
  let pairing := { pairing with total := pairing.total + 1 }
  let pairing :=
    if complete then pairing
    else { pairing with
      incomplete := pairing.incomplete + 1
      incompleteAgeSum := pairing.incompleteAgeSum + incompleteAge.getD 0
      incompleteAgeMax := (incompleteAge.map (max pairing.incompleteAgeMax)).getD
        pairing.incompleteAgeMax }
  (pairing, pairing.total % pairing.logEvery == 0)

structure Instruments where
  /-- `consumer_messages_total`, by topic and status. -/
  messages : List (PyStr × PyStr)
  /-- `consumer_dlq_total`, by topic. -/
  dlq : List PyStr
  /-- `consumer_version_missing_total`, by topic. -/
  versionMissing : List PyStr
  /-- `consumer_contract_profile_messages_total`, by topic and profile. -/
  profileMessages : List (PyStr × PyStr)
  /-- `consumer_contract_core_violation_total`, by topic and profile. -/
  coreViolations : List (PyStr × PyStr)
  /-- `consumer_contract_alias_hit_total`, by topic, profile, canonical name and alias. -/
  aliasHits : List (PyStr × PyStr × PyStr × PyStr)
  /-- `consumer_event_lag_seconds`, by topic. -/
  eventLags : List (PyStr × Int)
  pairTotal : Nat
  pairIncompleteTotal : Nat
  /-- `pairing_incomplete_age_seconds`. -/
  pairIncompleteAges : List Int
  /-- `pairing_skipped_non_payment_order_total`, by related type. -/
  pairingSkipped : List PyStr
  freshness : FreshnessState
  /-- `_kafka_lag_values`. -/
  kafkaLag : List (PyStr × Int)
  counter : VersionMissingCounter
  pairing : PairingMetrics
  /-- The version summaries that were logged. -/
  summaries : List PyStr

def Instruments.new : Instruments where
  messages := []
  dlq := []
  versionMissing := []
  profileMessages := []
  coreViolations := []
  aliasHits := []
  eventLags := []
  pairTotal := 0
  pairIncompleteTotal := 0
  pairIncompleteAges := []
  pairingSkipped := []
  freshness := .empty
  kafkaLag := []
  counter := {}
  pairing := {}
  summaries := []

/-- The clock readings the instruments take in an iteration, and the watermarks. -/
structure Readings where
  watermarks : Except PyExc (Option (Int × Int))
  eventLag : DateTime
  freshness : DateTime

/-- The related type for which a skipped pairing is counted. -/
def LedgerEntryUpserted.skippedType? (event : LedgerEntryUpserted) : Option PyStr :=
  if truthy event.relatedId ∧ pairingTarget event = none then some (event.relatedType.getD [])
  else none

namespace Instruments

variable (m : Instruments)

def recordConsumerMessage (topic status : PyStr) : Instruments :=
  { m with messages := m.messages ++ [(topic, status)] }

def recordLag (call : LagCall) : Instruments :=
  { m with kafkaLag := recordKafkaLag m.kafkaLag call.topic call.partition call.lag }

def recordDlq (topic : PyStr) : Instruments := { m with dlq := m.dlq ++ [topic] }

def recordContractProfileMessage (topic profileId : PyStr) : Instruments :=
  { m with profileMessages := m.profileMessages ++ [(topic, profileId)] }

def recordContractCoreViolation (topic profileId : PyStr) : Instruments :=
  { m with coreViolations := m.coreViolations ++ [(topic, profileId)] }

/-- `_record_contract_metrics`. -/
def recordContractMetrics (topic profileId : PyStr) (aliasHits : List (PyStr × PyStr)) :
    Instruments :=
  { m with aliasHits := m.aliasHits ++ aliasHits.map fun hit => (topic, profileId, hit.1, hit.2) }

/-- `record_event_lag`, then the freshness of the topic. -/
def recordEventTime (topic : PyStr) (eventTime : DateTime) (readings : Readings) : Instruments :=
  { m with
    eventLags := m.eventLags ++ [(topic, max 0 (readings.eventLag - eventTime))]
    freshness := m.freshness.record ⟨topic, some eventTime, readings.freshness⟩ }

/-- `record_version_missing`, then the counter and its log line. -/
def recordVersion (topic : PyStr) (missing : Bool) : Instruments :=
  let recorded := m.counter.record missing
  { m with
    versionMissing := m.versionMissing ++ if missing then [topic] else []
    counter := recorded.1
    summaries := m.summaries ++ if recorded.2 then [recorded.1.summary] else [] }

/-- The pairing counters for the snapshot of a transaction, if it has one. -/
def recordPairing : Option PairingSnapshot → Instruments
  | none => m
  | some snapshot =>
    { m with
      pairing := (m.pairing.record snapshot.complete snapshot.incompleteAge).1
      pairTotal := m.pairTotal + 1
      pairIncompleteTotal := m.pairIncompleteTotal + if snapshot.complete then 0 else 1
      pairIncompleteAges := m.pairIncompleteAges ++
        if snapshot.complete then [] else snapshot.incompleteAge.toList }

/-- The skipped pairing of an event of another domain. -/
def recordSkipped (event : LedgerEntryUpserted) : Instruments :=
  { m with pairingSkipped := m.pairingSkipped ++ event.skippedType?.toList }

end Instruments

/-- The time a message is measured by. -/
def Event.measuredTime : Event → DateTime
  | .ledger event => event.eventTime
  | .order event => event.updatedAt.getD event.createdAt

def Event.missingVersion : Event → Bool
  | .ledger event => event.updatedAt.isNone && event.sourceVersion.isNone
  | .order event => event.updatedAt.isNone && event.sourceVersion.isNone

variable (rt : PyRuntime) (config : AppConfig)

/-- The instruments after the upserts of an event; a statement that raises keeps the
rest from being counted, a commit that raises does not. -/
def meterEvent (attempt : Attempt) (event : Event) (db : Database) (m : Instruments) : Instruments :=
  match event with
  | .ledger entry =>
    match attempt.faults.statement .upsertRow with
    | some _ => m
    | none =>
      let m := m.recordSkipped entry
      match firstFault ((eventCalls attempt.env event db).map attempt.faults.statement) with
      | some _ => m
      | none => m.recordPairing (upsertLedgerEntry attempt.env entry db).2.2
  | .order _ => m

/-- The instruments after `_handle_payload`, wherever it ends. -/
def meterPayload (attempt : Attempt) (readings : Readings) (payload : PyDict) (db : Database)
    (m : Instruments) : Instruments :=
  let topic := attempt.msg.topic
  match config.profile.topicKind topic with
  | none => m
  | some _ =>
    let m := m.recordContractProfileMessage topic config.profile.profileId
    match normalizePayloadForTopic rt topic payload config.profile with
    | .error _ => m
    | .ok normalized =>
      let m := m.recordContractMetrics topic config.profile.profileId normalized.aliasHits
      match attempt.faults.session, parseEvent rt normalized with
      | none, .ok event =>
        let m := meterEvent attempt event db (m.recordEventTime topic event.measuredTime readings)
        match (InSession.process rt config attempt db).1 with
        | .ok event => m.recordVersion topic event.missingVersion
        | .error _ => m
      | _, _ => m

/-- The instruments after the exception handler. -/
def meterFailure (topic : PyStr) (exc : PyExc) (m : Instruments) : Instruments :=
  let m := (m.recordConsumerMessage topic (py "error")).recordDlq topic
  if classifyError exc = py "contract_core_violation" then
    m.recordContractCoreViolation topic config.profile.profileId
  else m

/-- The instruments before the offset commit, or the exception handler. -/
def meterTry (attempt : Attempt) (readings : Readings) (db : Database) (m : Instruments) :
    Instruments :=
  match loadPayload rt attempt.msg with
  | .ok payload => meterPayload rt config attempt readings payload db m
  | .error _ => m

def lagCall (msg : Message) (readings : Readings) : LagCall :=
  ⟨msg.topic, msg.partition, msg.offset, readings.watermarks⟩

/-- The instruments after the iteration of a message. -/
def meterMessage (attempt : Attempt) (readings : Readings) (db : Database) (m : Instruments) :
    Instruments :=
  let m := m.recordLag (lagCall attempt.msg readings)
  let m := meterTry rt config attempt readings db m
  match (InSession.process rt config attempt db).1, attempt.faults.commitAfterApply with
  | .ok _, none => m.recordConsumerMessage attempt.msg.topic (py "success")
  | .ok _, some exc => meterFailure config attempt.msg.topic exc m
  | .error exc, _ => meterFailure config attempt.msg.topic exc m

/-- What a poll returns, with what the iteration of a message meets. -/
inductive Polled where
  | nothing (expired : Bool)
  | partitionEof (expired : Bool)
  | brokerError (exc : PyExc)
  | interrupt
  | message (attempt : Attempt) (readings : Readings)

/-- The loop with its instruments, and the messages it has got to. -/
structure Metered where
  loop : LoopState
  instruments : Instruments
  handled : List (Attempt × Readings)

namespace Metered

def start (db : Database) (dlqEvents : List ConsumerDlqEvent) (dlqFile : List PyStr) : Metered where
  loop := .start db dlqEvents dlqFile
  instruments := .new
  handled := []

def iterate (s : Metered) : Polled → Metered
  | .nothing expired => { s with loop := Consumer.iterate rt config s.loop (.nothing expired) }
  | .partitionEof expired =>
    { s with loop := Consumer.iterate rt config s.loop (.partitionEof expired) }
  | .brokerError exc => { s with loop := Consumer.iterate rt config s.loop (.brokerError exc) }
  | .interrupt => { s with loop := Consumer.iterate rt config s.loop .interrupt }
  | .message attempt readings =>
    let r := InSession.consumeMessage rt config attempt s.loop.world
    { loop :=
        { world := r.1
          processed := if r.2.2 then s.loop.processed + 1 else s.loop.processed
          outcome := r.2.1 }
      instruments := meterMessage rt config attempt readings s.loop.world.db s.instruments
      handled := s.handled ++ [(attempt, readings)] }

/-- `run_consumer` with its instruments. -/
def run (maxMessages : Option Int) (s : Metered) : List Polled → Metered
  | [] => s
  | polled :: rest =>
    if s.loop.outcome = .running then
      if maxMessages.any (fun m : Int => m ≤ (s.loop.processed : Int)) then
        { s with loop := { s.loop with outcome := .stopped } }
      else run maxMessages (s.iterate rt config polled) rest
    else s

end Metered

variable {rt config}

/-! ## What an iteration counts -/

/-- The counters of the loop itself. -/
structure Books where
  messages : List (PyStr × PyStr)
  dlq : List PyStr
  versionMissing : List PyStr
  counter : VersionMissingCounter
  summaries : List PyStr

def Instruments.books (m : Instruments) : Books :=
  ⟨m.messages, m.dlq, m.versionMissing, m.counter, m.summaries⟩

theorem meterEvent_books (attempt : Attempt) (event : Event) (db : Database) (m : Instruments) :
    (meterEvent attempt event db m).books = m.books := by
  unfold meterEvent
  split
  · split
    · rfl
    · dsimp only
      split
      · rfl
      · cases (upsertLedgerEntry attempt.env _ db).2.2 <;> rfl
  · rfl

theorem books_recordVersion {m m' : Instruments} (h : m.books = m'.books) (topic : PyStr)
    (missing : Bool) : (m.recordVersion topic missing).books = (m'.recordVersion topic missing).books := by
  simp only [Instruments.books, Books.mk.injEq] at h
  obtain ⟨hmessages, hdlq, hmissing, hcounter, hsummaries⟩ := h
  simp [Instruments.books, Instruments.recordVersion, hmessages, hdlq, hmissing, hcounter, hsummaries]

theorem books_recordConsumerMessage {m m' : Instruments} (h : m.books = m'.books)
    (topic status : PyStr) : (m.recordConsumerMessage topic status).books =
      (m'.recordConsumerMessage topic status).books := by
  simp only [Instruments.books, Books.mk.injEq] at h
  simp [Instruments.books, Instruments.recordConsumerMessage, h]

/-- The event of a message whose transaction commits is the one its payload makes. -/
theorem parse_of_process {attempt : Attempt} {db : Database} {payload : PyDict} {event : Event}
    (hload : loadPayload rt attempt.msg = .ok payload)
    (h : (InSession.process rt config attempt db).1 = .ok event) :
    ∃ normalized, normalizePayloadForTopic rt attempt.msg.topic payload config.profile =
        .ok normalized ∧ parseEvent rt normalized = .ok event ∧ attempt.faults.session = none := by
  rw [process_atomic] at h
  obtain ⟨payload', hload', h⟩ := bind_eq_ok.mp h
  rw [show loadPayload rt attempt.msg = .ok payload' from hload'] at hload
  cases hload
  obtain ⟨normalized, hnorm, h⟩ := bind_eq_ok.mp h
  obtain ⟨_, hsession, h⟩ := bind_eq_ok.mp h
  obtain ⟨event', hparse, h⟩ := bind_eq_ok.mp h
  obtain ⟨_, -, h⟩ := bind_eq_ok.mp h
  cases h
  refine ⟨normalized, hnorm, hparse, ?_⟩
  cases hfault : attempt.faults.session with
  | none => rfl
  | some exc =>
    rw [show (attempt.delivery _).faults.session = some exc from hfault] at hsession
    cases hsession

/-- A payload is counted under its version exactly if its transaction commits. -/
theorem meterPayload_books {attempt : Attempt} {readings : Readings} {payload : PyDict}
    {db : Database} (hload : loadPayload rt attempt.msg = .ok payload) (m : Instruments) :
    (meterPayload rt config attempt readings payload db m).books =
      match (InSession.process rt config attempt db).1 with
      | .ok event => (m.recordVersion attempt.msg.topic event.missingVersion).books
      | .error _ => m.books := by
  cases hprocess : (InSession.process rt config attempt db).1 with
  | ok event =>
    obtain ⟨normalized, hnorm, hparse, hsession⟩ := parse_of_process hload hprocess
    unfold meterPayload
    cases hkind : config.profile.topicKind attempt.msg.topic with
    | none =>
      rw [normalizePayloadForTopic, hkind] at hnorm
      cases hnorm
    | some kind =>
      simp only [hkind, hnorm, hsession, hparse, hprocess]
      exact books_recordVersion (meterEvent_books attempt event db _) _ _
  | error exc =>
    unfold meterPayload
    cases hkind : config.profile.topicKind attempt.msg.topic with
    | none => simp only [hkind]
    | some kind =>
      cases hnorm : normalizePayloadForTopic rt attempt.msg.topic payload config.profile with
      | error exc =>
        simp only [hkind, hnorm]
        rfl
      | ok normalized =>
        simp only [hkind, hnorm, hprocess]
        split
        · exact meterEvent_books attempt _ db _
        · rfl

theorem meterFailure_books (topic : PyStr) (exc : PyExc) {m m' : Instruments}
    (h : m.books = m'.books) : (meterFailure config topic exc m).books =
      ((m'.recordConsumerMessage topic (py "error")).recordDlq topic).books := by
  simp only [Instruments.books, Books.mk.injEq] at h
  obtain ⟨hmessages, hdlq, hmissing, hcounter, hsummaries⟩ := h
  unfold meterFailure
  dsimp only
  split_ifs <;> simp [Instruments.books, Instruments.recordConsumerMessage, Instruments.recordDlq,
    Instruments.recordContractCoreViolation, hmessages, hdlq, hmissing, hcounter, hsummaries]

/-- The version of an event whose transaction is committed is counted. -/
def Instruments.afterProcess (m : Instruments) (topic : PyStr) : Except PyExc Event → Instruments
  | .ok event => m.recordVersion topic event.missingVersion
  | .error _ => m

theorem meterTry_books (attempt : Attempt) (readings : Readings) (db : Database)
    (m : Instruments) : (meterTry rt config attempt readings db m).books =
      (m.afterProcess attempt.msg.topic (InSession.process rt config attempt db).1).books := by
  unfold meterTry
  cases hload : loadPayload rt attempt.msg with
  | ok payload =>
    simp only [meterPayload_books hload]
    cases (InSession.process rt config attempt db).1 <;> rfl
  | error exc =>
    have hprocess : (InSession.process rt config attempt db).1 = .error exc := by
      simp only [InSession.process, hload]
    rw [hprocess]
    rfl

/-- An iteration is counted once, as a success or as an error and a dead letter. -/
theorem meterMessage_books (attempt : Attempt) (readings : Readings) (db : Database)
    (m : Instruments) :
    let processed := (InSession.process rt config attempt db).1
    let versioned := m.afterProcess attempt.msg.topic processed
    (meterMessage rt config attempt readings db m).books =
      if processed.toOption.isSome ∧ attempt.faults.commitAfterApply = none then
        (versioned.recordConsumerMessage attempt.msg.topic (py "success")).books
      else
        ((versioned.recordConsumerMessage attempt.msg.topic (py "error")).recordDlq
          attempt.msg.topic).books := by
  dsimp only
  have hbooks := @meterTry_books rt config attempt readings db
    (m.recordLag (lagCall attempt.msg readings))
  unfold meterMessage
  cases hprocess : (InSession.process rt config attempt db).1 with
  | error exc =>
    rw [hprocess] at hbooks
    simp only [Except.toOption, Option.isSome_none, false_and, if_false, reduceCtorEq]
    exact meterFailure_books _ _ hbooks
  | ok event =>
    rw [hprocess] at hbooks
    cases hcommit : attempt.faults.commitAfterApply with
    | some exc =>
      simp only [and_false, if_false, reduceCtorEq]
      exact meterFailure_books _ _ hbooks
    | none =>
      simp only [Except.toOption, Option.isSome_some, and_self, if_true]
      exact books_recordConsumerMessage hbooks _ _

/-! ## The balance of a run -/

def recordedTopic? : Effect → Option PyStr
  | .recorded _ payload =>
    match payload.get (py "topic") with
    | .str topic => some topic
    | _ => none
  | _ => none

/-- The topics of the records that have been stored. -/
def recordedTopics (trace : List Effect) : List PyStr := trace.filterMap recordedTopic?

/-- The counters agree with each other, with the loop and with its effects: each
message is a success or an error; each error is a dead letter, of which at most one
record is stored; the committed transactions are counted by version; and a version
summary is logged for every hundred of them. -/
structure Balanced (s : Metered) : Prop where
  handled : ∀ topic, s.instruments.messages.count (topic, py "success") +
    s.instruments.messages.count (topic, py "error") = (s.handled.map (·.1.msg.topic)).count topic
  dead : ∀ topic, s.instruments.messages.count (topic, py "error") = s.instruments.dlq.count topic
  stored : ∀ topic, (recordedTopics s.loop.world.trace).count topic ≤ s.instruments.dlq.count topic
  processed : (s.instruments.messages.filter (·.2 = py "success")).length = s.loop.processed
  applied : s.instruments.counter.processed = (appliedCalls s.loop.world.trace).length
  missing : s.instruments.counter.missingVersion =
    (appliedCalls s.loop.world.trace).countP (·.event.missingVersion)
  missingByTopic : s.instruments.versionMissing.length = s.instruments.counter.missingVersion
  logEvery : s.instruments.counter.logEvery = 100
  summaries : s.instruments.summaries.length = s.instruments.counter.processed / 100

theorem recordedTopics_append (trace more : List Effect) :
    recordedTopics (trace ++ more) = recordedTopics trace ++ recordedTopics more :=
  List.filterMap_append

theorem appliedCalls_append (trace more : List Effect) :
    appliedCalls (trace ++ more) = appliedCalls trace ++ appliedCalls more :=
  List.filterMap_append

/-- The handler stores at most one record, of the topic of its message. -/
theorem recordedTopics_handlerEffects (delivery : Delivery) (exc : PyExc) (topic : PyStr) :
    (recordedTopics (handlerEffects rt config delivery exc)).count topic ≤
      [delivery.msg.topic].count topic := by
  unfold handlerEffects
  cases decodedKey delivery.msg with
  | error keyExc => exact Nat.zero_le _
  | ok key =>
    dsimp only
    cases storingSink rt config.dlqBackend delivery.faults.sinks
      (dlqPayload rt config delivery key exc) delivery.now with
    | none => exact Nat.zero_le _
    | some sink => exact le_of_eq rfl

theorem appliedCalls_handlerEffects (delivery : Delivery) (exc : PyExc) :
    appliedCalls (handlerEffects rt config delivery exc) = [] := by
  unfold handlerEffects
  cases decodedKey delivery.msg with
  | error keyExc => rfl
  | ok key =>
    dsimp only
    cases storingSink rt config.dlqBackend delivery.faults.sinks
      (dlqPayload rt config delivery key exc) delivery.now <;> rfl

theorem recordedTopics_applied (msg : Message) (call : Call) (succeeded : Bool) :
    recordedTopics [.applied msg call, .offsetCommit msg succeeded] = [] := rfl

/-- What the iteration of a message comes to, by the outcome of its transaction. -/
theorem consumeMessage_counts (attempt : Attempt) (w : World) :
    let processed := (InSession.process rt config attempt w.db).1
    let r := InSession.consumeMessage rt config attempt w
    (r.2.2 = true ↔ processed.toOption.isSome = true ∧ attempt.faults.commitAfterApply = none) ∧
    appliedCalls r.1.trace = appliedCalls w.trace ++
      processed.toOption.toList.map (⟨·, attempt.env⟩) ∧
    ∀ topic, (recordedTopics r.1.trace).count topic ≤ (recordedTopics w.trace).count topic +
      if r.2.2 then 0 else [attempt.msg.topic].count topic := by
  dsimp only
  have hprocess := @process_atomic rt config attempt w.db
  rw [consumeMessage_refines, consumeMessage_trace, hprocess]
  generalize hd : attempt.delivery (attempt.transactionFault rt config w.db) = delivery
  have hmsg : delivery.msg = attempt.msg := by rw [← hd]; rfl
  have henv : delivery.env = attempt.env := by rw [← hd]; rfl
  have hcommit : delivery.faults.commitAfterApply = attempt.faults.commitAfterApply := by
    rw [← hd]; rfl
  rw [← hmsg, ← henv, ← hcommit, appliedCalls_append, recordedTopics_append]
  unfold consumeMessage effects
  cases process rt config delivery with
  | error exc =>
    refine ⟨by simp [Except.toOption], ?_, fun topic => ?_⟩
    · simp [appliedCalls_handlerEffects, Except.toOption]
    · rw [List.count_append]
      exact Nat.add_le_add_left (recordedTopics_handlerEffects delivery exc topic) _
  | ok event =>
    cases delivery.faults.commitAfterApply with
    | none =>
      refine ⟨by simp [Except.toOption], rfl, fun topic => ?_⟩
      dsimp only
      simp only [List.append_nil, recordedTopics_applied]
      exact le_of_eq rfl
    | some exc =>
      refine ⟨by simp, ?_, fun topic => ?_⟩
      · rw [appliedCalls_append, appliedCalls_handlerEffects]
        rfl
      · rw [recordedTopics_append, recordedTopics_applied, List.nil_append, List.count_append]
        exact Nat.add_le_add_left (recordedTopics_handlerEffects delivery exc topic) _

theorem Balanced.start (db : Database) (dlqEvents : List ConsumerDlqEvent)
    (dlqFile : List PyStr) : Balanced (.start db dlqEvents dlqFile) where
  handled _ := rfl
  dead _ := rfl
  stored _ := Nat.le_refl 0
  processed := rfl
  applied := rfl
  missing := rfl
  missingByTopic := rfl
  logEvery := rfl
  summaries := (Nat.zero_div 100).symm

/-- The version counters after a transaction that is committed or not. -/
theorem afterProcess_counts {m : Instruments} (hevery : m.counter.logEvery = 100)
    (topic : PyStr) (processed : Except PyExc Event) :
    let after := m.afterProcess topic processed
    after.messages = m.messages ∧ after.dlq = m.dlq ∧ after.counter.logEvery = 100 ∧
    after.counter.processed = m.counter.processed + processed.toOption.toList.length ∧
    after.counter.missingVersion =
      m.counter.missingVersion + processed.toOption.toList.countP Event.missingVersion ∧
    (m.versionMissing.length = m.counter.missingVersion →
      after.versionMissing.length = after.counter.missingVersion) ∧
    (m.summaries.length = m.counter.processed / 100 →
      after.summaries.length = after.counter.processed / 100) := by
  cases processed with
  | error exc => exact ⟨rfl, rfl, hevery, rfl, rfl, id, id⟩
  | ok event =>
    refine ⟨rfl, rfl, hevery, rfl, ?_, fun hmissing => ?_, fun hsummaries => ?_⟩
    · cases hevent : event.missingVersion <;>
        simp [Instruments.afterProcess, Instruments.recordVersion, VersionMissingCounter.record,
          Except.toOption, hevent]
    · cases hevent : event.missingVersion <;>
        simp [Instruments.afterProcess, Instruments.recordVersion, VersionMissingCounter.record,
          hevent, hmissing]
    · simp only [Instruments.afterProcess, Instruments.recordVersion, VersionMissingCounter.record,
        hevery, List.length_append, hsummaries]
      by_cases hhundred : (m.counter.processed + 1) % 100 = 0
      · simp only [hhundred, beq_self_eq_true, if_true, List.length_singleton]
        omega
      · simp only [beq_iff_eq, hhundred, if_false, List.length_nil]
        omega

/-- A counter after one more of `label`. -/
theorem count_snoc {α : Type} [BEq α] [LawfulBEq α] [DecidableEq α] (labels : List α)
    (label other : α) : (labels ++ [label]).count other =
      labels.count other + if label = other then 1 else 0 := by
  rw [List.count_append, List.count_singleton]
  simp only [beq_iff_eq]

theorem Balanced.iterate {s : Metered} (h : Balanced s) (polled : Polled) :
    Balanced (s.iterate rt config polled) := by
  cases polled with
  | message attempt readings =>
    obtain ⟨hprocessed, hcalls, hrecorded⟩ := @consumeMessage_counts rt config attempt s.loop.world
    have hbooks := @meterMessage_books rt config attempt readings s.loop.world.db s.instruments
    dsimp only at hprocessed hcalls hrecorded hbooks
    generalize (InSession.process rt config attempt s.loop.world.db).1 = processed at *
    obtain ⟨hmessages, hdlq, hevery, hcount, hmissing, hbytopic, hsummaries⟩ :=
      afterProcess_counts h.logEvery attempt.msg.topic processed
    generalize s.instruments.afterProcess attempt.msg.topic processed = after at *
    have hstatus : py "success" ≠ py "error" := by decide
    -- the version counters are those after the transaction, however the offset commit ends
    have happlied : after.counter.processed = (appliedCalls
        (InSession.consumeMessage rt config attempt s.loop.world).1.trace).length := by
      rw [hcount, h.applied, hcalls, List.length_append, List.length_map]
    have hmissed : after.counter.missingVersion = (appliedCalls
        (InSession.consumeMessage rt config attempt s.loop.world).1.trace).countP
          (·.event.missingVersion) := by
      rw [hmissing, h.missing, hcalls, List.countP_append, List.countP_map]
      rfl
    by_cases hsuccess : processed.toOption.isSome = true ∧ attempt.faults.commitAfterApply = none
    · rw [if_pos hsuccess] at hbooks
      have htrue := hprocessed.mpr hsuccess
      simp only [Instruments.books, Instruments.recordConsumerMessage, Books.mk.injEq] at hbooks
      obtain ⟨hm, hd, hv, hc, hs⟩ := hbooks
      rw [hmessages] at hm
      rw [hdlq] at hd
      constructor <;> simp only [Metered.iterate, hm, hd, hv, hc, hs, htrue, if_true]
      case handled =>
        intro topic
        have hhandled := h.handled topic
        simp only [count_snoc, List.map_append, List.map_singleton, Prod.mk.injEq, hstatus]
        simp only [and_true, and_false, if_false]
        omega
      case dead =>
        intro topic
        simp only [count_snoc, Prod.mk.injEq, hstatus, and_false, if_false]
        exact h.dead topic
      case stored =>
        intro topic
        have hstored := h.stored topic
        have hrecorded := hrecorded topic
        rw [htrue] at hrecorded
        simp only [if_true] at hrecorded
        omega
      case processed =>
        have hloop := h.processed
        simp only [List.filter_append, List.length_append, List.filter_singleton]
        simp only [decide_true, cond_true, List.length_singleton]
        omega
      case applied => exact happlied
      case missing => exact hmissed
      case missingByTopic => exact hbytopic h.missingByTopic
      case logEvery => exact hevery
      case summaries => exact hsummaries h.summaries
    · rw [if_neg hsuccess] at hbooks
      have hfalse := Bool.eq_false_iff.mpr (fun htrue => hsuccess (hprocessed.mp htrue))
      simp only [Instruments.books, Instruments.recordConsumerMessage, Instruments.recordDlq,
        Books.mk.injEq] at hbooks
      obtain ⟨hm, hd, hv, hc, hs⟩ := hbooks
      rw [hmessages] at hm
      rw [hdlq] at hd
      constructor <;> simp only [Metered.iterate, hm, hd, hv, hc, hs, hfalse]
      case handled =>
        intro topic
        have hhandled := h.handled topic
        simp only [count_snoc, List.map_append, List.map_singleton, Prod.mk.injEq, hstatus.symm]
        simp only [and_true, and_false, if_false]
        omega
      case dead =>
        intro topic
        have hdead := h.dead topic
        simp only [count_snoc, Prod.mk.injEq, and_true]
        omega
      case stored =>
        intro topic
        have hstored := h.stored topic
        have hrecorded := hrecorded topic
        rw [hfalse] at hrecorded
        simp only [List.count_append, Bool.false_eq_true, if_false] at hrecorded ⊢
        omega
      case processed =>
        have hloop := h.processed
        simp only [List.filter_append, List.length_append, List.filter_singleton]
        simp only [hstatus.symm, decide_false, cond_false, List.length_nil, Bool.false_eq_true, if_false]
        omega
      case applied => exact happlied
      case missing => exact hmissed
      case missingByTopic => exact hbytopic h.missingByTopic
      case logEvery => exact hevery
      case summaries => exact hsummaries h.summaries
  | _ => exact ⟨h.handled, h.dead, h.stored, h.processed, h.applied, h.missing, h.missingByTopic,
      h.logEvery, h.summaries⟩

variable (rt config)

theorem Balanced.run (maxMessages : Option Int) (polls : List Polled) {s : Metered}
    (h : Balanced s) : Balanced (s.run rt config maxMessages polls) := by
  induction polls generalizing s with
  | nil => exact h
  | cons polled rest ih =>
    unfold Metered.run
    split_ifs
    · exact ⟨h.handled, h.dead, h.stored, h.processed, h.applied, h.missing, h.missingByTopic,
        h.logEvery, h.summaries⟩
    · exact ih (h.iterate polled)
    · exact h

/-- The poll of the plain loop. -/
def Polled.poll (w : World) : Polled → Poll
  | .nothing expired => .nothing expired
  | .partitionEof expired => .partitionEof expired
  | .brokerError exc => .brokerError exc
  | .interrupt => .interrupt
  | .message attempt _ => .message (attempt.delivery (attempt.transactionFault rt config w.db))

theorem Metered.iterate_loop (s : Metered) (polled : Polled) :
    (s.iterate rt config polled).loop =
      Consumer.iterate rt config s.loop (polled.poll rt config s.loop.world) := by
  cases polled with
  | message attempt readings =>
    simp only [Metered.iterate, Polled.poll, Consumer.iterate, consumeMessage_refines]
  | _ => rfl

/-- Counting does not disturb the loop. -/
theorem Metered.run_loop (maxMessages : Option Int) (polls : List Polled) (s : Metered) :
    ∃ plain : List Poll, plain.length = polls.length ∧
      (s.run rt config maxMessages polls).loop = runConsumer rt config maxMessages s.loop plain := by
  induction polls generalizing s with
  | nil => exact ⟨[], rfl, rfl⟩
  | cons polled rest ih =>
    obtain ⟨plain, hlength, hplain⟩ := ih (s.iterate rt config polled)
    refine ⟨polled.poll rt config s.loop.world :: plain, congrArg (· + 1) hlength, ?_⟩
    unfold Metered.run runConsumer
    split_ifs
    · rfl
    · rw [hplain, Metered.iterate_loop]
    · rfl

/-- Along every run of the consumer its counters balance, and the run is one of the
loop without them. -/
theorem counters_balance (maxMessages : Option Int) (db : Database)
    (dlqEvents : List ConsumerDlqEvent) (dlqFile : List PyStr) (polls : List Polled) :
    let metered := (Metered.start db dlqEvents dlqFile).run rt config maxMessages polls
    Balanced metered ∧ ∃ plain : List Poll, plain.length = polls.length ∧
      metered.loop =
        runConsumer rt config maxMessages (.start db dlqEvents dlqFile) plain :=
  ⟨(Balanced.start db dlqEvents dlqFile).run rt config maxMessages polls,
    Metered.run_loop rt config maxMessages polls _⟩

end TxLookup.Consumer
