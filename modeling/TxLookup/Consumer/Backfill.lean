import TxLookup.Consumer.Atomicity
import TxLookup.Library.PyFile
import TxLookup.Library.Runs

/-!
# The backfill

`run_backfill` reads JSON lines from files and takes each payload through the
steps of the consumer. The file reader stands outside the `try` block: a line it
cannot read as a JSON object ends the whole backfill, where the consumer records
the message and goes on.
-/
namespace TxLookup.Consumer

open Library Library.PyText Db Common

/-- The conversions on texts instead of bytes. -/
structure TextRuntime extends PyRuntime where
  /-- `json.loads` on a text. -/
  jsonLoadsText : PyStr → Except PyExc Json

def EventContractProfile.topicOf (profile : EventContractProfile) : TopicKind → PyStr
  | .ledger => profile.topics.ledger
  | .paymentOrder => profile.topics.paymentOrder

/-- The topic in the records of a backfill. -/
def backfillTopic : TopicKind → PyStr
  | .ledger => py "backfill-ledger"
  | .paymentOrder => py "backfill-payment-order"

/-- A line of a backfill file, with what the outside world does while it is
processed. -/
structure BackfillLine where
  text : PyStr
  env : Surroundings
  /-- Opening the session, a statement or the session commit raises. -/
  transaction : Option PyExc
  /-- What raises is the commit: the statements have gone through. -/
  atCommit : Bool
  sinks : SinkHealth
  now : DateTime
  nowIso : PyStr

/-- What `_iter_json_lines` makes of a line. -/
inductive LineRead where
  | blank
  | payload (fields : PyDict)
  | raises (exc : PyExc)

variable (rt : TextRuntime) (config : AppConfig)

def readLine (text : PyStr) : LineRead :=
  if (strip text).isEmpty then .blank
  else
    match rt.jsonLoadsText text with
    | .error exc => .raises exc
    | .ok (.obj fields) => .payload fields
    | .ok _ => .raises (.eventValidation (py "backfill payload must be a JSON object"))

/-- The time a payload is filtered by. -/
def rangeTime : Event → DateTime
  | .ledger event => event.eventTime
  | .order event => event.updatedAt.getD event.createdAt

def withinRange (since until' : Option DateTime) (value : DateTime) : Bool :=
  since.all (· ≤ value) && until'.all (value ≤ ·)

def backfillEvent (kind : TopicKind) (payload : PyDict) : Except PyExc Event := do
  let normalized ← normalizePayloadForTopic rt.toPyRuntime (config.profile.topicOf kind) payload
    config.profile
  match kind with
  | .ledger => (LedgerEntryUpserted.fromDict rt.toPyRuntime normalized.payload).map .ledger
  | .paymentOrder => (PaymentOrderUpserted.fromDict rt.toPyRuntime normalized.payload).map .order

/-- The `try` block: the event that is applied, `none` if it is out of range. -/
def tryPayload (kind : TopicKind) (since until' : Option DateTime) (payload : PyDict)
    (line : BackfillLine) : Except PyExc (Option Event) := do
  let event ← backfillEvent rt config kind payload
  if withinRange since until' (rangeTime event) then
    raiseIf line.transaction
    return some event
  else return none

/-- The record of a payload that failed. -/
def backfillPayload (kind : TopicKind) (payload : PyDict) (exc : PyExc) (nowIso : PyStr) : PyDict :=
  [(py "topic", .str (backfillTopic kind)),
    (py "payload", .obj payload),
    (py "error", .str (classifyError exc)),
    (py "error_detail", .str exc.str),
    (py "profile_id", .str config.profile.profileId),
    (py "correlation_id", optionalStr (extractCorrelationIdFromPayload rt.toPyRuntime payload)),
    (py "ingested_at", .str nowIso)]

/-- One round of the loop over the payloads. The trace of the world is about
messages: here it gets the records only. -/
def backfillLine (kind : TopicKind) (since until' : Option DateTime) (payload : PyDict)
    (line : BackfillLine) (w : World) : World :=
  match tryPayload rt config kind since until' payload line with
  | .ok none => w
  | .ok (some event) => { w with db := Call.apply w.db ⟨event, line.env⟩ }
  | .error exc =>
    writeDlqPayload rt.toPyRuntime config line.sinks
      (backfillPayload rt config kind payload exc line.nowIso) line.now w

/-- One file. What the reader raises leaves the loop, and the backfill. -/
def backfillFile (kind : TopicKind) (since until' : Option DateTime) :
    List BackfillLine → World → World × Outcome
  | [], w => (w, .running)
  | line :: lines, w =>
    match readLine rt line.text with
    | .blank => backfillFile kind since until' lines w
    | .raises exc => (w, .raised exc)
    | .payload fields =>
      backfillFile kind since until' lines
        (backfillLine rt config kind since until' fields line w)

def runBackfill (ledgerFile paymentOrderFile : Option (List BackfillLine))
    (since until' : Option DateTime) (w : World) : World × Outcome :=
  let ledger := match ledgerFile with
    | some lines => backfillFile rt config .ledger since until' lines w
    | none => (w, .running)
  match ledger.2, paymentOrderFile with
  | .running, some lines => backfillFile rt config .paymentOrder since until' lines ledger.1
  | _, _ => ledger

variable {rt config}

theorem topicKind_topicOf (profile : EventContractProfile) (kind : TopicKind) :
    profile.topicKind (profile.topicOf kind) = some kind := by
  cases kind with
  | ledger => exact if_pos rfl
  | paymentOrder =>
    show (if profile.topics.paymentOrder = profile.topics.ledger then _ else _) = _
    rw [if_neg profile.distinct.symm]
    exact if_pos rfl

theorem normalize_topicKind {rt : PyRuntime} {profile : EventContractProfile} {kind : TopicKind}
    {payload : PyDict} {normalized : NormalizedPayload}
    (h : normalizePayloadForTopic rt (profile.topicOf kind) payload profile = .ok normalized) :
    normalized.topicKind = kind := by
  rw [normalizePayloadForTopic, topicKind_topicOf] at h
  obtain ⟨_, -, h⟩ := bind_eq_ok.mp h
  obtain ⟨_, -, h⟩ := bind_eq_ok.mp h
  cases h
  rfl

/-- A payload comes to the same event by either path. -/
theorem backfillEvent_eq (kind : TopicKind) (payload : PyDict) :
    backfillEvent rt config kind payload =
      normalizePayloadForTopic rt.toPyRuntime (config.profile.topicOf kind) payload
        config.profile >>= parseEvent rt.toPyRuntime := by
  unfold backfillEvent
  cases hnorm : normalizePayloadForTopic rt.toPyRuntime (config.profile.topicOf kind) payload
      config.profile with
  | error exc => rfl
  | ok normalized =>
    have hkind := normalize_topicKind hnorm
    unfold parseEvent
    rw [ok_bind, ok_bind]
    cases kind with
    | ledger => simp only [hkind]
    | paymentOrder => simp only [hkind]

/-! ## The same lines as a file and as messages -/

/-- A text line of a UTF-8 file, with what the outside world answers while it is
processed. -/
structure TextLine where
  text : PyStr
  oneLine : oneLine text = true
  utf8 : encodable text = true
  env : Surroundings
  /-- What a statement raises that a column refuses a value of. -/
  refused : PyExc
  now : DateTime
  nowIso : PyStr

/-- Healthy tables raise for exactly the events that a column refuses a value of. -/
def refusal (refused : PyExc) : Except PyExc Event → Option PyExc
  | .ok event => if event.accepted = true then none else some refused
  | .error _ => none

variable (rt config)

/-- The line as the reader of a file that holds it gets it; tables and sinks are healthy. -/
def TextLine.inFile (kind : TopicKind) (line : TextLine) : BackfillLine where
  text := line.text ++ py "\n"
  env := line.env
  transaction := match readLine rt (line.text ++ py "\n") with
    | .payload fields => refusal line.refused (backfillEvent rt config kind fields)
    | _ => none
  atCommit := false
  sinks := ⟨true, true⟩
  now := line.now
  nowIso := line.nowIso

/-- What the reader of a file gets that is written with the lines. -/
def fileLines (kind : TopicKind) (lines : List TextLine) : List BackfillLine :=
  (textLines (lines.flatMap fun line => line.text ++ py "\n")).zipWith
    (fun text line => { line.inFile rt config kind with text }) lines

def TextLine.message (profile : EventContractProfile) (kind : TopicKind) (offset : Nat)
    (line : TextLine) : Message :=
  ⟨profile.topicOf kind, 0, offset, none, some (encode line.text), none⟩

/-- The event the consumer makes of the line. -/
def lineEvent (kind : TopicKind) (line : TextLine) : Except PyExc Event :=
  eventOf rt.toPyRuntime config.profile (line.message config.profile kind 0)

/-- The line as a message on the topic of the kind; tables and sinks are healthy. -/
def TextLine.asMessage (kind : TopicKind) (offset : Nat) (line : TextLine) : Delivery where
  msg := line.message config.profile kind offset
  env := line.env
  faults := { Faults.none with transaction := refusal line.refused (lineEvent rt config kind line) }
  now := line.now
  nowIso := line.nowIso

/-- The messages of the lines, in order. -/
def messagesFrom (kind : TopicKind) : Nat → List TextLine → List Poll
  | _, [] => []
  | offset, line :: lines =>
    .message (line.asMessage rt config kind offset) :: messagesFrom kind (offset + 1) lines

/-- `run_consumer` on the lines, as messages. -/
def consumeLines (kind : TopicKind) (w : World) (lines : List TextLine) : World :=
  (runConsumer rt.toPyRuntime config none ⟨w, 0, .running⟩
    (messagesFrom rt config kind 0 lines)).world

/-- `run_backfill` on a file of the lines, without `since` and `until`. -/
def backfillLines (kind : TopicKind) (w : World) (lines : List TextLine) : World :=
  let file := some (fileLines rt config kind lines)
  match kind with
  | .ledger => (runBackfill rt config file none none none w).1
  | .paymentOrder => (runBackfill rt config none file none none w).1

/-- The event is applied, or refused by the tables. -/
def applyOr (refused : PyExc) (event : Event) : Except PyExc Event :=
  if event.accepted = true then .ok event else .error refused

/-- What the line comes to in the consumer: the event that is applied, or the exception. -/
def lineOutcome (kind : TopicKind) (line : TextLine) : Except PyExc Event :=
  lineEvent rt config kind line >>= applyOr line.refused

/-- The consumer dead-letters the line. -/
def ConsumerRecords (kind : TopicKind) (line : TextLine) : Prop :=
  ∃ exc, lineOutcome rt config kind line = .error exc ∧
    (TableTakes rt.toPyRuntime config (line.asMessage rt config kind 0) none ∨
      FileTakes rt.toPyRuntime config (line.asMessage rt config kind 0) none exc)

/-- The backfill dead-letters the line, if it gets to it. -/
def BackfillRecords (kind : TopicKind) (line : TextLine) : Prop :=
  ∃ fields exc, readLine rt (line.text ++ py "\n") = .payload fields ∧
    backfillEvent rt config kind fields >>= applyOr line.refused = .error exc ∧
    (storingSink rt.toPyRuntime config.dlqBackend ⟨true, true⟩
      (backfillPayload rt config kind fields exc line.nowIso) line.now).isSome = true

/-- A valid JSON text is not blank, and its UTF-8 bytes are read as the same value
without the newline of the file. -/
def BytesAgree (line : TextLine) : Prop :=
  ∀ value, rt.jsonLoadsText (line.text ++ py "\n") = .ok value →
    rt.jsonLoads (encode line.text) = .ok value

variable {rt config} {kind : TopicKind}

/-- A file written with the lines is read back line by line. -/
theorem fileLines_eq (lines : List TextLine) :
    fileLines rt config kind lines = lines.map (TextLine.inFile rt config kind) := by
  have hwritten := textLines_written (lines.map TextLine.text) (by
    rw [List.forall_mem_map]
    exact fun line _ => line.oneLine)
  rw [List.flatMap_map, List.map_map] at hwritten
  rw [fileLines, hwritten, List.zipWith_map_left, List.zipWith_self]
  rfl

/-! ### One line -/

/-- The tables after a line that comes to this. -/
def applyEvent (db : Database) (env : Surroundings) : Except PyExc Event → Database
  | .ok event => Call.apply db ⟨event, env⟩
  | .error _ => db

theorem raise_refusal (refused : PyExc) (event : Event) :
    (raiseIf (refusal refused (.ok event)) >>= fun _ => .ok event) = applyOr refused event := by
  rw [refusal, applyOr]
  split <;> rfl

theorem process_line (line : TextLine) (offset : Nat) :
    process rt.toPyRuntime config (line.asMessage rt config kind offset) =
      lineOutcome rt config kind line := by
  have hprocess : process rt.toPyRuntime config (line.asMessage rt config kind offset) =
      lineEvent rt config kind line >>= fun event =>
        raiseIf (refusal line.refused (lineEvent rt config kind line)) >>= fun _ => .ok event := by
    simp only [lineEvent, eventOf, bind_assoc]
    rfl
  rw [hprocess, lineOutcome]
  cases lineEvent rt config kind line with
  | error exc => rfl
  | ok event => exact raise_refusal line.refused event

/-- The events of both paths are the same. -/
theorem lineEvent_eq {line : TextLine} (hne : line.text ≠ []) (hbytes : BytesAgree rt line)
    {fields : PyDict} (hread : readLine rt (line.text ++ py "\n") = .payload fields) :
    lineEvent rt config kind line = backfillEvent rt config kind fields := by
  have hloads : rt.jsonLoadsText (line.text ++ py "\n") = .ok (.obj fields) := by
    unfold readLine at hread
    split at hread
    · cases hread
    · split at hread
      · cases hread
      · next fields' h =>
        cases hread
        exact h
      · cases hread
  have hpayload : loadPayload rt.toPyRuntime (line.message config.profile kind 0) =
      .ok fields := by
    obtain ⟨b, bs, hvalue⟩ := List.exists_cons_of_ne_nil (encode_ne_nil hne)
    have hmsg : (line.message config.profile kind 0).value = some (b :: bs) :=
      congrArg some hvalue
    have hjson := hbytes _ hloads
    rw [hvalue] at hjson
    simp only [loadPayload, hmsg, hjson]
  rw [lineEvent, eventOf, hpayload, ok_bind, backfillEvent_eq]
  rfl

theorem consume_line_ok {line : TextLine} {event : Event}
    (hevent : lineOutcome rt config kind line = .ok event) (offset : Nat) (w : World) :
    let r := consumeMessage rt.toPyRuntime config (line.asMessage rt config kind offset) w
    r.2.1 = .running ∧ r.1.db = Call.apply w.db ⟨event, line.env⟩ ∧ ¬ Recorded w r.1 := by
  intro r
  have hp := @process_line rt config kind line offset
  rw [hevent] at hp
  have hr : r = (afterTry rt.toPyRuntime config
      (line.asMessage rt config kind offset) w, .running, true) :=
    consumeMessage_of_success (by rw [failure, hp]; rfl) w
  refine ⟨by rw [hr], consumeMessage_db hp w, ?_⟩
  rw [hr]
  unfold afterTry
  rw [hp]
  rintro (h | h) <;> exact h rfl

theorem consume_line_error {line : TextLine} {exc : PyExc}
    (hevent : lineOutcome rt config kind line = .error exc) (offset : Nat) (w : World) :
    let delivery := line.asMessage rt config kind offset
    let r := consumeMessage rt.toPyRuntime config delivery w
    r.2.1 = .running ∧ r.1.db = w.db ∧
      (Recorded w r.1 ↔ TableTakes rt.toPyRuntime config delivery none ∨
        FileTakes rt.toPyRuntime config delivery none exc) := by
  intro delivery r
  have hp := @process_line rt config kind line offset
  rw [hevent] at hp
  have hkey : decodedKey delivery.msg = .ok none := rfl
  have hhandled : handleError rt.toPyRuntime config delivery exc w =
      ((writeDlqPayload rt.toPyRuntime config delivery.faults.sinks
        (dlqPayload rt.toPyRuntime config delivery none exc) delivery.now w).commitOffset
          delivery.msg none, .running) := by
    unfold handleError
    rw [hkey]
    rfl
  have hr : r = ((handleError rt.toPyRuntime config delivery exc w).1,
      (handleError rt.toPyRuntime config delivery exc w).2, false) := by
    have htry : afterTry rt.toPyRuntime config delivery w = w := by
      rw [afterTry, hp]
    have hfailure : failure rt.toPyRuntime config delivery = some exc := by
      rw [failure, hp]
    have hfailed := consumeMessage_of_failure hfailure w
    rw [htry] at hfailed
    exact hfailed
  have hwritten := @recorded_writeDlqPayload rt.toPyRuntime config delivery.faults.sinks
    (dlqPayload rt.toPyRuntime config delivery none exc) delivery.now w
  rw [hr]
  refine ⟨by rw [hhandled], handleError_db _ exc w, ?_⟩
  rw [hhandled]
  exact hwritten.trans (storingSink_isSome delivery none exc)

/-- The consumer applies the line, or records it if a sink takes the record, and
goes on either way. -/
theorem consume_line (line : TextLine) (offset : Nat) (w : World) :
    let r := consumeMessage rt.toPyRuntime config (line.asMessage rt config kind offset) w
    r.2.1 = .running ∧
      r.1.db = applyEvent w.db line.env (lineOutcome rt config kind line) ∧
      (Recorded w r.1 ↔ ConsumerRecords rt config kind line) := by
  intro r
  cases hevent : lineOutcome rt config kind line with
  | ok event =>
    obtain ⟨hrunning, hdb, hnot⟩ := consume_line_ok hevent offset w
    refine ⟨hrunning, hdb, fun h => absurd h hnot, ?_⟩
    rintro ⟨exc, hexc, -⟩
    cases hevent.symm.trans hexc
  | error exc =>
    obtain ⟨hrunning, hdb, hrecorded⟩ := consume_line_error hevent offset w
    refine ⟨hrunning, hdb, hrecorded.trans ⟨fun h => ⟨exc, hevent, h⟩, ?_⟩⟩
    rintro ⟨exc', hexc, h⟩
    obtain rfl := Except.error.inj (hevent.symm.trans hexc)
    exact h

/-- The backfill applies a payload, or records it if a sink takes the record. -/
theorem backfill_line {line : TextLine} {fields : PyDict}
    (hread : readLine rt (line.text ++ py "\n") = .payload fields) (w : World) :
    let w' := backfillLine rt config kind none none fields (line.inFile rt config kind) w
    w'.db = applyEvent w.db line.env
        (backfillEvent rt config kind fields >>= applyOr line.refused) ∧
      (Recorded w w' ↔ BackfillRecords rt config kind line) := by
  have htransaction : (line.inFile rt config kind).transaction =
      refusal line.refused (backfillEvent rt config kind fields) := by
    rw [TextLine.inFile, hread]
  have htry : tryPayload rt config kind none none fields (line.inFile rt config kind) =
      (backfillEvent rt config kind fields >>= applyOr line.refused).map some := by
    rw [tryPayload, htransaction]
    cases backfillEvent rt config kind fields with
    | error exc => rfl
    | ok event =>
      rw [ok_bind, ok_bind, ← raise_refusal]
      cases refusal line.refused (.ok event) <;> rfl
  unfold backfillLine
  rw [htry]
  cases hevent : backfillEvent rt config kind fields >>= applyOr line.refused with
  | ok event =>
    refine ⟨rfl, fun h => ?_, ?_⟩
    · rcases h with h | h <;> exact absurd rfl h
    · rintro ⟨fields', exc, hread', hexc, -⟩
      cases hread.symm.trans hread'
      cases hevent.symm.trans hexc
  | error exc =>
    refine ⟨writeDlqPayload_db _ _ _ w, ?_⟩
    refine (recorded_writeDlqPayload _ _ _ w).trans ⟨fun h => ⟨fields, exc, hread, hevent, h⟩, ?_⟩
    rintro ⟨fields', exc', hread', hexc, h⟩
    cases hread.symm.trans hread'
    cases hevent.symm.trans hexc
    exact h

/-! ### All lines -/

theorem runConsumer_append {rt : PyRuntime} (maxMessages : Option Int) (polls more : List Poll)
    (st : LoopState) : runConsumer rt config maxMessages st (polls ++ more) =
      runConsumer rt config maxMessages (runConsumer rt config maxMessages st polls) more := by
  have hstopped : ∀ st : LoopState, st.outcome ≠ .running →
      runConsumer rt config maxMessages st more = st := by
    intro st h
    cases more with
    | nil => rfl
    | cons poll polls => rw [runConsumer, if_neg h]
  induction polls generalizing st with
  | nil => rfl
  | cons poll polls ih =>
    rw [List.cons_append, runConsumer, runConsumer]
    split
    · split
      · exact (hstopped _ (fun h => by cases h)).symm
      · exact ih _
    · next h => exact (hstopped st h).symm

theorem messagesFrom_append (pre post : List TextLine) (offset : Nat) :
    messagesFrom rt config kind offset (pre ++ post) =
      messagesFrom rt config kind offset pre ++
        messagesFrom rt config kind (offset + pre.length) post := by
  induction pre generalizing offset with
  | nil => rfl
  | cons line pre ih =>
    rw [List.cons_append, messagesFrom, messagesFrom, ih, List.cons_append, List.length_cons,
      Nat.add_right_comm, Nat.add_assoc offset pre.length 1]

/-- The consumer never leaves its loop on these messages. -/
theorem consumeLines_running (offset : Nat) (lines : List TextLine) (st : LoopState)
    (h : st.outcome = .running) : (runConsumer rt.toPyRuntime config none st
      (messagesFrom rt config kind offset lines)).outcome = .running := by
  induction lines generalizing offset st with
  | nil => exact h
  | cons line lines ih =>
    rw [messagesFrom, runConsumer, if_pos h, if_neg (by simp)]
    exact ih _ _ (consume_line line offset st.world).1

theorem consumeLines_concat (w : World) (pre : List TextLine) (line : TextLine) :
    consumeLines rt config kind w (pre ++ [line]) = (consumeMessage rt.toPyRuntime config
      (line.asMessage rt config kind pre.length) (consumeLines rt config kind w pre)).1 := by
  have hrunning := @consumeLines_running rt config kind 0 pre ⟨w, 0, .running⟩ rfl
  rw [consumeLines, messagesFrom_append, runConsumer_append, Nat.zero_add]
  show (runConsumer _ _ _ _ [_]).world = _
  rw [runConsumer, if_pos hrunning, if_neg (by simp)]
  rfl

variable (rt config kind) in
/-- The calls the consumer makes for the lines. -/
def lineCalls (lines : List TextLine) : List Call :=
  lines.filterMap fun line =>
    match lineOutcome rt config kind line with
    | .ok event => some ⟨event, line.env⟩
    | .error _ => none

theorem runFrom_lineCalls_concat (db : Database) (pre : List TextLine) (line : TextLine) :
    runFrom db (lineCalls rt config kind (pre ++ [line])) =
      applyEvent (runFrom db (lineCalls rt config kind pre)) line.env
        (lineOutcome rt config kind line) := by
  rw [lineCalls, lineCalls, List.filterMap_append]
  unfold runFrom
  rw [List.foldl_append]
  cases hevent : lineOutcome rt config kind line with
  | ok event =>
    simp only [List.filterMap_cons, hevent, List.filterMap_nil, List.foldl_cons, List.foldl_nil]
    rfl
  | error exc =>
    simp only [List.filterMap_cons, hevent, List.filterMap_nil, List.foldl_nil]
    rfl

theorem consumeLines_db (w : World) (lines : List TextLine) :
    (consumeLines rt config kind w lines).db = runFrom w.db (lineCalls rt config kind lines) := by
  induction lines using List.reverseRecOn with
  | nil => rfl
  | append_singleton pre line ih =>
    have hline := (@consume_line rt config kind line pre.length
      (consumeLines rt config kind w pre)).2.1
    rw [consumeLines_concat, hline, ih, runFrom_lineCalls_concat]

variable (rt) in
/-- The backfill reads the line as an object. -/
def readable (line : TextLine) : Bool :=
  match readLine rt (line.text ++ py "\n") with
  | .payload _ => true
  | _ => false

theorem readable_iff {line : TextLine} : readable rt line = true ↔
    ∃ fields, readLine rt (line.text ++ py "\n") = .payload fields := by
  unfold readable
  split
  · next fields h => exact ⟨fun _ => ⟨fields, h⟩, fun _ => rfl⟩
  · next hno =>
    refine ⟨(fun h => by cases h), ?_⟩
    rintro ⟨fields, h⟩
    exact absurd h (hno fields)

/-- A line that is not blank and not read as an object ends the backfill. -/
theorem readLine_raises {line : TextLine} (hblank : strip line.text ≠ [])
    (h : readable rt line = false) :
    ∃ exc, readLine rt (line.text ++ py "\n") = .raises exc := by
  have hne : strip (line.text ++ py "\n") ≠ [] := by
    rw [Ne, strip_eq_nil_iff] at hblank ⊢
    exact fun hall => hblank fun c hc => hall c (List.mem_append_left _ hc)
  cases hread : readLine rt (line.text ++ py "\n") with
  | blank =>
    unfold readLine at hread
    rw [if_neg (by rw [List.isEmpty_iff]; exact hne)] at hread
    split at hread <;> cases hread
  | payload fields =>
    rw [readable_iff.mpr ⟨fields, hread⟩] at h
    cases h
  | raises exc => exact ⟨exc, rfl⟩

theorem backfillFile_append (since until' : Option DateTime) (lines more : List BackfillLine)
    (w : World) : backfillFile rt config kind since until' (lines ++ more) w =
      let r := backfillFile rt config kind since until' lines w
      if r.2 = .running then backfillFile rt config kind since until' more r.1 else r := by
  induction lines generalizing w with
  | nil => rfl
  | cons line lines ih =>
    rw [List.cons_append, backfillFile, backfillFile]
    split
    · exact ih w
    · rfl
    · exact ih _

theorem backfillLines_eq (w : World) (lines : List TextLine) :
    backfillLines rt config kind w lines =
      (backfillFile rt config kind none none (lines.map (TextLine.inFile rt config kind)) w).1 := by
  rw [← fileLines_eq]
  cases kind with
  | ledger =>
    simp only [backfillLines, runBackfill]
    split
    · next h => cases h
    · rfl
  | paymentOrder => rfl

/-- The backfill comes to the end of the lines if all of them are read as objects. -/
theorem backfillFile_running_iff {lines : List TextLine}
    (hblank : ∀ line ∈ lines, strip line.text ≠ []) (w : World) :
    (backfillFile rt config kind none none (lines.map (TextLine.inFile rt config kind)) w).2 = .running ↔
      ∀ line ∈ lines, readable rt line = true := by
  induction lines generalizing w with
  | nil => exact ⟨(fun _ line h => by cases h), fun _ => rfl⟩
  | cons line lines ih =>
    have hrest := fun w => ih (fun l hl => hblank l (List.mem_cons_of_mem _ hl)) w
    have htext : (line.inFile rt config kind).text = line.text ++ py "\n" := rfl
    rw [List.map_cons, backfillFile, htext, List.forall_mem_cons]
    cases hread : readable rt line with
    | true =>
      obtain ⟨fields, hfields⟩ := readable_iff.mp hread
      rw [hfields]
      exact (hrest _).trans ⟨fun h => ⟨rfl, h⟩, fun h => h.2⟩
    | false =>
      obtain ⟨exc, hexc⟩ := readLine_raises (hblank line List.mem_cons_self) hread
      rw [hexc]
      refine ⟨(fun h => by cases h), ?_⟩
      rintro ⟨h, -⟩
      cases h

/-- A line adds to the backfill if it and all before it are read as objects. -/
theorem backfillLines_concat {pre : List TextLine} {line : TextLine}
    (hblank : ∀ l ∈ pre ++ [line], strip l.text ≠ []) (w : World) :
    ((∀ l ∈ pre ++ [line], readable rt l = true) → ∃ fields,
      readLine rt (line.text ++ py "\n") = .payload fields ∧
        backfillLines rt config kind w (pre ++ [line]) =
          backfillLine rt config kind none none fields (line.inFile rt config kind)
            (backfillLines rt config kind w pre)) ∧
    ((¬ ∀ l ∈ pre ++ [line], readable rt l = true) →
      backfillLines rt config kind w (pre ++ [line]) = backfillLines rt config kind w pre) := by
  have htext : (line.inFile rt config kind).text = line.text ++ py "\n" := rfl
  have hrunning := @backfillFile_running_iff rt config kind pre
    (fun l hl => hblank l (List.mem_append_left _ hl)) w
  rw [backfillLines_eq, backfillLines_eq, List.map_append, backfillFile_append, List.map_singleton]
  generalize hend : backfillFile rt config kind none none (pre.map (TextLine.inFile rt config kind)) w = r
    at hrunning
  obtain ⟨w', outcome⟩ := r
  constructor
  · intro hall
    have hout : outcome = .running :=
      hrunning.mpr fun l hl => hall l (List.mem_append_left _ hl)
    obtain ⟨fields, hfields⟩ := readable_iff.mp
      (hall line (List.mem_append_right _ (List.mem_singleton_self line)))
    refine ⟨fields, hfields, ?_⟩
    simp only [hout, backfillFile, htext, hfields, if_true]
  · intro hnot
    cases outcome with
    | stopped => rfl
    | raised exc => rfl
    | running =>
      have hline : readable rt line = false := by
        rw [← Bool.not_eq_true]
        intro hread
        refine hnot ?_
        rw [List.forall_mem_append, List.forall_mem_singleton]
        exact ⟨hrunning.mp rfl, hread⟩
      obtain ⟨exc, hexc⟩ := readLine_raises
        (hblank line (List.mem_append_right _ (List.mem_singleton_self line))) hline
      simp only [backfillFile, htext, hexc, if_true]

/-- The tables of the backfill are those of the lines before the first one that is
not read as an object. -/
theorem backfillLines_db {lines : List TextLine} (hblank : ∀ l ∈ lines, strip l.text ≠ [])
    (hbytes : ∀ l ∈ lines, BytesAgree rt l) (w : World) :
    (backfillLines rt config kind w lines).db =
      runFrom w.db (lineCalls rt config kind (lines.takeWhile (readable rt))) := by
  induction lines using List.reverseRecOn with
  | nil =>
    rw [backfillLines_eq]
    rfl
  | append_singleton pre line ih =>
    have ih := ih (fun l hl => hblank l (List.mem_append_left _ hl))
      (fun l hl => hbytes l (List.mem_append_left _ hl))
    obtain ⟨hadds, hstays⟩ := @backfillLines_concat rt config kind pre line hblank w
    by_cases hall : ∀ l ∈ pre ++ [line], readable rt l = true
    · obtain ⟨fields, hread, hlines⟩ := hadds hall
      have hpre : ∀ l ∈ pre, readable rt l = true := fun l hl => hall l (List.mem_append_left _ hl)
      have hmem := List.mem_append_right pre (List.mem_singleton_self line)
      have hne : line.text ≠ [] := fun h => hblank line hmem (by rw [h]; rfl)
      have hevent := @lineEvent_eq rt config kind line hne (hbytes line hmem) fields hread
      rw [List.takeWhile_eq_self_iff.mpr hpre] at ih
      rw [List.takeWhile_eq_self_iff.mpr hall, hlines, (backfill_line hread _).1, ih,
        runFrom_lineCalls_concat, lineOutcome, hevent]
    · have hshorter : (pre ++ [line]).takeWhile (readable rt) = pre.takeWhile (readable rt) := by
        rw [List.takeWhile_append]
        split
        · next hlength =>
          have hself := List.takeWhile_eq_self_iff.mp
            ((List.takeWhile_sublist (readable rt)).eq_of_length hlength)
          have hline : readable rt line = false := by
            rw [← Bool.not_eq_true]
            intro hread
            refine hall ?_
            rw [List.forall_mem_append, List.forall_mem_singleton]
            exact ⟨hself, hread⟩
          rw [List.takeWhile_cons_of_neg (by rw [hline]; exact Bool.false_ne_true),
            List.append_nil, List.takeWhile_eq_self_iff.mpr hself]
        · rfl
      rw [hstays hall, ih, hshorter]

theorem consumed_line_recorded (w : World) (pre : List TextLine) (line : TextLine) :
    Recorded (consumeLines rt config kind w pre) (consumeLines rt config kind w (pre ++ [line])) ↔
      ConsumerRecords rt config kind line := by
  rw [consumeLines_concat]
  exact (consume_line line pre.length _).2.2

theorem backfilled_line_recorded {pre : List TextLine} {line : TextLine}
    (hblank : ∀ l ∈ pre ++ [line], strip l.text ≠ []) (w : World) :
    ((∀ l ∈ pre ++ [line], readable rt l = true) →
      (Recorded (backfillLines rt config kind w pre)
        (backfillLines rt config kind w (pre ++ [line])) ↔ BackfillRecords rt config kind line)) ∧
    ((¬ ∀ l ∈ pre ++ [line], readable rt l = true) →
      ¬ Recorded (backfillLines rt config kind w pre)
        (backfillLines rt config kind w (pre ++ [line]))) := by
  obtain ⟨hadds, hstays⟩ := @backfillLines_concat rt config kind pre line hblank w
  constructor
  · intro hall
    obtain ⟨fields, hread, hline⟩ := hadds hall
    rw [hline]
    exact (backfill_line hread _).2
  · intro hnot
    rw [hstays hnot]
    rintro (h | h) <;> exact h rfl

/-- The tables hold the same rows, up to the stamps of the processing time. -/
structure SameRows (db db' : Database) : Prop where
  ledgerEntries : KeyedTable.Agree (fun e : LedgerEntry => { e with ingestedAt := 0 })
    db.ledgerEntries db'.ledgerEntries
  paymentOrders : KeyedTable.Agree (fun o : PaymentOrder => { o with ingestedAt := 0 })
    db.paymentOrders db'.paymentOrders
  paymentLedgerPairs : KeyedTable.Agree
    (fun p : PaymentLedgerPair => { p with updatedAt := 0, ingestedAt := 0 })
    db.paymentLedgerPairs db'.paymentLedgerPairs

variable (rt config kind) in
/-- Backfill and consumer leave the same rows and dead-letter the same lines. -/
structure SamePipeline (w : World) (lines : List TextLine) : Prop where
  rows : SameRows (consumeLines rt config kind w lines).db (backfillLines rt config kind w lines).db
  deadLetters : ∀ pre line post, lines = pre ++ line :: post →
    (Recorded (backfillLines rt config kind w pre)
        (backfillLines rt config kind w (pre ++ [line])) ↔
      Recorded (consumeLines rt config kind w pre)
        (consumeLines rt config kind w (pre ++ [line])))

/-- For lines that are not blank, backfill and consumer come to the same exactly
if their records of the lines before the first one that is not read as an object
are stored alike, the consumer records none of the later lines, and the calls it
makes for these leave the rows alone. -/
theorem backfill_same_as_consumer_iff (kind : TopicKind) (w : World) (lines : List TextLine)
    (hblank : ∀ line ∈ lines, strip line.text ≠ []) (hbytes : ∀ line ∈ lines, BytesAgree rt line) :
    SamePipeline rt config kind w lines ↔
      (∀ line ∈ lines.takeWhile (readable rt),
        BackfillRecords rt config kind line ↔ ConsumerRecords rt config kind line) ∧
      (∀ line ∈ lines.dropWhile (readable rt), ¬ ConsumerRecords rt config kind line) ∧
      SameRows
        (runFrom (runFrom w.db (lineCalls rt config kind (lines.takeWhile (readable rt))))
          (lineCalls rt config kind (lines.dropWhile (readable rt))))
        (runFrom w.db (lineCalls rt config kind (lines.takeWhile (readable rt)))) := by
  have hrows : runFrom w.db (lineCalls rt config kind lines) =
      runFrom (runFrom w.db (lineCalls rt config kind (lines.takeWhile (readable rt))))
        (lineCalls rt config kind (lines.dropWhile (readable rt))) := by
    unfold runFrom
    rw [← List.foldl_append, lineCalls, lineCalls, lineCalls, ← List.filterMap_append,
      List.takeWhile_append_dropWhile]
  have hbackfilled := fun pre line post (hsplit : lines = pre ++ line :: post) =>
    @backfilled_line_recorded rt config kind pre line (fun l hl => hblank l (by
      rw [hsplit, List.append_cons]
      exact List.mem_append_left _ hl)) w
  have hsplits := Runs.forall_splits_iff (readable rt)
    (fun line => BackfillRecords rt config kind line ↔ ConsumerRecords rt config kind line)
    (fun line => ¬ ConsumerRecords rt config kind line) lines
  rw [← and_assoc, ← hsplits, ← hrows, ← consumeLines_db, ← backfillLines_db hblank hbytes]
  constructor
  · intro h
    refine ⟨fun pre line post hsplit => ?_, h.rows⟩
    obtain ⟨hreached, hmissed⟩ := hbackfilled pre line post hsplit
    have hrecorded := h.deadLetters pre line post hsplit
    rw [consumed_line_recorded] at hrecorded
    refine ⟨fun hall => ?_, fun hnot hline => ?_⟩
    · rwa [hreached hall] at hrecorded
    · exact hmissed hnot (hrecorded.mpr hline)
  · rintro ⟨hlines, hsame⟩
    refine ⟨hsame, fun pre line post hsplit => ?_⟩
    obtain ⟨hreached, hmissed⟩ := hbackfilled pre line post hsplit
    obtain ⟨hbefore, hafter⟩ := hlines pre line post hsplit
    rw [consumed_line_recorded]
    by_cases hall : ∀ l ∈ pre ++ [line], readable rt l = true
    · rw [hreached hall]
      exact hbefore hall
    · exact iff_of_false (hmissed hall) (hafter hall)

/-- A payment order as a line of text. -/
def orderText : PyStr :=
  py "\x7b\"order_id\": \"po-1\", \"amount\": 10, \"status\": \"PAID\", " ++
    py "\"created_at\": \"2026-01-01T00:00:00Z\"\x7d"

/-- The conversions on the sample messages, and on texts with the same contents. -/
def sampleTextRuntime : TextRuntime where
  toPyRuntime := sampleRuntime
  jsonLoadsText s := sampleRuntime.jsonLoads (encode (strip s))

def sampleLine (text : PyStr) (hone : oneLine text = true) (hutf8 : encodable text = true) :
    TextLine :=
  ⟨text, hone, hutf8, .still 1767225600000000, .other (py "DataError"), 1767225600000000,
    py "2026-01-01T00:00:00+00:00"⟩

def orderLine : TextLine := sampleLine orderText (by decide) (by decide)

def emptyObjectLine : TextLine := sampleLine (py "\x7b\x7d") (by decide) (by decide)

def brokenLine : TextLine := sampleLine (py "x") (by decide) (by decide)

theorem bytesAgree_of_strip {line : TextLine} (h : strip (line.text ++ py "\n") = line.text) :
    BytesAgree sampleTextRuntime line := by
  intro value hloads
  rw [← hloads]
  show _ = sampleRuntime.jsonLoads (encode (strip (line.text ++ py "\n")))
  rw [h]
  rfl

/-- An order that is applied, and an object that misses the fields of an order. -/
theorem orderLine_same_as_consumer :
    SamePipeline sampleTextRuntime sampleConfig .paymentOrder emptyWorld
      [orderLine, emptyObjectLine] := by
  have htake : [orderLine, emptyObjectLine].takeWhile (readable sampleTextRuntime) =
      [orderLine, emptyObjectLine] := rfl
  have hdrop : [orderLine, emptyObjectLine].dropWhile (readable sampleTextRuntime) = [] := rfl
  refine (backfill_same_as_consumer_iff .paymentOrder emptyWorld _ ?_ ?_).mpr ?_
  · decide
  · rw [List.forall_mem_cons, List.forall_mem_singleton]
    exact ⟨bytesAgree_of_strip (by decide), bytesAgree_of_strip (by decide)⟩
  · rw [htake, hdrop, List.forall_mem_cons, List.forall_mem_singleton]
    refine ⟨⟨?_, ?_⟩, (fun line h => by cases h), ⟨fun _ => rfl, fun _ => rfl, fun _ => rfl⟩⟩
    · constructor
      · rintro ⟨fields, exc, hread, hexc, -⟩
        cases hread
        cases hexc
      · rintro ⟨exc, hexc, -⟩
        cases hexc
    · exact ⟨fun _ => ⟨_, rfl, .inl ⟨rfl, rfl, by decide⟩⟩, fun _ => ⟨_, _, rfl, rfl, rfl⟩⟩

/-- The first line is no JSON, the second one an order. -/
theorem line_before_order_ends_backfill :
    let lines := [brokenLine, orderLine]
    (∀ line ∈ lines, strip line.text ≠ []) ∧
      (∀ line ∈ lines, BytesAgree sampleTextRuntime line) ∧
      ¬ SamePipeline sampleTextRuntime sampleConfig .paymentOrder emptyWorld lines := by
  refine ⟨by decide, ?_, fun h => ?_⟩
  · rw [List.forall_mem_cons, List.forall_mem_singleton]
    exact ⟨bytesAgree_of_strip (by decide), bytesAgree_of_strip (by decide)⟩
  · have hrow := h.rows.paymentOrders (py "po-1")
    cases hrow

end TxLookup.Consumer
