import TxLookup.Consumer.DlqFile

/-!
# Replaying the dead-letter file

`replay_file` reads the file line by line and publishes the payload of each record
to the topic the record names. The records of the consumer name the topic of the
message; those of a backfill name a label of its own.
-/
namespace TxLookup.Scripts

open Library Library.PyText Db Consumer Common

/-- A message that was handed to the producer. -/
structure Produced where
  topic : PyStr
  value : Bytes
  deriving DecidableEq

/-- What the loop over the lines does with one of them. -/
inductive LineReplay where
  | skipped
  | stopped
  | produced (msg : Produced)
  deriving DecidableEq

variable (rt : TextRuntime)

/-- `topic in topics`, for a set of texts. -/
def inTopics (topics : List PyStr) : Json → Except PyExc Bool
  | .str topic => .ok (topics.contains topic)
  | .arr _ => .error (.other (py "unhashable type: 'list'"))
  | .obj _ => .error (.other (py "unhashable type: 'dict'"))
  | _ => .ok false

/-- The text of the payload: as it is, or its JSON. -/
def payloadString : Json → PyStr
  | .str text => text
  | value => value.dumpsAscii rt.floatRepr

def encodeValue (text : PyStr) : Except PyExc Bytes :=
  match encode? text with
  | some value => .ok value
  | none => .error (.unicode (py "'utf-8' codec can't encode character: surrogates not allowed"))

/-- `producer.produce(topic, value=value)`, which takes a text as a topic. -/
def produce (value : Bytes) : Json → Except PyExc LineReplay
  | .str topic => .ok (.produced ⟨topic, value⟩)
  | _ => .error (.other (py "argument 1 must be str"))

/-- What becomes of a record with this topic and this payload. -/
def replayPayload (topics : Option (List PyStr)) (remaining : Option Nat) (topic payload : Json) :
    Except PyExc LineReplay :=
  match topic.truthy, payload with
  | false, _ | _, .null => .ok .skipped
  | true, payload => do
    let wanted ← topics.elim (.ok true) (inTopics · topic)
    if wanted = false then return .skipped
    if remaining = some 0 then return .stopped
    let value ← encodeValue (payloadString rt payload)
    produce value topic

def replayRecord (topics : Option (List PyStr)) (remaining : Option Nat) :
    Json → Except PyExc LineReplay
  | .obj record =>
    replayPayload rt topics remaining (PyDict.get record (py "topic"))
      (PyDict.get record (py "payload"))
  | _ => .error (.other (py "object has no attribute 'get'"))

def replayLine (topics : Option (List PyStr)) (remaining : Option Nat) (line : PyStr) :
    Except PyExc LineReplay :=
  if (strip line).isEmpty then .ok .skipped
  else rt.jsonLoadsText line >>= replayRecord rt topics remaining

/-- The messages the loop publishes, and what it raises. -/
def replayLines (topics : Option (List PyStr)) :
    Option Nat → List PyStr → List Produced × Option PyExc
  | _, [] => ([], none)
  | remaining, line :: lines =>
    match replayLine rt topics remaining line with
    | .error exc => ([], some exc)
    | .ok .skipped => replayLines topics remaining lines
    | .ok .stopped => ([], none)
    | .ok (.produced msg) =>
      let r := replayLines topics (remaining.map (· - 1)) lines
      (msg :: r.1, r.2)

/-- `replay_file` on a file with this text. -/
def replayFile (topics : Option (List PyStr)) (limit : Option Int) (text : PyStr) :
    List Produced × Option PyExc :=
  replayLines rt topics (limit.map Int.toNat) (textLines text)

/-- A replay of the whole file, without filter and limit. -/
def replayAll (w : World) : List Produced × Option PyExc :=
  replayFile rt none none w.dlqFile.flatten

/-! ## Replaying what was written -/

def LineReplay.ofMessage : Option Produced → LineReplay
  | some msg => .produced msg
  | none => .skipped

/-- The message a replay publishes for the record, if any. -/
def published (record : PyDict) : Option Produced :=
  match replayRecord rt none none (.obj record) with
  | .ok (.produced msg) => some msg
  | _ => none

variable {rt} {config : AppConfig}

/-- The text of a float has no control character. -/
def FloatsPrintable (rt : PyRuntime) : Prop := ∀ x, printable (rt.floatRepr x) = true

variable (rt) in
/-- The line of the record is read back as the record. -/
def ReadsBack (record : PyDict) : Prop :=
  rt.jsonLoadsText (dlqLine rt.toPyRuntime record) = .ok (.obj record)

theorem replayLine_dlqLine {record : PyDict} (h : ReadsBack rt record)
    (topics : Option (List PyStr)) (remaining : Option Nat) :
    replayLine rt topics remaining (dlqLine rt.toPyRuntime record) =
      replayRecord rt topics remaining (.obj record) := by
  have hopen : dlqLine rt.toPyRuntime record = 123 :: (dlqLine rt.toPyRuntime record).tail := rfl
  have hne : strip (dlqLine rt.toPyRuntime record) ≠ [] := by
    rw [Ne, strip_eq_nil_iff, hopen]
    intro hall
    have hbrace := hall 123 List.mem_cons_self
    revert hbrace
    decide
  rw [replayLine, if_neg (by rw [List.isEmpty_iff]; exact hne), h]
  rfl

/-- The file is read back line by line. -/
theorem textLines_dlqLines (hfloat : FloatsPrintable rt.toPyRuntime) (records : List PyDict) :
    textLines (records.map (dlqLine rt.toPyRuntime)).flatten =
      records.map (dlqLine rt.toPyRuntime) := by
  have hwritten := textLines_written
    (records.map fun record => rt.toPyRuntime.jsonDumps (.obj record)) (by
      rw [List.forall_mem_map]
      intro record _
      rw [oneLine, List.all_eq_true]
      intro c hc
      have hprintable := List.all_eq_true.mp (printable_dumps hfloat (.obj record)) c hc
      rw [decide_eq_true_eq] at hprintable
      rw [Bool.and_eq_true, bne_iff_ne, bne_iff_ne]
      omega)
  rw [List.flatMap_map, List.map_map] at hwritten
  exact hwritten

/-- A replay of written records publishes the message of each of them, in order,
if none of them raises. -/
theorem replayFile_records (hfloat : FloatsPrintable rt.toPyRuntime) {records : List PyDict}
    (hback : ∀ record ∈ records, ReadsBack rt record)
    (hok : ∀ record ∈ records,
      replayRecord rt none none (.obj record) = .ok (.ofMessage (published rt record))) :
    replayFile rt none none (records.map (dlqLine rt.toPyRuntime)).flatten =
      (records.filterMap (published rt), none) := by
  rw [replayFile, textLines_dlqLines hfloat]
  induction records with
  | nil => rfl
  | cons record records ih =>
    rw [List.forall_mem_cons] at hback hok
    have hrest := ih hback.2 hok.2
    rw [Option.map_none] at hrest
    rw [List.map_cons, replayLines, Option.map_none, replayLine_dlqLine hback.1,
      hok.1]
    cases hmsg : published rt record with
    | none =>
      rw [List.filterMap_cons_none hmsg]
      exact hrest
    | some msg =>
      rw [List.filterMap_cons_some hmsg]
      show (msg :: (replayLines rt none none _).1, (replayLines rt none none _).2) = _
      rw [hrest]

theorem replayPayload_skipped {topic : PyStr} {payload : Json}
    (h : topic = [] ∨ payload = .null) :
    replayPayload rt none none (.str topic) payload = .ok .skipped := by
  rcases h with rfl | rfl
  · rfl
  · cases topic <;> rfl

theorem replayPayload_produced {topic : PyStr} {payload : Json} (hne : topic ≠ [])
    (hnull : payload ≠ .null) (hencodes : encodable (payloadString rt payload) = true) :
    replayPayload rt none none (.str topic) payload =
      .ok (.produced ⟨topic, encode (payloadString rt payload)⟩) := by
  obtain ⟨c, cs, rfl⟩ := List.exists_cons_of_ne_nil hne
  have hvalue : encodeValue (payloadString rt payload) =
      .ok (encode (payloadString rt payload)) := by
    rw [encodeValue, encode?, if_pos hencodes]
  have hproduce : replayPayload rt none none (.str (c :: cs)) payload =
      encodeValue (payloadString rt payload) >>= fun value => produce value (.str (c :: cs)) := by
    cases payload with
    | null => exact absurd rfl hnull
    | _ => rfl
  rw [hproduce, hvalue]
  rfl

/-- A record of the consumer is replayed to its topic with the text of its value. -/
theorem replayRecord_dlqPayload (delivery : Delivery) (key : Option PyStr) (exc : PyExc) :
    replayRecord rt none none (.obj (dlqPayload rt.toPyRuntime config delivery key exc)) =
      .ok (.ofMessage ((payloadText delivery.msg).bind fun text =>
        if delivery.msg.topic = [] then none else some ⟨delivery.msg.topic, encode text⟩)) := by
  show replayPayload rt none none (.str delivery.msg.topic)
    (optionalStr (payloadText delivery.msg)) = _
  cases htext : payloadText delivery.msg with
  | none => exact replayPayload_skipped (.inr rfl)
  | some text =>
    have hencodes : encodable text = true := by
      unfold payloadText at htext
      split at htext
      · obtain rfl := Option.some.inj htext
        exact encodable_decodeReplace _
      · cases htext
    by_cases htopic : delivery.msg.topic = []
    · rw [Option.bind_some, if_pos htopic]
      exact replayPayload_skipped (.inl htopic)
    · rw [Option.bind_some, if_neg htopic]
      exact replayPayload_produced htopic (fun h => by cases h) hencodes

theorem backfillTopic_ne (kind : TopicKind) : backfillTopic kind ≠ [] := by
  cases kind <;> decide

/-- A record of a backfill is replayed to its label with the JSON of its payload. -/
theorem replayRecord_backfillPayload (kind : TopicKind) (fields : PyDict) (exc : PyExc)
    (nowIso : PyStr) :
    replayRecord rt none none (.obj (backfillPayload rt config kind fields exc nowIso)) =
      .ok (.produced ⟨backfillTopic kind, encode ((Json.obj fields).dumpsAscii rt.floatRepr)⟩) :=
  replayPayload_produced (backfillTopic_ne kind) (fun h => by cases h)
    (encodable_dumpsAscii (.obj fields))

theorem published_of_replay {record : PyDict} {msg : Option Produced}
    (h : replayRecord rt none none (.obj record) = .ok (.ofMessage msg)) :
    published rt record = msg := by
  rw [published, h]
  cases msg <;> rfl

/-- Replaying a record that a run wrote raises nothing. -/
theorem replayRecord_of_writes {round : Round} {record : PyDict}
    (h : round.Writes rt config record) :
    replayRecord rt none none (.obj record) = .ok (.ofMessage (published rt record)) := by
  cases round with
  | message delivery =>
    obtain ⟨key, exc, -, rfl⟩ := h
    have hreplay := @replayRecord_dlqPayload rt config delivery key exc
    rw [published_of_replay hreplay]
    exact hreplay
  | payload kind since until' fields line =>
    obtain ⟨exc, rfl⟩ := h
    have hreplay := @replayRecord_backfillPayload rt config kind fields exc line.nowIso
    rw [@published_of_replay rt _ (some _) hreplay]
    exact hreplay

/-! ## One message for each record -/

variable (rt config)

/-- The round was about these fields, as an event of this kind: a valid UTF-8
value that is a JSON object, or a payload of a file. -/
def OriginalPayload : Round → Option TopicKind → PyDict → Prop
  | .message delivery, kind, fields => config.profile.topicKind delivery.msg.topic = kind ∧
    ∃ value text, delivery.msg.value = some value ∧ value ≠ [] ∧ decode? value = some text ∧
      rt.jsonLoads value = .ok (.obj fields)
  | .payload kind' _ _ fields' _, kind, fields => some kind' = kind ∧ fields' = fields

/-- The record that was added between the two states makes one message in a replay
of the last one, to a topic of the kind and with the fields as its value. -/
def PublishedOnce (w w' last : World) (kind : Option TopicKind) (fields : PyDict) : Prop :=
  ∃ before msg after, replayAll rt w = (before, none) ∧ replayAll rt w' = (before ++ [msg], none) ∧
    replayAll rt last = (before ++ msg :: after, none) ∧
    config.profile.topicKind msg.topic = kind ∧ rt.jsonLoads msg.value = .ok (.obj fields)

/-- The topic in the record of the round is one of the kind. -/
def TopicKept : Round → Prop
  | .message delivery => delivery.msg.topic ≠ []
  | .payload kind _ _ _ _ => config.profile.topicKind (backfillTopic kind) = some kind

variable {rt config}

theorem replayAll_of_grows {w w' : World} {records : List PyDict}
    (hgrows : FileGrows rt w w' records) (hempty : w.dlqFile = []) (hfloat : FloatsPrintable rt.toPyRuntime)
    (hback : ∀ record ∈ records, ReadsBack rt record)
    (hwrites : ∀ record ∈ records, ∃ round : Round, round.Writes rt config record) :
    replayAll rt w' = (records.filterMap (published rt), none) := by
  rw [replayAll, hgrows.1, hempty, List.nil_append]
  refine replayFile_records hfloat hback fun record hrecord => ?_
  obtain ⟨round, hround⟩ := hwrites record hrecord
  exact replayRecord_of_writes hround

theorem publishedOnce_iff {w w' last : World} {before more : List Produced} {record : PyDict}
    (hw : replayAll rt w = (before, none))
    (hw' : replayAll rt w' = (before ++ (published rt record).toList, none))
    (hlast : replayAll rt last = (before ++ (published rt record).toList ++ more, none))
    (kind : Option TopicKind) (fields : PyDict) :
    PublishedOnce rt config w w' last kind fields ↔
      ∃ msg, published rt record = some msg ∧ config.profile.topicKind msg.topic = kind ∧
        rt.jsonLoads msg.value = .ok (.obj fields) := by
  constructor
  · rintro ⟨before', msg, after, hbefore, hadded, -, hkind, hvalue⟩
    refine ⟨msg, ?_, hkind, hvalue⟩
    rw [hw] at hbefore
    rw [hw'] at hadded
    obtain rfl := congrArg Prod.fst hbefore
    have htail := List.append_cancel_left (congrArg Prod.fst hadded)
    cases hmsg : published rt record with
    | none =>
      rw [hmsg] at htail
      cases htail
    | some msg' =>
      rw [hmsg] at htail
      cases htail
      rfl
  · rintro ⟨msg, hmsg, hkind, hvalue⟩
    rw [hmsg] at hw' hlast
    refine ⟨before, msg, more, hw, hw', ?_, hkind, hvalue⟩
    rw [hlast, Option.toList_some, List.append_assoc, List.singleton_append]

/-- The message of a record is the original payload on a topic of its kind exactly
if the record keeps the topic. -/
theorem published_original_iff {round : Round} {record : PyDict} {kind : Option TopicKind}
    {fields : PyDict} (hwrites : round.Writes rt config record)
    (horiginal : OriginalPayload rt config round kind fields)
    (hdumps : rt.jsonLoads (encode ((Json.obj fields).dumpsAscii rt.floatRepr)) =
      .ok (.obj fields)) :
    (∃ msg, published rt record = some msg ∧ config.profile.topicKind msg.topic = kind ∧
        rt.jsonLoads msg.value = .ok (.obj fields)) ↔ TopicKept config round := by
  cases round with
  | message delivery =>
    obtain ⟨key, exc, -, rfl⟩ := hwrites
    obtain ⟨hkind, value, text, hvalue, hne, hdecode, hloads⟩ := horiginal
    have htext : payloadText delivery.msg = some text := by
      obtain ⟨b, bs, rfl⟩ := List.exists_cons_of_ne_nil hne
      rw [payloadText, hvalue]
      exact congrArg some (decodeReplace_of_decode? hdecode)
    rw [published_of_replay (replayRecord_dlqPayload delivery key exc), htext, Option.bind_some]
    show _ ↔ delivery.msg.topic ≠ []
    constructor
    · rintro ⟨msg, hmsg, -⟩ htopic
      rw [if_pos htopic] at hmsg
      cases hmsg
    · intro htopic
      rw [if_neg htopic]
      refine ⟨_, rfl, hkind, ?_⟩
      show rt.jsonLoads (encode text) = _
      rw [(encode_of_decode? hdecode).1, hloads]
  | payload kind' since until' fields' line =>
    obtain ⟨exc, rfl⟩ := hwrites
    obtain ⟨rfl, rfl⟩ := horiginal
    have hreplay := @replayRecord_backfillPayload rt config kind' fields' exc line.nowIso
    rw [@published_of_replay rt _ (some _) hreplay]
    constructor
    · rintro ⟨msg, hmsg, hkind, -⟩
      cases hmsg
      exact hkind
    · intro hkind
      exact ⟨_, rfl, hkind, hdumps⟩

/-- Of an event whose record any runs of the program have written to the file, a
replay publishes the original payload once, to a topic of its kind, exactly if
its record names a topic of the kind. -/
theorem replay_publishes_once_iff (db : Database) (dlqEvents : List ConsumerDlqEvent)
    (programs : List Program) {pre post : List Round} {round : Round} {kind : Option TopicKind}
    {fields : PyDict}
    (hrounds : programRounds rt config ⟨db, dlqEvents, [], []⟩ programs = pre ++ round :: post)
    (hfile :
      (round.run rt config (pre.foldl (Round.run rt config) ⟨db, dlqEvents, [], []⟩)).dlqFile ≠
        (pre.foldl (Round.run rt config) ⟨db, dlqEvents, [], []⟩).dlqFile)
    (horiginal : OriginalPayload rt config round kind fields)
    (hfloat : FloatsPrintable rt.toPyRuntime)
    (hback : ∀ record ∈ fileRecords (runPrograms rt config ⟨db, dlqEvents, [], []⟩ programs).trace,
      ReadsBack rt record)
    (hdumps : rt.jsonLoads (encode ((Json.obj fields).dumpsAscii rt.floatRepr)) =
      .ok (.obj fields)) :
    PublishedOnce rt config (pre.foldl (Round.run rt config) ⟨db, dlqEvents, [], []⟩)
        (round.run rt config (pre.foldl (Round.run rt config) ⟨db, dlqEvents, [], []⟩))
        (runPrograms rt config ⟨db, dlqEvents, [], []⟩ programs) kind fields ↔
      TopicKept config round := by
  generalize hstart : (⟨db, dlqEvents, [], []⟩ : World) = start at *
  have hempty : start.dlqFile = [] := by rw [← hstart]
  have hquiet : fileRecords start.trace = [] := by rw [← hstart]; rfl
  have hlast : runPrograms rt config start programs = post.foldl (Round.run rt config)
      (round.run rt config (pre.foldl (Round.run rt config) start)) := by
    rw [runPrograms_rounds, hrounds, List.foldl_append, List.foldl_cons]
  obtain ⟨first, hfirst, hfirstW⟩ := @rounds_grow rt config pre start
  obtain ⟨added, hadded, haddedW⟩ :=
    @Round.run_grows rt config round (pre.foldl (Round.run rt config) start)
  obtain ⟨more, hmore, hmoreW⟩ := @rounds_grow rt config post
    (round.run rt config (pre.foldl (Round.run rt config) start))
  rcases haddedW with rfl | ⟨record, hwrites, rfl⟩
  · exact absurd (hadded.1.trans (List.append_nil _)) hfile
  have hall := (hfirst.trans hadded).trans hmore
  rw [← hlast] at hall
  rw [hall.2, hquiet, List.nil_append] at hback
  have hwritesAll : ∀ r ∈ first ++ [record] ++ more,
      ∃ writer : Round, writer.Writes rt config r := by
    rw [List.forall_mem_append, List.forall_mem_append, List.forall_mem_singleton]
    exact ⟨⟨fun r hr => (hfirstW r hr).imp fun _ h => h.2, ⟨round, hwrites⟩⟩,
      fun r hr => (hmoreW r hr).imp fun _ h => h.2⟩
  have hsub : ∀ r ∈ first ++ [record], r ∈ first ++ [record] ++ more :=
    fun r hr => List.mem_append_left _ hr
  have hw := replayAll_of_grows hfirst hempty hfloat
    (fun r hr => hback r (hsub r (List.mem_append_left _ hr)))
    (fun r hr => hwritesAll r (hsub r (List.mem_append_left _ hr)))
  have hw' := replayAll_of_grows (hfirst.trans hadded) hempty hfloat
    (fun r hr => hback r (hsub r hr)) (fun r hr => hwritesAll r (hsub r hr))
  have hend := replayAll_of_grows hall hempty hfloat hback hwritesAll
  have hone : [record].filterMap (published rt) = (published rt record).toList := by
    cases hmsg : published rt record with
    | none => exact List.filterMap_cons_none hmsg
    | some msg => exact List.filterMap_cons_some hmsg
  rw [List.filterMap_append, hone] at hw'
  rw [List.filterMap_append, List.filterMap_append, hone] at hend
  rw [publishedOnce_iff hw hw' hend]
  exact published_original_iff hwrites horiginal hdumps

/-! ### A message and a ledger line without the fields of an event -/

def fileConfig : AppConfig := ⟨.file, canonicalV1⟩

def noteFields : PyDict := [(py "note", .str (py "x"))]

def noteText : PyStr := py "\x7b\"note\": \"x\"\x7d"

/-- The sample conversions, which also read the note. -/
def noteRuntime : PyRuntime :=
  { sampleRuntime with
    jsonLoads := fun bs =>
      if bs = encode noteText then .ok (.obj noteFields) else sampleRuntime.jsonLoads bs }

def noteMessage : Delivery := sampleDelivery none (some (encode noteText)) .none

def noteLine : BackfillLine :=
  ⟨noteText ++ py "\n", .still 1767225600000000, none, false, ⟨true, true⟩, 1767225600000000,
    py "2026-01-01T00:00:00+00:00"⟩

def ledgerRound : Round := .payload .ledger none none noteFields noteLine

def samplePrograms : List Program :=
  [.consume none [.message noteMessage], .backfill (some [noteLine]) none none none]

def orderExc : PyExc := .eventValidation
  (py "Missing core required fields for payment_order: order_id, amount, status, created_at")

def ledgerExc : PyExc := .eventValidation (py "Missing core required fields for ledger: " ++
  py "tx_id, wallet_id, entry_type, amount, event_time_or_alias")

def messageRecord : PyDict := dlqPayload noteRuntime fileConfig noteMessage none orderExc

def lineRecord : PyDict :=
  backfillPayload ⟨noteRuntime, fun s => noteRuntime.jsonLoads (encode (strip s))⟩ fileConfig
    .ledger noteFields ledgerExc noteLine.nowIso

/-- These conversions on texts, and the two records read back. -/
def replayRuntime : TextRuntime where
  toPyRuntime := noteRuntime
  jsonLoadsText s :=
    if s = dlqLine noteRuntime messageRecord then .ok (.obj messageRecord)
    else if s = dlqLine noteRuntime lineRecord then .ok (.obj lineRecord)
    else noteRuntime.jsonLoads (encode (strip s))

theorem messageRecord_readsBack : ReadsBack replayRuntime messageRecord := by
  have hread : ∀ s, s = dlqLine noteRuntime messageRecord →
      replayRuntime.jsonLoadsText s = .ok (.obj messageRecord) := by
    intro s hs
    exact if_pos hs
  exact hread _ rfl

theorem lineRecord_readsBack : ReadsBack replayRuntime lineRecord := by
  have hdiffer : dlqLine noteRuntime lineRecord ≠ dlqLine noteRuntime messageRecord := by
    decide +kernel
  have hread : ∀ s, s ≠ dlqLine noteRuntime messageRecord → s = dlqLine noteRuntime lineRecord →
      replayRuntime.jsonLoadsText s = .ok (.obj lineRecord) := by
    intro s hne hs
    exact (if_neg hne).trans (if_pos hs)
  exact hread _ hdiffer rfl

/-- What the computation raises. -/
def raised {α : Type} : Except PyExc α → Option PyExc
  | .error exc => some exc
  | .ok _ => none

theorem raised_eq_some {α : Type} {x : Except PyExc α} {exc : PyExc} (h : raised x = some exc) :
    x = .error exc := by
  cases x with
  | error exc' => exact congrArg Except.error (Option.some.inj h)
  | ok _ => cases h

/-- A record whose texts encode is stored in the file. -/
theorem writes_of_encodable {record : PyDict}
    (h : (Json.obj record).encodable noteRuntime.floatRepr = true) (now : DateTime) (w : World) :
    FileGrows replayRuntime w
      (writeDlqPayload noteRuntime fileConfig ⟨true, true⟩ record now w) [record] := by
  have hline : encodable (dlqLine noteRuntime record) = true := by
    rw [dlqLine, encodable_append, PyRuntime.jsonDumps, encodable_dumps, h]
    rfl
  have hsink : storingSink replayRuntime.toPyRuntime fileConfig.dlqBackend ⟨true, true⟩ record now =
      some .file := by
    rw [storingSink, if_neg (fun h => by cases h.1)]
    exact if_pos ⟨rfl, hline⟩
  exact writeDlqPayload_file hsink w

theorem noteMessage_grows (w : World) : FileGrows replayRuntime w
    ((Round.message noteMessage).run replayRuntime fileConfig w) [messageRecord] := by
  have hprocess : process noteRuntime fileConfig noteMessage = .error orderExc :=
    raised_eq_some (by decide +kernel)
  have hrun : (Round.message noteMessage).run replayRuntime fileConfig w =
      (writeDlqPayload noteRuntime fileConfig ⟨true, true⟩ messageRecord 1767225600000000
        w).commitOffset noteMessage.msg none := by
    show (consumeMessage noteRuntime fileConfig noteMessage w).1 = _
    rw [consumeMessage, hprocess]
    rfl
  rw [hrun]
  exact (writes_of_encodable (by decide +kernel) _ w).trans (commitOffset_grows _ _ _)

theorem noteLine_grows (w : World) : FileGrows replayRuntime w
    (ledgerRound.run replayRuntime fileConfig w) [lineRecord] := by
  have htry : tryPayload replayRuntime fileConfig .ledger none none noteFields noteLine =
      .error ledgerExc := raised_eq_some (by decide +kernel)
  have hrun : ledgerRound.run replayRuntime fileConfig w =
      writeDlqPayload noteRuntime fileConfig ⟨true, true⟩ lineRecord 1767225600000000 w := by
    show backfillLine replayRuntime fileConfig .ledger none none noteFields noteLine w = _
    rw [backfillLine, htry]
    rfl
  rw [hrun]
  exact writes_of_encodable (by decide +kernel) _ w

theorem samplePrograms_rounds :
    programRounds replayRuntime fileConfig emptyWorld samplePrograms =
      [.message noteMessage, ledgerRound] := rfl

/-- The file after both programs. -/
theorem samplePrograms_grow : FileGrows replayRuntime emptyWorld
    (runPrograms replayRuntime fileConfig emptyWorld samplePrograms)
    [messageRecord, lineRecord] := by
  rw [runPrograms_rounds, samplePrograms_rounds, List.foldl_cons, List.foldl_cons, List.foldl_nil]
  exact (noteMessage_grows emptyWorld).trans (noteLine_grows _)

theorem samplePrograms_readBack :
    ∀ record ∈ fileRecords (runPrograms replayRuntime fileConfig emptyWorld samplePrograms).trace,
      ReadsBack replayRuntime record := by
  have hquiet : fileRecords emptyWorld.trace = [] := rfl
  rw [samplePrograms_grow.2, hquiet, List.nil_append, List.forall_mem_cons,
    List.forall_mem_singleton]
  exact ⟨messageRecord_readsBack, lineRecord_readsBack⟩

theorem file_ne_of_grows {w w' : World} {record : PyDict}
    (h : FileGrows replayRuntime w w' [record]) : w'.dlqFile ≠ w.dlqFile := by
  intro hsame
  have hlength := congrArg List.length (h.1.symm.trans hsame)
  rw [List.length_append, List.map_singleton, List.length_singleton] at hlength
  omega

theorem noteMessage_published_once :
    PublishedOnce replayRuntime fileConfig emptyWorld
      ((Round.message noteMessage).run replayRuntime fileConfig emptyWorld)
      (runPrograms replayRuntime fileConfig emptyWorld samplePrograms)
      (some .paymentOrder) noteFields := by
  refine (@replay_publishes_once_iff replayRuntime fileConfig Database.empty [] samplePrograms []
    [ledgerRound] (.message noteMessage) (some .paymentOrder) noteFields rfl
    ?_ ?_ ?_ samplePrograms_readBack rfl).mpr ?_
  · exact file_ne_of_grows (noteMessage_grows emptyWorld)
  · exact ⟨rfl, _, noteText, rfl, by decide, by decide, rfl⟩
  · exact fun x => rfl
  · show py "payment.order.upserted" ≠ []
    decide

/-- The record of the ledger line is published to its label, which is no topic. -/
theorem noteLine_not_published :
    let w := (Round.message noteMessage).run replayRuntime fileConfig emptyWorld
    let last := runPrograms replayRuntime fileConfig emptyWorld samplePrograms
    programRounds replayRuntime fileConfig emptyWorld samplePrograms =
        [.message noteMessage] ++ ledgerRound :: [] ∧
      (ledgerRound.run replayRuntime fileConfig w).dlqFile ≠ w.dlqFile ∧
      OriginalPayload replayRuntime fileConfig ledgerRound (some .ledger) noteFields ∧
      FloatsPrintable replayRuntime.toPyRuntime ∧
      (∀ record ∈ fileRecords last.trace, ReadsBack replayRuntime record) ∧
      replayRuntime.jsonLoads (encode ((Json.obj noteFields).dumpsAscii replayRuntime.floatRepr)) =
        .ok (.obj noteFields) ∧
      ¬ PublishedOnce replayRuntime fileConfig w (ledgerRound.run replayRuntime fileConfig w) last
        (some .ledger) noteFields := by
  intro w last
  have hfloat : FloatsPrintable replayRuntime.toPyRuntime :=
    fun x => rfl
  refine ⟨rfl, file_ne_of_grows (noteLine_grows w), ⟨rfl, rfl⟩, hfloat, samplePrograms_readBack,
    rfl, ?_⟩
  rintro ⟨before, msg, after, -, hadded, -, hkind, -⟩
  have hwrites : ∀ record ∈ [messageRecord] ++ [lineRecord],
      ∃ writer : Round, writer.Writes replayRuntime fileConfig record := by
    rw [List.singleton_append, List.forall_mem_cons, List.forall_mem_singleton]
    exact ⟨⟨.message noteMessage, none, orderExc, rfl, rfl⟩, ⟨ledgerRound, ledgerExc, rfl⟩⟩
  have hback : ∀ record ∈ [messageRecord] ++ [lineRecord], ReadsBack replayRuntime record := by
    rw [List.singleton_append, List.forall_mem_cons, List.forall_mem_singleton]
    exact ⟨messageRecord_readsBack, lineRecord_readsBack⟩
  have hreplay := replayAll_of_grows ((noteMessage_grows emptyWorld).trans (noteLine_grows w)) rfl
    hfloat hback hwrites
  have hline := @published_of_replay replayRuntime lineRecord (some _)
    (@replayRecord_backfillPayload replayRuntime fileConfig .ledger noteFields ledgerExc
      noteLine.nowIso)
  have hmsgs := congrArg Prod.fst (hreplay.symm.trans hadded)
  rw [List.filterMap_append, List.filterMap_cons_some hline, List.filterMap_nil] at hmsgs
  obtain ⟨-, hmsg⟩ := List.append_inj' hmsgs rfl
  cases hmsg
  revert hkind
  decide

end TxLookup.Scripts
