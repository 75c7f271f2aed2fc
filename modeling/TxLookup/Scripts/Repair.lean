import TxLookup.Scripts.DlqRoundTrip
import TxLookup.Consumer.Redelivery

/-!
# Repair by replay

A transaction that fails leaves its message in the dead-letter file with the offset
committed. Replaying the file appends such messages to the logs again; once they
have been consumed with working tables, the tables agree with those of a run in
which nothing ever failed. The group may crash and redeliver in both phases.
-/
namespace TxLookup.Scripts

open Library Library.PyText Library.JsonText Library.Runs Db Consumer Consumer.Group

/-- The replayed messages have been appended to the logs, each at least once and
nothing else. -/
structure Publishes (broker broker' : Broker) (msgs : List Produced) : Prop where
  grows : ∀ tp, broker.log tp <+: broker'.log tp
  only : ∀ tp, ∀ msg ∈ (broker'.log tp).drop (broker.log tp).length,
    ∃ p ∈ msgs, msg.topic = p.topic ∧ msg.value = some p.value
  all : ∀ p ∈ msgs, ∃ tp, ∃ msg ∈ (broker'.log tp).drop (broker.log tp).length,
    msg.topic = p.topic ∧ msg.value = some p.value

/-- A message of a named topic with a UTF-8 value, and with one if it is accepted. -/
structure Replayable (rt : PyRuntime) (config : AppConfig) (msg : Message) : Prop where
  topic : msg.topic ≠ []
  text : ∀ b bs, msg.value = some (b :: bs) → (decode? (b :: bs)).isSome = true
  value : ∀ event, eventOf rt config.profile msg = .ok event → ∃ b bs, msg.value = some (b :: bs)

variable {floatOf : PyStr → PyFloat} {rt : TextRuntime} {config : AppConfig}
variable {broker broker' : Broker}

/-- Only topic and value of a message make its event. -/
theorem eventOf_congr {profile : EventContractProfile} {msg msg' : Message}
    (htopic : msg.topic = msg'.topic) (hvalue : msg.value = msg'.value) :
    eventOf rt.toPyRuntime profile msg = eventOf rt.toPyRuntime profile msg' := by
  rw [eventOf, eventOf, loadPayload, loadPayload, htopic, hvalue]

/-! ## What is in the file -/

variable (rt config broker) in
/-- The file holds records of messages of the logs. -/
structure FileHolds (w : World) : Prop where
  file : w.dlqFile = (fileRecords w.trace).map (dlqLine rt.toPyRuntime)
  records : ∀ record ∈ fileRecords w.trace, ∃ delivery key exc,
    (∃ tp, delivery.msg ∈ broker.log tp) ∧ decodedKey delivery.msg = .ok key ∧
      record = dlqPayload rt.toPyRuntime config delivery key exc

theorem perform_file (now : DateTime) (es : List Effect) (w : World) :
    (es.foldl (World.perform rt.toPyRuntime now) w).dlqFile =
      w.dlqFile ++ (fileRecords es).map (dlqLine rt.toPyRuntime) := by
  induction es generalizing w with
  | nil => exact (List.append_nil _).symm
  | cons e es ih =>
    rw [List.foldl_cons, ih]
    cases e with
    | applied msg call => rfl
    | offsetCommit msg succeeded => rfl
    | recorded sink payload =>
      cases sink with
      | table => rfl
      | file => exact List.append_assoc _ [_] _

theorem mem_fileRecords {trace : List Effect} {record : PyDict} :
    record ∈ fileRecords trace ↔ .recorded .file record ∈ trace := by
  rw [fileRecords, List.mem_filterMap]
  constructor
  · rintro ⟨e, he, hrecord⟩
    split at hrecord
    · cases hrecord
      exact he
    · cases hrecord
  · exact fun h => ⟨_, h, rfl⟩

theorem recorded_of_handlerEffects {delivery : Delivery} {exc : PyExc} {sink : Sink}
    {record : PyDict}
    (h : .recorded sink record ∈ handlerEffects rt.toPyRuntime config delivery exc) :
    ∃ key, decodedKey delivery.msg = .ok key ∧
      record = dlqPayload rt.toPyRuntime config delivery key exc := by
  unfold handlerEffects at h
  cases hkey : decodedKey delivery.msg with
  | error keyExc =>
    rw [hkey] at h
    exact absurd h List.not_mem_nil
  | ok key =>
    rw [hkey] at h
    simp only [List.mem_append, List.mem_map, List.mem_singleton, reduceCtorEq, or_false,
      Effect.recorded.injEq] at h
    obtain ⟨sink', -, -, rfl⟩ := h
    exact ⟨key, rfl, rfl⟩

theorem recorded_of_effects {delivery : Delivery} {sink : Sink} {record : PyDict}
    (h : .recorded sink record ∈ effects rt.toPyRuntime config delivery) :
    ∃ key exc, decodedKey delivery.msg = .ok key ∧
      record = dlqPayload rt.toPyRuntime config delivery key exc := by
  unfold effects at h
  split at h
  · next exc _ =>
    obtain ⟨key, hkey⟩ := recorded_of_handlerEffects h
    exact ⟨key, exc, hkey⟩
  · simp only [List.mem_append, List.mem_cons, List.not_mem_nil, or_false, reduceCtorEq,
      false_or] at h
    split at h
    · exact absurd h List.not_mem_nil
    · next exc _ =>
      obtain ⟨key, hkey⟩ := recorded_of_handlerEffects h
      exact ⟨key, exc, hkey⟩

theorem fileHolds_run {db : Database} {events : List GroupEvent} {g : Group}
    (h : runAll (Group.step rt.toPyRuntime config broker) (start db [] []) events = some g) :
    FileHolds rt config broker g.world := by
  have hstart : FileHolds rt config broker (start db [] []).world :=
    ⟨rfl, fun record hrecord => absurd hrecord List.not_mem_nil⟩
  refine @invariant_of_steps _ _ _ (fun g => FileHolds rt config broker g.world) ?_ _ _ _ hstart h
  intro g event g' hinv hstep
  obtain ⟨now, es, hworld, hes⟩ := step_performs hstep
  have hsplit : fileRecords g'.world.trace = fileRecords g.world.trace ++ fileRecords es := by
    rw [hworld, perform_trace, fileRecords_append]
  refine ⟨?_, fun record hrecord => ?_⟩
  · rw [hsplit, List.map_append, ← hinv.file, hworld, perform_file]
  · rw [hsplit] at hrecord
    rcases List.mem_append.mp hrecord with hold | hnew
    · exact hinv.records record hold
    · rcases hes with rfl | ⟨tp, c, msg, hmsg, hfront⟩
      · exact absurd hnew List.not_mem_nil
      · obtain ⟨key, exc, hkey, hpayload⟩ :=
          recorded_of_effects (hfront.subset (mem_fileRecords.mp hnew))
        exact ⟨_, key, exc, ⟨tp, List.mem_of_getElem? hmsg⟩, hkey, hpayload⟩

/-- The message of a record is the message that failed, with its whole value. -/
theorem published_dlqPayload {delivery : Delivery}
    (h : Replayable rt.toPyRuntime config delivery.msg) (key : Option PyStr) (exc : PyExc)
    (p : Produced) :
    published rt (dlqPayload rt.toPyRuntime config delivery key exc) = some p ↔
      delivery.msg.topic = p.topic ∧ delivery.msg.value = some p.value ∧ p.value ≠ [] := by
  rw [published_of_replay (replayRecord_dlqPayload delivery key exc)]
  cases hvalue : delivery.msg.value with
  | none =>
    have htext : payloadText delivery.msg = none := by rw [payloadText, hvalue]
    rw [htext]
    exact ⟨(fun hp => by cases hp), (fun hp => by cases hp.2.1)⟩
  | some value =>
    cases value with
    | nil =>
      have htext : payloadText delivery.msg = none := by rw [payloadText, hvalue]
      rw [htext]
      refine ⟨(fun hp => by cases hp), fun hp => ?_⟩
      exact absurd (Option.some.inj hp.2.1).symm hp.2.2
    | cons b bs =>
      obtain ⟨text, hdecode⟩ := Option.isSome_iff_exists.mp (h.text b bs hvalue)
      have htext : payloadText delivery.msg = some text := by
        rw [payloadText, hvalue]
        exact congrArg some (decodeReplace_of_decode? hdecode)
      rw [htext, Option.bind_some, if_neg h.topic, (encode_of_decode? hdecode).1,
        Option.some.injEq]
      constructor
      · rintro rfl
        exact ⟨rfl, rfl, List.cons_ne_nil b bs⟩
      · rintro ⟨htopic, hbytes, -⟩
        obtain ⟨topic, value⟩ := p
        rw [htopic, Option.some.inj hbytes]

/-- A replay of the file raises nothing and publishes the messages of the records. -/
theorem replayAll_of_fileHolds (hreads : ReadsJson rt floatOf) {w : World}
    (h : FileHolds rt config broker w) (hbounded : ∀ tp, ∀ msg ∈ broker.log tp, Bounded msg) :
    replayAll rt w = ((fileRecords w.trace).filterMap (published rt), none) := by
  have hwrites : ∀ record ∈ fileRecords w.trace,
      ∃ round : Round, Sound rt round ∧ round.Writes rt config record := by
    intro record hrecord
    obtain ⟨delivery, key, exc, ⟨tp, hmsg⟩, hkey, hpayload⟩ := h.records record hrecord
    exact ⟨.message delivery, hbounded tp _ hmsg, key, exc, hkey, hpayload⟩
  rw [replayAll, h.file]
  refine replayFile_records hreads.printable (fun record hrecord => ?_) (fun record hrecord => ?_)
  · obtain ⟨round, hsound, hwrite⟩ := hwrites record hrecord
    exact readsBack_of_writes hreads hsound hwrite
  · obtain ⟨round, -, hwrite⟩ := hwrites record hrecord
    exact replayRecord_of_writes hwrite

/-! ## What is left of a message -/

variable (rt config) in
/-- The effect applies the message, or records it in the file. -/
def Left (msg : Message) (e : Effect) : Prop :=
  AppliesEvent rt.toPyRuntime config msg e ∨ ∃ delivery key exc, delivery.msg = msg ∧
    e = .recorded .file (dlqPayload rt.toPyRuntime config delivery key exc)

theorem left_of_safe (hfile : config.dlqBackend = .file) {delivery : Delivery}
    (hsafe : Safe rt.toPyRuntime config delivery)
    (hcommit : .offsetCommit delivery.msg true ∈ effects rt.toPyRuntime config delivery) :
    ∃ e ∈ effects rt.toPyRuntime config delivery, Left rt config delivery.msg e := by
  cases hp : process rt.toPyRuntime config delivery with
  | ok event =>
    refine ⟨.applied delivery.msg ⟨event, delivery.env⟩, ?_, .inl fun event' hevent => ?_⟩
    · rw [effects, hp]
      exact List.mem_append_left _ List.mem_cons_self
    · cases (eventOf_of_process hp).symm.trans hevent
      exact ⟨_, rfl, rfl⟩
  | error exc =>
    have heffects : effects rt.toPyRuntime config delivery =
        handlerEffects rt.toPyRuntime config delivery exc := by rw [effects, hp]
    rw [heffects] at hcommit ⊢
    cases hkey : decodedKey delivery.msg with
    | error keyExc =>
      rw [handlerEffects, hkey] at hcommit
      exact absurd hcommit List.not_mem_nil
    | ok key =>
      rcases hsafe with happlies | hunreadable | ⟨key', exc', hkey', hp', htakes⟩
      · exact absurd happlies (not_applies hp)
      · exact absurd (keyReadable_of_ok hkey) hunreadable
      · cases hkey.symm.trans hkey'
        cases hp.symm.trans hp'
        have hsome := (storingSink_isSome delivery key exc).mpr htakes
        have hsink : storingSink rt.toPyRuntime config.dlqBackend delivery.faults.sinks
            (dlqPayload rt.toPyRuntime config delivery key exc) delivery.now = some .file := by
          unfold storingSink at hsome ⊢
          rw [if_neg (fun h => by rw [hfile] at h; cases h.1)] at hsome ⊢
          split at hsome
          · next h => exact if_pos h
          · cases hsome
        refine ⟨.recorded .file (dlqPayload rt.toPyRuntime config delivery key exc), ?_,
          .inr ⟨delivery, key, exc, rfl, rfl⟩⟩
        rw [handlerEffects, hkey]
        simp [hsink]

/-! ## Both phases -/

/-- A message of the old logs is not among those appended to them. -/
theorem appended_not_old {tp : TopicPartition} {i : Nat} {msg : Message} (hi : (broker.log tp).length ≤ i)
    (hmsg : (broker'.log tp)[i]? = some msg) (q : TopicPartition) : msg ∉ broker.log q := by
  intro hmem
  obtain ⟨j, hj, hget⟩ := List.getElem_of_mem hmem
  have hold := List.getElem?_eq_some_iff.mpr ⟨hj, hget⟩
  obtain ⟨htopic, hpartition, hoffset⟩ := broker'.placed tp i msg hmsg
  obtain ⟨htopic', hpartition', hoffset'⟩ := broker.placed q j msg hold
  obtain rfl : q = tp := by
    rw [TopicPartition.mk.injEq]
    exact ⟨htopic'.symm.trans htopic, hpartition'.symm.trans hpartition⟩
  omega

variable (rt config broker) in
/-- In the second phase, what is appended to the logs is applied. -/
def Renewed (msg : Message) (e : Effect) : Prop :=
  (∃ tp, msg ∈ broker.log tp) ∨ AppliesEvent rt.toPyRuntime config msg e

/-- The second phase starts where the first has ended. -/
theorem Publishes.progress {msgs : List Produced} (h : Publishes broker broker' msgs) {g : Group}
    (hp : Progress broker (Left rt config) g) : Progress broker' (Renewed rt config broker) g where
  position_le tp := (hp.position_le tp).trans (h.grows tp).length_le
  committed_le := hp.committed_le
  requested_le := hp.requested_le
  done_before tp i msg hi hmsg := by
    obtain ⟨added, hadded⟩ := h.grows tp
    have hlt := hi.trans_le (hp.position_le tp)
    rw [← hadded, List.getElem?_append_left hlt] at hmsg
    obtain ⟨e, he, -⟩ := hp.done_before tp i msg hi hmsg
    exact ⟨e, he, .inl ⟨tp, List.mem_of_getElem? hmsg⟩⟩

/-- In the end an event has been applied exactly if it is that of a message of the
old logs: what a record kept in the first phase, its replay applies in the second. -/
theorem repaired_events (hreads : ReadsJson rt floatOf) (hfile : config.dlqBackend = .file)
    (hbounded : ∀ tp, ∀ msg ∈ broker.log tp, Bounded msg)
    (hreplay : ∀ tp, ∀ msg ∈ broker.log tp, Replayable rt.toPyRuntime config msg)
    {events events' : List GroupEvent} {g g' : Group}
    (hsafe : Meets (Group.step rt.toPyRuntime config broker)
      (Delivers broker (Safe rt.toPyRuntime config)) (start .empty [] []) events)
    (hrun : runAll (Group.step rt.toPyRuntime config broker) (start .empty [] []) events = some g)
    (hdone : ∀ tp, g.committed tp = (broker.log tp).length)
    (hpublished : Publishes broker broker' (replayAll rt g.world).1)
    (hworks : Meets (Group.step rt.toPyRuntime config broker') (Delivers broker' TablesWork) g
      events')
    (hrun' : runAll (Group.step rt.toPyRuntime config broker') g events' = some g')
    (hdone' : ∀ tp, g'.committed tp = (broker'.log tp).length) (event : Event) :
    event ∈ eventsOf (appliedCalls g'.world.trace) ↔ ∃ tp, ∃ msg ∈ broker.log tp,
      eventOf rt.toPyRuntime config.profile msg = .ok event := by
  have hprogress : Progress broker (Left rt config) g :=
    progress_run (fun delivery hok hcommit => left_of_safe hfile hok hcommit)
      (progress_start _ _ _) hsafe hrun
  have hprogress' : Progress broker' (Renewed rt config broker) g' := by
    refine progress_run (fun delivery hok hcommit => ?_) (hpublished.progress hprogress) hworks
      hrun'
    obtain ⟨e, he, happlies⟩ := TablesWork.applies hok hcommit
    exact ⟨e, he, .inr happlies⟩
  have hholds := @fileHolds_run rt config broker _ _ _ hrun
  have hmsgs := replayAll_of_fileHolds hreads hholds hbounded
  rw [hmsgs] at hpublished
  have hlater := trace_steps hrun'
  rw [eventsOf, List.mem_map]
  constructor
  · rintro ⟨call, hcall, rfl⟩
    obtain ⟨msg, hmem⟩ := mem_appliedCalls.mp hcall
    have hlogs : AppliesLogs rt.toPyRuntime config broker' g.world.trace := by
      intro msg call hmem
      obtain ⟨⟨tp, hmsg⟩, hevent⟩ :=
        appliesLogs_run (appliesLogs_start _ _ _) hrun msg call hmem
      exact ⟨⟨tp, (hpublished.grows tp).subset hmsg⟩, hevent⟩
    obtain ⟨⟨tp, hmsg⟩, hevent⟩ := appliesLogs_run hlogs hrun' msg call hmem
    obtain ⟨added, hadded⟩ := hpublished.grows tp
    rw [← hadded] at hmsg
    rcases List.mem_append.mp hmsg with hold | hnew
    · exact ⟨tp, msg, hold, hevent⟩
    · -- a replayed message: its record is that of an old one with the same value
      have hdrop : (broker'.log tp).drop (broker.log tp).length = added := by
        rw [← hadded, List.drop_left]
      obtain ⟨p, hp, htopic, hvalue⟩ := hpublished.only tp msg (hdrop ▸ hnew)
      obtain ⟨record, hrecord, hpub⟩ := List.mem_filterMap.mp hp
      obtain ⟨delivery, key, exc, ⟨q, hq⟩, -, rfl⟩ := hholds.records record hrecord
      obtain ⟨htopic', hvalue', -⟩ := (published_dlqPayload (hreplay q _ hq) key exc p).mp hpub
      refine ⟨q, delivery.msg, hq, ?_⟩
      rw [← hevent]
      exact eventOf_congr (htopic'.trans htopic.symm) (hvalue'.trans hvalue.symm)
  · rintro ⟨tp, msg, hmsg, hevent⟩
    obtain ⟨i, hi, hget⟩ := List.getElem_of_mem hmsg
    have hbefore : i < g.position tp := (hi.trans_eq (hdone tp).symm).trans_le
      (hprogress.committed_le tp)
    obtain ⟨e, he, happlies | ⟨delivery, key, exc, rfl, rfl⟩⟩ := hprogress.done_before tp i msg
      hbefore (List.getElem?_eq_some_iff.mpr ⟨hi, hget⟩)
    · obtain ⟨call, rfl, hcall⟩ := happlies event hevent
      exact ⟨call, mem_appliedCalls.mpr ⟨msg, hlater.subset he⟩, hcall⟩
    · obtain ⟨b, bs, hvalue⟩ := (hreplay tp _ hmsg).value event hevent
      have hpub := (published_dlqPayload (hreplay tp _ hmsg) key exc
        ⟨delivery.msg.topic, b :: bs⟩).mpr ⟨rfl, hvalue, List.cons_ne_nil b bs⟩
      obtain ⟨q, again, hagain, htopic, hvalue'⟩ := hpublished.all _
        (List.mem_filterMap.mpr ⟨_, mem_fileRecords.mpr he, hpub⟩)
      have hevent' : eventOf rt.toPyRuntime config.profile again = .ok event :=
        (eventOf_congr htopic (hvalue'.trans hvalue.symm)).trans hevent
      obtain ⟨j, hj⟩ := List.getElem?_of_mem hagain
      rw [List.getElem?_drop] at hj
      have hlt := (List.getElem?_eq_some_iff.mp hj).1
      obtain ⟨e', he', ⟨q', hold⟩ | happlies⟩ := hprogress'.done_before q _ again
        ((hlt.trans_eq (hdone' q).symm).trans_le (hprogress'.committed_le q)) hj
      · exact absurd hold (appended_not_old (Nat.le_add_right _ _) hj q')
      · obtain ⟨call, rfl, hcall⟩ := happlies event hevent'
        exact ⟨call, mem_appliedCalls.mpr ⟨again, he'⟩, hcall⟩

def repairRuntime : TextRuntime :=
  { datedRuntime with
    floatRepr := sampleFloatRepr
    jsonLoadsText := jsonLoadsText sampleFloatOf }

def orderLog : Broker := .single samplePartition [some datedOrderBytes]

/-- The log after the replay. -/
def repairedLog : Broker := .single samplePartition [some datedOrderBytes, some datedOrderBytes]

/-- The commit of the session fails. -/
def failingEvents : List GroupEvent :=
  [.deliver samplePartition { sampleCircumstances 0 with
      faults := { Faults.none with transaction := some (.other (py "server closed")) } },
    .commitArrives samplePartition 1]

def repairEvents : List GroupEvent :=
  [.deliver samplePartition (sampleCircumstances 1), .commitArrives samplePartition 2]

def datedMessage (offset : Int) : Message :=
  ⟨py "payment.order.upserted", 0, offset, none, some datedOrderBytes, none⟩

theorem orderLog_other {tp : TopicPartition} (h : tp ≠ samplePartition) : orderLog.log tp = [] :=
  if_neg h

theorem repairedLog_other {tp : TopicPartition} (h : tp ≠ samplePartition) :
    repairedLog.log tp = [] :=
  if_neg h

theorem orderLog_mem {tp : TopicPartition} {msg : Message} (h : msg ∈ orderLog.log tp) :
    msg = datedMessage 0 := by
  by_cases htp : tp = samplePartition
  · subst htp
    exact List.mem_singleton.mp h
  · rw [orderLog_other htp] at h
    cases h

theorem datedMessage_replayable :
    Replayable repairRuntime.toPyRuntime fileConfig (datedMessage 0) where
  topic := by decide
  text b bs h := by
    have hutf8 : (decode? datedOrderBytes).isSome = true := by decide +kernel
    rw [← Option.some.inj h]
    exact hutf8
  value event _ := ⟨_, _, rfl⟩

/-- The failing message is recorded in the file. -/
theorem datedMessage_safe (c : Circumstances) (exc : PyExc)
    (hfaults : c.faults = { Faults.none with transaction := some exc })
    (hiso : encodable c.nowIso = true) (hexc : encodable exc.str = true) :
    Safe repairRuntime.toPyRuntime fileConfig (c.delivery (datedMessage 0)) := by
  have hevent : eventOf repairRuntime.toPyRuntime canonicalV1 (datedMessage 0) =
      .ok (.order datedOrder) := rfl
  obtain ⟨payload, normalized, hload, hnorm, hparse⟩ := eventOf_eq_ok.mp hevent
  have hprocess : process repairRuntime.toPyRuntime fileConfig (c.delivery (datedMessage 0)) =
      .error exc := by
    have hload' : loadPayload repairRuntime.toPyRuntime (c.delivery (datedMessage 0)).msg =
        .ok payload := hload
    have hnorm' : normalizePayloadForTopic repairRuntime.toPyRuntime
        (c.delivery (datedMessage 0)).msg.topic payload fileConfig.profile = .ok normalized := hnorm
    have hfaults' : (c.delivery (datedMessage 0)).faults =
      { Faults.none with transaction := some exc } := hfaults
    rw [process, hload']
    show handlePayload _ _ _ _ _ = _
    rw [handlePayload, hnorm', hfaults']
    show (parseEvent repairRuntime.toPyRuntime normalized >>= _) = _
    rw [hparse]
    rfl
  have hfixed : ∀ text ∈ rowTexts repairRuntime.toPyRuntime (c.delivery (datedMessage 0)) none ++
      [fileConfig.profile.profileId], encodable text = true := by
    have hall : ∀ text ∈ rowTexts repairRuntime.toPyRuntime
        ((sampleCircumstances 0).delivery (datedMessage 0)) none ++
          [fileConfig.profile.profileId], encodable text = true := by decide +kernel
    exact hall
  refine .inr (.inr ⟨none, exc, rfl, hprocess, .inr ⟨?_, ?_⟩⟩)
  · show c.faults.sinks.file = true
    rw [hfaults]
    rfl
  · intro text htext
    rcases List.mem_append.mp htext with htext | htext
    · exact hfixed text (List.mem_append_left _ htext)
    · simp only [lineTexts, List.mem_cons, List.not_mem_nil, or_false] at htext
      rcases htext with rfl | rfl | rfl
      · exact hexc
      · exact hfixed _ (List.mem_append_right _ List.mem_cons_self)
      · exact hiso

theorem repairRuntime_reads : ReadsJson repairRuntime sampleFloatOf := ⟨rfl, sampleFloats⟩

/-- What the replay publishes after the failing run. -/
theorem failingEvents_published :
    (runAll (Group.step repairRuntime.toPyRuntime fileConfig orderLog) (start .empty [] [])
      failingEvents).map (fun g => (replayAll repairRuntime g.world).1) =
        some [⟨py "payment.order.upserted", datedOrderBytes⟩] := by decide +kernel

theorem repairedLog_publishes :
    Publishes orderLog repairedLog [⟨py "payment.order.upserted", datedOrderBytes⟩] where
  grows tp := by
    by_cases htp : tp = samplePartition
    · subst htp
      exact List.prefix_append [datedMessage 0] [datedMessage 1]
    · rw [orderLog_other htp]
      exact List.nil_prefix
  only tp msg h := by
    by_cases htp : tp = samplePartition
    · subst htp
      rw [List.mem_singleton.mp (show msg ∈ [datedMessage 1] from h)]
      exact ⟨_, List.mem_cons_self, rfl, rfl⟩
    · rw [repairedLog_other htp, List.drop_nil] at h
      cases h
  all p h := by
    rw [List.mem_singleton.mp h]
    exact ⟨samplePartition, datedMessage 1, List.mem_cons_self, rfl, rfl⟩

end TxLookup.Scripts
