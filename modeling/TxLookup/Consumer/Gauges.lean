import TxLookup.Consumer.Metrics
import Mathlib.Algebra.Ring.Int.Defs

/-!
# What the gauges show after a run

The freshness and the lags are read before the transaction, so they follow the messages
the loop has got to and not those it has applied: a message counts for the freshness
of its topic as soon as its payload parses in an open session, and for the lag of its
partition in any case.
-/
namespace TxLookup.Consumer

open Library Db

variable (rt : PyRuntime) (config : AppConfig)

/-- The event of a message that gets to its upserts. -/
def measuredEvent (attempt : Attempt) : Option Event :=
  match attempt.faults.session, loadPayload rt attempt.msg with
  | none, .ok payload =>
    ((normalizePayloadForTopic rt attempt.msg.topic payload config.profile).bind
      (parseEvent rt)).toOption
  | _, _ => none

def freshnessCall (entry : Attempt × Readings) : Option FreshnessCall :=
  (measuredEvent rt config entry.1).map fun event =>
    ⟨entry.1.msg.topic, some event.measuredTime, entry.2.freshness⟩

def eventLag (entry : Attempt × Readings) : Option (PyStr × Int) :=
  (measuredEvent rt config entry.1).map fun event =>
    (entry.1.msg.topic, max 0 (entry.2.eventLag - event.measuredTime))

/-- The profile a message is counted under, if it is an object on a topic of the profile. -/
def profiled (entry : Attempt × Readings) : Option (PyStr × PyStr) :=
  match loadPayload rt entry.1.msg, config.profile.topicKind entry.1.msg.topic with
  | .ok _, some _ => some (entry.1.msg.topic, config.profile.profileId)
  | _, _ => none

def lagCalls (handled : List (Attempt × Readings)) : List LagCall :=
  handled.map fun entry => lagCall entry.1.msg entry.2

/-- The instruments that are written before the transaction of a message ends. -/
structure Sights where
  kafkaLag : List (PyStr × Int)
  freshness : FreshnessState
  eventLags : List (PyStr × Int)
  profileMessages : List (PyStr × PyStr)

def Instruments.sights (m : Instruments) : Sights :=
  ⟨m.kafkaLag, m.freshness, m.eventLags, m.profileMessages⟩

/-- The sights once a message has been handled. -/
def Sights.after (entry : Attempt × Readings) (sights : Sights) : Sights where
  kafkaLag := recordKafkaLag sights.kafkaLag entry.1.msg.topic entry.1.msg.partition
    (lagCall entry.1.msg entry.2).lag
  freshness := (freshnessCall rt config entry).elim sights.freshness sights.freshness.record
  eventLags := sights.eventLags ++ (eventLag rt config entry).toList
  profileMessages := sights.profileMessages ++ (profiled rt config entry).toList

variable {rt config}

theorem meterEvent_sights (attempt : Attempt) (event : Event) (db : Database) (m : Instruments) :
    (meterEvent attempt event db m).sights = m.sights := by
  unfold meterEvent
  split
  · split
    · rfl
    · dsimp only
      split
      · rfl
      · cases (upsertLedgerEntry attempt.env _ db).2.2 <;> rfl
  · rfl

theorem meterFailure_sights (topic : PyStr) (exc : PyExc) (m : Instruments) :
    (meterFailure config topic exc m).sights = m.sights := by
  unfold meterFailure
  dsimp only
  split_ifs <;> rfl

theorem after_of_none {attempt : Attempt} {readings : Readings} {label : Option (PyStr × PyStr)}
    (hevent : measuredEvent rt config attempt = none)
    (hlabel : profiled rt config (attempt, readings) = label) (m : Instruments) :
    { m.sights.after rt config (attempt, readings) with kafkaLag := m.kafkaLag } =
      (⟨m.kafkaLag, m.freshness, m.eventLags, m.profileMessages ++ label.toList⟩ : Sights) := by
  rw [Sights.after, freshnessCall, eventLag, hevent, hlabel]
  simp [Instruments.sights]

theorem after_of_some {attempt : Attempt} {readings : Readings} {label : Option (PyStr × PyStr)}
    {event : Event} (hevent : measuredEvent rt config attempt = some event)
    (hlabel : profiled rt config (attempt, readings) = label) (m : Instruments) :
    { m.sights.after rt config (attempt, readings) with kafkaLag := m.kafkaLag } =
      (⟨m.kafkaLag,
        m.freshness.record ⟨attempt.msg.topic, some event.measuredTime, readings.freshness⟩,
        m.eventLags ++ [(attempt.msg.topic, max 0 (readings.eventLag - event.measuredTime))],
        m.profileMessages ++ label.toList⟩ : Sights) := by
  rw [Sights.after, freshnessCall, eventLag, hevent, hlabel]
  rfl

theorem measuredEvent_of_error {attempt : Attempt} {payload : PyDict} {exc : PyExc}
    (hload : loadPayload rt attempt.msg = .ok payload)
    (hnorm : normalizePayloadForTopic rt attempt.msg.topic payload config.profile = .error exc) :
    measuredEvent rt config attempt = none := by
  unfold measuredEvent
  rw [hload]
  cases attempt.faults.session with
  | none => simp only [hnorm, Except.bind, Except.toOption]
  | some fault => rfl

/-- What the `try` block adds to the sights does not depend on how its transaction ends. -/
theorem meterPayload_sights {attempt : Attempt} {readings : Readings} {payload : PyDict}
    {db : Database} (hload : loadPayload rt attempt.msg = .ok payload) (m : Instruments) :
    (meterPayload rt config attempt readings payload db m).sights =
      { m.sights.after rt config (attempt, readings) with kafkaLag := m.kafkaLag } := by
  unfold meterPayload
  cases hkind : config.profile.topicKind attempt.msg.topic with
  | none =>
    have hnorm : ∃ exc, normalizePayloadForTopic rt attempt.msg.topic payload config.profile =
        .error exc := by
      rw [normalizePayloadForTopic, hkind]
      exact ⟨_, rfl⟩
    obtain ⟨exc, hnorm⟩ := hnorm
    have hevent := @measuredEvent_of_error rt config attempt _ _ hload hnorm
    have hlabel : profiled rt config (attempt, readings) = none := by
      simp only [profiled, hload, hkind]
    rw [after_of_none hevent hlabel]
    simp only [hkind, Option.toList_none, List.append_nil]
    rfl
  | some kind =>
    have hlabel : profiled rt config (attempt, readings) =
        some (attempt.msg.topic, config.profile.profileId) := by
      simp only [profiled, hload, hkind]
    cases hnorm : normalizePayloadForTopic rt attempt.msg.topic payload config.profile with
    | error exc =>
      have hevent := @measuredEvent_of_error rt config attempt _ _ hload hnorm
      rw [after_of_none hevent hlabel]
      simp only [hkind, hnorm]
      rfl
    | ok normalized =>
      cases hsession : attempt.faults.session with
      | some exc =>
        have hevent : measuredEvent rt config attempt = none := by
          rw [measuredEvent, hsession]
        rw [after_of_none hevent hlabel]
        simp only [hkind, hnorm]
        rfl
      | none =>
        cases hparse : parseEvent rt normalized with
        | error exc =>
          have hevent : measuredEvent rt config attempt = none := by
            simp only [measuredEvent, hsession, hload, hnorm, Except.bind, hparse, Except.toOption]
          rw [after_of_none hevent hlabel]
          simp only [hkind, hnorm, hparse]
          rfl
        | ok event =>
          have hevent : measuredEvent rt config attempt = some event := by
            simp only [measuredEvent, hsession, hload, hnorm, Except.bind, hparse, Except.toOption]
          rw [after_of_some hevent hlabel]
          simp only [hkind, hnorm, hparse]
          cases (InSession.process rt config attempt db).1 with
          | ok _ => exact meterEvent_sights attempt event db _
          | error _ => exact meterEvent_sights attempt event db _

theorem meterTry_sights (attempt : Attempt) (readings : Readings) (db : Database)
    (m : Instruments) : (meterTry rt config attempt readings db m).sights =
      { m.sights.after rt config (attempt, readings) with kafkaLag := m.kafkaLag } := by
  unfold meterTry
  cases hload : loadPayload rt attempt.msg with
  | ok payload => exact meterPayload_sights hload m
  | error exc =>
    have hevent : measuredEvent rt config attempt = none := by
      rw [measuredEvent, hload]
      cases attempt.faults.session <;> rfl
    have hlabel : profiled rt config (attempt, readings) = none := by
      simp only [profiled, hload]
    rw [after_of_none hevent hlabel, Option.toList_none, List.append_nil]
    rfl

theorem meterMessage_sights (attempt : Attempt) (readings : Readings) (db : Database)
    (m : Instruments) : (meterMessage rt config attempt readings db m).sights =
      m.sights.after rt config (attempt, readings) := by
  have htry := @meterTry_sights rt config attempt readings db
    (m.recordLag (lagCall attempt.msg readings))
  have hrest : (meterMessage rt config attempt readings db m).sights =
      (meterTry rt config attempt readings db
        (m.recordLag (lagCall attempt.msg readings))).sights := by
    unfold meterMessage
    dsimp only
    split
    · rfl
    · exact meterFailure_sights _ _ _
    · exact meterFailure_sights _ _ _
  rw [hrest, htry]
  rfl

/-! ## The pairs that are counted -/

/-- The log of the pairing metrics and the instruments behind it agree. -/
structure PairsAgree (m : Instruments) : Prop where
  total : m.pairing.total = m.pairTotal
  incomplete : m.pairing.incomplete = m.pairIncompleteTotal
  within : m.pairIncompleteTotal ≤ m.pairTotal
  ages : m.pairing.incompleteAgeSum = m.pairIncompleteAges.sum
  oldest : m.pairing.incompleteAgeMax = m.pairIncompleteAges.foldl max 0

theorem PairsAgree.recordPairing {m : Instruments} (h : PairsAgree m)
    (snapshot : Option PairingSnapshot) : PairsAgree (m.recordPairing snapshot) := by
  obtain ⟨htotal, hincomplete, hwithin, hages, holdest⟩ := h
  cases snapshot with
  | none => exact ⟨htotal, hincomplete, hwithin, hages, holdest⟩
  | some snapshot =>
    unfold Instruments.recordPairing PairingMetrics.record
    cases hcomplete : snapshot.complete with
    | true =>
      constructor <;> simp only [hcomplete, if_true, List.append_nil, Nat.add_zero]
      case total => omega
      case incomplete => exact hincomplete
      case within => omega
      case ages => exact hages
      case oldest => exact holdest
    | false =>
      constructor <;> simp only [hcomplete, Bool.false_eq_true, if_false]
      case total => omega
      case incomplete => omega
      case within => omega
      case ages =>
        rw [hages]
        cases snapshot.incompleteAge <;> simp
      case oldest =>
        rw [holdest]
        cases snapshot.incompleteAge <;> simp

theorem PairsAgree.meterEvent {m : Instruments} (h : PairsAgree m) (attempt : Attempt)
    (event : Event) (db : Database) : PairsAgree (meterEvent attempt event db m) := by
  have hskipped : ∀ entry, PairsAgree (m.recordSkipped entry) :=
    fun _ => ⟨h.total, h.incomplete, h.within, h.ages, h.oldest⟩
  unfold Consumer.meterEvent
  split
  · split
    · exact h
    · dsimp only
      split
      · exact hskipped _
      · exact (hskipped _).recordPairing _
  · exact h

/-- The instruments that `PairsAgree` is about. -/
def Instruments.pairs (m : Instruments) : PairingMetrics × Nat × Nat × List Int :=
  (m.pairing, m.pairTotal, m.pairIncompleteTotal, m.pairIncompleteAges)

theorem PairsAgree.of_pairs {m m' : Instruments} (h : PairsAgree m) (heq : m'.pairs = m.pairs) :
    PairsAgree m' := by
  simp only [Instruments.pairs, Prod.mk.injEq] at heq
  obtain ⟨hpairing, htotal, hincomplete, hages⟩ := heq
  constructor
  · rw [hpairing, htotal, h.total]
  · rw [hpairing, hincomplete, h.incomplete]
  · rw [hincomplete, htotal]
    exact h.within
  · rw [hpairing, hages, h.ages]
  · rw [hpairing, hages, h.oldest]

theorem PairsAgree.meterPayload {m : Instruments} (h : PairsAgree m) (attempt : Attempt)
    (readings : Readings) (payload : PyDict) (db : Database) :
    PairsAgree (meterPayload rt config attempt readings payload db m) := by
  unfold Consumer.meterPayload
  cases hkind : config.profile.topicKind attempt.msg.topic with
  | none =>
    simp only [hkind]
    exact h
  | some kind =>
    cases hnorm : normalizePayloadForTopic rt attempt.msg.topic payload config.profile with
    | error exc =>
      simp only [hkind, hnorm]
      exact h.of_pairs rfl
    | ok normalized =>
      cases hsession : attempt.faults.session with
      | some exc =>
        simp only [hkind, hnorm]
        exact h.of_pairs rfl
      | none =>
        cases hparse : parseEvent rt normalized with
        | error exc =>
          simp only [hkind, hnorm, hparse]
          exact h.of_pairs rfl
        | ok event =>
          simp only [hkind, hnorm, hparse]
          have hmeasured : PairsAgree (((m.recordContractProfileMessage attempt.msg.topic
              config.profile.profileId).recordContractMetrics attempt.msg.topic
              config.profile.profileId normalized.aliasHits).recordEventTime attempt.msg.topic
              event.measuredTime readings) := h.of_pairs rfl
          cases (InSession.process rt config attempt db).1 with
          | ok _ => exact (hmeasured.meterEvent attempt event db).of_pairs rfl
          | error _ => exact hmeasured.meterEvent attempt event db

theorem PairsAgree.meterMessage {m : Instruments} (h : PairsAgree m) (attempt : Attempt)
    (readings : Readings) (db : Database) :
    PairsAgree (meterMessage rt config attempt readings db m) := by
  have hlag : PairsAgree (m.recordLag (lagCall attempt.msg readings)) := h.of_pairs rfl
  have htry : PairsAgree (meterTry rt config attempt readings db
      (m.recordLag (lagCall attempt.msg readings))) := by
    unfold meterTry
    split
    · exact hlag.meterPayload attempt readings _ db
    · exact hlag
  have hfailure : ∀ exc, (meterFailure config attempt.msg.topic exc (meterTry rt config attempt
      readings db (m.recordLag (lagCall attempt.msg readings)))).pairs =
      (meterTry rt config attempt readings db (m.recordLag (lagCall attempt.msg readings))).pairs := by
    intro exc
    unfold meterFailure
    dsimp only
    split_ifs <;> rfl
  unfold Consumer.meterMessage
  dsimp only
  split
  · exact htry.of_pairs rfl
  · exact htry.of_pairs (hfailure _)
  · exact htry.of_pairs (hfailure _)

/-! ## Every run -/

variable (rt config)

/-- The sights are those of the messages handled so far, and the pairs agree. -/
structure Observed (s : Metered) : Prop where
  kafkaLag : s.instruments.kafkaLag = recordLags (lagCalls s.handled)
  freshness : s.instruments.freshness = recordAll (s.handled.filterMap (freshnessCall rt config))
  eventLags : s.instruments.eventLags = s.handled.filterMap (eventLag rt config)
  profileMessages : s.instruments.profileMessages = s.handled.filterMap (profiled rt config)
  pairs : PairsAgree s.instruments

theorem Observed.start (db : Database) (dlqEvents : List ConsumerDlqEvent)
    (dlqFile : List PyStr) : Observed rt config (.start db dlqEvents dlqFile) where
  kafkaLag := rfl
  freshness := rfl
  eventLags := rfl
  profileMessages := rfl
  pairs := ⟨rfl, rfl, Nat.le_refl 0, rfl, rfl⟩

variable {rt config}

theorem Observed.iterate {s : Metered} (h : Observed rt config s) (polled : Polled) :
    Observed rt config (s.iterate rt config polled) := by
  cases polled with
  | message attempt readings =>
    have hsights := @meterMessage_sights rt config attempt readings s.loop.world.db s.instruments
    simp only [Instruments.sights, Sights.after, Sights.mk.injEq] at hsights
    obtain ⟨hlag, hfreshness, heventLags, hprofiled⟩ := hsights
    constructor
    · simp only [Metered.iterate]
      rw [hlag, h.kafkaLag, lagCalls, lagCalls, List.map_append, recordLags, recordLags,
        List.foldl_append]
      rfl
    · simp only [Metered.iterate]
      rw [hfreshness, h.freshness, List.filterMap_append, recordAll, recordAll, List.foldl_append]
      cases hcall : freshnessCall rt config (attempt, readings) with
      | none => rw [List.filterMap_cons_none hcall]; rfl
      | some call => rw [List.filterMap_cons_some hcall]; rfl
    · simp only [Metered.iterate]
      rw [heventLags, h.eventLags, List.filterMap_append]
      cases hlag : eventLag rt config (attempt, readings) with
      | none => rw [List.filterMap_cons_none hlag]; rfl
      | some lag => rw [List.filterMap_cons_some hlag]; rfl
    · simp only [Metered.iterate]
      rw [hprofiled, h.profileMessages, List.filterMap_append]
      cases hlabel : profiled rt config (attempt, readings) with
      | none => rw [List.filterMap_cons_none hlabel]; rfl
      | some label => rw [List.filterMap_cons_some hlabel]; rfl
    · exact h.pairs.meterMessage attempt readings s.loop.world.db
  | _ => exact ⟨h.kafkaLag, h.freshness, h.eventLags, h.profileMessages, h.pairs⟩

theorem Observed.run (maxMessages : Option Int) (polls : List Polled) {s : Metered}
    (h : Observed rt config s) : Observed rt config (s.run rt config maxMessages polls) := by
  induction polls generalizing s with
  | nil => exact h
  | cons polled rest ih =>
    unfold Metered.run
    split_ifs
    · exact ⟨h.kafkaLag, h.freshness, h.eventLags, h.profileMessages, h.pairs⟩
    · exact ih (h.iterate polled)
    · exact h

variable (rt config)

/-- After every run the freshness of a topic is the age its latest event had when the last
message that parsed in an open session was handled, whether or not the transaction was
committed; the lag callback exports the lag of each partition at its last message; and the
pairing counters agree with the figures that are logged. -/
theorem gauges_exact (maxMessages : Option Int) (db : Database)
    (dlqEvents : List ConsumerDlqEvent) (dlqFile : List PyStr) (polls : List Polled) :
    let metered := (Metered.start db dlqEvents dlqFile).run rt config maxMessages polls
    (∀ topic, exported metered.instruments.freshness topic =
      (shownAge (metered.handled.filterMap (freshnessCall rt config)) topic).toList) ∧
    (∃ observations, kafkaLagCallback metered.instruments.kafkaLag = some observations ∧
      (observations.map fun o => (o.topic, o.partition)).Nodup ∧
      ∀ o : LagObservation, o ∈ observations ↔ ∃ partition, o.partition = dumpInt partition ∧
        lastLag (lagCalls metered.handled) o.topic partition = some o.value) ∧
    metered.instruments.eventLags = metered.handled.filterMap (eventLag rt config) ∧
    metered.instruments.profileMessages = metered.handled.filterMap (profiled rt config) ∧
    PairsAgree metered.instruments := by
  have h := (Observed.start rt config db dlqEvents dlqFile).run maxMessages polls
  refine ⟨fun topic => ?_, ?_, h.eventLags, h.profileMessages, h.pairs⟩
  · rw [h.freshness]
    exact exported_eq _ topic
  · rw [h.kafkaLag]
    exact lag_gauge_exact _

end TxLookup.Consumer
