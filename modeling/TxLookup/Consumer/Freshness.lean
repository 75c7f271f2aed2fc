import TxLookup.Db.Models
import TxLookup.Library.Assoc

/-!
# The freshness gauge

`record` keeps the latest event time of a topic, and stores how old it is at the
moment of the call; the callback exports what is stored. So the gauge shows the
age the latest event had when the topic last recorded one, and stands still while
the topic is silent. Ages are kept in microseconds.
-/
namespace TxLookup.Consumer

open Library Db

/-- `FreshnessTracker.last_event_time` and `_freshness_values`. -/
structure FreshnessState where
  lastEventTime : List (PyStr × DateTime)
  freshnessValues : List (PyStr × Int)

/-- One call of `record`, with the clock reading it takes. -/
structure FreshnessCall where
  topic : PyStr
  eventTime : Option DateTime
  now : DateTime

namespace FreshnessState

def empty : FreshnessState := ⟨[], []⟩

def record (state : FreshnessState) (call : FreshnessCall) : FreshnessState :=
  match call.eventTime with
  | none => state
  | some eventTime =>
    let lastEventTime := match state.lastEventTime.lookup call.topic with
      | none => Assoc.set state.lastEventTime call.topic eventTime
      | some last =>
        if last < eventTime then Assoc.set state.lastEventTime call.topic eventTime
        else state.lastEventTime
    match lastEventTime.lookup call.topic with
    | none => { state with lastEventTime }
    | some latest =>
      { lastEventTime
        freshnessValues :=
          Assoc.set state.freshnessValues call.topic (max 0 (call.now - latest)) }

end FreshnessState

/-- The state after a list of calls on a new tracker. -/
def recordAll (calls : List FreshnessCall) : FreshnessState :=
  calls.foldl FreshnessState.record FreshnessState.empty

structure Observation where
  value : Int
  topic : PyStr

def freshnessCallback (state : FreshnessState) : List Observation :=
  state.freshnessValues.map (fun kv => ⟨kv.2, kv.1⟩)

/-- The values the gauge exports for a topic. -/
def exported (state : FreshnessState) (topic : PyStr) : List Int :=
  ((freshnessCallback state).filter (fun o => o.topic = topic)).map (·.value)

/-! ## What was recorded -/

/-- The event time and the clock reading of a call that records for the topic. -/
def FreshnessCall.recorded (topic : PyStr) (call : FreshnessCall) : Option (DateTime × DateTime) :=
  if call.topic = topic then call.eventTime.map (fun t => (t, call.now)) else none

/-- The latest event time recorded for a topic. -/
def maxEventTime (calls : List FreshnessCall) (topic : PyStr) : Option DateTime :=
  ((calls.filterMap (·.recorded topic)).map Prod.fst).max?

/-- The clock reading of the last call that recorded an event time for a topic. -/
def lastReading (calls : List FreshnessCall) (topic : PyStr) : Option DateTime :=
  ((calls.filterMap (·.recorded topic)).map Prod.snd).getLast?

/-- The gauge shows the age of the latest event at the time `t`, and nothing for
a topic without events. -/
def GaugeCurrent (calls : List FreshnessCall) (topic : PyStr) (t : DateTime) : Prop :=
  exported (recordAll calls) topic =
    ((maxEventTime calls topic).map (fun latest => max 0 (t - latest))).toList

instance (calls : List FreshnessCall) (topic : PyStr) (t : DateTime) :
    Decidable (GaugeCurrent calls topic t) := inferInstanceAs (Decidable (_ = _))

section
variable {calls : List FreshnessCall} {call : FreshnessCall} {topic : PyStr}

theorem recorded_silent (h : call.recorded topic = none) :
    (calls ++ [call]).filterMap (·.recorded topic) = calls.filterMap (·.recorded topic) := by
  rw [List.filterMap_append, List.filterMap_cons_none h, List.filterMap_nil, List.append_nil]

theorem recorded_concat {entry : DateTime × DateTime} (h : call.recorded topic = some entry) :
    (calls ++ [call]).filterMap (·.recorded topic) =
      calls.filterMap (·.recorded topic) ++ [entry] := by
  rw [List.filterMap_append, List.filterMap_cons_some h, List.filterMap_nil]

theorem lastReading_of_recorded {t now : DateTime} (h : call.recorded topic = some (t, now)) :
    lastReading (calls ++ [call]) topic = some now := by
  rw [lastReading, recorded_concat h, List.map_append]
  exact List.getLast?_concat

/-- A recorded event time takes part in the maximum. -/
theorem maxEventTime_of_recorded {t now : DateTime} (h : call.recorded topic = some (t, now)) :
    maxEventTime (calls ++ [call]) topic =
      some (((maxEventTime calls topic).map (fun latest => max latest t)).getD t) := by
  rw [maxEventTime, maxEventTime, recorded_concat h, List.map_append]
  cases (calls.filterMap (·.recorded topic)).map Prod.fst with
  | nil => rfl
  | cons x times =>
    rw [List.cons_append, List.max?_cons', List.max?_cons', List.foldl_append]
    rfl

end

/-! ## One call -/

/-- The latest event time of the topic once `eventTime` is recorded. -/
def FreshnessState.latestWith (state : FreshnessState) (topic : PyStr) (eventTime : DateTime) :
    DateTime :=
  ((state.lastEventTime.lookup topic).map (fun last => max last eventTime)).getD eventTime

/-- A call with an event time writes both entries of its topic, and these alone. -/
theorem record_of_some (state : FreshnessState) {call : FreshnessCall} {eventTime : DateTime}
    (h : call.eventTime = some eventTime) :
    ∃ lastEventTime,
      (∀ topic, lastEventTime.lookup topic =
        if topic = call.topic then some (state.latestWith call.topic eventTime)
        else state.lastEventTime.lookup topic) ∧
      state.record call =
        { lastEventTime
          freshnessValues := Assoc.set state.freshnessValues call.topic
            (max 0 (call.now - state.latestWith call.topic eventTime)) } := by
  have hset : ∀ latest, (Assoc.set state.lastEventTime call.topic latest).lookup call.topic =
      some latest := by
    intro latest
    rw [Assoc.lookup_set, if_pos rfl]
  unfold FreshnessState.record FreshnessState.latestWith
  rw [h]
  cases hlast : state.lastEventTime.lookup call.topic with
  | none =>
    refine ⟨_, fun topic => Assoc.lookup_set _ _ _ _, ?_⟩
    simp only [hset, Option.map_none, Option.getD_none]
  | some last =>
    by_cases hlater : last < eventTime
    · have hmax : max last eventTime = eventTime := max_eq_right hlater.le
      refine ⟨_, fun topic => Assoc.lookup_set _ _ _ _, ?_⟩
      simp only [if_pos hlater, hset, Option.map_some, Option.getD_some, hmax]
    · have hmax : max last eventTime = last := max_eq_left (not_lt.mp hlater)
      refine ⟨state.lastEventTime, fun topic => ?_, ?_⟩
      · simp only [Option.map_some, Option.getD_some, hmax]
        split
        · next htopic => rw [htopic, hlast]
        · rfl
      · simp only [if_neg hlater, hlast, Option.map_some, Option.getD_some, hmax]

/-! ## Every run -/

/-- The age the latest event had at the last reading. -/
def shownAge (calls : List FreshnessCall) (topic : PyStr) : Option Int :=
  (maxEventTime calls topic).bind fun latest =>
    (lastReading calls topic).map fun now => max 0 (now - latest)

/-- The tracker holds the maxima of the calls, the gauge the ages at the last readings. -/
structure Tracks (calls : List FreshnessCall) (state : FreshnessState) : Prop where
  latest : ∀ topic, state.lastEventTime.lookup topic = maxEventTime calls topic
  shown : ∀ topic, state.freshnessValues.lookup topic = shownAge calls topic
  keys : (Assoc.keys state.freshnessValues).Nodup

theorem tracks_empty : Tracks [] FreshnessState.empty where
  latest _ := rfl
  shown _ := rfl
  keys := List.nodup_nil

theorem Tracks.record {calls : List FreshnessCall} {state : FreshnessState}
    (h : Tracks calls state) (call : FreshnessCall) :
    Tracks (calls ++ [call]) (state.record call) := by
  have hsilent : ∀ topic, call.recorded topic = none →
      maxEventTime (calls ++ [call]) topic = maxEventTime calls topic ∧
        shownAge (calls ++ [call]) topic = shownAge calls topic := by
    intro topic hnone
    rw [shownAge, maxEventTime, lastReading, recorded_silent hnone]
    exact ⟨rfl, rfl⟩
  cases hevent : call.eventTime with
  | none =>
    have hrecord : state.record call = state := by
      unfold FreshnessState.record
      rw [hevent]
    have hnone : ∀ topic, call.recorded topic = none := by
      intro topic
      rw [FreshnessCall.recorded, hevent]
      exact ite_self none
    rw [hrecord]
    exact ⟨fun topic => (h.latest topic).trans (hsilent topic (hnone topic)).1.symm,
      fun topic => (h.shown topic).trans (hsilent topic (hnone topic)).2.symm, h.keys⟩
  | some eventTime =>
    obtain ⟨times, htimes, hrecord⟩ := record_of_some state hevent
    have hmine : call.recorded call.topic = some (eventTime, call.now) := by
      rw [FreshnessCall.recorded, if_pos rfl, hevent, Option.map_some]
    have hmax : maxEventTime (calls ++ [call]) call.topic =
        some (state.latestWith call.topic eventTime) := by
      rw [maxEventTime_of_recorded hmine, FreshnessState.latestWith, h.latest]
    have hother : ∀ topic, topic ≠ call.topic → call.recorded topic = none :=
      fun topic hne => if_neg (Ne.symm hne)
    rw [hrecord]
    refine ⟨fun topic => ?_, fun topic => ?_, Assoc.nodup_keys_set h.keys _ _⟩
    · by_cases htopic : topic = call.topic
      · rw [htimes, if_pos htopic, htopic, hmax]
      · rw [htimes, if_neg htopic, h.latest, (hsilent topic (hother topic htopic)).1]
    · by_cases htopic : topic = call.topic
      · rw [Assoc.lookup_set, if_pos htopic, htopic, shownAge, hmax,
          lastReading_of_recorded hmine]
        rfl
      · rw [Assoc.lookup_set, if_neg htopic, h.shown, (hsilent topic (hother topic htopic)).2]

theorem tracks_recordAll (calls : List FreshnessCall) : Tracks calls (recordAll calls) := by
  induction calls using List.reverseRecOn with
  | nil => exact tracks_empty
  | append_singleton calls call ih =>
    have hstep : recordAll (calls ++ [call]) = (recordAll calls).record call :=
      List.foldl_concat _ _ _ _
    rw [hstep]
    exact ih.record call

/-- The gauge exports one value for a topic with events, and none for the others. -/
theorem exported_eq (calls : List FreshnessCall) (topic : PyStr) :
    exported (recordAll calls) topic = (shownAge calls topic).toList := by
  have h := tracks_recordAll calls
  rw [← h.shown topic, ← Assoc.values_filter_key h.keys topic, exported, freshnessCallback,
    List.filter_map, List.map_map]
  rfl

/-- A topic with an event has a last reading. -/
theorem lastReading_of_max {calls : List FreshnessCall} {topic : PyStr} {latest : DateTime}
    (h : maxEventTime calls topic = some latest) : ∃ now, lastReading calls topic = some now := by
  rw [maxEventTime] at h
  rw [lastReading]
  cases hrecorded : calls.filterMap (·.recorded topic) with
  | nil =>
    rw [hrecorded] at h
    cases h
  | cons x recorded => exact ⟨_, List.getLast?_cons⟩

/-! ## When the gauge is current -/

/-- The time is that of the last reading, or neither is after the latest event. -/
def ReadNow (calls : List FreshnessCall) (topic : PyStr) (t : DateTime) : Prop :=
  ∀ latest now, maxEventTime calls topic = some latest → lastReading calls topic = some now →
    now = t ∨ (now ≤ latest ∧ t ≤ latest)

theorem age_eq_iff (now t latest : Int) :
    max 0 (now - latest) = max 0 (t - latest) ↔ now = t ∨ (now ≤ latest ∧ t ≤ latest) := by
  omega

theorem age_mono {now t : Int} (h : now ≤ t) (latest : Int) :
    max 0 (now - latest) ≤ max 0 (t - latest) := by
  omega

/-- The exported value is the current age exactly at the last reading, but for
events that lie in the future, whose age is zero throughout. -/
theorem gauge_current_iff (calls : List FreshnessCall) (topic : PyStr) (t : DateTime) :
    GaugeCurrent calls topic t ↔ ReadNow calls topic t := by
  rw [GaugeCurrent, exported_eq, shownAge]
  cases hmax : maxEventTime calls topic with
  | none =>
    constructor
    · intro _ latest now hlatest
      rw [hmax] at hlatest
      cases hlatest
    · exact fun _ => rfl
  | some latest =>
    obtain ⟨now, hnow⟩ := lastReading_of_max hmax
    rw [hnow, Option.bind_some, Option.map_some, Option.map_some, Option.toList_some,
      Option.toList_some, List.cons.injEq, and_iff_left rfl, age_eq_iff]
    constructor
    · intro h latest' now' hlatest' hnow'
      obtain rfl := Option.some.inj (hmax.symm.trans hlatest')
      obtain rfl := Option.some.inj (hnow.symm.trans hnow')
      exact h
    · exact fun h => h latest now hmax hnow

/-- An event recorded one second after it happened, and then an hour of silence. -/
def silentCalls : List FreshnessCall := [⟨py "ledger.entry.upserted", some 0, 1000000⟩]

theorem silentCalls_not_current :
    ¬ GaugeCurrent silentCalls (py "ledger.entry.upserted") 3601000000 := by decide

/-- After the last reading the gauge can only be too low. -/
theorem exported_le_age {calls : List FreshnessCall} {topic : PyStr} {latest now t : DateTime}
    (hlatest : maxEventTime calls topic = some latest) (hnow : lastReading calls topic = some now)
    (hlater : now ≤ t) :
    ∀ value ∈ exported (recordAll calls) topic, value ≤ max 0 (t - latest) := by
  intro value hvalue
  rw [exported_eq, shownAge, hlatest, hnow] at hvalue
  rw [List.mem_singleton.mp hvalue]
  exact age_mono hlater latest

end TxLookup.Consumer
