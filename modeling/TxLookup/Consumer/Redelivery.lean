import TxLookup.Consumer.Arrival
import TxLookup.Consumer.Group

/-!
# Redelivered messages

A message can be applied by several owners, each time in another place of the
run. While the business tables work, all accepted messages below the committed
offsets have been applied and nothing else has; under the arrival contract the
tables then agree with those of any run that applies each message once.
-/
namespace TxLookup.Consumer

open Library Library.Runs Db Db.LatestWins

variable (rt : PyRuntime) (config : AppConfig)

/-- The events of the accepted messages in these partitions. -/
def Broker.events (broker : Broker) (tps : List TopicPartition) : List Event :=
  tps.flatMap fun tp => (broker.log tp).filterMap fun msg =>
    (eventOf rt config.profile msg).toOption

/-- The session opens and its transaction commits. -/
def TablesWork (delivery : Delivery) : Prop :=
  delivery.faults.session = none ∧ delivery.faults.transaction = none

/-- The effect applies the event of the message, if it has one. -/
def AppliesEvent (msg : Message) (e : Effect) : Prop :=
  ∀ event, eventOf rt config.profile msg = .ok event → ∃ call, e = .applied msg call ∧
    call.event = event

/-- The trace applies messages of the logs only, each as its event. -/
def AppliesLogs (broker : Broker) (trace : List Effect) : Prop :=
  ∀ msg call, .applied msg call ∈ trace →
    (∃ tp, msg ∈ broker.log tp) ∧ eventOf rt config.profile msg = .ok call.event

variable {rt config}

theorem mem_brokerEvents {broker : Broker} {tps : List TopicPartition} {event : Event} :
    event ∈ broker.events rt config tps ↔ ∃ tp ∈ tps, ∃ msg ∈ broker.log tp,
      eventOf rt config.profile msg = .ok event := by
  simp only [Broker.events, List.mem_flatMap, List.mem_filterMap]
  refine exists_congr fun tp => and_congr_right fun _ => exists_congr fun msg =>
    and_congr_right fun _ => ?_
  cases eventOf rt config.profile msg <;> simp [Except.toOption]

theorem eventOf_of_process {delivery : Delivery} {event : Event}
    (h : process rt config delivery = .ok event) :
    eventOf rt config.profile delivery.msg = .ok event := by
  obtain ⟨payload, normalized, hload, hnorm, -, hparse, -⟩ := (process_eq_ok delivery event).mp h
  exact eventOf_eq_ok.mpr ⟨payload, normalized, hload, hnorm, hparse⟩

theorem TablesWork.process {delivery : Delivery} {event : Event} (h : TablesWork delivery)
    (hevent : eventOf rt config.profile delivery.msg = .ok event) :
    Consumer.process rt config delivery = .ok event := by
  obtain ⟨payload, normalized, hload, hnorm, hparse⟩ := eventOf_eq_ok.mp hevent
  exact (process_eq_ok delivery event).mpr
    ⟨payload, normalized, hload, hnorm, h.1, hparse, h.2⟩

theorem applied_of_handlerEffects {delivery : Delivery} {exc : PyExc} {msg : Message} {call : Call} :
    .applied msg call ∉ handlerEffects rt config delivery exc := by
  unfold handlerEffects
  cases decodedKey delivery.msg with
  | error keyExc => exact List.not_mem_nil
  | ok key => simp

/-- An iteration applies its own message, as its event. -/
theorem applied_of_effects {delivery : Delivery} {msg : Message} {call : Call}
    (h : .applied msg call ∈ effects rt config delivery) :
    msg = delivery.msg ∧ eventOf rt config.profile msg = .ok call.event := by
  unfold effects at h
  cases hp : process rt config delivery with
  | error exc =>
    rw [hp] at h
    exact absurd h applied_of_handlerEffects
  | ok event =>
    rw [hp] at h
    have hmem : Effect.applied msg call = .applied delivery.msg ⟨event, delivery.env⟩ := by
      rcases List.mem_append.mp h with h | h
      · simpa using h
      · cases hfault : delivery.faults.commitAfterApply with
        | none =>
          rw [hfault] at h
          cases h
        | some exc =>
          rw [hfault] at h
          exact absurd h applied_of_handlerEffects
    cases hmem
    exact ⟨rfl, eventOf_of_process hp⟩

theorem TablesWork.applies {delivery : Delivery} (h : TablesWork delivery)
    (hcommit : .offsetCommit delivery.msg true ∈ effects rt config delivery) :
    ∃ e ∈ effects rt config delivery, AppliesEvent rt config delivery.msg e := by
  cases hevent : eventOf rt config.profile delivery.msg with
  | error exc =>
    refine ⟨_, hcommit, fun event hok => ?_⟩
    rw [hevent] at hok
    cases hok
  | ok event =>
    refine ⟨.applied delivery.msg ⟨event, delivery.env⟩, ?_, fun event' hok => ?_⟩
    · rw [effects, h.process hevent]
      exact List.mem_append_left _ List.mem_cons_self
    · cases hevent.symm.trans hok
      exact ⟨_, rfl, rfl⟩

namespace Group

variable {broker : Broker}

theorem appliesLogs_start (db : Database) (dlqEvents : List ConsumerDlqEvent)
    (dlqFile : List PyStr) : AppliesLogs rt config broker (start db dlqEvents dlqFile).world.trace :=
  fun _ _ hmem => absurd hmem List.not_mem_nil

theorem appliesLogs_run {g g' : Group} {events : List GroupEvent}
    (hstart : AppliesLogs rt config broker g.world.trace)
    (h : runAll (step rt config broker) g events = some g') :
    AppliesLogs rt config broker g'.world.trace := by
  refine @invariant_of_steps _ _ _ (fun g => AppliesLogs rt config broker g.world.trace) ?_ _ _ _
    hstart h
  intro g event g' hinv hstep msg call hmem
  obtain ⟨now, es, hworld, hes⟩ := step_performs hstep
  rw [hworld, perform_trace] at hmem
  rcases List.mem_append.mp hmem with hold | hnew
  · exact hinv msg call hold
  · rcases hes with rfl | ⟨tp, c, taken, htaken, hfront⟩
    · exact absurd hnew List.not_mem_nil
    · obtain ⟨rfl, hevent⟩ := applied_of_effects (hfront.subset hnew)
      exact ⟨⟨tp, List.mem_of_getElem? htaken⟩, hevent⟩

theorem mem_appliedCalls {trace : List Effect} {call : Call} :
    call ∈ appliedCalls trace ↔ ∃ msg, .applied msg call ∈ trace := by
  simp only [appliedCalls, List.mem_filterMap]
  constructor
  · rintro ⟨e, he, hcall⟩
    cases e with
    | applied msg call' =>
      cases hcall
      exact ⟨msg, he⟩
    | recorded sink payload => cases hcall
    | offsetCommit msg succeeded => cases hcall
  · rintro ⟨msg, hmem⟩
    exact ⟨_, hmem, rfl⟩

/-- When everything is committed, exactly the accepted messages have been applied. -/
theorem applied_events {tps : List TopicPartition} (hcover : ∀ tp, broker.log tp ≠ [] → tp ∈ tps)
    {events : List GroupEvent} {g : Group} {db : Database} {dlqEvents : List ConsumerDlqEvent}
    {dlqFile : List PyStr}
    (hworks : Meets (step rt config broker) (Delivers broker TablesWork)
      (start db dlqEvents dlqFile) events)
    (hrun : runAll (step rt config broker) (start db dlqEvents dlqFile) events = some g)
    (hdone : ∀ tp ∈ tps, g.committed tp = (broker.log tp).length) (event : Event) :
    event ∈ eventsOf (appliedCalls g.world.trace) ↔ event ∈ broker.events rt config tps := by
  rw [mem_brokerEvents, eventsOf, List.mem_map]
  constructor
  · rintro ⟨call, hcall, rfl⟩
    obtain ⟨msg, hmem⟩ := mem_appliedCalls.mp hcall
    obtain ⟨⟨tp, hmsg⟩, hevent⟩ := appliesLogs_run (appliesLogs_start _ _ _) hrun msg call hmem
    exact ⟨tp, hcover tp (List.ne_nil_of_mem hmsg), msg, hmsg, hevent⟩
  · rintro ⟨tp, htp, msg, hmsg, hevent⟩
    have hprogress : Progress broker (AppliesEvent rt config) g :=
      progress_run (fun delivery hok hcommit => hok.applies hcommit) (progress_start _ _ _) hworks
        hrun
    obtain ⟨i, hi, hget⟩ := List.getElem_of_mem hmsg
    have hbefore : i < g.position tp := (hi.trans_eq (hdone tp htp).symm).trans_le
      (hprogress.committed_le tp)
    obtain ⟨e, he, happlies⟩ := hprogress.done_before tp i msg hbefore
      (List.getElem?_eq_some_iff.mpr ⟨hi, hget⟩)
    obtain ⟨call, rfl, hcall⟩ := happlies event hevent
    exact ⟨call, mem_appliedCalls.mpr ⟨msg, he⟩, hcall⟩

/-- An order with an update stamp. -/
def datedOrderBytes : Bytes :=
  (py "\x7b\"order_id\": \"po-1\", \"amount\": 10, \"status\": \"PAID\", " ++
    py "\"created_at\": \"2026-01-01T00:00:00Z\", \"version\": 1\x7d").map UInt8.ofNat

def datedRuntime : PyRuntime :=
  { sampleRuntime with
    jsonLoads := fun bs =>
      if bs = datedOrderBytes then .ok (.obj [(py "order_id", .str (py "po-1")),
        (py "amount", .int 10), (py "status", .str (py "PAID")),
        (py "created_at", .str (py "2026-01-01T00:00:00Z")), (py "version", .int 1)])
      else sampleRuntime.jsonLoads bs
    intOf := fun
      | .int n => some n
      | _ => none }

def datedBroker : Broker := .single samplePartition [some datedOrderBytes, none]

/-- The event of the order. -/
def datedOrder : PaymentOrderUpserted where
  orderId := py "po-1"
  userId := none
  merchantName := none
  amount := .finite false 10 0
  status := py "PAID"
  createdAt := 1767225600000000
  updatedAt := none
  sourceVersion := some 1
  orderId_ne := by decide
  status_ne := by decide

theorem datedOrder_contract : ArrivalContract [.order datedOrder] where
  sameRelation := by unfold SameRelation; decide
  relatedType := by decide
  oneLeg := by intro leg; cases leg <;> decide
  ledgerClass := fun k => ⟨.sourceVersion, nofun, fun r hr => absurd hr List.not_mem_nil⟩
  ledgerTies := by intro c; cases c <;> decide
  orderClass := by
    have hversioned : ∀ r ∈ orderProposals [.order datedOrder],
        MetadataClass.sourceVersion.Holds (paymentOrdersStamped.stamp r) := by decide
    exact fun k => ⟨.sourceVersion, nofun, fun r hr _ => hversioned r hr⟩
  orderTies := by intro c; cases c <;> decide

end Group

end TxLookup.Consumer
