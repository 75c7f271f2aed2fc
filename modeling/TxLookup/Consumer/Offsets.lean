import TxLookup.Consumer.DeadLetters
import TxLookup.Library.Fold

/-!
# Committed offsets

The offset of a message is committed when its transaction is, and also after its
record has been handed to the dead-letter sinks. A message is kept if it is in
the database or in a record; it can be lost when both sinks refuse the record,
and the loop can be left without a commit when the key does not decode.
-/
namespace TxLookup.Consumer

open Library Library.PyText Db

variable (rt : PyRuntime) (config : AppConfig)

/-! ## What the `try` block accepts -/

/-- Topic and value of the message make an event of the contract. -/
def Accepted (profile : EventContractProfile) (msg : Message) : Prop :=
  ∃ payload normalized event, loadPayload rt msg = .ok payload ∧
    normalizePayloadForTopic rt msg.topic payload profile = .ok normalized ∧
    parseEvent rt normalized = .ok event

/-- The message is accepted, and so is its transaction. -/
def Applies (delivery : Delivery) : Prop :=
  Accepted rt config.profile delivery.msg ∧ delivery.faults.session = none ∧
    delivery.faults.transaction = none

/-- The key is absent, empty or UTF-8. -/
def KeyReadable (msg : Message) : Prop :=
  ∀ b bs, msg.key = some (b :: bs) → (decode? (b :: bs)).isSome = true

/-- The message is applied, or it never comes to an offset commit, or a sink
takes its record. -/
def Safe (delivery : Delivery) : Prop :=
  Applies rt config delivery ∨ ¬ KeyReadable delivery.msg ∨
    ∃ key exc, decodedKey delivery.msg = .ok key ∧ process rt config delivery = .error exc ∧
      (TableTakes rt config delivery key ∨ FileTakes rt config delivery key exc)

variable {rt config}

theorem raiseIf_eq_ok {fault : Option PyExc} {u : Unit} : raiseIf fault = .ok u ↔ fault = none := by
  cases fault with
  | none => simp [raiseIf]
  | some exc => simp [raiseIf]

theorem process_eq_ok (delivery : Delivery) (event : Event) :
    process rt config delivery = .ok event ↔
      ∃ payload normalized, loadPayload rt delivery.msg = .ok payload ∧
        normalizePayloadForTopic rt delivery.msg.topic payload config.profile = .ok normalized ∧
        delivery.faults.session = none ∧ parseEvent rt normalized = .ok event ∧
        delivery.faults.transaction = none := by
  simp only [process, handlePayload, bind_eq_ok, raiseIf_eq_ok]
  constructor
  · rintro ⟨payload, hload, normalized, hnorm, _, hsession, parsed, hparse, _, htrans, hret⟩
    cases hret
    exact ⟨payload, normalized, hload, hnorm, hsession, hparse, htrans⟩
  · rintro ⟨payload, normalized, hload, hnorm, hsession, hparse, htrans⟩
    exact ⟨payload, hload, normalized, hnorm, (), hsession, event, hparse, (), htrans, rfl⟩

theorem applies_iff (delivery : Delivery) :
    Applies rt config delivery ↔ ∃ event, process rt config delivery = .ok event := by
  constructor
  · rintro ⟨⟨payload, normalized, event, hload, hnorm, hparse⟩, hsession, htrans⟩
    exact ⟨event, (process_eq_ok delivery event).mpr
      ⟨payload, normalized, hload, hnorm, hsession, hparse, htrans⟩⟩
  · rintro ⟨event, h⟩
    obtain ⟨payload, normalized, hload, hnorm, hsession, hparse, htrans⟩ :=
      (process_eq_ok delivery event).mp h
    exact ⟨⟨payload, normalized, event, hload, hnorm, hparse⟩, hsession, htrans⟩

theorem not_applies {delivery : Delivery} {exc : PyExc}
    (h : process rt config delivery = .error exc) : ¬ Applies rt config delivery := by
  rw [applies_iff]
  rintro ⟨event, hok⟩
  rw [h] at hok
  cases hok

theorem keyReadable_of_ok {msg : Message} {key : Option PyStr} (h : decodedKey msg = .ok key) :
    KeyReadable msg := by
  intro b bs hkey
  rw [decodedKey, hkey] at h
  cases hd : decode? (b :: bs) with
  | some s => rfl
  | none =>
    simp only [hd] at h
    cases h

theorem not_keyReadable_of_error {msg : Message} {exc : PyExc} (h : decodedKey msg = .error exc) :
    ¬ KeyReadable msg := by
  intro hread
  unfold decodedKey at h
  split at h
  · next b bs hkey =>
    have hsome := hread b bs hkey
    split at h
    · cases h
    · next hnone =>
      rw [hnone] at hsome
      cases hsome
  · cases h

/-! ## What an iteration does -/

variable (rt config)

/-- The record, if a sink stores it, and the offset commit. -/
def handlerEffects (delivery : Delivery) (exc : PyExc) : List Effect :=
  match decodedKey delivery.msg with
  | .error _ => []
  | .ok key =>
    let payload := dlqPayload rt config delivery key exc
    let sink := storingSink rt config.dlqBackend delivery.faults.sinks payload delivery.now
    sink.toList.map (fun sink => Effect.recorded sink payload) ++
      [.offsetCommit delivery.msg delivery.faults.commitAfterDlq.isNone]

def effects (delivery : Delivery) : List Effect :=
  match process rt config delivery with
  | .error exc => handlerEffects rt config delivery exc
  | .ok event =>
    [.applied delivery.msg ⟨event, delivery.env⟩,
      .offsetCommit delivery.msg delivery.faults.commitAfterApply.isNone] ++
      match delivery.faults.commitAfterApply with
      | none => []
      | some exc => handlerEffects rt config delivery exc

variable {rt config}

theorem writeDlqPayload_trace (health : SinkHealth) (payload : PyDict) (now : DateTime)
    (w : World) :
    (writeDlqPayload rt config health payload now w).trace = w.trace ++
      (storingSink rt config.dlqBackend health payload now).toList.map
        (fun sink => Effect.recorded sink payload) := by
  unfold writeDlqPayload
  split
  · next h => rw [h]; rfl
  · next h => rw [h]; rfl
  · next h => rw [h]; exact (List.append_nil _).symm

theorem handleError_trace (delivery : Delivery) (exc : PyExc) (w : World) :
    (handleError rt config delivery exc w).1.trace =
      w.trace ++ handlerEffects rt config delivery exc := by
  cases hk : decodedKey delivery.msg with
  | error keyExc => simp only [handleError, handlerEffects, hk, List.append_nil]
  | ok key =>
    simp only [handleError, handlerEffects, hk, World.commitOffset, writeDlqPayload_trace,
      List.append_assoc]

theorem consumeMessage_trace (delivery : Delivery) (w : World) :
    (consumeMessage rt config delivery w).1.trace = w.trace ++ effects rt config delivery := by
  unfold consumeMessage effects
  cases process rt config delivery with
  | error exc => exact handleError_trace delivery exc w
  | ok event =>
    cases hf : delivery.faults.commitAfterApply with
    | none => simp [World.commitOffset]
    | some exc =>
      simp only [handleError_trace, World.commitOffset, List.append_assoc, List.cons_append,
        List.nil_append]

/-! ## No committed offset without the message -/

/-- The effects that keep a message. -/
inductive Keeps (msg : Message) : Effect → Prop where
  | applied (call : Call) : Keeps msg (.applied msg call)
  | recorded (sink : Sink) {payload : PyDict} (h : RecordFor msg payload) :
      Keeps msg (.recorded sink payload)

/-- Before each offset commit the message has been applied or recorded. -/
def NothingLost (trace : List Effect) : Prop :=
  ∀ before msg succeeded after, trace = before ++ .offsetCommit msg succeeded :: after →
    ∃ e ∈ before, Keeps msg e

theorem nothingLost_nil : NothingLost [] := by
  intro before msg succeeded after h
  exact absurd h.symm (List.append_ne_nil_of_right_ne_nil _ (List.cons_ne_nil _ _))

/-- The first effect keeps every message whose offset is committed. -/
theorem nothingLost_of_head {e : Effect} {es : List Effect}
    (h : ∀ msg succeeded, .offsetCommit msg succeeded ∈ e :: es → Keeps msg e) :
    NothingLost (e :: es) := by
  intro before msg succeeded after htrace
  have hkeeps : Keeps msg e := by
    refine h msg succeeded ?_
    rw [htrace]
    simp
  cases before with
  | nil =>
    obtain rfl := (List.cons.inj htrace).1
    cases hkeeps
  | cons first before =>
    obtain rfl := (List.cons.inj htrace).1
    exact ⟨e, List.mem_cons_self, hkeeps⟩

theorem NothingLost.append {trace more : List Effect} (h : NothingLost trace)
    (hmore : NothingLost more) : NothingLost (trace ++ more) := by
  intro before msg succeeded after hsplit
  rcases List.append_eq_append_iff.mp hsplit with ⟨mid, rfl, hright⟩ | ⟨mid, hleft, hright⟩
  · obtain ⟨e, he, hkeeps⟩ := hmore mid msg succeeded after hright
    exact ⟨e, List.mem_append_right _ he, hkeeps⟩
  · cases mid with
    | nil =>
      obtain ⟨e, he, -⟩ := hmore [] msg succeeded after hright.symm
      cases he
    | cons first mid =>
      obtain ⟨rfl, -⟩ := List.cons.inj hright
      exact h before msg succeeded mid hleft

theorem commit_of_handlerEffects {delivery : Delivery} {exc : PyExc} {msg : Message}
    {succeeded : Bool}
    (h : .offsetCommit msg succeeded ∈ handlerEffects rt config delivery exc) :
    msg = delivery.msg := by
  unfold handlerEffects at h
  split at h
  · cases h
  · simp only [List.mem_append, List.mem_map, List.mem_singleton, Effect.offsetCommit.injEq] at h
    rcases h with ⟨sink, -, hs⟩ | ⟨rfl, -⟩
    · cases hs
    · rfl

theorem commit_of_effects {delivery : Delivery} {msg : Message} {succeeded : Bool}
    (h : .offsetCommit msg succeeded ∈ effects rt config delivery) : msg = delivery.msg := by
  unfold effects at h
  split at h
  · exact commit_of_handlerEffects h
  · simp only [List.mem_append, List.mem_cons, List.not_mem_nil, or_false, reduceCtorEq, false_or,
      Effect.offsetCommit.injEq] at h
    rcases h with ⟨rfl, -⟩ | h
    · rfl
    · split at h
      · cases h
      · exact commit_of_handlerEffects h

/-- One iteration loses nothing exactly if it is safe. -/
theorem effects_nothingLost_iff (delivery : Delivery) :
    NothingLost (effects rt config delivery) ↔ Safe rt config delivery := by
  cases hp : process rt config delivery with
  | ok event =>
    have happlies : Applies rt config delivery := (applies_iff delivery).mpr ⟨event, hp⟩
    refine ⟨fun _ => .inl happlies, fun _ => ?_⟩
    have hcommit := @commit_of_effects rt config delivery
    simp only [effects, hp, List.cons_append] at hcommit ⊢
    refine nothingLost_of_head fun msg succeeded h => ?_
    obtain rfl := hcommit h
    exact .applied _
  | error exc =>
    have hnot := not_applies hp
    have heffects : effects rt config delivery = handlerEffects rt config delivery exc := by
      rw [effects, hp]
    rw [heffects]
    cases hk : decodedKey delivery.msg with
    | error keyExc =>
      rw [handlerEffects, hk]
      exact ⟨fun _ => .inr (.inl (not_keyReadable_of_error hk)), fun _ => nothingLost_nil⟩
    | ok key =>
      have hread := keyReadable_of_ok hk
      have htakes := @storingSink_isSome rt config delivery key exc
      have hcommit := @commit_of_handlerEffects rt config delivery exc
      simp only [handlerEffects, hk] at hcommit ⊢
      cases hs : storingSink rt config.dlqBackend delivery.faults.sinks
          (dlqPayload rt config delivery key exc) delivery.now with
      | some sink =>
        simp only [hs, Option.toList_some, List.map_cons, List.map_nil, List.cons_append,
          List.nil_append] at hcommit ⊢
        refine ⟨fun _ => .inr (.inr ⟨key, exc, hk, hp, ?_⟩), fun _ => ?_⟩
        · exact htakes.mp (by rw [hs]; rfl)
        · refine nothingLost_of_head fun msg succeeded h => ?_
          obtain rfl := hcommit h
          exact .recorded sink (recordFor_dlqPayload delivery key exc)
      | none =>
        simp only [Option.toList_none, List.map_nil, List.nil_append]
        constructor
        · intro h
          obtain ⟨e, he, -⟩ := h [] delivery.msg _ [] rfl
          cases he
        · rintro (h | h | ⟨key', exc', hk', hp', h⟩)
          · exact absurd h hnot
          · exact absurd hread h
          · cases hk.symm.trans hk'
            cases hp.symm.trans hp'
            have hsome := htakes.mpr h
            rw [hs] at hsome
            cases hsome

/-! ## Runs of the loop -/

/-- What the iterations keep of the world, the run keeps. -/
theorem runConsumer_invariant (inv : World → Prop) {polls : List Poll}
    (hstep : ∀ delivery w, Poll.message delivery ∈ polls → inv w →
      inv (consumeMessage rt config delivery w).1)
    (maxMessages : Option Int) {st : LoopState} (hinv : inv st.world) :
    inv (runConsumer rt config maxMessages st polls).world := by
  induction polls generalizing st with
  | nil => exact hinv
  | cons poll polls ih =>
    have hiterate : inv (iterate rt config st poll).world := by
      cases poll with
      | message delivery => exact hstep delivery st.world List.mem_cons_self hinv
      | nothing expired => exact hinv
      | partitionEof expired => exact hinv
      | brokerError exc => exact hinv
      | interrupt => exact hinv
    rw [runConsumer]
    split
    · split
      · exact hinv
      · exact ih (fun delivery w h => hstep delivery w (List.mem_cons_of_mem _ h)) hiterate
    · exact hinv

def appliedCalls (trace : List Effect) : List Call :=
  trace.filterMap fun
    | .applied _ call => some call
    | _ => none

variable (rt) in
/-- The record is in the sink. -/
def World.Holds (w : World) (payload : PyDict) : Sink → Prop
  | .table => ∃ now, dlqRow rt payload now ∈ w.dlqEvents
  | .file => dlqLine rt payload ∈ w.dlqFile

theorem World.Holds.mono {w w' : World} {payload : PyDict} {sink : Sink}
    (h : w.Holds rt payload sink) (hevents : w.dlqEvents ⊆ w'.dlqEvents)
    (hfile : w.dlqFile ⊆ w'.dlqFile) : w'.Holds rt payload sink := by
  cases sink with
  | table =>
    obtain ⟨now, hnow⟩ := h
    exact ⟨now, hevents hnow⟩
  | file => exact hfile h

variable (rt) in
/-- The applied calls make up the database, and the records are in their sinks. -/
structure Durable (db : Database) (w : World) : Prop where
  database : w.db = runFrom db (appliedCalls w.trace)
  stored : ∀ sink payload, .recorded sink payload ∈ w.trace → w.Holds rt payload sink

theorem Durable.commitOffset {db : Database} {w : World} (h : Durable rt db w) (msg : Message)
    (fault : Option PyExc) : Durable rt db (w.commitOffset msg fault) where
  database := by
    have hcalls : appliedCalls (w.commitOffset msg fault).trace = appliedCalls w.trace := by
      simp [appliedCalls, World.commitOffset]
    rw [hcalls]
    exact h.database
  stored sink payload hmem := by
    have hold : .recorded sink payload ∈ w.trace := by
      simpa [World.commitOffset] using hmem
    exact (h.stored sink payload hold).mono (List.Subset.refl _) (List.Subset.refl _)

theorem Durable.writeDlqPayload {db : Database} {w : World} (h : Durable rt db w)
    (health : SinkHealth) (payload : PyDict) (now : DateTime) :
    Durable rt db (writeDlqPayload rt config health payload now w) := by
  unfold Consumer.writeDlqPayload
  split
  · refine ⟨?_, fun sink p hmem => ?_⟩
    · simpa [appliedCalls] using h.database
    · rcases List.mem_append.mp hmem with hold | hnew
      · exact (h.stored sink p hold).mono (List.subset_append_left _ _) (List.Subset.refl _)
      · cases List.mem_singleton.mp hnew
        exact ⟨now, List.mem_append_right _ List.mem_cons_self⟩
  · refine ⟨?_, fun sink p hmem => ?_⟩
    · simpa [appliedCalls] using h.database
    · rcases List.mem_append.mp hmem with hold | hnew
      · exact (h.stored sink p hold).mono (List.Subset.refl _) (List.subset_append_left _ _)
      · cases List.mem_singleton.mp hnew
        exact List.mem_append_right _ List.mem_cons_self
  · exact h

theorem Durable.handleError {db : Database} {w : World} (h : Durable rt db w)
    (delivery : Delivery) (exc : PyExc) :
    Durable rt db (handleError rt config delivery exc w).1 := by
  unfold Consumer.handleError
  split
  · exact h
  · exact (h.writeDlqPayload _ _ _).commitOffset _ _

theorem Durable.apply {db : Database} {w : World} (h : Durable rt db w) (msg : Message)
    (call : Call) :
    Durable rt db { w with
      db := call.apply w.db
      trace := w.trace ++ [.applied msg call] } where
  database := by
    have hcalls : appliedCalls (w.trace ++ [.applied msg call]) =
        appliedCalls w.trace ++ [call] := by
      simp [appliedCalls]
    have hrun : runFrom db (appliedCalls w.trace ++ [call]) =
        call.apply (runFrom db (appliedCalls w.trace)) := List.foldl_append
    rw [hcalls, hrun, ← h.database]
  stored sink payload hmem := by
    have hold : .recorded sink payload ∈ w.trace := by simpa using hmem
    exact (h.stored sink payload hold).mono (List.Subset.refl _) (List.Subset.refl _)

theorem Durable.consumeMessage {db : Database} {w : World} (h : Durable rt db w)
    (delivery : Delivery) : Durable rt db (consumeMessage rt config delivery w).1 := by
  unfold Consumer.consumeMessage
  split
  · exact h.handleError _ _
  · next event _ =>
    have happlied := (h.apply delivery.msg ⟨event, delivery.env⟩).commitOffset delivery.msg
      delivery.faults.commitAfterApply
    split
    · exact happlied
    · exact happlied.handleError _ _

/-- In a run whose messages are all safe, each offset commit finds its message in
the database or in a stored record. -/
theorem run_loses_nothing (maxMessages : Option Int) (db : Database)
    (dlqEvents : List ConsumerDlqEvent) (dlqFile : List PyStr) (polls : List Poll)
    (hsafe : ∀ delivery, Poll.message delivery ∈ polls → Safe rt config delivery) :
    let last := (runConsumer rt config maxMessages (.start db dlqEvents dlqFile) polls).world
    NothingLost last.trace ∧ Durable rt db last := by
  refine ⟨?_, ?_⟩
  · refine runConsumer_invariant (fun w => NothingLost w.trace) ?_ maxMessages
      nothingLost_nil
    intro delivery w hmem h
    rw [consumeMessage_trace]
    exact h.append ((effects_nothingLost_iff delivery).mpr (hsafe delivery hmem))
  · refine runConsumer_invariant (Durable rt db) ?_ maxMessages ⟨rfl, ?_⟩
    · intro delivery w _ h
      exact h.consumeMessage delivery
    · intro sink payload hmem
      cases hmem

/-! ### Sample messages -/

def orderBytes : Bytes :=
  (py "\x7b\"order_id\": \"po-1\", \"amount\": 10, \"status\": \"PAID\", " ++
    py "\"created_at\": \"2026-01-01T00:00:00Z\"\x7d").map UInt8.ofNat

/-- The conversions on the texts of the sample messages. -/
def sampleRuntime : PyRuntime where
  jsonLoads bs :=
    if bs = [123, 125] then .ok (.obj [])
    else if bs = orderBytes then .ok (.obj [(py "order_id", .str (py "po-1")),
      (py "amount", .int 10), (py "status", .str (py "PAID")),
      (py "created_at", .str (py "2026-01-01T00:00:00Z"))])
    else .error (.jsonDecode (py "Expecting value: line 1 column 1 (char 0)"))
  floatRepr _ := []
  strOf
    | .int n => dumpInt n
    | _ => []
  reprOf _ := []
  decimal s := if s = py "10" then some (.finite false 10 0) else none
  fromisoformat s :=
    if s = py "2026-01-01T00:00:00+00:00" then some ⟨1767225600000000, some 0⟩ else none
  intOf _ := none

def sampleConfig : AppConfig := ⟨.db, canonicalV1⟩

def sampleDelivery (key value : Option Bytes) (faults : Faults) : Delivery where
  msg := ⟨py "payment.order.upserted", 0, 7, key, value, none⟩
  env := .still 1767225600000000
  faults := faults
  now := 1767225600000000
  nowIso := py "2026-01-01T00:00:00+00:00"

/-- An order is applied, an empty value is recorded in the table, and a value that
is no JSON in the file while the table does not work. -/
def samplePolls : List Poll :=
  [.message (sampleDelivery none (some orderBytes) .none),
    .nothing false,
    .message (sampleDelivery none none .none),
    .message (sampleDelivery (some [107]) (some [120])
      { Faults.none with sinks := ⟨false, true⟩ })]

theorem samplePolls_lose_nothing :
    let last := (runConsumer sampleRuntime sampleConfig none (.start .empty [] []) samplePolls).world
    NothingLost last.trace ∧ Durable sampleRuntime .empty last := by
  refine run_loses_nothing none .empty [] [] samplePolls fun delivery hmem => ?_
  simp only [samplePolls, List.mem_cons, Poll.message.injEq, reduceCtorEq, List.not_mem_nil,
    or_false, false_or] at hmem
  rcases hmem with rfl | rfl | rfl
  · exact .inl ⟨⟨_, _, _, rfl, rfl, rfl⟩, rfl, rfl⟩
  · exact .inr (.inr ⟨none, _, rfl, rfl, .inl ⟨rfl, rfl, by decide⟩⟩)
  · exact .inr (.inr ⟨some [107], _, rfl, rfl, .inr ⟨rfl, by decide⟩⟩)

/-- Neither the table nor the file works when an empty value is recorded. -/
def unrecordedPolls : List Poll :=
  [.message (sampleDelivery none none { Faults.none with sinks := ⟨false, false⟩ })]

theorem unrecordedPolls_lose_message :
    ¬ NothingLost (runConsumer sampleRuntime sampleConfig none (.start .empty [] [])
        unrecordedPolls).world.trace := by
  have htrace : (runConsumer sampleRuntime sampleConfig none (.start .empty [] [])
      unrecordedPolls).world.trace = [.offsetCommit (sampleDelivery none none .none).msg true] :=
    rfl
  intro h
  obtain ⟨e, he, -⟩ := h [] _ true [] htrace
  cases he

/-! ## Messages that stop the loop -/

/-- While the broker answers, an iteration ends with the offset committed and the
loop going on exactly if the message is applied or its key can be read. -/
theorem iteration_goes_on_iff (msg : Message) (env : Surroundings)
    (session transaction : Option PyExc) (sinks : SinkHealth) (now : DateTime) (nowIso : PyStr)
    (st : LoopState) :
    let delivery : Delivery := ⟨msg, env, ⟨session, transaction, none, sinks, none⟩, now, nowIso⟩
    let next := iterate rt config st (.message delivery)
    (next.outcome = .running ∧ ∃ new, next.world.trace = st.world.trace ++ new ∧
        .offsetCommit msg true ∈ new) ↔
      Applies rt config delivery ∨ KeyReadable msg := by
  intro delivery next
  have htrace : next.world.trace = st.world.trace ++ effects rt config delivery :=
    consumeMessage_trace delivery st.world
  cases hp : process rt config delivery with
  | ok event =>
    have hrunning : next.outcome = .running := by
      simp [next, iterate, consumeMessage, hp, delivery]
    have hcommit : .offsetCommit msg true ∈ effects rt config delivery := by
      simp [effects, hp, delivery]
    exact ⟨fun _ => .inl ((applies_iff delivery).mpr ⟨event, hp⟩),
      fun _ => ⟨hrunning, _, htrace, hcommit⟩⟩
  | error exc =>
    cases hk : decodedKey msg with
    | ok key =>
      have hrunning : next.outcome = .running := by
        simp [next, iterate, consumeMessage, hp, handleError, delivery, hk, outcomeOf]
      have hcommit : .offsetCommit msg true ∈ effects rt config delivery := by
        simp [effects, hp, handlerEffects, delivery, hk]
      exact ⟨fun _ => .inr (keyReadable_of_ok hk), fun _ => ⟨hrunning, _, htrace, hcommit⟩⟩
    | error keyExc =>
      have hraised : next.outcome = .raised keyExc := by
        simp [next, iterate, consumeMessage, hp, handleError, delivery, hk]
      constructor
      · rintro ⟨hrunning, -⟩
        cases hraised.symm.trans hrunning
      · rintro (h | h)
        · exact absurd h (not_applies hp)
        · exact absurd h (not_keyReadable_of_error hk)

/-- The value is empty and the key is the byte 0xff. -/
theorem undecodable_key_leaves_loop :
    let next := iterate sampleRuntime sampleConfig (.start .empty [] [])
      (.message (sampleDelivery (some [0xff]) none .none))
    (∃ exc, next.outcome = .raised exc) ∧ next.world.trace = [] :=
  ⟨⟨_, rfl⟩, rfl⟩

end TxLookup.Consumer
