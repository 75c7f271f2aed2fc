import TxLookup.Consumer.Offsets
import TxLookup.Consumer.Atomicity
import TxLookup.Library.Runs

/-!
# The consumer group

The partitions of the subscribed topics are consumed by processes that come and
go. A partition's owner starts at the committed offset and takes one message
after the other; its offset commits are requests that reach the broker later, in
any order or never, and not after another owner has been assigned. A process can
die between any two effects of an iteration. Iterations of different owners do
not overlap here; overlapping transactions are the subject of the sessions.
-/
namespace TxLookup.Consumer

open Library Library.Runs Db

structure TopicPartition where
  topic : PyStr
  partition : Int
  deriving DecidableEq

/-- What the broker holds: in each partition, messages at consecutive offsets. -/
structure Broker where
  log : TopicPartition → List Message
  placed : ∀ (tp : TopicPartition) (i : Nat) (msg : Message), (log tp)[i]? = some msg →
    msg.topic = tp.topic ∧ msg.partition = tp.partition ∧ msg.offset = i

/-- One partition with these values and no keys. -/
def Broker.single (tp : TopicPartition) (values : List (Option Bytes)) : Broker where
  log q := if q = tp then
      values.mapIdx fun i value => ⟨tp.topic, tp.partition, i, none, value, none⟩
    else []
  placed q i msg h := by
    split at h
    · next hq =>
      subst hq
      rw [List.getElem?_mapIdx] at h
      obtain ⟨value, -, rfl⟩ := Option.map_eq_some_iff.mp h
      exact ⟨rfl, rfl, rfl⟩
    · cases h

structure Group where
  world : World
  /-- What a new owner starts from. -/
  committed : TopicPartition → Nat
  /-- What the owner takes next. -/
  position : TopicPartition → Nat
  /-- The commit requests on their way. -/
  requested : TopicPartition → List Nat

/-- What an iteration meets besides its message. -/
structure Circumstances where
  env : Surroundings
  faults : Faults
  now : DateTime
  nowIso : PyStr

def Circumstances.delivery (c : Circumstances) (msg : Message) : Delivery :=
  ⟨msg, c.env, c.faults, c.now, c.nowIso⟩

inductive GroupEvent where
  /-- The partition gets an owner; what the one before has requested is refused. -/
  | assign (tp : TopicPartition)
  /-- The owner goes through an iteration. -/
  | deliver (tp : TopicPartition) (c : Circumstances)
  /-- The owner dies after so many effects of an iteration. -/
  | die (tp : TopicPartition) (c : Circumstances) (effects : Nat)
  /-- A commit request reaches the broker. -/
  | commitArrives (tp : TopicPartition) (offset : Nat)

variable (rt : PyRuntime) (config : AppConfig)

/-- An effect of an iteration whose record is dated `now`. -/
def World.perform (now : DateTime) (w : World) (effect : Effect) : World :=
  { db := match effect with
      | .applied _ call => call.apply w.db
      | _ => w.db
    dlqEvents := match effect with
      | .recorded .table payload => w.dlqEvents ++ [dlqRow rt payload now]
      | _ => w.dlqEvents
    dlqFile := match effect with
      | .recorded .file payload => w.dlqFile ++ [dlqLine rt payload]
      | _ => w.dlqFile
    trace := w.trace ++ [effect] }

namespace Group

def setAt {α : Type} (f : TopicPartition → α) (tp : TopicPartition) (a : α) : TopicPartition → α :=
  fun q => if q = tp then a else f q

/-- The owner goes on to the next message exactly if the loop does, and then it
has requested the commit of this one. -/
def step (broker : Broker) (g : Group) : GroupEvent → Option Group
  | .assign tp =>
    some { g with
      position := setAt g.position tp (g.committed tp)
      requested := setAt g.requested tp [] }
  | .deliver tp c =>
    ((broker.log tp)[g.position tp]?).map fun msg =>
      let r := consumeMessage rt config (c.delivery msg) g.world
      if r.2.1 = .running then
        { g with
          world := r.1
          position := setAt g.position tp (g.position tp + 1)
          requested := setAt g.requested tp (g.requested tp ++ [g.position tp + 1]) }
      else { g with world := r.1 }
  | .die tp c n =>
    ((broker.log tp)[g.position tp]?).map fun msg =>
      { g with world :=
          ((effects rt config (c.delivery msg)).take n).foldl (World.perform rt c.now) g.world }
  | .commitArrives tp offset =>
    if offset ∈ g.requested tp then some { g with committed := setAt g.committed tp offset }
    else none

/-- A group that has committed nothing, over these tables and this file. -/
def start (db : Database) (dlqEvents : List ConsumerDlqEvent) (dlqFile : List PyStr) : Group where
  world := { db, dlqEvents, dlqFile, trace := [] }
  committed := fun _ => 0
  position := fun _ => 0
  requested := fun _ => []

@[simp] theorem setAt_self {α : Type} (f : TopicPartition → α) (tp : TopicPartition) (a : α) :
    setAt f tp a tp = a := if_pos rfl

@[simp] theorem setAt_ne {α : Type} (f : TopicPartition → α) {tp q : TopicPartition} (h : q ≠ tp)
    (a : α) : setAt f tp a q = f q := if_neg h

end Group

variable {rt config}

/-! ## An iteration, effect by effect -/

theorem perform_trace (now : DateTime) (es : List Effect) (w : World) :
    (es.foldl (World.perform rt now) w).trace = w.trace ++ es := by
  induction es generalizing w with
  | nil => exact (List.append_nil _).symm
  | cons e es ih =>
    rw [List.foldl_cons, ih]
    simp [World.perform]

theorem writeDlqPayload_perform (health : SinkHealth) (payload : PyDict) (now : DateTime)
    (w : World) : writeDlqPayload rt config health payload now w =
      ((storingSink rt config.dlqBackend health payload now).toList.map
        fun sink => Effect.recorded sink payload).foldl (World.perform rt now) w := by
  unfold writeDlqPayload
  cases hsink : storingSink rt config.dlqBackend health payload now with
  | none => rfl
  | some sink => cases sink <;> rfl

theorem handleError_perform (delivery : Delivery) (exc : PyExc) (w : World) :
    (handleError rt config delivery exc w).1 =
      (handlerEffects rt config delivery exc).foldl (World.perform rt delivery.now) w := by
  unfold handleError handlerEffects
  cases decodedKey delivery.msg with
  | error keyExc => rfl
  | ok key =>
    simp only [List.foldl_append, ← writeDlqPayload_perform]
    rfl

/-- An iteration performs its effects one after the other. -/
theorem consumeMessage_perform (delivery : Delivery) (w : World) :
    (consumeMessage rt config delivery w).1 =
      (effects rt config delivery).foldl (World.perform rt delivery.now) w := by
  unfold consumeMessage effects
  cases process rt config delivery with
  | error exc => exact handleError_perform delivery exc w
  | ok event =>
    cases hfault : delivery.faults.commitAfterApply with
    | none => simp [World.perform, World.commitOffset]
    | some exc =>
      simp only [handleError_perform, List.foldl_append]
      rfl

theorem running_of_handleError {delivery : Delivery} {exc : PyExc} {w : World}
    (h : (handleError rt config delivery exc w).2 = .running) :
    .offsetCommit delivery.msg true ∈ handlerEffects rt config delivery exc := by
  unfold handleError at h
  unfold handlerEffects
  cases hkey : decodedKey delivery.msg with
  | error keyExc =>
    rw [hkey] at h
    cases h
  | ok key =>
    rw [hkey] at h
    cases hfault : delivery.faults.commitAfterDlq with
    | none => simp
    | some exc' =>
      simp only [hfault, outcomeOf] at h
      cases h

/-- The loop goes on only after a commit call that did not raise. -/
theorem running_of_consumeMessage {delivery : Delivery} {w : World}
    (h : (consumeMessage rt config delivery w).2.1 = .running) :
    .offsetCommit delivery.msg true ∈ effects rt config delivery := by
  unfold consumeMessage at h
  unfold effects
  cases hp : process rt config delivery with
  | error exc =>
    rw [hp] at h
    exact running_of_handleError h
  | ok event =>
    rw [hp] at h
    cases hfault : delivery.faults.commitAfterApply with
    | none => simp
    | some exc =>
      simp only [hfault] at h
      exact List.mem_append_right _ (running_of_handleError h)

theorem Durable.perform {db : Database} {w : World} (h : Durable rt db w) (now : DateTime)
    (effect : Effect) : Durable rt db (w.perform rt now effect) := by
  cases effect with
  | applied msg call => exact h.apply msg call
  | offsetCommit msg succeeded =>
    have hcommit := h.commitOffset msg (if succeeded then none else some (.other []))
    cases succeeded <;> exact hcommit
  | recorded sink payload =>
    refine ⟨?_, fun sink' payload' hmem => ?_⟩
    · simpa [World.perform, appliedCalls] using h.database
    · rcases List.mem_append.mp hmem with hold | hnew
      · refine (h.stored sink' payload' hold).mono ?_ ?_
        · cases sink with
          | table => exact List.subset_append_left _ _
          | file => exact List.Subset.refl _
        · cases sink with
          | table => exact List.Subset.refl _
          | file => exact List.subset_append_left _ _
      · cases List.mem_singleton.mp hnew
        cases sink with
        | table => exact ⟨now, List.mem_append_right _ List.mem_cons_self⟩
        | file => exact List.mem_append_right _ List.mem_cons_self

theorem Durable.performAll {db : Database} (now : DateTime) (es : List Effect) {w : World}
    (h : Durable rt db w) : Durable rt db (es.foldl (World.perform rt now) w) := by
  induction es generalizing w with
  | nil => exact h
  | cons e es ih => exact ih (h.perform now e)

/-! ## What the group keeps -/

namespace Group

variable {broker : Broker}

/-- The owners' iterations meet the condition; what dies in between need not. -/
def Delivers (broker : Broker) (ok : Delivery → Prop) (g : Group) : GroupEvent → Prop
  | .deliver tp c => ∀ msg, (broker.log tp)[g.position tp]? = some msg → ok (c.delivery msg)
  | _ => True

/-- A step performs the first effects of the iteration of a message of the logs,
possibly none. -/
theorem step_performs {g g' : Group} {event : GroupEvent}
    (h : step rt config broker g event = some g') : ∃ now es,
      g'.world = es.foldl (World.perform rt now) g.world ∧
      (es = [] ∨ ∃ tp c msg, (broker.log tp)[g.position tp]? = some msg ∧
        es <+: effects rt config (Circumstances.delivery c msg)) := by
  cases event with
  | assign tp =>
    cases h
    exact ⟨0, [], rfl, .inl rfl⟩
  | deliver tp c =>
    obtain ⟨msg, hmsg, rfl⟩ := Option.map_eq_some_iff.mp h
    refine ⟨c.now, _, ?_, .inr ⟨tp, c, msg, hmsg, List.prefix_rfl⟩⟩
    dsimp only
    split <;> exact consumeMessage_perform _ _
  | die tp c n =>
    obtain ⟨msg, hmsg, rfl⟩ := Option.map_eq_some_iff.mp h
    exact ⟨c.now, _, rfl, .inr ⟨tp, c, msg, hmsg, List.take_prefix _ _⟩⟩
  | commitArrives tp offset =>
    obtain ⟨-, hg⟩ := Option.ite_none_right_eq_some.mp h
    cases hg
    exact ⟨0, [], rfl, .inl rfl⟩

theorem step_trace {g g' : Group} {event : GroupEvent}
    (h : step rt config broker g event = some g') : g.world.trace <+: g'.world.trace := by
  obtain ⟨now, es, hworld, -⟩ := step_performs h
  rw [hworld, perform_trace]
  exact List.prefix_append _ _

theorem durable_steps {db : Database} {g g' : Group} {events : List GroupEvent}
    (hstart : Durable rt db g.world)
    (h : runAll (step rt config broker) g events = some g') : Durable rt db g'.world := by
  refine @invariant_of_steps _ _ _ (fun g => Durable rt db g.world) ?_ _ _ _ hstart h
  intro g event g' hinv hstep
  obtain ⟨now, es, hworld, -⟩ := step_performs hstep
  rw [hworld]
  exact hinv.performAll now es

/-- The applied calls make up the database at any moment of any run. -/
theorem durable_run {db : Database} {dlqEvents : List ConsumerDlqEvent} {dlqFile : List PyStr}
    {events : List GroupEvent} {g : Group}
    (h : runAll (step rt config broker) (start db dlqEvents dlqFile) events = some g) :
    Durable rt db g.world :=
  durable_steps ⟨rfl, fun _ _ hmem => absurd hmem List.not_mem_nil⟩ h

theorem trace_steps {g g' : Group} {events : List GroupEvent}
    (h : runAll (step rt config broker) g events = some g') :
    g.world.trace <+: g'.world.trace := by
  refine @invariant_of_steps _ _ _ (fun g'' => g.world.trace <+: g''.world.trace) ?_ _ _ _
    List.prefix_rfl h
  exact fun _ _ _ hinv hstep => hinv.trans (step_trace hstep)

/-- Nothing is committed beyond what an owner has taken, and every message before
that has left an effect of the given kind. -/
structure Progress (broker : Broker) (done : Message → Effect → Prop) (g : Group) : Prop where
  position_le : ∀ tp, g.position tp ≤ (broker.log tp).length
  committed_le : ∀ tp, g.committed tp ≤ g.position tp
  requested_le : ∀ tp, ∀ offset ∈ g.requested tp, offset ≤ g.position tp
  done_before : ∀ tp i msg, i < g.position tp → (broker.log tp)[i]? = some msg →
    ∃ e ∈ g.world.trace, done msg e

section
variable {ok : Delivery → Prop} {done : Message → Effect → Prop}

theorem Progress.mono {g g' : Group} (h : Progress broker done g)
    (htrace : g.world.trace <+: g'.world.trace) {tp : TopicPartition} {i : Nat} {msg : Message}
    (hi : i < g.position tp) (hmsg : (broker.log tp)[i]? = some msg) :
    ∃ e ∈ g'.world.trace, done msg e := by
  obtain ⟨e, he, hdone⟩ := h.done_before tp i msg hi hmsg
  exact ⟨e, htrace.subset he, hdone⟩

theorem Progress.step (hdone : ∀ delivery, ok delivery →
      .offsetCommit delivery.msg true ∈ effects rt config delivery →
      ∃ e ∈ effects rt config delivery, done delivery.msg e)
    {g g' : Group} {event : GroupEvent} (h : Progress broker done g)
    (hok : Delivers broker ok g event) (hstep : Group.step rt config broker g event = some g') :
    Progress broker done g' := by
  have htrace := step_trace hstep
  cases event with
  | assign tp =>
    cases hstep
    refine ⟨fun q => ?_, fun q => ?_, fun q offset hmem => ?_, fun q i msg hi hmsg => ?_⟩
    · by_cases hq : q = tp
      · subst hq
        simpa using (h.committed_le q).trans (h.position_le q)
      · simpa [hq] using h.position_le q
    · by_cases hq : q = tp
      · subst hq
        simp
      · simpa [hq] using h.committed_le q
    · by_cases hq : q = tp
      · subst hq
        simp at hmem
      · simp only [ne_eq, hq, not_false_eq_true, setAt_ne] at hmem ⊢
        exact h.requested_le q offset hmem
    · -- a new owner starts at an offset before the old position
      refine h.mono htrace ?_ hmsg
      by_cases hq : q = tp
      · subst hq
        simp only [setAt_self] at hi
        exact hi.trans_le (h.committed_le q)
      · simpa [hq] using hi
  | deliver tp c =>
    obtain ⟨msg, hmsg, rfl⟩ := Option.map_eq_some_iff.mp hstep
    dsimp only at htrace ⊢
    split
    · next hrunning =>
      rw [if_pos hrunning] at htrace
      refine ⟨fun q => ?_, fun q => ?_, fun q offset hmem => ?_, fun q i msg' hi hmsg' => ?_⟩
      · by_cases hq : q = tp
        · subst hq
          have hlt := (List.getElem?_eq_some_iff.mp hmsg).1
          simpa using Nat.succ_le_of_lt hlt
        · simpa [hq] using h.position_le q
      · by_cases hq : q = tp
        · subst hq
          simpa using (h.committed_le q).trans (Nat.le_succ _)
        · simpa [hq] using h.committed_le q
      · by_cases hq : q = tp
        · subst hq
          simp only [setAt_self, List.mem_append, List.mem_singleton] at hmem ⊢
          rcases hmem with hmem | rfl
          · exact (h.requested_le q offset hmem).trans (Nat.le_succ _)
          · exact le_rfl
        · simp only [ne_eq, hq, not_false_eq_true, setAt_ne] at hmem ⊢
          exact h.requested_le q offset hmem
      · by_cases hq : q = tp
        · subst hq
          simp only [setAt_self] at hi
          rcases Nat.lt_succ_iff_lt_or_eq.mp hi with hi | rfl
          · exact h.mono htrace hi hmsg'
          · -- the message just taken
            obtain rfl := Option.some.inj (hmsg.symm.trans hmsg')
            obtain ⟨e, he, hd⟩ := hdone _ (hok msg hmsg) (running_of_consumeMessage hrunning)
            refine ⟨e, ?_, hd⟩
            rw [consumeMessage_trace]
            exact List.mem_append_right _ he
        · simp only [ne_eq, hq, not_false_eq_true, setAt_ne] at hi
          exact h.mono htrace hi hmsg'
    · next hrunning =>
      rw [if_neg hrunning] at htrace
      exact ⟨h.position_le, h.committed_le, h.requested_le,
        fun q i msg' hi hmsg' => h.mono htrace hi hmsg'⟩
  | die tp c n =>
    obtain ⟨msg, hmsg, rfl⟩ := Option.map_eq_some_iff.mp hstep
    exact ⟨h.position_le, h.committed_le, h.requested_le,
      fun q i msg' hi hmsg' => h.mono htrace hi hmsg'⟩
  | commitArrives tp offset =>
    obtain ⟨hoffset, hg⟩ := Option.ite_none_right_eq_some.mp hstep
    cases hg
    refine ⟨h.position_le, fun q => ?_, h.requested_le, h.done_before⟩
    by_cases hq : q = tp
    · subst hq
      simpa using h.requested_le q offset hoffset
    · simpa [hq] using h.committed_le q

theorem progress_start (db : Database) (dlqEvents : List ConsumerDlqEvent)
    (dlqFile : List PyStr) : Progress broker done (start db dlqEvents dlqFile) :=
  ⟨fun _ => Nat.zero_le _, fun _ => le_rfl, fun _ _ hmem => absurd hmem List.not_mem_nil,
    fun _ _ _ hi => absurd hi (Nat.not_lt_zero _)⟩

theorem progress_run (hdone : ∀ delivery, ok delivery →
      .offsetCommit delivery.msg true ∈ effects rt config delivery →
      ∃ e ∈ effects rt config delivery, done delivery.msg e)
    {g g' : Group} {events : List GroupEvent} (hstart : Progress broker done g)
    (hok : Meets (Group.step rt config broker) (Delivers broker ok) g events)
    (h : runAll (Group.step rt config broker) g events = some g') : Progress broker done g' := by
  refine invariant_of_run ?_ hstart hok h
  intro g event g' hinv hdelivers hstep
  exact hinv.step hdone hdelivers hstep

end

/-- Safe iterations leave every message they take applied or recorded. -/
theorem progress_kept {db : Database} {dlqEvents : List ConsumerDlqEvent} {dlqFile : List PyStr}
    {events : List GroupEvent} {g : Group}
    (hsafe : Meets (Group.step rt config broker) (Delivers broker (Safe rt config))
      (start db dlqEvents dlqFile) events)
    (hrun : runAll (Group.step rt config broker) (start db dlqEvents dlqFile) events = some g) :
    Progress broker Keeps g := by
  refine progress_run ?_ (progress_start _ _ _) hsafe hrun
  intro delivery hdelivery hcommit
  obtain ⟨before, after, hsplit⟩ := List.append_of_mem hcommit
  obtain ⟨e, he, hkeeps⟩ :=
    (effects_nothingLost_iff delivery).mpr hdelivery before delivery.msg true after hsplit
  refine ⟨e, ?_, hkeeps⟩
  rw [hsplit]
  exact List.mem_append_left _ he

def samplePartition : TopicPartition := ⟨py "payment.order.upserted", 0⟩

/-- An order and an empty message in one partition. -/
def sampleBroker : Broker := .single samplePartition [some orderBytes, none]

def sampleCircumstances (clock : DateTime) : Circumstances :=
  ⟨.still clock, .none, clock, py "2026-01-01T00:00:00+00:00"⟩

/-- The owner takes the order, dies while it records the empty message, and the
next one starts over. -/
def sampleEvents : List GroupEvent :=
  [.deliver samplePartition (sampleCircumstances 0), .die samplePartition (sampleCircumstances 1) 1,
    .assign samplePartition, .deliver samplePartition (sampleCircumstances 2),
    .deliver samplePartition (sampleCircumstances 3), .commitArrives samplePartition 2]

end Group

end TxLookup.Consumer
