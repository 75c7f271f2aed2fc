import TxLookup.Scripts.ReplayDlq
import TxLookup.Library.OrmInstance
import Mathlib.Data.List.Sort

/-!
# Replaying the dead-letter table

`replay_db` selects rows inside a session scope and reads them after it. The
scope commits, which expires the instances, and closes, which detaches them, so
the first row that is selected stops the script before anything is published.
-/
namespace TxLookup.Scripts

open Library Library.PyText Db Consumer

structure StoredDlqEvent extends ConsumerDlqEvent where
  dlqId : Int

/-- The rows of `consumer_dlq_events`, under their primary key. -/
structure DlqTable where
  rows : List StoredDlqEvent
  nodup : (rows.map StoredDlqEvent.dlqId).Nodup

/-- The arguments of `replay_db`; `untilAt` is `until`. -/
structure DbFilters where
  topics : Option (List PyStr)
  since : Option DateTime
  untilAt : Option DateTime
  minId : Option Int
  maxId : Option Int
  limit : Option Int

/-- The conditions of the `WHERE` clause. -/
def DbFilters.selects (filters : DbFilters) (row : StoredDlqEvent) : Bool :=
  filters.topics.all (row.topic ∈ ·) && filters.since.all (· ≤ row.ingestedAt) &&
    filters.untilAt.all (row.ingestedAt ≤ ·) && filters.minId.all (· ≤ row.dlqId) &&
    filters.maxId.all (row.dlqId ≤ ·)

/-- `ORDER BY ingested_at ASC, dlq_id ASC`. -/
def ingestedBefore (a b : StoredDlqEvent) : Prop :=
  a.ingestedAt < b.ingestedAt ∨ a.ingestedAt = b.ingestedAt ∧ a.dlqId ≤ b.dlqId

instance (a b : StoredDlqEvent) : Decidable (ingestedBefore a b) :=
  inferInstanceAs (Decidable (_ ∨ _))

/-- The rows that satisfy the filters, in order. -/
def matching (filters : DbFilters) (table : DlqTable) : List StoredDlqEvent :=
  (table.rows.filter filters.selects).insertionSort ingestedBefore

/-- `max(0, int(limit))` of the elements. -/
def DbFilters.limited {α : Type} (filters : DbFilters) (rows : List α) : List α :=
  match filters.limit with
  | none => rows
  | some limit => rows.take limit.toNat

/-- What the statement returns. -/
def selected (filters : DbFilters) (table : DlqTable) : List StoredDlqEvent :=
  filters.limited (matching filters table)

def detachedInstance : PyExc :=
  .other (py "Instance <ConsumerDlqEvent> is not bound to a Session")

def publishEvent (event : OrmInstance StoredDlqEvent) : Except PyExc (Option Produced) := do
  let topic ← event.read detachedInstance (·.topic)
  if topic = [] then return none
  match ← event.read detachedInstance (·.payload) with
  | none => return none
  | some payload =>
    let value ← encodeValue payload
    return some ⟨topic, value⟩

/-- The loop over the instances: what it publishes, and what it raises. -/
def publishEvents : List (OrmInstance StoredDlqEvent) → List Produced × Option PyExc
  | [] => ([], none)
  | event :: events =>
    match publishEvent event with
    | .error exc => ([], some exc)
    | .ok none => publishEvents events
    | .ok (some msg) =>
      let r := publishEvents events
      (msg :: r.1, r.2)

/-- `replay_db` with a session factory of this setting. `refusal` is what the
driver and the database raise for arguments they do not take. -/
def replayDbWith (expireOnCommit : Bool) (refusal : DbFilters → Option PyExc) (filters : DbFilters)
    (table : DlqTable) : List Produced × Option PyExc :=
  match refusal filters with
  | some exc => ([], some exc)
  | none => publishEvents (OrmInstance.afterScope expireOnCommit (selected filters table))

/-- The factory of `get_session_factory` keeps the default, which expires. -/
def replayDb (refusal : DbFilters → Option PyExc) (filters : DbFilters) (table : DlqTable) :
    List Produced × Option PyExc :=
  replayDbWith true refusal filters table

/-! ## What is to be replayed -/

/-- The message of a row that has a topic and a payload. -/
def StoredDlqEvent.message (row : StoredDlqEvent) : Option Produced :=
  if row.topic = [] then none else row.payload.map (fun payload => ⟨row.topic, encode payload⟩)

/-- The messages of the rows that satisfy the filters and have one, in order, up
to the limit. -/
def wanted (filters : DbFilters) (table : DlqTable) : List Produced :=
  filters.limited ((matching filters table).filterMap StoredDlqEvent.message)

theorem DbFilters.limited_eq_nil {α : Type} {filters : DbFilters} {rows : List α} :
    filters.limited rows = [] ↔ rows = [] ∨ filters.limit.any (· ≤ 0) = true := by
  unfold DbFilters.limited
  cases filters.limit with
  | none => simp
  | some limit => simp [List.take_eq_nil_iff, or_comm]

theorem matching_eq_nil {filters : DbFilters} {table : DlqTable} :
    matching filters table = [] ↔ ∀ row ∈ table.rows, filters.selects row = false := by
  rw [matching, List.eq_nil_iff_forall_not_mem]
  simp only [List.mem_insertionSort, List.mem_filter, not_and, Bool.not_eq_true]

/-- A replay that selects a row raises on the first. -/
theorem publishEvents_expired {rows : List StoredDlqEvent} (h : rows ≠ []) :
    publishEvents (OrmInstance.afterScope true rows) = ([], some detachedInstance) := by
  generalize hafter : OrmInstance.afterScope true rows = instances
  cases instances with
  | nil => exact absurd (List.map_eq_nil_iff.mp hafter) h
  | cons event events =>
    have hmem : event ∈ OrmInstance.afterScope true rows := hafter ▸ List.mem_cons_self
    have hread := OrmInstance.read_afterScope hmem detachedInstance
      (fun row : StoredDlqEvent => row.topic)
    rw [publishEvents, publishEvent, hread]
    rfl

/-- A replay does what is wanted of it exactly if no row is selected. -/
theorem replayDb_wanted_iff (refusal : DbFilters → Option PyExc) (filters : DbFilters)
    (table : DlqTable) : replayDb refusal filters table = (wanted filters table, none) ↔
      refusal filters = none ∧ (filters.limit.any (· ≤ 0) = true ∨
        ∀ row ∈ table.rows, filters.selects row = false) := by
  rw [← matching_eq_nil, or_comm, ← DbFilters.limited_eq_nil, replayDb, replayDbWith]
  cases hrefusal : refusal filters with
  | some exc => simp
  | none =>
    change publishEvents (OrmInstance.afterScope true (selected filters table)) = _ ↔
      _ ∧ selected filters table = []
    by_cases hnil : selected filters table = []
    · have hwanted : wanted filters table = [] := by
        rw [wanted, DbFilters.limited_eq_nil]
        rcases DbFilters.limited_eq_nil.mp hnil with hrows | hlimit
        · exact .inl (by rw [hrows, List.filterMap_nil])
        · exact .inr hlimit
      rw [hnil, hwanted]
      exact iff_of_true rfl ⟨rfl, rfl⟩
    · rw [publishEvents_expired hnil]
      exact iff_of_false (fun h => nomatch (Prod.mk.inj h).2) (fun h => hnil h.2)

/-- One stored message and no filter. -/
def sampleTable : DlqTable where
  rows := [{ topic := py "order-events", partition := none, offset := none, key := none,
             payload := some (py "x"), error := py "e", correlationId := none, ingestedAt := 0,
             dlqId := 1 }]
  nodup := by decide

theorem sampleTable_not_replayed : ¬ ∀ refusal filters table, refusal filters = none →
    replayDb refusal filters table = (wanted filters table, none) := by
  intro h
  have hreplay := h (fun _ => none) ⟨none, none, none, none, none, none⟩ sampleTable rfl
  have hraised : (replayDb (fun _ => none) ⟨none, none, none, none, none, none⟩ sampleTable).2 =
      some detachedInstance := rfl
  rw [hreplay] at hraised
  cases hraised

/-! ## A session that keeps loaded values -/

theorem publishEvents_kept {rows : List StoredDlqEvent}
    (h : ∀ row ∈ rows, row.payload.all encodable = true) :
    publishEvents (OrmInstance.afterScope false rows) =
      (rows.filterMap StoredDlqEvent.message, none) := by
  induction rows with
  | nil => rfl
  | cons row rows ih =>
    obtain ⟨hrow, hrows⟩ := List.forall_mem_cons.mp h
    have hevent : publishEvent (((OrmInstance.loaded row).commit false).close) =
        .ok row.message := by
      unfold publishEvent StoredDlqEvent.message
      rw [OrmInstance.read_afterScope_kept, OrmInstance.read_afterScope_kept]
      by_cases htopic : row.topic = []
      · simp only [bind, Except.bind, htopic, ↓reduceIte]
        rfl
      · cases hpayload : row.payload with
        | none =>
          simp only [bind, Except.bind, htopic, ↓reduceIte]
          rfl
        | some payload =>
          have henc : encodable payload = true := by simpa [hpayload] using hrow
          simp only [bind, Except.bind, htopic, ↓reduceIte, encodeValue, encode?, henc]
          rfl
    rw [OrmInstance.afterScope, List.map_cons, publishEvents, hevent, List.filterMap_cons]
    cases row.message with
    | none => exact ih hrows
    | some msg =>
      dsimp only
      rw [← OrmInstance.afterScope, ih hrows]

/-- With loaded values kept, the replay would publish the messages of the rows the
statement returns, those without one included in the limit. -/
theorem replayDbWith_kept {refusal : DbFilters → Option PyExc} {filters : DbFilters}
    {table : DlqTable} (hrefusal : refusal filters = none)
    (h : ∀ row ∈ table.rows, row.payload.all encodable = true) :
    replayDbWith false refusal filters table =
      ((selected filters table).filterMap StoredDlqEvent.message, none) := by
  rw [replayDbWith, hrefusal]
  refine publishEvents_kept fun row hmem => h row ?_
  have hmatching : row ∈ matching filters table := by
    unfold selected DbFilters.limited at hmem
    split at hmem
    · exact hmem
    · exact List.mem_of_mem_take hmem
  rw [matching, List.mem_insertionSort] at hmatching
  exact (List.mem_filter.mp hmatching).1

end TxLookup.Scripts
