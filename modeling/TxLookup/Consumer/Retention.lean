import TxLookup.Consumer.Jobs

/-!
# The retention of dead letters

Every start of the program deletes the rows of the dead-letter table that are
older than the configured number of days; an exception of the deletion is
swallowed. Over any history of starts with a clock that does not go back, the table is
the one without deletions less the rows some start found too old, and the
deletions change nothing else.
-/
namespace TxLookup.Consumer

open Library Db Common

/-- The microseconds of a day. -/
def dayMicros : Int := 86400000000

/-- `timedelta(days=days)` and the subtraction raise `OverflowError` out of range. -/
def retentionCutoff (days : Int) (now : DateTime) : Except PyExc DateTime :=
  if 999999999 < days then
    .error (.overflow (py ("days=" ++ toString days ++ "; must have magnitude <= 999999999")))
  else if representable (now - days * dayMicros) then .ok (now - days * dayMicros)
  else .error (.overflow (py "date value out of range"))

/-- `prune_dlq_db`: what is left of the table, and how many rows are deleted. -/
def pruneDlqDb (retentionDays : Int) (now : DateTime) (dlqEvents : List ConsumerDlqEvent) :
    Except PyExc (List ConsumerDlqEvent × Nat) :=
  let days := max 0 retentionDays
  if days ≤ 0 then .ok (dlqEvents, 0)
  else do
    let cutoff ← retentionCutoff days now
    return (dlqEvents.filter fun event => !decide (event.ingestedAt < cutoff),
      dlqEvents.countP fun event => decide (event.ingestedAt < cutoff))

/-- `_maybe_prune_dlq`; `fault` is an exception of the session. -/
def maybePruneDlq (config : AppConfig) (retentionDays : Int) (fault : Option PyExc)
    (now : DateTime) (w : World) : World :=
  if config.dlqBackend ≠ .db then w
  else
    match fault, pruneDlqDb retentionDays now w.dlqEvents with
    | none, .ok pruned => { w with dlqEvents := pruned.1 }
    | _, _ => w

/-- A start of the program and what it runs. -/
structure Lifetime where
  config : AppConfig
  retentionDays : Int
  startedAt : DateTime
  pruneFault : Option PyExc
  program : Program

variable (rt : TextRuntime)

def Lifetime.run (w : World) (lifetime : Lifetime) : World :=
  lifetime.program.run rt lifetime.config
    (maybePruneDlq lifetime.config lifetime.retentionDays lifetime.pruneFault lifetime.startedAt w)

def runLifetimes (w : World) (lifetimes : List Lifetime) : World :=
  lifetimes.foldl (Lifetime.run rt) w

/-- The same programs without the deletions. -/
def runUnpruned (w : World) (lifetimes : List Lifetime) : World :=
  lifetimes.foldl (fun w lifetime => lifetime.program.run rt lifetime.config w) w

/-- The start deletes what is older than this. -/
def Lifetime.cutoff? (lifetime : Lifetime) : Option DateTime :=
  if lifetime.config.dlqBackend = .db ∧ 0 < lifetime.retentionDays ∧ lifetime.pruneFault = none then
    (retentionCutoff lifetime.retentionDays lifetime.startedAt).toOption
  else none

/-- The start leaves the row in the table. -/
def Lifetime.spares (lifetime : Lifetime) (row : ConsumerDlqEvent) : Bool :=
  lifetime.cutoff?.all (· ≤ row.ingestedAt)

/-- The clock readings of the records a program writes. -/
def Program.clocks : Program → List DateTime
  | .consume _ polls =>
    polls.filterMap fun poll =>
      match poll with
      | .message delivery => some delivery.now
      | _ => none
  | .backfill ledgerFile paymentOrderFile _ _ =>
    (ledgerFile.getD [] ++ paymentOrderFile.getD []).map (·.now)

/-- The clock does not go back: not from a start to the next, nor below the last start. -/
structure Clocked (lifetimes : List Lifetime) : Prop where
  starts : (lifetimes.map (·.startedAt)).Pairwise (· ≤ ·)
  within : ∀ lifetime ∈ lifetimes, ∀ now ∈ lifetime.program.clocks, lifetime.startedAt ≤ now

variable {rt} {config : AppConfig}

/-! ## What a start deletes -/

theorem maybePruneDlq_eq (lifetime : Lifetime) (w : World) :
    maybePruneDlq lifetime.config lifetime.retentionDays lifetime.pruneFault lifetime.startedAt w =
      { w with dlqEvents := w.dlqEvents.filter lifetime.spares } := by
  have hkept : lifetime.cutoff? = none →
      w = { w with dlqEvents := w.dlqEvents.filter lifetime.spares } := by
    intro hnone
    have hall : w.dlqEvents.filter lifetime.spares = w.dlqEvents := by
      refine List.filter_eq_self.mpr fun row _ => ?_
      simp [Lifetime.spares, hnone]
    rw [hall]
  unfold maybePruneDlq
  by_cases hbackend : lifetime.config.dlqBackend = .db
  · rw [if_neg (by simp [hbackend])]
    cases hfault : lifetime.pruneFault with
    | some exc => exact hkept (by simp [Lifetime.cutoff?, hfault])
    | none =>
      unfold pruneDlqDb
      by_cases hdays : lifetime.retentionDays ≤ 0
      · simp only [show max 0 lifetime.retentionDays ≤ 0 by omega, if_true]
        exact hkept (by simp [Lifetime.cutoff?, not_lt.mpr hdays])
      · have hmax : max 0 lifetime.retentionDays = lifetime.retentionDays := by omega
        simp only [hmax, hdays, if_false]
        cases hcutoff : retentionCutoff lifetime.retentionDays lifetime.startedAt with
        | error exc => exact hkept (by simp [Lifetime.cutoff?, hcutoff, Except.toOption])
        | ok cutoff =>
          have hsome : lifetime.cutoff? = some cutoff := by
            rw [Lifetime.cutoff?, if_pos ⟨hbackend, by omega, hfault⟩, hcutoff]
            rfl
          have hspares : lifetime.spares = fun row => !decide (row.ingestedAt < cutoff) := by
            funext row
            rw [Lifetime.spares, hsome, ← decide_not]
            exact decide_eq_decide.mpr Int.not_lt.symm
          rw [hspares]
          rfl
  · rw [if_pos hbackend]
    exact hkept (by simp [Lifetime.cutoff?, hbackend])

theorem retentionCutoff_le {days : Int} {now cutoff : DateTime} (hdays : 0 ≤ days)
    (h : retentionCutoff days now = .ok cutoff) : cutoff ≤ now := by
  unfold retentionCutoff at h
  split_ifs at h
  cases h
  exact Int.sub_le_self _ (Int.mul_nonneg hdays (by decide))

/-- No start deletes what is not older than itself. -/
theorem spares_of_started {lifetime : Lifetime} {row : ConsumerDlqEvent}
    (h : lifetime.startedAt ≤ row.ingestedAt) : lifetime.spares row = true := by
  unfold Lifetime.spares
  cases hcutoff : lifetime.cutoff? with
  | none => rfl
  | some cutoff =>
    unfold Lifetime.cutoff? at hcutoff
    split_ifs at hcutoff with hprunes
    have hok := toOption_eq_some.mp hcutoff
    simpa using le_trans (retentionCutoff_le hprunes.2.1.le hok) h

/-! ## What is in the table decides nothing -/

/-- The world with these rows in front of the table. -/
def World.prepend (rows : List ConsumerDlqEvent) (w : World) : World :=
  { w with dlqEvents := rows ++ w.dlqEvents }

theorem writeDlqPayload_prepend (health : SinkHealth) (payload : PyDict) (now : DateTime)
    (rows : List ConsumerDlqEvent) (w : World) :
    writeDlqPayload rt.toPyRuntime config health payload now (w.prepend rows) =
      (writeDlqPayload rt.toPyRuntime config health payload now w).prepend rows := by
  unfold writeDlqPayload
  cases storingSink rt.toPyRuntime config.dlqBackend health payload now with
  | none => rfl
  | some sink =>
    cases sink with
    | table => simp [World.prepend]
    | file => rfl

theorem handleError_prepend (delivery : Delivery) (exc : PyExc) (rows : List ConsumerDlqEvent)
    (w : World) :
    handleError rt.toPyRuntime config delivery exc (w.prepend rows) =
      ((handleError rt.toPyRuntime config delivery exc w).1.prepend rows,
        (handleError rt.toPyRuntime config delivery exc w).2) := by
  unfold handleError
  cases decodedKey delivery.msg with
  | error keyExc => rfl
  | ok key =>
    simp only [writeDlqPayload_prepend]
    rfl

theorem consumeMessage_prepend (delivery : Delivery) (rows : List ConsumerDlqEvent) (w : World) :
    consumeMessage rt.toPyRuntime config delivery (w.prepend rows) =
      ((consumeMessage rt.toPyRuntime config delivery w).1.prepend rows,
        (consumeMessage rt.toPyRuntime config delivery w).2) := by
  unfold consumeMessage
  cases process rt.toPyRuntime config delivery with
  | error exc => simp only [handleError_prepend]
  | ok event =>
    cases delivery.faults.commitAfterApply with
    | none => rfl
    | some exc =>
      have happlied : ∀ w : World, (World.commitOffset { w.prepend rows with
          db := Call.apply (w.prepend rows).db ⟨event, delivery.env⟩
          trace := (w.prepend rows).trace ++ [Effect.applied delivery.msg ⟨event, delivery.env⟩] }
          delivery.msg (some exc)) = (World.commitOffset { w with
          db := Call.apply w.db ⟨event, delivery.env⟩
          trace := w.trace ++ [Effect.applied delivery.msg ⟨event, delivery.env⟩] }
          delivery.msg (some exc)).prepend rows := fun w => rfl
      simp only [happlied, handleError_prepend]

def LoopState.prepend (rows : List ConsumerDlqEvent) (st : LoopState) : LoopState :=
  { st with world := st.world.prepend rows }

theorem iterate_prepend (rows : List ConsumerDlqEvent) (st : LoopState) (poll : Poll) :
    iterate rt.toPyRuntime config (st.prepend rows) poll =
      (iterate rt.toPyRuntime config st poll).prepend rows := by
  cases poll with
  | message delivery =>
    simp only [iterate, LoopState.prepend, consumeMessage_prepend]
  | _ => rfl

theorem runConsumer_prepend (maxMessages : Option Int) (rows : List ConsumerDlqEvent)
    (polls : List Poll) (st : LoopState) :
    runConsumer rt.toPyRuntime config maxMessages (st.prepend rows) polls =
      (runConsumer rt.toPyRuntime config maxMessages st polls).prepend rows := by
  induction polls generalizing st with
  | nil => rfl
  | cons poll polls ih =>
    rw [runConsumer, runConsumer, iterate_prepend, ih]
    by_cases hrunning : st.outcome = .running
    · have hprepend : (st.prepend rows).outcome = .running := hrunning
      rw [if_pos hrunning, if_pos hprepend]
      by_cases hmax : maxMessages.any (fun m : Int => m ≤ (st.processed : Int)) = true
      · rw [if_pos hmax, if_pos (show maxMessages.any
          (fun m : Int => m ≤ ((st.prepend rows).processed : Int)) = true from hmax)]
        rfl
      · rw [if_neg hmax, if_neg (show ¬ maxMessages.any
          (fun m : Int => m ≤ ((st.prepend rows).processed : Int)) = true from hmax)]
    · rw [if_neg hrunning, if_neg (show ¬ (st.prepend rows).outcome = .running from hrunning)]

theorem backfillLine_prepend (kind : TopicKind) (since until' : Option DateTime) (fields : PyDict)
    (line : BackfillLine) (rows : List ConsumerDlqEvent) (w : World) :
    backfillLine rt config kind since until' fields line (w.prepend rows) =
      (backfillLine rt config kind since until' fields line w).prepend rows := by
  unfold backfillLine
  cases tryPayload rt config kind since until' fields line with
  | error exc => exact writeDlqPayload_prepend _ _ _ rows w
  | ok result => cases result <;> rfl

theorem backfillFile_prepend (kind : TopicKind) (since until' : Option DateTime)
    (lines : List BackfillLine) (rows : List ConsumerDlqEvent) (w : World) :
    backfillFile rt config kind since until' lines (w.prepend rows) =
      ((backfillFile rt config kind since until' lines w).1.prepend rows,
        (backfillFile rt config kind since until' lines w).2) := by
  induction lines generalizing w with
  | nil => rfl
  | cons line lines ih =>
    rw [backfillFile, backfillFile]
    cases readLine rt line.text with
    | blank => exact ih w
    | raises exc => rfl
    | payload fields => simp only [backfillLine_prepend, ih]

/-- A program does the same whatever the table holds when it starts. -/
theorem Program.run_prepend (program : Program) (rows : List ConsumerDlqEvent) (w : World) :
    program.run rt config (w.prepend rows) = (program.run rt config w).prepend rows := by
  cases program with
  | consume maxMessages polls =>
    exact congrArg LoopState.world (runConsumer_prepend maxMessages rows polls ⟨w, 0, .running⟩)
  | backfill ledgerFile paymentOrderFile since until' =>
    simp only [Program.run, runBackfill_eq, backfillFile_prepend]
    split_ifs <;> rfl

/-! ## The clock readings of the rows -/

theorem writeDlqPayload_rows {health : SinkHealth} {payload : PyDict} {now : DateTime} {w : World}
    {row : ConsumerDlqEvent}
    (h : row ∈ (writeDlqPayload rt.toPyRuntime config health payload now w).dlqEvents) :
    row ∈ w.dlqEvents ∨ row.ingestedAt = now := by
  unfold writeDlqPayload at h
  split at h
  · rcases List.mem_append.mp h with h | h
    · exact .inl h
    · exact .inr (by rw [List.mem_singleton.mp h]; rfl)
  · exact .inl h
  · exact .inl h

theorem handleError_rows {delivery : Delivery} {exc : PyExc} {w : World} {row : ConsumerDlqEvent}
    (h : row ∈ (handleError rt.toPyRuntime config delivery exc w).1.dlqEvents) :
    row ∈ w.dlqEvents ∨ row.ingestedAt = delivery.now := by
  unfold handleError at h
  split at h
  · exact .inl h
  · exact writeDlqPayload_rows h

/-- The reading a round dates its record with. -/
def Round.now : Round → DateTime
  | .message delivery => delivery.now
  | .payload _ _ _ _ line => line.now

theorem Round.run_rows {round : Round} {w : World} {row : ConsumerDlqEvent}
    (h : row ∈ (round.run rt config w).dlqEvents) :
    row ∈ w.dlqEvents ∨ row.ingestedAt = round.now := by
  cases round with
  | message delivery =>
    simp only [Round.run, consumeMessage] at h
    split at h
    · exact handleError_rows h
    · split at h
      · exact .inl h
      · rcases handleError_rows h with h | h
        · exact .inl h
        · exact .inr h
  | payload kind since until' fields line =>
    simp only [Round.run, backfillLine] at h
    split at h
    · exact .inl h
    · exact .inl h
    · exact writeDlqPayload_rows h

theorem mem_fileRounds {kind : TopicKind} {since until' : Option DateTime}
    {lines : List BackfillLine} {round : Round}
    (h : round ∈ fileRounds rt kind since until' lines) :
    ∃ fields, ∃ line ∈ lines, round = .payload kind since until' fields line := by
  induction lines with
  | nil => cases h
  | cons line lines ih =>
    rw [fileRounds] at h
    have hlater : round ∈ fileRounds rt kind since until' lines →
        ∃ fields, ∃ line' ∈ line :: lines, round = .payload kind since until' fields line' := by
      intro hmem
      obtain ⟨fields, line', hline, hround⟩ := ih hmem
      exact ⟨fields, line', List.mem_cons_of_mem _ hline, hround⟩
    split at h
    · exact hlater h
    · cases h
    · next fields _ =>
      rcases List.mem_cons.mp h with hround | h
      · exact ⟨fields, line, List.mem_cons_self, hround⟩
      · exact hlater h

theorem mem_clocks {program : Program} {w : World} {round : Round}
    (h : round ∈ program.rounds rt config w) : round.now ∈ program.clocks := by
  cases program with
  | consume maxMessages polls =>
    obtain ⟨delivery, rfl, hpoll⟩ := mem_consumerRounds h
    exact List.mem_filterMap.mpr ⟨_, hpoll, rfl⟩
  | backfill ledgerFile paymentOrderFile since until' =>
    refine List.mem_map.mpr ?_
    rcases List.mem_append.mp h with h | h
    · obtain ⟨fields, line, hline, rfl⟩ := mem_fileRounds h
      exact ⟨line, List.mem_append_left _ hline, rfl⟩
    · split_ifs at h
      · obtain ⟨fields, line, hline, rfl⟩ := mem_fileRounds h
        exact ⟨line, List.mem_append_right _ hline, rfl⟩
      · cases h

/-- What a program adds to the table is dated by its readings. -/
theorem Program.run_rows {program : Program} {w : World} {row : ConsumerDlqEvent}
    (h : row ∈ (program.run rt config w).dlqEvents) :
    row ∈ w.dlqEvents ∨ row.ingestedAt ∈ program.clocks := by
  rw [Program.run_rounds] at h
  have hrounds : ∀ rounds : List Round, (∀ round ∈ rounds, round.now ∈ program.clocks) →
      ∀ w, row ∈ (rounds.foldl (Round.run rt config) w).dlqEvents →
        row ∈ w.dlqEvents ∨ row.ingestedAt ∈ program.clocks := by
    intro rounds
    induction rounds with
    | nil => exact fun _ w hrow => .inl hrow
    | cons round rounds ih =>
      intro hclocks w hrow
      obtain ⟨hround, hlater⟩ := List.forall_mem_cons.mp hclocks
      rcases ih hlater _ hrow with hrow | hrow
      · rcases Round.run_rows hrow with hrow | hnow
        · exact .inl hrow
        · exact .inr (hnow ▸ hround)
      · exact .inr hrow
  exact hrounds _ (fun round hround => mem_clocks hround) w h

/-! ## Histories -/

theorem clocked_of_concat {lifetimes : List Lifetime} {lifetime : Lifetime}
    (h : Clocked (lifetimes ++ [lifetime])) :
    Clocked lifetimes ∧ ∀ earlier ∈ lifetimes ++ [lifetime],
      earlier.startedAt ≤ lifetime.startedAt := by
  obtain ⟨hstarts, hwithin⟩ := h
  rw [List.map_append, List.pairwise_append] at hstarts
  refine ⟨⟨hstarts.1, fun l hl => hwithin l (List.mem_append_left _ hl)⟩, fun earlier hmem => ?_⟩
  rcases List.mem_append.mp hmem with hmem | hmem
  · exact hstarts.2.2 _ (List.mem_map.mpr ⟨earlier, hmem, rfl⟩) _ (by simp)
  · rw [List.mem_singleton.mp hmem]

/-- A later program adds nothing that an earlier start would delete. -/
theorem filter_added {lifetimes : List Lifetime} {lifetime : Lifetime}
    (h : Clocked (lifetimes ++ [lifetime])) {w : World} (hempty : w.dlqEvents = []) :
    ((lifetime.program.run rt lifetime.config w).dlqEvents).filter
        (fun row => (lifetimes ++ [lifetime]).all (·.spares row)) =
      (lifetime.program.run rt lifetime.config w).dlqEvents := by
  refine List.filter_eq_self.mpr fun row hrow => List.all_eq_true.mpr fun earlier hearlier => ?_
  refine spares_of_started ?_
  rcases Program.run_rows hrow with hrow | hclock
  · rw [hempty] at hrow
    cases hrow
  · exact le_trans ((clocked_of_concat h).2 earlier hearlier)
      (h.within lifetime (by simp) _ hclock)

/-- After any history the deletions have changed the dead-letter table alone, and
it is the undisturbed table without the rows that were too old at some start. -/
theorem retention_law (w : World) (lifetimes : List Lifetime) (h : Clocked lifetimes) :
    runLifetimes rt w lifetimes =
      { runUnpruned rt w lifetimes with
        dlqEvents := (runUnpruned rt w lifetimes).dlqEvents.filter
          (fun row => lifetimes.all (·.spares row)) } := by
  induction lifetimes using List.reverseRecOn with
  | nil => simp [runLifetimes, runUnpruned]
  | append_singleton lifetimes lifetime ih =>
    have hfront := ih (clocked_of_concat h).1
    generalize hu : runUnpruned rt w lifetimes = u at hfront
    have hrun : runLifetimes rt w (lifetimes ++ [lifetime]) =
        lifetime.run rt (runLifetimes rt w lifetimes) := by
      simp [runLifetimes]
    have hunpruned : runUnpruned rt w (lifetimes ++ [lifetime]) =
        lifetime.program.run rt lifetime.config u := by
      simp [runUnpruned, ← hu]
    -- both runs go through the program from the same world, but for the rows in front
    obtain ⟨bare, hempty, hbare⟩ : ∃ bare : World, bare.dlqEvents = [] ∧
        ∀ rows, { u with dlqEvents := rows } = bare.prepend rows :=
      ⟨{ u with dlqEvents := [] }, rfl, fun rows => by simp [World.prepend]⟩
    have hkept := @filter_added rt lifetimes lifetime h bare hempty
    have hu' : lifetime.program.run rt lifetime.config u =
        (lifetime.program.run rt lifetime.config bare).prepend u.dlqEvents := by
      rw [← Program.run_prepend, ← hbare]
    have hfiltered : ∀ row, (lifetime.spares row && lifetimes.all (·.spares row)) =
        (lifetimes ++ [lifetime]).all (·.spares row) := by
      intro row
      simp [Bool.and_comm]
    rw [hrun, hunpruned, hfront, Lifetime.run, maybePruneDlq_eq, hbare, Program.run_prepend, hu']
    simp only [World.prepend, List.filter_append, List.filter_filter, hfiltered, hkept]

/-! ### Three starts, ten days apart -/

/-- A start on this day of the year, whose program records one empty message. -/
def startOn (day : Int) (retentionDays : Int) : Lifetime where
  config := sampleConfig
  retentionDays := retentionDays
  startedAt := 1767225600000000 + day * dayMicros
  pruneFault := none
  program := .consume none [.message
    { sampleDelivery none none .none with now := 1767225600000001 + day * dayMicros }]

def threeStarts : List Lifetime := [startOn 0 14, startOn 10 14, startOn 20 14]

theorem threeStarts_pruned :
    (runUnpruned sampleTextRuntime emptyWorld threeStarts).dlqEvents.length = 3 ∧
      (runLifetimes sampleTextRuntime emptyWorld threeStarts).dlqEvents.length = 2 := by
  have hclocked : Clocked threeStarts := by
    constructor
    · decide
    · intro lifetime hlifetime now hnow
      simp only [threeStarts, List.mem_cons, List.not_mem_nil, or_false] at hlifetime
      rcases hlifetime with rfl | rfl | rfl
      · rw [List.mem_singleton.mp hnow]
        decide
      · rw [List.mem_singleton.mp hnow]
        decide
      · rw [List.mem_singleton.mp hnow]
        decide
  refine ⟨by decide +kernel, ?_⟩
  rw [retention_law emptyWorld threeStarts hclocked]
  decide +kernel

end TxLookup.Consumer
