import TxLookup.Consumer.Jobs
import TxLookup.Consumer.Gauges

/-!
# The instruments of a backfill

A backfill counts an event, its time and its version once the transaction of the payload
has been committed, where the consumer reads the time before. So its gauges follow the
tables: every payload the reader gets to is one success, one error with its dead letter
or out of range. Only a skipped pairing is counted before the commit, and stays counted
if the commit fails.
-/
namespace TxLookup.Consumer

open Library Db

/-- A payload the loop has got to, with its line and the clock readings taken for it;
no watermark is among them. -/
structure Taken where
  kind : TopicKind
  fields : PyDict
  line : BackfillLine
  readings : Readings

/-- The snapshot that the upsert of an event returns. -/
def Event.snapshot (env : Surroundings) (db : Database) : Event → Option PairingSnapshot
  | .ledger event => (upsertLedgerEntry env event db).2.2
  | .order _ => none

variable (rt : TextRuntime) (config : AppConfig)

/-- The instruments after the exception handler of the loop. -/
def meterBackfillFailure (kind : TopicKind) (exc : PyExc) (m : Instruments) : Instruments :=
  let topic := backfillTopic kind
  let m := (m.recordConsumerMessage topic (py "error")).recordDlq topic
  if classifyError exc = py "contract_core_violation" then
    m.recordContractCoreViolation (config.profile.topicOf kind) config.profile.profileId
  else m

/-- The instruments after the transaction of an event is committed. -/
def meterCommitted (entry : Taken) (event : Event) (db : Database) (m : Instruments) :
    Instruments :=
  let topic := config.profile.topicOf entry.kind
  let m := m.recordEventTime topic event.measuredTime entry.readings
  let m := (m.recordVersion topic event.missingVersion).recordConsumerMessage topic (py "success")
  m.recordPairing (event.snapshot entry.line.env db)

/-- The instruments after what has become of a payload. -/
def meterResult (entry : Taken) (db : Database) (m : Instruments) :
    Except PyExc (Option Event) → Instruments
  | .error exc => meterBackfillFailure config entry.kind exc m
  | .ok none => m
  | .ok (some event) => meterCommitted config entry event db m

section
variable (since until' : Option DateTime)

/-- What becomes of a payload. -/
def Taken.result (entry : Taken) : Except PyExc (Option Event) :=
  tryPayload rt config entry.kind since until' entry.fields entry.line

/-- The instruments after the upsert of an event in range; a commit that raises comes later. -/
def meterUpsert (entry : Taken) (m : Instruments) : Instruments :=
  match backfillEvent rt config entry.kind entry.fields with
  | .ok (.ledger event) =>
    if withinRange since until' event.eventTime = true ∧
        (entry.line.transaction = none ∨ entry.line.atCommit = true) then
      m.recordSkipped event
    else m
  | _ => m

/-- The instruments after one round of the loop. -/
def meterTaken (entry : Taken) (db : Database) (m : Instruments) : Instruments :=
  let topic := config.profile.topicOf entry.kind
  let m := m.recordContractProfileMessage topic config.profile.profileId
  match normalizePayloadForTopic rt.toPyRuntime topic entry.fields config.profile with
  | .error exc => meterBackfillFailure config entry.kind exc m
  | .ok normalized =>
    let m := m.recordContractMetrics topic config.profile.profileId normalized.aliasHits
    let m := meterUpsert rt config since until' entry m
    meterResult config entry db m (entry.result rt config since until')

/-- The backfill with its instruments, and the payloads it has got to. -/
structure BackfillMetered where
  world : World
  instruments : Instruments
  taken : List Taken

def BackfillMetered.start (w : World) : BackfillMetered := ⟨w, .new, []⟩

def BackfillMetered.take (s : BackfillMetered) (entry : Taken) : BackfillMetered where
  world := backfillLine rt config entry.kind since until' entry.fields entry.line s.world
  instruments := meterTaken rt config since until' entry s.world.db s.instruments
  taken := s.taken ++ [entry]

/-- One file, with the readings for each of its lines. -/
def meterFile (kind : TopicKind) :
    List (BackfillLine × Readings) → BackfillMetered → BackfillMetered × Outcome
  | [], s => (s, .running)
  | (line, readings) :: lines, s =>
    match readLine rt line.text with
    | .blank => meterFile kind lines s
    | .raises exc => (s, .raised exc)
    | .payload fields =>
      meterFile kind lines (s.take rt config since until' ⟨kind, fields, line, readings⟩)

/-- `run_backfill` with its instruments. -/
def meterBackfill (ledgerFile paymentOrderFile : Option (List (BackfillLine × Readings)))
    (w : World) : BackfillMetered × Outcome :=
  let ledger := match ledgerFile with
    | some lines => meterFile rt config since until' .ledger lines (.start w)
    | none => (.start w, .running)
  match ledger.2, paymentOrderFile with
  | .running, some lines => meterFile rt config since until' .paymentOrder lines ledger.1
  | _, _ => ledger

/-! ### What a payload is counted as -/

/-- The event whose transaction is committed. -/
def Taken.event? (entry : Taken) : Option Event :=
  (entry.result rt config since until').toOption.join

def Taken.call? (entry : Taken) : Option Call :=
  (entry.event? rt config since until').map fun event => ⟨event, entry.line.env⟩

/-- The message counter, under the topic of the profile or that of the dead letters. -/
def Taken.label? (entry : Taken) : Option (PyStr × PyStr) :=
  match entry.result rt config since until' with
  | .ok (some _) => some (config.profile.topicOf entry.kind, py "success")
  | .ok none => none
  | .error _ => some (backfillTopic entry.kind, py "error")

def Taken.deadTopic? (entry : Taken) : Option PyStr :=
  match entry.result rt config since until' with
  | .ok _ => none
  | .error _ => some (backfillTopic entry.kind)

def Taken.violation? (entry : Taken) : Option (PyStr × PyStr) :=
  match entry.result rt config since until' with
  | .ok _ => none
  | .error exc =>
    if classifyError exc = py "contract_core_violation" then
      some (config.profile.topicOf entry.kind, config.profile.profileId)
    else none

/-- The related type of a skipped pairing, also if only the commit has failed. -/
def Taken.unpaired? (entry : Taken) : Option PyStr :=
  match backfillEvent rt config entry.kind entry.fields with
  | .ok (.ledger event) =>
    if withinRange since until' event.eventTime = true ∧
        (entry.line.transaction = none ∨ entry.line.atCommit = true) then
      event.skippedType?
    else none
  | _ => none

def Taken.freshnessCall? (entry : Taken) : Option FreshnessCall :=
  (entry.event? rt config since until').map fun event =>
    ⟨config.profile.topicOf entry.kind, some event.measuredTime, entry.readings.freshness⟩

def Taken.eventLag? (entry : Taken) : Option (PyStr × Int) :=
  (entry.event? rt config since until').map fun event =>
    (config.profile.topicOf entry.kind, max 0 (entry.readings.eventLag - event.measuredTime))

/-- The payload is out of range. -/
def Taken.skipped (entry : Taken) : Bool :=
  match entry.result rt config since until' with
  | .ok none => true
  | _ => false

/-- The round of the loop that takes the payload. -/
def Taken.round (entry : Taken) : Round :=
  .payload entry.kind since until' entry.fields entry.line

variable {rt config since until'}

/-! ## The run is that of the backfill -/

theorem meterFile_run (kind : TopicKind) (lines : List (BackfillLine × Readings))
    (s : BackfillMetered) :
    ((meterFile rt config since until' kind lines s).1.world,
        (meterFile rt config since until' kind lines s).2) =
      backfillFile rt config kind since until' (lines.map Prod.fst) s.world := by
  induction lines generalizing s with
  | nil => rfl
  | cons head lines ih =>
    obtain ⟨line, readings⟩ := head
    unfold meterFile
    rw [List.map_cons, backfillFile]
    cases hread : readLine rt line.text with
    | blank => exact ih s
    | raises exc => rfl
    | payload fields => exact ih _

/-- A file that is not given is an empty one. -/
theorem meterBackfill_eq (ledgerFile paymentOrderFile : Option (List (BackfillLine × Readings)))
    (w : World) :
    meterBackfill rt config since until' ledgerFile paymentOrderFile w =
      let ledger := meterFile rt config since until' .ledger (ledgerFile.getD []) (.start w)
      if ledger.2 = .running then
        meterFile rt config since until' .paymentOrder (paymentOrderFile.getD []) ledger.1
      else ledger := by
  cases ledgerFile with
  | none => cases paymentOrderFile <;> rfl
  | some lines =>
    unfold meterBackfill
    dsimp only [Option.getD_some]
    generalize meterFile rt config since until' .ledger lines (.start w) = r
    obtain ⟨s, outcome⟩ := r
    cases outcome with
    | running => cases paymentOrderFile <;> rfl
    | stopped => rfl
    | raised exc => rfl

/-- The lines of a file without the readings. -/
theorem getD_lines (file : Option (List (BackfillLine × Readings))) :
    (file.map (·.map Prod.fst)).getD [] = (file.getD []).map Prod.fst := by
  cases file <;> rfl

theorem meterBackfill_run (ledgerFile paymentOrderFile : Option (List (BackfillLine × Readings)))
    (w : World) :
    ((meterBackfill rt config since until' ledgerFile paymentOrderFile w).1.world,
        (meterBackfill rt config since until' ledgerFile paymentOrderFile w).2) =
      runBackfill rt config (ledgerFile.map (·.map Prod.fst))
        (paymentOrderFile.map (·.map Prod.fst)) since until' w := by
  have hledger := @meterFile_run rt config since until' .ledger (ledgerFile.getD []) (.start w)
  rw [meterBackfill_eq, runBackfill_eq, getD_lines, getD_lines]
  dsimp only [BackfillMetered.start] at hledger ⊢
  rw [← hledger]
  split
  · exact meterFile_run .paymentOrder _ _
  · rfl

theorem meterFile_taken (kind : TopicKind) (lines : List (BackfillLine × Readings))
    (s : BackfillMetered) :
    (meterFile rt config since until' kind lines s).1.taken.map (Taken.round since until') =
      s.taken.map (Taken.round since until') ++
        fileRounds rt kind since until' (lines.map Prod.fst) := by
  induction lines generalizing s with
  | nil => exact (List.append_nil _).symm
  | cons head lines ih =>
    obtain ⟨line, readings⟩ := head
    unfold meterFile
    rw [List.map_cons, fileRounds]
    cases readLine rt line.text with
    | blank => exact ih s
    | raises exc => exact (List.append_nil _).symm
    | payload fields =>
      refine (ih _).trans ?_
      rw [BackfillMetered.take, List.map_append, List.append_assoc]
      rfl

/-- The payloads are those the reader gets to, in order. -/
theorem meterBackfill_taken (ledgerFile paymentOrderFile : Option (List (BackfillLine × Readings)))
    (w : World) :
    (meterBackfill rt config since until' ledgerFile paymentOrderFile w).1.taken.map
        (Taken.round since until') =
      backfillRounds rt (ledgerFile.map (·.map Prod.fst)) (paymentOrderFile.map (·.map Prod.fst))
        since until' := by
  have hledger := @meterFile_taken rt config since until' .ledger (ledgerFile.getD []) (.start w)
  have hrun := @meterFile_run rt config since until' .ledger (ledgerFile.getD []) (.start w)
  have hrunning := (@backfillFile_rounds rt config .ledger since until'
    ((ledgerFile.getD []).map Prod.fst) w).2
  rw [show backfillFile rt config .ledger since until' ((ledgerFile.getD []).map Prod.fst) w = _
    from hrun.symm] at hrunning
  rw [meterBackfill_eq, backfillRounds, getD_lines, getD_lines]
  dsimp only at hrunning ⊢
  by_cases hall : readsAll rt ((ledgerFile.getD []).map Prod.fst) = true
  · rw [if_pos hall, if_pos (hrunning.mpr hall), meterFile_taken, hledger]
    rfl
  · rw [if_neg hall, if_neg fun h => hall (hrunning.mp h), hledger, List.append_nil]
    rfl

/-! ## What a round counts -/

/-- A payload that cannot be normalized fails with that exception. -/
theorem result_of_normalize_error {entry : Taken} {exc : PyExc}
    (h : normalizePayloadForTopic rt.toPyRuntime (config.profile.topicOf entry.kind) entry.fields
      config.profile = .error exc) : entry.result rt config since until' = .error exc := by
  rw [Taken.result, tryPayload, backfillEvent, h]
  rfl

theorem meterUpsert_eq (entry : Taken) (m : Instruments) :
    meterUpsert rt config since until' entry m = { m with
      pairingSkipped := m.pairingSkipped ++
        (entry.unpaired? rt config since until').toList } := by
  unfold meterUpsert Taken.unpaired?
  split
  · split
    · rfl
    · simp
  · simp

/-- A round, whatever its alias hits. -/
theorem meterTaken_eq (entry : Taken) (db : Database) (m : Instruments) : ∃ hits,
    meterTaken rt config since until' entry db m = meterResult config entry db
      { m.recordContractProfileMessage (config.profile.topicOf entry.kind)
          config.profile.profileId with
        aliasHits := hits
        pairingSkipped := m.pairingSkipped ++ (entry.unpaired? rt config since until').toList }
      (entry.result rt config since until') := by
  unfold meterTaken
  cases hnorm : normalizePayloadForTopic rt.toPyRuntime (config.profile.topicOf entry.kind)
      entry.fields config.profile with
  | error exc =>
    have hunpaired : entry.unpaired? rt config since until' = none := by
      have hevent : backfillEvent rt config entry.kind entry.fields = .error exc := by
        rw [backfillEvent, hnorm]
        rfl
      rw [Taken.unpaired?, hevent]
    simp only [hnorm, result_of_normalize_error hnorm, hunpaired, Option.toList_none,
      List.append_nil]
    exact ⟨m.aliasHits, rfl⟩
  | ok normalized =>
    simp only [hnorm, meterUpsert_eq]
    exact ⟨_, rfl⟩

variable (rt config since until') in
/-- The instruments are what the history of the payloads makes them. -/
structure Counted (db : Database) (s : BackfillMetered) : Prop where
  database : s.world.db = runFrom db (s.taken.filterMap (Taken.call? rt config since until'))
  messages : s.instruments.messages = s.taken.filterMap (Taken.label? rt config since until')
  dlq : s.instruments.dlq = s.taken.filterMap (Taken.deadTopic? rt config since until')
  profileMessages : s.instruments.profileMessages = s.taken.map fun entry =>
    (config.profile.topicOf entry.kind, config.profile.profileId)
  violations : s.instruments.coreViolations =
    s.taken.filterMap (Taken.violation? rt config since until')
  eventLags : s.instruments.eventLags = s.taken.filterMap (Taken.eventLag? rt config since until')
  freshness : s.instruments.freshness =
    recordAll (s.taken.filterMap (Taken.freshnessCall? rt config since until'))
  processed : s.instruments.counter.processed =
    (s.taken.filterMap (Taken.event? rt config since until')).length
  missing : s.instruments.counter.missingVersion =
    (s.taken.filterMap (Taken.event? rt config since until')).countP Event.missingVersion
  missingByTopic : s.instruments.versionMissing.length = s.instruments.counter.missingVersion
  unpaired : s.instruments.pairingSkipped = s.taken.filterMap (Taken.unpaired? rt config since until')
  logEvery : s.instruments.counter.logEvery = 100
  summaries : s.instruments.summaries.length = s.instruments.counter.processed / 100
  pairs : PairsAgree s.instruments

theorem Counted.start (w : World) : Counted rt config since until' w.db (.start w) where
  database := rfl
  messages := rfl
  dlq := rfl
  profileMessages := rfl
  violations := rfl
  eventLags := rfl
  freshness := rfl
  processed := rfl
  missing := rfl
  missingByTopic := rfl
  unpaired := rfl
  logEvery := rfl
  summaries := (Nat.zero_div 100).symm
  pairs := ⟨rfl, rfl, Nat.le_refl 0, rfl, rfl⟩

/-- The handler counts an error, a dead letter and perhaps a violation. -/
theorem meterBackfillFailure_eq (kind : TopicKind) (exc : PyExc) (m : Instruments) :
    meterBackfillFailure config kind exc m = { m with
      messages := m.messages ++ [(backfillTopic kind, py "error")]
      dlq := m.dlq ++ [backfillTopic kind]
      coreViolations := m.coreViolations ++
        (if classifyError exc = py "contract_core_violation" then
          some (config.profile.topicOf kind, config.profile.profileId) else none).toList } := by
  unfold meterBackfillFailure
  dsimp only
  split
  · rfl
  · simp [Instruments.recordConsumerMessage, Instruments.recordDlq]

/-- The pairing metrics keep to their own counters. -/
theorem recordPairing_eq (m : Instruments) (snapshot : Option PairingSnapshot) :
    ∃ pairing total incomplete ages, m.recordPairing snapshot = { m with
      pairing := pairing
      pairTotal := total
      pairIncompleteTotal := incomplete
      pairIncompleteAges := ages } := by
  cases snapshot with
  | none => exact ⟨m.pairing, m.pairTotal, m.pairIncompleteTotal, m.pairIncompleteAges, rfl⟩
  | some snapshot => exact ⟨_, _, _, _, rfl⟩

theorem filterMap_snoc {α β : Type} (f : α → Option β) (xs : List α) (x : α) :
    (xs ++ [x]).filterMap f = xs.filterMap f ++ (f x).toList := by
  rw [List.filterMap_append]
  cases hf : f x with
  | none => simp [hf]
  | some y => simp [hf]

variable (rt config since until') in
/-- What the result of a payload adds to the instruments. -/
structure RoundCounts (entry : Taken) (m m' : Instruments) : Prop where
  messages : m'.messages = m.messages ++ (entry.label? rt config since until').toList
  dlq : m'.dlq = m.dlq ++ (entry.deadTopic? rt config since until').toList
  profileMessages : m'.profileMessages = m.profileMessages
  violations : m'.coreViolations = m.coreViolations ++
    (entry.violation? rt config since until').toList
  eventLags : m'.eventLags = m.eventLags ++ (entry.eventLag? rt config since until').toList
  freshness : m'.freshness =
    (entry.freshnessCall? rt config since until').toList.foldl FreshnessState.record m.freshness
  processed : m'.counter.processed = m.counter.processed +
    (entry.event? rt config since until').toList.length
  missing : m'.counter.missingVersion = m.counter.missingVersion +
    (entry.event? rt config since until').toList.countP Event.missingVersion
  missingByTopic : m.versionMissing.length = m.counter.missingVersion →
    m'.versionMissing.length = m'.counter.missingVersion
  unpaired : m'.pairingSkipped = m.pairingSkipped
  logEvery : m'.counter.logEvery = m.counter.logEvery
  summaries : m.counter.logEvery = 100 → m.summaries.length = m.counter.processed / 100 →
    m'.summaries.length = m'.counter.processed / 100
  pairs : PairsAgree m → PairsAgree m'

theorem roundCounts_of_failed {entry : Taken} {exc : PyExc} (m : Instruments)
    (hresult : entry.result rt config since until' = .error exc) :
    RoundCounts rt config since until' entry m
      (meterBackfillFailure config entry.kind exc m) := by
  have hevent : entry.event? rt config since until' = none := by
    rw [Taken.event?, hresult]
    rfl
  rw [meterBackfillFailure_eq]
  constructor
  case messages => rw [Taken.label?, hresult]; rfl
  case dlq => rw [Taken.deadTopic?, hresult]; rfl
  case profileMessages => rfl
  case violations => rw [Taken.violation?, hresult]
  case eventLags => rw [Taken.eventLag?, hevent]; exact (List.append_nil _).symm
  case freshness => rw [Taken.freshnessCall?, hevent]; rfl
  case processed => rw [hevent]; rfl
  case missing => rw [hevent]; rfl
  case missingByTopic => exact id
  case unpaired => rfl
  case logEvery => rfl
  case summaries => exact fun _ h => h
  case pairs => exact fun h => ⟨h.total, h.incomplete, h.within, h.ages, h.oldest⟩

/-- A payload out of range is counted under its profile only. -/
theorem roundCounts_of_skipped {entry : Taken} (m : Instruments)
    (hresult : entry.result rt config since until' = .ok none) :
    RoundCounts rt config since until' entry m m := by
  have hevent : entry.event? rt config since until' = none := by
    rw [Taken.event?, hresult]
    rfl
  constructor
  case messages => rw [Taken.label?, hresult]; exact (List.append_nil _).symm
  case dlq => rw [Taken.deadTopic?, hresult]; exact (List.append_nil _).symm
  case profileMessages => rfl
  case violations => rw [Taken.violation?, hresult]; exact (List.append_nil _).symm
  case eventLags => rw [Taken.eventLag?, hevent]; exact (List.append_nil _).symm
  case freshness => rw [Taken.freshnessCall?, hevent]; rfl
  case processed => rw [hevent]; rfl
  case missing => rw [hevent]; rfl
  case missingByTopic => exact id
  case unpaired => rfl
  case logEvery => rfl
  case summaries => exact fun _ h => h
  case pairs => exact fun h => ⟨h.total, h.incomplete, h.within, h.ages, h.oldest⟩

theorem roundCounts_of_committed {entry : Taken} {event : Event} (db : Database)
    (m : Instruments) (hresult : entry.result rt config since until' = .ok (some event)) :
    RoundCounts rt config since until' entry m (meterCommitted config entry event db m) := by
  have hevent : entry.event? rt config since until' = some event := by
    rw [Taken.event?, hresult]
    rfl
  -- the version of the event is counted as the consumer counts it
  have hversion := fun hevery => @afterProcess_counts
    (m.recordEventTime (config.profile.topicOf entry.kind) event.measuredTime entry.readings) hevery
    (config.profile.topicOf entry.kind) (.ok event)
  unfold meterCommitted
  dsimp only
  obtain ⟨pairing, total, incomplete, ages, hpairing⟩ := recordPairing_eq
    (((m.recordEventTime (config.profile.topicOf entry.kind) event.measuredTime
      entry.readings).recordVersion (config.profile.topicOf entry.kind)
        event.missingVersion).recordConsumerMessage (config.profile.topicOf entry.kind)
          (py "success")) (event.snapshot entry.line.env db)
  constructor
  case pairs =>
    intro h
    refine PairsAgree.recordPairing ?_ _
    exact ⟨h.total, h.incomplete, h.within, h.ages, h.oldest⟩
  all_goals rw [hpairing]
  case messages => rw [Taken.label?, hresult]; rfl
  case dlq => rw [Taken.deadTopic?, hresult]; exact (List.append_nil _).symm
  case profileMessages => rfl
  case violations => rw [Taken.violation?, hresult]; exact (List.append_nil _).symm
  case eventLags => rw [Taken.eventLag?, hevent]; rfl
  case freshness => rw [Taken.freshnessCall?, hevent]; rfl
  case processed => rw [hevent]; rfl
  case missing =>
    rw [hevent]
    cases hmissing : event.missingVersion <;>
      simp [Instruments.recordConsumerMessage, Instruments.recordVersion,
        VersionMissingCounter.record, Instruments.recordEventTime, hmissing]
  case missingByTopic =>
    intro h
    cases event.missingVersion <;>
      simp [Instruments.recordConsumerMessage, Instruments.recordVersion,
        VersionMissingCounter.record, Instruments.recordEventTime, h]
  case unpaired => rfl
  case logEvery => rfl
  case summaries =>
    intro hevery h
    exact (hversion hevery).2.2.2.2.2.2 h

theorem meterResult_counts (entry : Taken) (db : Database) (m : Instruments) :
    RoundCounts rt config since until' entry m
      (meterResult config entry db m (entry.result rt config since until')) := by
  cases hresult : entry.result rt config since until' with
  | error exc => exact roundCounts_of_failed m hresult
  | ok applied =>
    cases applied with
    | none => exact roundCounts_of_skipped m hresult
    | some event => exact roundCounts_of_committed db m hresult

theorem take_db (s : BackfillMetered) (entry : Taken) :
    (s.take rt config since until' entry).world.db =
      runFrom s.world.db (entry.call? rt config since until').toList :=
  Round.run_db (.payload entry.kind since until' entry.fields entry.line) s.world

theorem Counted.take {db : Database} {s : BackfillMetered} (h : Counted rt config since until' db s)
    (entry : Taken) :
    Counted rt config since until' db (s.take rt config since until' entry) := by
  obtain ⟨hits, htaken⟩ := @meterTaken_eq rt config since until' entry s.world.db s.instruments
  have hround := @meterResult_counts rt config since until' entry s.world.db
    { s.instruments.recordContractProfileMessage (config.profile.topicOf entry.kind)
        config.profile.profileId with
      aliasHits := hits
      pairingSkipped := s.instruments.pairingSkipped ++
        (entry.unpaired? rt config since until').toList }
  rw [← htaken] at hround
  constructor
  case database =>
    rw [take_db, h.database]
    simp only [BackfillMetered.take, filterMap_snoc, runFrom, List.foldl_append]
  case messages =>
    simp only [BackfillMetered.take, filterMap_snoc, ← h.messages]
    exact hround.messages
  case dlq =>
    simp only [BackfillMetered.take, filterMap_snoc, ← h.dlq]
    exact hround.dlq
  case profileMessages =>
    simp only [BackfillMetered.take, List.map_append, ← h.profileMessages]
    exact hround.profileMessages.trans rfl
  case violations =>
    simp only [BackfillMetered.take, filterMap_snoc, ← h.violations]
    exact hround.violations
  case eventLags =>
    simp only [BackfillMetered.take, filterMap_snoc, ← h.eventLags]
    exact hround.eventLags
  case freshness =>
    simp only [BackfillMetered.take, filterMap_snoc, recordAll, List.foldl_append]
    rw [← recordAll, ← h.freshness]
    exact hround.freshness
  case processed =>
    simp only [BackfillMetered.take, filterMap_snoc, List.length_append, ← h.processed]
    exact hround.processed
  case missing =>
    simp only [BackfillMetered.take, filterMap_snoc, List.countP_append, ← h.missing]
    exact hround.missing
  case missingByTopic => exact hround.missingByTopic h.missingByTopic
  case unpaired =>
    simp only [BackfillMetered.take, filterMap_snoc, ← h.unpaired]
    exact hround.unpaired
  case logEvery => exact hround.logEvery.trans h.logEvery
  case summaries => exact hround.summaries h.logEvery h.summaries
  case pairs =>
    exact hround.pairs
      ⟨h.pairs.total, h.pairs.incomplete, h.pairs.within, h.pairs.ages, h.pairs.oldest⟩

theorem Counted.file {db : Database} {s : BackfillMetered}
    (h : Counted rt config since until' db s) (kind : TopicKind)
    (lines : List (BackfillLine × Readings)) :
    Counted rt config since until' db (meterFile rt config since until' kind lines s).1 := by
  induction lines generalizing s with
  | nil => exact h
  | cons head lines ih =>
    obtain ⟨line, readings⟩ := head
    unfold meterFile
    cases readLine rt line.text with
    | blank => exact ih h
    | raises exc => exact h
    | payload fields => exact ih (h.take _)

theorem Counted.backfill (ledgerFile paymentOrderFile : Option (List (BackfillLine × Readings)))
    (w : World) : Counted rt config since until' w.db
      (meterBackfill rt config since until' ledgerFile paymentOrderFile w).1 := by
  have hledger := (@Counted.start rt config since until' w).file .ledger (ledgerFile.getD [])
  rw [meterBackfill_eq]
  dsimp only
  split
  · exact hledger.file .paymentOrder _
  · exact hledger

/-! ## The balance of the payloads -/

theorem topicOf_injective {profile : EventContractProfile} {kind kind' : TopicKind}
    (h : profile.topicOf kind = profile.topicOf kind') : kind = kind' := by
  have hkind := congrArg profile.topicKind h
  rw [topicKind_topicOf, topicKind_topicOf] at hkind
  exact Option.some.inj hkind

theorem backfillTopic_injective {kind kind' : TopicKind}
    (h : backfillTopic kind = backfillTopic kind') : kind = kind' := by
  cases kind <;> cases kind'
  · rfl
  · exact absurd h (by decide)
  · exact absurd h (by decide)
  · rfl

/-- A payload is a success, an error or skipped, and one of them only. -/
theorem labels_balance (kind : TopicKind) (taken : List Taken) :
    taken.countP (fun entry => entry.kind = kind) =
      (taken.filterMap (Taken.label? rt config since until')).count
          (config.profile.topicOf kind, py "success") +
        (taken.filterMap (Taken.label? rt config since until')).count
          (backfillTopic kind, py "error") +
        taken.countP (fun entry => entry.kind = kind ∧ entry.skipped rt config since until') := by
  have hstatus : py "success" ≠ py "error" := by decide
  induction taken using List.reverseRecOn with
  | nil => rfl
  | append_singleton taken entry ih =>
    have htopic : config.profile.topicOf entry.kind = config.profile.topicOf kind ↔
        entry.kind = kind := ⟨topicOf_injective, congrArg _⟩
    have hdead : backfillTopic entry.kind = backfillTopic kind ↔ entry.kind = kind :=
      ⟨backfillTopic_injective, congrArg _⟩
    simp only [filterMap_snoc, List.countP_append, List.countP_singleton, ih]
    unfold Taken.label? Taken.skipped
    cases entry.result rt config since until' with
    | error exc =>
      simp only [Option.toList_some, count_snoc, Prod.mk.injEq, hstatus.symm, hdead]
      simp only [and_true, and_false, if_false, Bool.false_eq_true, decide_eq_true_eq]
      omega
    | ok applied =>
      cases applied with
      | none =>
        simp only [Option.toList_none, List.append_nil, and_true, decide_eq_true_eq]
        omega
      | some event =>
        simp only [Option.toList_some, count_snoc, Prod.mk.injEq, hstatus, htopic]
        simp only [and_true, and_false, if_false, Bool.false_eq_true, decide_eq_true_eq]
        omega

/-- Each dead letter is an error of its topic. -/
theorem dead_balance (kind : TopicKind) (taken : List Taken) :
    (taken.filterMap (Taken.deadTopic? rt config since until')).count (backfillTopic kind) =
      (taken.filterMap (Taken.label? rt config since until')).count
        (backfillTopic kind, py "error") := by
  have hstatus : py "success" ≠ py "error" := by decide
  induction taken using List.reverseRecOn with
  | nil => rfl
  | append_singleton taken entry ih =>
    simp only [filterMap_snoc, List.count_append, ih]
    unfold Taken.label? Taken.deadTopic?
    cases entry.result rt config since until' with
    | error exc => simp [List.count_singleton]
    | ok applied =>
      cases applied with
      | none => rfl
      | some event => simp [hstatus]

/-- The instruments of a backfill leave it as it is and follow its tables: each payload is
a success, an error with a dead letter or out of range, the successes are the transactions
that were committed, and the freshness of a topic is the age its latest committed event had
when the last one was committed. -/
theorem backfill_books (ledgerFile paymentOrderFile : Option (List (BackfillLine × Readings)))
    (since until' : Option DateTime) (w : World) :
    let metered := (meterBackfill rt config since until' ledgerFile paymentOrderFile w).1
    (metered.world, (meterBackfill rt config since until' ledgerFile paymentOrderFile w).2) =
        runBackfill rt config (ledgerFile.map (·.map Prod.fst))
          (paymentOrderFile.map (·.map Prod.fst)) since until' w ∧
      metered.taken.map (Taken.round since until') = backfillRounds rt
        (ledgerFile.map (·.map Prod.fst)) (paymentOrderFile.map (·.map Prod.fst)) since until' ∧
      Counted rt config since until' w.db metered ∧
      (∀ kind,
        metered.taken.countP (fun entry => entry.kind = kind) =
          metered.instruments.messages.count (config.profile.topicOf kind, py "success") +
            metered.instruments.messages.count (backfillTopic kind, py "error") +
            metered.taken.countP
              (fun entry => entry.kind = kind ∧ entry.skipped rt config since until') ∧
        metered.instruments.dlq.count (backfillTopic kind) =
          metered.instruments.messages.count (backfillTopic kind, py "error")) ∧
      ∀ topic, exported metered.instruments.freshness topic = (shownAge
        (metered.taken.filterMap (Taken.freshnessCall? rt config since until')) topic).toList := by
  have h := @Counted.backfill rt config since until' ledgerFile paymentOrderFile w
  refine ⟨meterBackfill_run ledgerFile paymentOrderFile w,
    meterBackfill_taken ledgerFile paymentOrderFile w, h, fun kind => ?_, fun topic => ?_⟩
  · rw [h.messages, h.dlq]
    exact ⟨labels_balance kind _, dead_balance kind _⟩
  · rw [h.freshness]
    exact exported_eq _ topic

end

end TxLookup.Consumer
