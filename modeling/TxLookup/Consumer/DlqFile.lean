import TxLookup.Consumer.Backfill

/-!
# The dead-letter file

The file is written by any number of runs of the program, each a consumer or a
backfill, one after the other. It holds one line for each record the file sink
stored, in order, and each record belongs to the round that wrote it.
-/
namespace TxLookup.Consumer

open Library Library.PyText Db Common

/-- A run of the program in one of its modes. -/
inductive Program where
  | consume (maxMessages : Option Int) (polls : List Poll)
  | backfill (ledgerFile paymentOrderFile : Option (List BackfillLine))
    (since until' : Option DateTime)

/-- What a program takes in one round of its loop. -/
inductive Round where
  | message (delivery : Delivery)
  | payload (kind : TopicKind) (since until' : Option DateTime) (fields : PyDict)
    (line : BackfillLine)

variable (rt : TextRuntime) (config : AppConfig)

def Round.run (w : World) : Round → World
  | .message delivery => (consumeMessage rt.toPyRuntime config delivery w).1
  | .payload kind since until' fields line =>
    backfillLine rt config kind since until' fields line w

def Program.run (w : World) : Program → World
  | .consume maxMessages polls =>
    (runConsumer rt.toPyRuntime config maxMessages ⟨w, 0, .running⟩ polls).world
  | .backfill ledgerFile paymentOrderFile since until' =>
    (runBackfill rt config ledgerFile paymentOrderFile since until' w).1

/-! ## The rounds of a run -/

def pollRounds : Poll → List Round
  | .message delivery => [.message delivery]
  | _ => []

/-- The messages the consumer gets to before it leaves its loop. -/
def consumerRounds (maxMessages : Option Int) (st : LoopState) : List Poll → List Round
  | [] => []
  | poll :: polls =>
    if st.outcome = .running then
      if maxMessages.any (fun m : Int => m ≤ (st.processed : Int)) then []
      else pollRounds poll ++
        consumerRounds maxMessages (iterate rt.toPyRuntime config st poll) polls
    else []

/-- The payloads the backfill gets to in a file. -/
def fileRounds (kind : TopicKind) (since until' : Option DateTime) :
    List BackfillLine → List Round
  | [] => []
  | line :: lines =>
    match readLine rt line.text with
    | .blank => fileRounds kind since until' lines
    | .raises _ => []
    | .payload fields =>
      .payload kind since until' fields line :: fileRounds kind since until' lines

/-- The reader comes to the end of the file. -/
def readsAll : List BackfillLine → Bool
  | [] => true
  | line :: lines =>
    match readLine rt line.text with
    | .raises _ => false
    | _ => readsAll lines

def backfillRounds (ledgerFile paymentOrderFile : Option (List BackfillLine))
    (since until' : Option DateTime) : List Round :=
  fileRounds rt .ledger since until' (ledgerFile.getD []) ++
    if readsAll rt (ledgerFile.getD []) then
      fileRounds rt .paymentOrder since until' (paymentOrderFile.getD [])
    else []

def Program.rounds (w : World) : Program → List Round
  | .consume maxMessages polls => consumerRounds rt config maxMessages ⟨w, 0, .running⟩ polls
  | .backfill ledgerFile paymentOrderFile since until' =>
    backfillRounds rt ledgerFile paymentOrderFile since until'

/-- The world after the programs. -/
def runPrograms (w : World) (programs : List Program) : World :=
  programs.foldl (Program.run rt config) w

/-- The rounds of the programs, in order. -/
def programRounds (w : World) : List Program → List Round
  | [] => []
  | program :: programs =>
    program.rounds rt config w ++ programRounds (program.run rt config w) programs

variable {rt config}

theorem runConsumer_rounds (maxMessages : Option Int) (polls : List Poll) (st : LoopState) :
    (runConsumer rt.toPyRuntime config maxMessages st polls).world =
      (consumerRounds rt config maxMessages st polls).foldl (Round.run rt config) st.world := by
  induction polls generalizing st with
  | nil => rfl
  | cons poll polls ih =>
    rw [runConsumer, consumerRounds]
    split
    · split
      · rfl
      · rw [ih, List.foldl_append]
        cases poll <;> rfl
    · rfl

theorem backfillFile_rounds (kind : TopicKind) (since until' : Option DateTime)
    (lines : List BackfillLine) (w : World) :
    (backfillFile rt config kind since until' lines w).1 =
        (fileRounds rt kind since until' lines).foldl (Round.run rt config) w ∧
      ((backfillFile rt config kind since until' lines w).2 = .running ↔
        readsAll rt lines = true) := by
  induction lines generalizing w with
  | nil => exact ⟨rfl, iff_of_true rfl rfl⟩
  | cons line lines ih =>
    rw [backfillFile, fileRounds, readsAll]
    cases readLine rt line.text with
    | blank => exact ih w
    | raises exc => exact ⟨rfl, (fun h => by cases h), (fun h => by cases h)⟩
    | payload fields => exact ih _

/-- A file that is not given is an empty one. -/
theorem runBackfill_eq (ledgerFile paymentOrderFile : Option (List BackfillLine))
    (since until' : Option DateTime) (w : World) :
    runBackfill rt config ledgerFile paymentOrderFile since until' w =
      let ledger := backfillFile rt config .ledger since until' (ledgerFile.getD []) w
      if ledger.2 = .running then
        backfillFile rt config .paymentOrder since until' (paymentOrderFile.getD []) ledger.1
      else ledger := by
  cases ledgerFile with
  | none => cases paymentOrderFile <;> rfl
  | some lines =>
    unfold runBackfill
    dsimp only [Option.getD_some]
    generalize backfillFile rt config .ledger since until' lines w = r
    obtain ⟨w', outcome⟩ := r
    cases outcome with
    | running => cases paymentOrderFile <;> rfl
    | stopped => rfl
    | raised exc => rfl

theorem runBackfill_rounds (ledgerFile paymentOrderFile : Option (List BackfillLine))
    (since until' : Option DateTime) (w : World) :
    (runBackfill rt config ledgerFile paymentOrderFile since until' w).1 =
      (backfillRounds rt ledgerFile paymentOrderFile since until').foldl
        (Round.run rt config) w := by
  obtain ⟨hrounds, hrunning⟩ :=
    @backfillFile_rounds rt config .ledger since until' (ledgerFile.getD []) w
  rw [runBackfill_eq, backfillRounds, List.foldl_append, ← hrounds]
  by_cases hall : readsAll rt (ledgerFile.getD []) = true
  · rw [if_pos hall]
    show (if _ then _ else _ : World × Outcome).1 = _
    rw [if_pos (hrunning.mpr hall)]
    exact (backfillFile_rounds .paymentOrder since until' _ _).1
  · rw [if_neg hall]
    show (if _ then _ else _ : World × Outcome).1 = _
    rw [if_neg fun h => hall (hrunning.mp h)]
    rfl

/-- A program runs its rounds. -/
theorem Program.run_rounds (w : World) (program : Program) :
    program.run rt config w = (program.rounds rt config w).foldl (Round.run rt config) w := by
  cases program with
  | consume maxMessages polls => exact runConsumer_rounds maxMessages polls _
  | backfill ledgerFile paymentOrderFile since until' =>
    exact runBackfill_rounds ledgerFile paymentOrderFile since until' w

theorem runPrograms_rounds (w : World) (programs : List Program) :
    runPrograms rt config w programs =
      (programRounds rt config w programs).foldl (Round.run rt config) w := by
  induction programs generalizing w with
  | nil => rfl
  | cons program programs ih =>
    rw [programRounds, List.foldl_append, ← Program.run_rounds]
    exact ih _

/-! ## The records in the file -/

/-- The records the file sink has stored, in order. -/
def fileRecords (trace : List Effect) : List PyDict :=
  trace.filterMap fun
    | .recorded .file record => some record
    | _ => none

variable (rt config) in
/-- The round can write this record. -/
def Round.Writes : Round → PyDict → Prop
  | .message delivery, record => ∃ key exc, decodedKey delivery.msg = .ok key ∧
    record = dlqPayload rt.toPyRuntime config delivery key exc
  | .payload kind _ _ fields line, record => ∃ exc,
    record = backfillPayload rt config kind fields exc line.nowIso

variable (rt) in
/-- What was added to the file, with the records that were added to the trace. -/
def FileGrows (w w' : World) (records : List PyDict) : Prop :=
  w'.dlqFile = w.dlqFile ++ records.map (dlqLine rt.toPyRuntime) ∧
    fileRecords w'.trace = fileRecords w.trace ++ records

theorem FileGrows.refl (w : World) : FileGrows rt w w [] :=
  ⟨(List.append_nil _).symm, (List.append_nil _).symm⟩

theorem FileGrows.trans {w w' w'' : World} {records more : List PyDict}
    (h : FileGrows rt w w' records) (h' : FileGrows rt w' w'' more) :
    FileGrows rt w w'' (records ++ more) := by
  constructor
  · rw [h'.1, h.1, List.map_append, List.append_assoc]
  · rw [h'.2, h.2, List.append_assoc]

theorem fileRecords_append (trace more : List Effect) :
    fileRecords (trace ++ more) = fileRecords trace ++ fileRecords more :=
  List.filterMap_append

theorem writeDlqPayload_file {health : SinkHealth} {payload : PyDict} {now : DateTime}
    (h : storingSink rt.toPyRuntime config.dlqBackend health payload now = some .file) (w : World) :
    FileGrows rt w (writeDlqPayload rt.toPyRuntime config health payload now w) [payload] := by
  rw [writeDlqPayload, h]
  exact ⟨rfl, fileRecords_append _ _⟩

theorem writeDlqPayload_grows (health : SinkHealth) (payload : PyDict) (now : DateTime)
    (w : World) : ∃ records, FileGrows rt w
      (writeDlqPayload rt.toPyRuntime config health payload now w) records ∧
        (records = [] ∨ records = [payload]) := by
  cases hsink : storingSink rt.toPyRuntime config.dlqBackend health payload now with
  | none =>
    rw [writeDlqPayload, hsink]
    exact ⟨[], FileGrows.refl w, .inl rfl⟩
  | some sink =>
    cases sink with
    | table =>
      rw [writeDlqPayload, hsink]
      exact ⟨[], ⟨(List.append_nil _).symm, fileRecords_append _ _⟩, .inl rfl⟩
    | file => exact ⟨[payload], writeDlqPayload_file hsink w, .inr rfl⟩

theorem commitOffset_grows (msg : Message) (fault : Option PyExc) (w : World) :
    FileGrows rt w (w.commitOffset msg fault) [] :=
  ⟨(List.append_nil _).symm, fileRecords_append _ _⟩

theorem handleError_grows (delivery : Delivery) (exc : PyExc) (w : World) :
    ∃ records, FileGrows rt w (handleError rt.toPyRuntime config delivery exc w).1 records ∧
      (records = [] ∨
        ∃ record, Round.Writes rt config (.message delivery) record ∧ records = [record]) := by
  unfold handleError
  split
  · exact ⟨[], FileGrows.refl w, .inl rfl⟩
  · next key hkey =>
    obtain ⟨records, hgrows, hrecords⟩ := @writeDlqPayload_grows rt config delivery.faults.sinks
      (dlqPayload rt.toPyRuntime config delivery key exc) delivery.now w
    have hcommit := hgrows.trans (commitOffset_grows delivery.msg delivery.faults.commitAfterDlq _)
    rw [List.append_nil] at hcommit
    exact ⟨records, hcommit, hrecords.imp_right fun h => ⟨_, ⟨key, exc, hkey, rfl⟩, h⟩⟩

/-- A round adds no record or one of its own. -/
theorem Round.run_grows (round : Round) (w : World) :
    ∃ records, FileGrows rt w (round.run rt config w) records ∧
      (records = [] ∨ ∃ record, round.Writes rt config record ∧ records = [record]) := by
  cases round with
  | message delivery =>
    show ∃ records, FileGrows rt w (consumeMessage rt.toPyRuntime config delivery w).1 _ ∧ _
    unfold consumeMessage
    split
    · exact handleError_grows delivery _ w
    · next event _ =>
      have happlied : FileGrows rt w { w with
          db := Call.apply w.db ⟨event, delivery.env⟩
          trace := w.trace ++ [Effect.applied delivery.msg ⟨event, delivery.env⟩] } [] :=
        ⟨(List.append_nil _).symm, fileRecords_append _ _⟩
      have hcommit := happlied.trans
        (commitOffset_grows delivery.msg delivery.faults.commitAfterApply _)
      dsimp only
      split
      · exact ⟨[], hcommit, .inl rfl⟩
      · obtain ⟨records, hgrows, hrecords⟩ := @handleError_grows rt config delivery _ _
        exact ⟨records, hcommit.trans hgrows, hrecords⟩
  | payload kind since until' fields line =>
    show ∃ records, FileGrows rt w (backfillLine rt config kind since until' fields line w) _ ∧ _
    unfold backfillLine
    split
    · exact ⟨[], FileGrows.refl w, .inl rfl⟩
    · exact ⟨[], FileGrows.refl w, .inl rfl⟩
    · next exc _ =>
      obtain ⟨records, hgrows, hrecords⟩ := @writeDlqPayload_grows rt config line.sinks
        (backfillPayload rt config kind fields exc line.nowIso) line.now w
      exact ⟨records, hgrows, hrecords.imp_right fun h => ⟨_, ⟨exc, rfl⟩, h⟩⟩

/-- The rounds of a run add the records some of them write. -/
theorem rounds_grow (rounds : List Round) (w : World) :
    ∃ records, FileGrows rt w (rounds.foldl (Round.run rt config) w) records ∧
      ∀ record ∈ records, ∃ round ∈ rounds, round.Writes rt config record := by
  induction rounds generalizing w with
  | nil => exact ⟨[], FileGrows.refl w, fun record h => absurd h List.not_mem_nil⟩
  | cons round rounds ih =>
    obtain ⟨first, hfirst, hwrites⟩ := @Round.run_grows rt config round w
    obtain ⟨more, hmore, hothers⟩ := ih (round.run rt config w)
    refine ⟨first ++ more, hfirst.trans hmore, fun record hrecord => ?_⟩
    rcases List.mem_append.mp hrecord with hrecord | hrecord
    · rcases hwrites with rfl | ⟨own, hown, rfl⟩
      · exact absurd hrecord List.not_mem_nil
      · rw [List.mem_singleton.mp hrecord]
        exact ⟨round, List.mem_cons_self, hown⟩
    · obtain ⟨other, hother, hwrite⟩ := hothers record hrecord
      exact ⟨other, List.mem_cons_of_mem _ hother, hwrite⟩

end TxLookup.Consumer
