import TxLookup.Consumer.DlqFile
import TxLookup.Consumer.Redelivery

/-!
# Histories of consumer runs and backfills

Programs follow one another on the same tables. The database after them is the run of
the calls their rounds come to, so it depends on the set of applied events only. A
backfill in windows, in any order and with overlaps, next to a consumer of the same
events, therefore agrees with one unrestricted backfill.
-/
namespace TxLookup.Consumer

open Library Db Common

variable (rt : TextRuntime) (config : AppConfig)

/-- The call the round makes, if it comes to one. -/
def Round.call? : Round → Option Call
  | .message delivery =>
    (process rt.toPyRuntime config delivery).toOption.map fun event => ⟨event, delivery.env⟩
  | .payload kind since until' fields line =>
    (tryPayload rt config kind since until' fields line).toOption.join.map fun event =>
      ⟨event, line.env⟩

/-- The calls of the programs, in order. -/
def programCalls (w : World) (programs : List Program) : List Call :=
  (programRounds rt config w programs).filterMap (Round.call? rt config)

variable {rt config}

theorem Round.run_db (round : Round) (w : World) :
    (round.run rt config w).db = runFrom w.db (round.call? rt config).toList := by
  cases round with
  | message delivery =>
    show (consumeMessage rt.toPyRuntime config delivery w).1.db = _
    cases hp : process rt.toPyRuntime config delivery with
    | error exc => simp [consumeMessage, Round.call?, hp, handleError_db, Except.toOption, runFrom]
    | ok event =>
      rw [consumeMessage_db hp]
      simp [Round.call?, hp, Except.toOption, runFrom]
  | payload kind since until' fields line =>
    show (backfillLine rt config kind since until' fields line w).db = _
    cases htry : tryPayload rt config kind since until' fields line with
    | error exc =>
      simp [backfillLine, Round.call?, htry, writeDlqPayload_db, Except.toOption, runFrom]
    | ok result =>
      cases result <;> simp [backfillLine, Round.call?, htry, Except.toOption, runFrom]

/-- The database after the programs is the run of their calls. -/
theorem runPrograms_db (w : World) (programs : List Program) :
    (runPrograms rt config w programs).db = runFrom w.db (programCalls rt config w programs) := by
  have hrounds : ∀ (rounds : List Round) (w : World),
      (rounds.foldl (Round.run rt config) w).db =
        runFrom w.db (rounds.filterMap (Round.call? rt config)) := by
    intro rounds
    induction rounds with
    | nil => exact fun w => rfl
    | cons round rounds ih =>
      intro w
      rw [List.foldl_cons, ih, Round.run_db]
      cases hcall : round.call? rt config with
      | none => rw [List.filterMap_cons_none hcall]; rfl
      | some call => rw [List.filterMap_cons_some hcall]; rfl
  rw [runPrograms_rounds, hrounds, programCalls]

theorem mem_programCalls {w : World} {programs : List Program} {call : Call}
    (h : call ∈ programCalls rt config w programs) :
    ∃ program ∈ programs, ∃ w', ∃ round ∈ program.rounds rt config w',
      round.call? rt config = some call := by
  induction programs generalizing w with
  | nil => cases h
  | cons program programs ih =>
    rw [programCalls, programRounds, List.filterMap_append] at h
    rcases List.mem_append.mp h with h | h
    · obtain ⟨round, hround, hcall⟩ := List.mem_filterMap.mp h
      exact ⟨program, List.mem_cons_self, w, round, hround, hcall⟩
    · obtain ⟨program', hprogram, rest⟩ := ih h
      exact ⟨program', List.mem_cons_of_mem _ hprogram, rest⟩

theorem programCalls_of_mem {programs : List Program} {program : Program} {call : Call}
    (hprogram : program ∈ programs)
    (h : ∀ w, ∃ round ∈ program.rounds rt config w, round.call? rt config = some call) (w : World) :
    call ∈ programCalls rt config w programs := by
  induction programs generalizing w with
  | nil => cases hprogram
  | cons first programs ih =>
    rw [programCalls, programRounds, List.filterMap_append]
    rcases List.mem_cons.mp hprogram with rfl | hprogram
    · obtain ⟨round, hround, hcall⟩ := h w
      exact List.mem_append_left _ (List.mem_filterMap.mpr ⟨round, hround, hcall⟩)
    · exact List.mem_append_right _ (ih hprogram _)

/-! ## The events of the files -/

variable (rt config)

/-- The payloads the reader gets to. -/
def filePayloads : List PyStr → List PyDict
  | [] => []
  | text :: texts =>
    match readLine rt text with
    | .blank => filePayloads texts
    | .raises _ => []
    | .payload fields => fields :: filePayloads texts

/-- The reader gets to the end. -/
def fullyRead (texts : List PyStr) : Bool :=
  texts.all fun text => match readLine rt text with
    | .raises _ => false
    | _ => true

def payloadEvents (kind : TopicKind) (texts : List PyStr) : List Event :=
  (filePayloads rt texts).filterMap fun fields => (backfillEvent rt config kind fields).toOption

/-- The events a backfill of these files comes to, whatever their times. -/
def sourceEvents (ledgerTexts orderTexts : List PyStr) : List Event :=
  payloadEvents rt config .ledger ledgerTexts ++
    if fullyRead rt ledgerTexts then payloadEvents rt config .paymentOrder orderTexts else []

/-- The lines are those of the text, and their transactions commit. -/
structure Reads (lines : List BackfillLine) (texts : List PyStr) : Prop where
  texts : lines.map (·.text) = texts
  works : ∀ line ∈ lines, line.transaction = none

variable {rt config}

theorem readsAll_eq {lines : List BackfillLine} {texts : List PyStr} (h : Reads lines texts) :
    readsAll rt lines = fullyRead rt texts := by
  obtain ⟨rfl, -⟩ := h
  induction lines with
  | nil => rfl
  | cons line lines ih =>
    rw [readsAll, List.map_cons, fullyRead, List.all_cons, ← fullyRead, ← ih]
    cases readLine rt line.text <;> rfl

theorem tryPayload_eq_ok {kind : TopicKind} {since until' : Option DateTime} {fields : PyDict}
    {line : BackfillLine} (hworks : line.transaction = none) (event : Event) :
    (tryPayload rt config kind since until' fields line).toOption.join = some event ↔
      backfillEvent rt config kind fields = .ok event ∧
        withinRange since until' (rangeTime event) = true := by
  unfold tryPayload
  cases hevent : backfillEvent rt config kind fields with
  | error exc => simp [bind, Except.bind, Except.toOption]
  | ok event' =>
    simp only [bind, Except.bind, hworks, raiseIf]
    split
    · next hrange =>
      simp only [pure, Except.pure, Except.toOption, Option.join_some, Option.some.injEq,
        Except.ok.injEq]
      constructor
      · rintro rfl
        exact ⟨rfl, hrange⟩
      · exact fun h => h.1
    · next hrange =>
      simp only [pure, Except.pure, Except.toOption, Option.join_some, reduceCtorEq,
        Except.ok.injEq, false_iff, not_and]
      rintro rfl
      exact hrange

theorem toOption_eq_some {ε α : Type} {x : Except ε α} {a : α} :
    x.toOption = some a ↔ x = .ok a := by
  cases x <;> simp [Except.toOption]

/-- What the rounds of a file apply: its events in the window. -/
theorem mem_fileCalls {kind : TopicKind} {since until' : Option DateTime}
    {lines : List BackfillLine} {texts : List PyStr} (h : Reads lines texts) (event : Event) :
    event ∈ eventsOf ((fileRounds rt kind since until' lines).filterMap (Round.call? rt config)) ↔
      event ∈ payloadEvents rt config kind texts ∧
        withinRange since until' (rangeTime event) = true := by
  obtain ⟨rfl, hworks⟩ := h
  induction lines with
  | nil => simp [fileRounds, payloadEvents, filePayloads, eventsOf]
  | cons line lines ih =>
    rw [List.forall_mem_cons] at hworks
    rw [fileRounds, List.map_cons, payloadEvents, filePayloads]
    cases readLine rt line.text with
    | blank => exact ih hworks.2
    | raises exc => simp [eventsOf]
    | payload fields =>
      dsimp only
      have hrest := ih hworks.2
      have hone := @tryPayload_eq_ok rt config kind since until' fields line hworks.1 event
      have htail : event ∈ (fields :: filePayloads rt (lines.map (·.text))).filterMap
            (fun fields => (backfillEvent rt config kind fields).toOption) ↔
          backfillEvent rt config kind fields = .ok event ∨
            event ∈ payloadEvents rt config kind (lines.map (·.text)) := by
        simp only [payloadEvents, List.mem_filterMap, List.mem_cons, exists_eq_or_imp,
          toOption_eq_some]
      have hhead : event ∈ eventsOf ((Round.payload kind since until' fields line ::
            fileRounds rt kind since until' lines).filterMap (Round.call? rt config)) ↔
          (tryPayload rt config kind since until' fields line).toOption.join = some event ∨
            event ∈ eventsOf ((fileRounds rt kind since until' lines).filterMap
              (Round.call? rt config)) := by
        rw [← List.singleton_append, List.filterMap_append, eventsOf, List.map_append,
          List.mem_append, ← eventsOf, ← eventsOf]
        simp [Round.call?, eventsOf]
      rw [hhead, htail, hone, hrest, or_and_right]

/-- What a backfill applies: the events of its files in its window. -/
theorem mem_backfillCalls {ledger orders : List BackfillLine} {ledgerTexts orderTexts : List PyStr}
    (hl : Reads ledger ledgerTexts) (ho : Reads orders orderTexts)
    (since until' : Option DateTime) (event : Event) :
    event ∈ eventsOf ((backfillRounds rt (some ledger) (some orders) since until').filterMap
        (Round.call? rt config)) ↔
      event ∈ sourceEvents rt config ledgerTexts orderTexts ∧
        withinRange since until' (rangeTime event) = true := by
  rw [backfillRounds, List.filterMap_append, eventsOf, List.map_append, List.mem_append,
    ← eventsOf, ← eventsOf, sourceEvents, List.mem_append, or_and_right]
  refine or_congr (mem_fileCalls hl event) ?_
  rw [Option.getD_some, Option.getD_some, readsAll_eq hl]
  split
  · exact mem_fileCalls ho event
  · simp [eventsOf]

/-! ## Windows -/

variable (rt config) in
/-- A backfill of these files, or a consumer of some of their events. -/
def WorksOn (ledgerTexts orderTexts : List PyStr) : Program → Prop
  | .backfill ledgerFile orderFile _ _ => ∃ ledger orders, ledgerFile = some ledger ∧
    orderFile = some orders ∧ Reads ledger ledgerTexts ∧ Reads orders orderTexts
  | .consume _ polls => ∀ delivery, Poll.message delivery ∈ polls → ∀ event,
    process rt.toPyRuntime config delivery = .ok event →
      event ∈ sourceEvents rt config ledgerTexts orderTexts

/-- The program is a backfill whose window has the time of the event. -/
def Covers (event : Event) : Program → Prop
  | .backfill _ _ since until' => withinRange since until' (rangeTime event) = true
  | .consume .. => False

theorem mem_consumerRounds {maxMessages : Option Int} {polls : List Poll} {st : LoopState}
    {round : Round} (h : round ∈ consumerRounds rt config maxMessages st polls) :
    ∃ delivery, round = .message delivery ∧ Poll.message delivery ∈ polls := by
  induction polls generalizing st with
  | nil => cases h
  | cons poll polls ih =>
    rw [consumerRounds] at h
    split at h
    · split at h
      · cases h
      · rcases List.mem_append.mp h with h | h
        · cases poll with
          | message delivery => exact ⟨delivery, List.mem_singleton.mp h, List.mem_cons_self⟩
          | _ => cases h
        · obtain ⟨delivery, hround, hmem⟩ := ih h
          exact ⟨delivery, hround, List.mem_cons_of_mem _ hmem⟩
    · cases h

/-- If the windows of the backfills cover the events, exactly these are applied. -/
theorem mem_historyCalls {ledgerTexts orderTexts : List PyStr} {programs : List Program}
    (hworks : ∀ program ∈ programs, WorksOn rt config ledgerTexts orderTexts program)
    (hcover : ∀ event ∈ sourceEvents rt config ledgerTexts orderTexts,
      ∃ program ∈ programs, Covers event program) (w : World) (event : Event) :
    event ∈ eventsOf (programCalls rt config w programs) ↔
      event ∈ sourceEvents rt config ledgerTexts orderTexts := by
  rw [eventsOf, List.mem_map]
  constructor
  · rintro ⟨call, hcall, rfl⟩
    obtain ⟨program, hprogram, w', round, hround, hmade⟩ := mem_programCalls hcall
    have hwork := hworks program hprogram
    cases program with
    | consume maxMessages polls =>
      obtain ⟨delivery, rfl, hdelivery⟩ := mem_consumerRounds hround
      refine hwork delivery hdelivery call.event ?_
      rw [Round.call?] at hmade
      cases hp : process rt.toPyRuntime config delivery with
      | error exc => simp [hp, Except.toOption] at hmade
      | ok event =>
        simp only [hp, Except.toOption, Option.map_some, Option.some.injEq] at hmade
        rw [← hmade]
    | backfill ledgerFile orderFile since until' =>
      obtain ⟨ledger, orders, rfl, rfl, hl, ho⟩ := hwork
      exact ((mem_backfillCalls hl ho since until' call.event).mp (List.mem_map.mpr
        ⟨call, List.mem_filterMap.mpr ⟨round, hround, hmade⟩, rfl⟩)).1
  · intro hevent
    obtain ⟨program, hprogram, hcovers⟩ := hcover event hevent
    have hwork := hworks program hprogram
    cases program with
    | consume maxMessages polls => exact hcovers.elim
    | backfill ledgerFile orderFile since until' =>
      obtain ⟨ledger, orders, rfl, rfl, hl, ho⟩ := hwork
      obtain ⟨call, hcall, hcallEvent⟩ := List.mem_map.mp
        ((mem_backfillCalls hl ho since until' event).mpr ⟨hevent, hcovers⟩)
      obtain ⟨round, hround, hmade⟩ := List.mem_filterMap.mp hcall
      exact ⟨call, programCalls_of_mem hprogram (fun _ => ⟨round, hround, hmade⟩) w, hcallEvent⟩

/-- Backfills of the same files in windows that cover their events, in any order and
with overlaps, and consumer runs of the same events before, between and after them,
leave tables that agree with those of one unrestricted backfill. -/
theorem windows_compose (ledgerTexts orderTexts : List PyStr) (programs : List Program)
    (hworks : ∀ program ∈ programs, WorksOn rt config ledgerTexts orderTexts program)
    (hcover : ∀ event ∈ sourceEvents rt config ledgerTexts orderTexts,
      ∃ program ∈ programs, Covers event program)
    (ledger orders : List BackfillLine) (hl : Reads ledger ledgerTexts)
    (ho : Reads orders orderTexts)
    (hcontract : ArrivalContract (sourceEvents rt config ledgerTexts orderTexts))
    (hclock : ClockMonotone (programCalls rt config emptyWorld programs))
    (hclock' : ClockMonotone (programCalls rt config emptyWorld
      [.backfill (some ledger) (some orders) none none])) :
    Agrees (runPrograms rt config emptyWorld programs).db
      (runBackfill rt config (some ledger) (some orders) none none emptyWorld).1.db := by
  have hevents := mem_historyCalls hworks hcover emptyWorld
  have hall : ∀ event, event ∈ eventsOf (programCalls rt config emptyWorld
      [.backfill (some ledger) (some orders) none none]) ↔
        event ∈ sourceEvents rt config ledgerTexts orderTexts := by
    refine mem_historyCalls (fun program hprogram => ?_) (fun event _ => ?_) emptyWorld
    · rw [List.mem_singleton.mp hprogram]
      exact ⟨ledger, orders, rfl, rfl, hl, ho⟩
    · exact ⟨_, List.mem_cons_self, rfl⟩
  have hone : (runBackfill rt config (some ledger) (some orders) none none emptyWorld).1.db =
      run (programCalls rt config emptyWorld [.backfill (some ledger) (some orders) none none]) :=
    runPrograms_db emptyWorld [.backfill (some ledger) (some orders) none none]
  rw [hone, runPrograms_db]
  refine agrees_of_same (hcontract.mono fun event h => (hevents event).mp h) (fun event => ?_)
    hclock hclock'
  rw [hevents, hall]

/-! ### One order in two windows and in the topic -/

def windowRuntime : TextRuntime where
  toPyRuntime := Group.datedRuntime
  jsonLoadsText s := Group.datedRuntime.jsonLoads (PyText.encode (PyText.strip s))

def datedText : PyStr := PyText.decodeReplace Group.datedOrderBytes ++ py "\n"

def datedLine (clock : DateTime) : BackfillLine :=
  ⟨datedText, .still clock, none, false, ⟨true, true⟩, clock, py "2026-01-01T00:00:00+00:00"⟩

/-- A window up to the time of the order, the order from its topic, a window from then on. -/
def overlappingPrograms : List Program :=
  [.backfill (some []) (some [datedLine 1]) none (some 1767225600000000),
    .consume none [.message ⟨⟨py "payment.order.upserted", 0, 0, none, some Group.datedOrderBytes,
      none⟩, .still 2, .none, 2, py "2026-01-01T00:00:00+00:00"⟩],
    .backfill (some []) (some [datedLine 3]) (some 1767225600000000) none]

theorem datedLine_reads (clock : DateTime) : Reads [datedLine clock] [datedText] where
  texts := rfl
  works line h := by
    rw [List.mem_singleton.mp h]
    rfl

theorem reads_nil : Reads [] [] := ⟨rfl, fun _ h => absurd h List.not_mem_nil⟩

theorem overlappingPrograms_compose :
    (programCalls windowRuntime sampleConfig emptyWorld overlappingPrograms).length = 3 ∧
      Agrees (runPrograms windowRuntime sampleConfig emptyWorld overlappingPrograms).db
        (runBackfill windowRuntime sampleConfig (some []) (some [datedLine 9]) none none
          emptyWorld).1.db := by
  have hevents : sourceEvents windowRuntime sampleConfig [] [datedText] =
      [.order Group.datedOrder] := rfl
  refine ⟨rfl, windows_compose [] [datedText] overlappingPrograms ?_ ?_ [] [datedLine 9] reads_nil
    (datedLine_reads 9) ?_ ?_ ?_⟩
  · intro program hprogram
    simp only [overlappingPrograms, List.mem_cons, List.not_mem_nil, or_false] at hprogram
    rcases hprogram with rfl | rfl | rfl
    · exact ⟨[], [datedLine 1], rfl, rfl, reads_nil, datedLine_reads 1⟩
    · intro delivery hdelivery event hevent
      cases List.mem_singleton.mp hdelivery
      rw [hevents]
      cases hevent
      exact List.mem_cons_self
    · exact ⟨[], [datedLine 3], rfl, rfl, reads_nil, datedLine_reads 3⟩
  · intro event hevent
    rw [hevents, List.mem_singleton] at hevent
    rw [hevent]
    exact ⟨_, List.mem_cons_self, rfl⟩
  · rw [hevents]
    exact Group.datedOrder_contract
  · unfold ClockMonotone
    decide
  · unfold ClockMonotone
    decide

end TxLookup.Consumer
