import TxLookup.Scripts.ReplayDlq
import TxLookup.Library.JsonRoundTrip

/-!
# The dead-letter file is read back

Here `json.loads` on texts is the reader of the library, not a parameter. Whatever
runs of the program write the file, each of its lines is read back as the record it
was written for, and a replay with any topics and any limit raises nothing and
publishes the messages of the records asked for, in the order of the file.
-/
namespace TxLookup.Scripts

open Library Library.PyText Library.JsonText Db Consumer Common

/-- `json.loads(text)`. The scanner never runs out of fuel. -/
def jsonLoadsText (floatOf : PyStr → PyFloat) (text : PyStr) : Except PyExc Json :=
  match loads floatOf text with
  | .ok value => .ok value
  | .error (.decode message left) => .error (.jsonDecode (decodeMessage text message left))
  | .error (.digits count) => .error (.other
      (py "Exceeds the limit (4300 digits) for integer string conversion: value has " ++
        dumpInt count ++ py " digits; use sys.set_int_max_str_digits() to increase the limit"))
  | .error .fuel => .error (.other [])

theorem jsonLoadsText_eq_ok {floatOf : PyStr → PyFloat} {text : PyStr} {value : Json} :
    jsonLoadsText floatOf text = .ok value ↔ loads floatOf text = .ok value := by
  unfold jsonLoadsText
  split
  · next h =>
    rw [h]
    exact ⟨fun he => congrArg _ (Except.ok.inj he), fun he => congrArg _ (Except.ok.inj he)⟩
  all_goals next h => exact ⟨(fun he => by cases he), (fun he => by rw [h] at he; cases he)⟩

/-- The texts of the interpreter are read by the library's scanner. -/
structure ReadsJson (rt : TextRuntime) (floatOf : PyStr → PyFloat) : Prop where
  loads : rt.jsonLoadsText = jsonLoadsText floatOf
  floats : FloatLaws floatOf rt.floatRepr

variable {floatOf : PyStr → PyFloat} {rt : TextRuntime} {config : AppConfig}

theorem ReadsJson.printable (h : ReadsJson rt floatOf) : FloatsPrintable rt.toPyRuntime := by
  intro x
  rw [Library.printable, List.all_eq_true]
  exact fun c hc => decide_eq_true (h.floats.plain x c hc).1

/-! ## The records are plain values -/

/-- Partition and offset are 64-bit numbers. -/
structure Bounded (msg : Message) : Prop where
  partition : msg.partition.natAbs ≤ 2 ^ 63
  offset : msg.offset.natAbs ≤ 2 ^ 63

theorem bounded_lt {n : Int} (h : n.natAbs ≤ 2 ^ 63) : n.natAbs < 10 ^ maxStrDigits := by
  have hsmall : (2 : Nat) ^ 63 < 10 ^ 19 := by decide
  have hlarge : (10 : Nat) ^ 19 ≤ 10 ^ maxStrDigits := Nat.pow_le_pow_right (by decide) (by decide)
  omega

theorem plain_optionalStr (s : Option PyStr) : Plain floatOf (fun _ => True) (optionalStr s) := by
  cases s with
  | none =>
    show Plain floatOf _ .null
    rw [Plain]
    trivial
  | some s =>
    show Plain floatOf _ (.str s)
    rw [Plain]
    exact fun _ _ => trivial

theorem plain_str (s : PyStr) : Plain floatOf (fun _ => True) (.str s) := by
  rw [Plain]
  exact fun _ _ => trivial

theorem plain_dlqPayload {delivery : Delivery} (h : Bounded delivery.msg) (key : Option PyStr)
    (exc : PyExc) :
    Plain floatOf (fun _ => True) (.obj (dlqPayload rt.toPyRuntime config delivery key exc)) := by
  have hint : ∀ n : Int, n.natAbs ≤ 2 ^ 63 → Plain floatOf (fun _ => True) (.int n) := by
    intro n hn
    rw [Plain]
    exact bounded_lt hn
  have hkeys : (Assoc.keys (dlqPayload rt.toPyRuntime config delivery key exc)).Nodup := by
    have hnames : ([py "topic", py "partition", py "offset", py "key", py "payload", py "error",
        py "error_detail", py "profile_id", py "correlation_id", py "ingested_at"] :
        List PyStr).Nodup := by decide
    exact hnames
  rw [Plain, plainFields_iff]
  refine ⟨hkeys, ?_⟩
  simp only [dlqPayload, List.forall_mem_cons, implies_true, true_and, List.not_mem_nil,
    false_implies, and_true]
  exact ⟨plain_str _, hint _ h.partition, hint _ h.offset, plain_optionalStr _,
    plain_optionalStr _, plain_str _, plain_str _, plain_str _, plain_optionalStr _, plain_str _⟩

theorem plain_backfillPayload {fields : PyDict} (h : Plain floatOf (fun _ => True) (.obj fields))
    (kind : TopicKind) (exc : PyExc) (nowIso : PyStr) :
    Plain floatOf (fun _ => True) (.obj (backfillPayload rt config kind fields exc nowIso)) := by
  have hkeys : (Assoc.keys (backfillPayload rt config kind fields exc nowIso)).Nodup := by
    have hnames : ([py "topic", py "payload", py "error", py "error_detail", py "profile_id",
        py "correlation_id", py "ingested_at"] : List PyStr).Nodup := by decide
    exact hnames
  rw [Plain, plainFields_iff]
  refine ⟨hkeys, ?_⟩
  simp only [backfillPayload, List.forall_mem_cons, implies_true, true_and, List.not_mem_nil,
    false_implies, and_true]
  exact ⟨plain_str _, h, plain_str _, plain_str _, plain_str _, plain_optionalStr _, plain_str _⟩

theorem readsBack_of_plain (hreads : ReadsJson rt floatOf) {record : PyDict}
    (h : Plain floatOf (fun _ => True) (.obj record)) : ReadsBack rt record := by
  have hnewline : ∀ c ∈ py "\n", isWs c = true := by decide
  rw [ReadsBack, hreads.loads, jsonLoadsText_eq_ok]
  exact loads_dumps hreads.floats h hnewline

/-! ## What the rounds read and write -/

variable (rt) in
/-- The message is one of a broker, the payload was read from its line. -/
def Sound : Round → Prop
  | .message delivery => Bounded delivery.msg
  | .payload _ _ _ fields line => readLine rt line.text = .payload fields

def ProgramBounded : Program → Prop
  | .consume _ polls => ∀ delivery, Poll.message delivery ∈ polls → Bounded delivery.msg
  | .backfill .. => True

theorem sound_consumerRounds {polls : List Poll}
    (h : ∀ delivery, Poll.message delivery ∈ polls → Bounded delivery.msg)
    (maxMessages : Option Int) (st : LoopState) :
    ∀ round ∈ consumerRounds rt config maxMessages st polls, Sound rt round := by
  induction polls generalizing st with
  | nil => exact fun round hround => absurd hround List.not_mem_nil
  | cons poll polls ih =>
    intro round hround
    rw [consumerRounds] at hround
    split at hround
    · split at hround
      · exact absurd hround List.not_mem_nil
      · rcases List.mem_append.mp hround with hround | hround
        · cases poll with
          | message delivery =>
            rw [List.mem_singleton.mp hround]
            exact h delivery List.mem_cons_self
          | _ => exact absurd hround List.not_mem_nil
        · exact ih (fun delivery hmem => h delivery (List.mem_cons_of_mem _ hmem)) _ round hround
    · exact absurd hround List.not_mem_nil

theorem sound_fileRounds (kind : TopicKind) (since until' : Option DateTime)
    (lines : List BackfillLine) :
    ∀ round ∈ fileRounds rt kind since until' lines, Sound rt round := by
  induction lines with
  | nil => exact fun round hround => absurd hround List.not_mem_nil
  | cons line lines ih =>
    intro round hround
    rw [fileRounds] at hround
    split at hround
    · exact ih round hround
    · exact absurd hround List.not_mem_nil
    · next fields hread =>
      rcases List.mem_cons.mp hround with rfl | hround
      · exact hread
      · exact ih round hround

theorem sound_programRounds {programs : List Program}
    (h : ∀ program ∈ programs, ProgramBounded program) (w : World) :
    ∀ round ∈ programRounds rt config w programs, Sound rt round := by
  induction programs generalizing w with
  | nil => exact fun round hround => absurd hround List.not_mem_nil
  | cons program programs ih =>
    intro round hround
    rw [List.forall_mem_cons] at h
    rcases List.mem_append.mp hround with hround | hround
    · cases program with
      | consume maxMessages polls => exact sound_consumerRounds h.1 maxMessages _ round hround
      | backfill ledgerFile paymentOrderFile since until' =>
        rcases List.mem_append.mp hround with hround | hround
        · exact sound_fileRounds _ _ _ _ round hround
        · split at hround
          · exact sound_fileRounds _ _ _ _ round hround
          · exact absurd hround List.not_mem_nil
    · exact ih h.2 _ round hround

theorem loads_of_readLine (hreads : ReadsJson rt floatOf) {text : PyStr} {fields : PyDict}
    (h : readLine rt text = .payload fields) : loads floatOf text = .ok (.obj fields) := by
  unfold readLine at h
  rw [hreads.loads] at h
  split at h
  · cases h
  · split at h
    · cases h
    · next hloads =>
      cases h
      exact jsonLoadsText_eq_ok.mp hloads
    · cases h

/-- Whatever a sound round writes is read back. -/
theorem readsBack_of_writes (hreads : ReadsJson rt floatOf) {round : Round} {record : PyDict}
    (hsound : Sound rt round) (h : round.Writes rt config record) : ReadsBack rt record := by
  cases round with
  | message delivery =>
    obtain ⟨key, exc, -, rfl⟩ := h
    exact readsBack_of_plain hreads (plain_dlqPayload hsound key exc)
  | payload kind since until' fields line =>
    obtain ⟨exc, rfl⟩ := h
    exact readsBack_of_plain hreads
      (plain_backfillPayload (loads_plain (loads_of_readLine hreads hsound)) kind exc line.nowIso)

/-! ## A replay with topics and a limit -/

/-- The message is to one of the topics, if there is a filter. -/
def wantedBy (topics : Option (List PyStr)) (msg : Produced) : Bool :=
  topics.all (·.contains msg.topic)

/-- The messages to these topics, at most so many of them. -/
def selectedMessages (topics : Option (List PyStr)) (remaining : Option Nat) (msgs : List Produced) :
    List Produced :=
  remaining.elim (msgs.filter (wantedBy topics)) (msgs.filter (wantedBy topics)).take

theorem selectedMessages_nil (topics : Option (List PyStr)) (remaining : Option Nat) :
    selectedMessages topics remaining [] = [] := by
  cases remaining with
  | none => rfl
  | some n => exact List.take_nil

/-- What the loop does with a record whose message without filter and limit is this one. -/
def lineReplay (topics : Option (List PyStr)) (remaining : Option Nat) :
    Option Produced → LineReplay
  | none => .skipped
  | some msg =>
    if wantedBy topics msg = true then
      if remaining = some 0 then .stopped else .produced msg
    else .skipped

theorem replayPayload_selected (topics : Option (List PyStr)) (remaining : Option Nat)
    {topic : PyStr} {payload : Json}
    (hencodes : encodable (payloadString rt payload) = true) {msg : Option Produced}
    (h : replayPayload rt none none (.str topic) payload = .ok (.ofMessage msg)) :
    replayPayload rt topics remaining (.str topic) payload =
      .ok (lineReplay topics remaining msg) := by
  by_cases hskip : topic = [] ∨ payload = .null
  · rw [replayPayload_skipped hskip] at h
    cases msg with
    | some msg => cases h
    | none =>
      rcases hskip with rfl | rfl
      · rfl
      · cases topic <;> rfl
  · rw [not_or] at hskip
    rw [replayPayload_produced hskip.1 hskip.2 hencodes] at h
    obtain ⟨c, cs, rfl⟩ := List.exists_cons_of_ne_nil hskip.1
    cases msg with
    | none => cases h
    | some msg =>
      cases h
      have hvalue : encodeValue (payloadString rt payload) =
          .ok (encode (payloadString rt payload)) := by
        rw [encodeValue, encode?, if_pos hencodes]
      have hopen : replayPayload rt topics remaining (.str (c :: cs)) payload =
          topics.elim (.ok true) (inTopics · (.str (c :: cs))) >>= fun wanted =>
            if wanted = false then .ok .skipped
            else if remaining = some 0 then .ok .stopped
            else encodeValue (payloadString rt payload) >>= fun value =>
              produce value (.str (c :: cs)) := by
        cases payload with
        | null => exact absurd rfl hskip.2
        | _ => cases topics <;> rfl
      have hwanted : topics.elim (.ok true) (inTopics · (.str (c :: cs))) =
          .ok (topics.all (·.contains (c :: cs))) := by
        cases topics <;> rfl
      rw [hopen, hwanted, hvalue, lineReplay, wantedBy]
      show (if topics.all (·.contains (c :: cs)) = false then _ else _) = _
      cases topics.all (·.contains (c :: cs)) with
      | false => rfl
      | true =>
        show (if remaining = some 0 then _ else _) = _
        split <;> rfl

/-- Any replay of a record that a run wrote is the unrestricted one, filtered and limited. -/
theorem replayRecord_selected {round : Round} {record : PyDict}
    (h : round.Writes rt config record) (topics : Option (List PyStr)) (remaining : Option Nat) :
    replayRecord rt topics remaining (.obj record) =
      .ok (lineReplay topics remaining (published rt record)) := by
  have hall := replayRecord_of_writes h
  cases round with
  | message delivery =>
    obtain ⟨key, exc, -, rfl⟩ := h
    refine replayPayload_selected topics remaining ?_ hall
    show encodable (payloadString rt (optionalStr (payloadText delivery.msg))) = true
    unfold payloadText
    split
    · exact encodable_decodeReplace _
    · exact encodable_dumpsAscii _
  | payload kind since until' fields line =>
    obtain ⟨exc, rfl⟩ := h
    have hencodes : encodable (payloadString rt (.obj fields)) = true :=
      encodable_dumpsAscii (.obj fields)
    exact replayPayload_selected topics remaining hencodes hall

theorem replayLines_selected {records : List PyDict} (topics : Option (List PyStr))
    (hback : ∀ record ∈ records, ReadsBack rt record)
    (hwrites : ∀ record ∈ records, ∃ round : Round, round.Writes rt config record)
    (remaining : Option Nat) :
    replayLines rt topics remaining (records.map (dlqLine rt.toPyRuntime)) =
      (selectedMessages topics remaining (records.filterMap (published rt)), none) := by
  induction records generalizing remaining with
  | nil =>
    rw [List.filterMap_nil, selectedMessages_nil]
    rfl
  | cons record records ih =>
    rw [List.forall_mem_cons] at hback hwrites
    obtain ⟨round, hround⟩ := hwrites.1
    have hrest := ih hback.2 hwrites.2
    have hline : replayLine rt topics remaining (dlqLine rt.toPyRuntime record) =
        .ok (lineReplay topics remaining (published rt record)) := by
      rw [← replayRecord_selected hround]
      exact replayLine_dlqLine hback.1 topics remaining
    rw [List.map_cons, replayLines, hline]
    cases hmsg : published rt record with
    | none =>
      rw [List.filterMap_cons_none hmsg]
      exact hrest remaining
    | some msg =>
      rw [List.filterMap_cons_some hmsg, lineReplay]
      by_cases hwanted : wantedBy topics msg = true
      · rw [if_pos hwanted, selectedMessages, List.filter_cons_of_pos hwanted]
        cases remaining with
        | none =>
          show (msg :: (replayLines rt topics none _).1, (replayLines rt topics none _).2) = _
          rw [hrest none]
          rfl
        | some n =>
          cases n with
          | zero => rfl
          | succ n =>
            show (msg :: (replayLines rt topics (some n) _).1,
              (replayLines rt topics (some n) _).2) = _
            rw [hrest (some n)]
            rfl
      · rw [if_neg hwanted, selectedMessages, List.filter_cons_of_neg hwanted]
        exact hrest remaining

/-- The file of any runs of the program is read back as the records that were
written, and any replay of it raises nothing and publishes the messages of the
records asked for, in order, up to the limit. -/
theorem dlq_file_reads_back (hreads : ReadsJson rt floatOf) (db : Database)
    (dlqEvents : List ConsumerDlqEvent) (programs : List Program)
    (hbounded : ∀ program ∈ programs, ProgramBounded program) :
    let last := runPrograms rt config ⟨db, dlqEvents, [], []⟩ programs
    (textLines last.dlqFile.flatten).map rt.jsonLoadsText =
        (fileRecords last.trace).map (fun record => .ok (.obj record)) ∧
      ∀ topics limit, replayFile rt topics limit last.dlqFile.flatten =
        (selectedMessages topics (limit.map Int.toNat) ((fileRecords last.trace).filterMap (published rt)),
          none) := by
  intro last
  have hlast : last = (programRounds rt config ⟨db, dlqEvents, [], []⟩ programs).foldl
      (Round.run rt config) ⟨db, dlqEvents, [], []⟩ := runPrograms_rounds _ programs
  obtain ⟨records, ⟨hfile, htrace⟩, hwrites⟩ := @rounds_grow rt config
    (programRounds rt config ⟨db, dlqEvents, [], []⟩ programs) ⟨db, dlqEvents, [], []⟩
  rw [← hlast] at hfile htrace
  have hquiet : fileRecords ([] : List Effect) = [] := rfl
  rw [List.nil_append] at hfile
  rw [hquiet, List.nil_append] at htrace
  have hback : ∀ record ∈ records, ReadsBack rt record := by
    intro record hrecord
    obtain ⟨round, hround, hwrite⟩ := hwrites record hrecord
    exact readsBack_of_writes hreads (sound_programRounds hbounded _ round hround) hwrite
  rw [hfile, htrace]
  constructor
  · rw [textLines_dlqLines hreads.printable, List.map_map]
    exact List.map_congr_left hback
  · intro topics limit
    rw [replayFile, textLines_dlqLines hreads.printable]
    exact replayLines_selected topics hback (fun record hrecord =>
      (hwrites record hrecord).imp fun _ h => h.2) _

/-! ### Two programs and a value with a float -/

def sampleFloatOf (text : PyStr) : PyFloat :=
  if text = py "1.5" then .finite false 3 (-1) else .nan

def sampleFloatRepr : PyFloat → PyStr
  | .nan => py "NaN"
  | .inf false => py "Infinity"
  | .inf true => py "-Infinity"
  | .finite .. => py "1.5"

theorem sampleFloats : FloatLaws sampleFloatOf sampleFloatRepr where
  nan := rfl
  inf := rfl
  negInf := rfl
  back s n m e h := by
    unfold sampleFloatOf at h
    split at h
    · cases h
      rfl
    · cases h
  plain x := by
    have hall : ∀ text ∈ [py "NaN", py "Infinity", py "-Infinity", py "1.5"],
        ∀ c ∈ text, 32 ≤ c ∧ c < 127 := by decide
    rcases x with ⟨n, m, e⟩ | ⟨_ | _⟩ | _
    · exact hall (py "1.5") (by decide)
    · exact hall (py "Infinity") (by decide)
    · exact hall (py "-Infinity") (by decide)
    · exact hall (py "NaN") (by decide)

/-- The sample conversions with the reader of the library. -/
def readerRuntime : TextRuntime :=
  { sampleRuntime with
    jsonLoads := fun bs =>
      match decode? bs with
      | some text => jsonLoadsText sampleFloatOf text
      | none => .error (.unicode (py "'utf-8' codec can't decode byte"))
    floatRepr := sampleFloatRepr
    jsonLoadsText := jsonLoadsText sampleFloatOf }

theorem readerRuntime_reads : ReadsJson readerRuntime sampleFloatOf := ⟨rfl, sampleFloats⟩

def rateText : PyStr := py "\x7b\"rate\": 1.5, \"note\": [null, \"\\u00e9\"]\x7d"

def rateLine : BackfillLine :=
  ⟨rateText ++ py "\n", .still 1767225600000000, none, false, ⟨true, true⟩, 1767225600000000,
    py "2026-01-01T00:00:00+00:00"⟩

/-- A message without the fields of an event, then a backfill of such a line. -/
def ratePrograms : List Program :=
  [.consume none [.message (sampleDelivery none (some (encode rateText)) .none)],
    .backfill (some [rateLine]) none none none]

theorem ratePrograms_read_back :
    let last := runPrograms readerRuntime fileConfig ⟨.empty, [], [], []⟩ ratePrograms
    (fileRecords last.trace).length = 2 ∧
      (textLines last.dlqFile.flatten).map readerRuntime.jsonLoadsText =
        (fileRecords last.trace).map (fun record => .ok (.obj record)) ∧
      ∀ topics limit, replayFile readerRuntime topics limit last.dlqFile.flatten =
        (selectedMessages topics (limit.map Int.toNat)
          ((fileRecords last.trace).filterMap (published readerRuntime)), none) := by
  refine ⟨by decide +kernel, dlq_file_reads_back readerRuntime_reads .empty [] ratePrograms ?_⟩
  intro program hprogram
  simp only [ratePrograms, List.mem_cons, List.not_mem_nil, or_false] at hprogram
  rcases hprogram with rfl | rfl
  · intro delivery hdelivery
    cases List.mem_singleton.mp hdelivery
    exact ⟨by decide, by decide⟩
  · trivial

end TxLookup.Scripts
