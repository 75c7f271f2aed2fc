import TxLookup.Scripts.DlqRoundTrip
import TxLookup.Consumer.TimeChains
import TxLookup.Library.IsoTime

/-!
# The events of the publishing script

The script writes ledger and order events as JSON, with times cut to whole seconds.
Whatever the identifiers, the consumer reads each of them as the event it was written
for, with its texts trimmed: no field is lost, defaulted or taken from another.
-/
namespace TxLookup.Scripts

open Library Library.PyText Library.JsonText Library.IsoTime Db Consumer Common

/-- `_iso`. -/
def iso (value : DateTime) : PyStr :=
  replace (py "+00:00") (py "Z") (isoformat (wholeSecond value))

/-- `_ledger_event`. -/
def ledgerEvent (txId walletId entryType amount relatedId : PyStr) (eventTime : DateTime)
    (version : Int) : PyDict :=
  let signed := if entryType = RECEIVE then amount else py "-" ++ amount
  let ts := iso eventTime
  [(py "tx_id", .str txId),
    (py "wallet_id", .str walletId),
    (py "entry_type", .str entryType),
    (py "amount", .str amount),
    (py "amount_signed", .str signed),
    (py "related_id", .str relatedId),
    (py "related_type", .str PAYMENT_ORDER),
    (py "event_time", .str ts),
    (py "created_at", .str ts),
    (py "updated_at", .str ts),
    (py "version", .int version)]

/-- `_payment_order_event`. -/
def paymentOrderEvent (orderId amount : PyStr) (eventTime : DateTime) (version : Int) : PyDict :=
  let ts := iso eventTime
  [(py "order_id", .str orderId),
    (py "user_id", .str (py "user-synthetic")),
    (py "merchant_name", .str (py "MERCHANT-SYNTHETIC")),
    (py "amount", .str amount),
    (py "status", .str (py "SETTLED")),
    (py "created_at", .str ts),
    (py "updated_at", .str ts),
    (py "version", .int version)]

/-- A message that was handed to the producer, with its key. -/
structure Published where
  topic : PyStr
  key : Bytes
  value : Bytes
  deriving DecidableEq

/-- `producer.produce` with a text as the key and a value that is dumped. -/
def publish (floatRepr : PyFloat → PyStr) (topic key : PyStr) (payload : PyDict) :
    Except PyExc Published := do
  let keyBytes ← encodeValue key
  return ⟨topic, keyBytes, encode ((Json.obj payload).dumpsAscii floatRepr)⟩

/-- What the standard library promises of the texts the script writes. -/
structure ReadsWritten (rt : TextRuntime) (floatOf : PyStr → PyFloat) : Prop extends
    ReadsJson rt floatOf where
  /-- The bytes of an ASCII text are read as the text. -/
  bytes : ∀ text, ascii text = true → rt.jsonLoads (encode text) = rt.jsonLoadsText text
  /-- A short number is not refused. -/
  decimal : ∀ text n, numericText text = some n → text.length ≤ 28 →
    rt.decimal text = some (decimalOf n)
  intOf : ∀ n : Int, rt.intOf (.int n) = some n

/-- A time that `fromisoformat` reads as `isoformat` has written it. -/
structure ReadsTime (rt : PyRuntime) (t : DateTime) : Prop where
  range : representable t = true
  read : rt.fromisoformat (isoformat (wholeSecond t)) = some ⟨wholeSecond t, some 0⟩

variable {floatOf : PyStr → PyFloat} {rt : TextRuntime}

/-! ## The times -/

theorem representable_iff {n : Int} : representable n = true ↔
    -62135596800000000 ≤ n ∧ n ≤ 253402300799999999 := by
  rw [representable, Bool.and_eq_true, decide_eq_true_eq, decide_eq_true_eq]

theorem representable_wholeSecond {n : Int} (h : representable n = true) :
    representable (wholeSecond n) = true := by
  rw [representable_iff] at h ⊢
  unfold wholeSecond
  omega

/-- A written time has no blanks around it, and its mark is read as the offset. -/
theorem zuluOffset_iso (t : DateTime) : zuluOffset (strip (iso t)) = isoformat (wholeSecond t) := by
  rw [iso, replace_isoformat, strip_dateAndTime, show py "Z" = [90] from rfl, zuluOffset,
    if_pos List.getLast?_concat, List.dropLast_concat]
  rfl

theorem strip_iso (t : DateTime) : strip (iso t) = iso t := by
  rw [iso, replace_isoformat, strip_dateAndTime]

theorem iso_ne_nil (t : DateTime) : iso t ≠ [] := by
  rw [iso, replace_isoformat]
  exact List.concat_ne_nil _ _

theorem ReadsTime.parseDatetime {rt : PyRuntime} {t : DateTime} (h : ReadsTime rt t)
    (field : String) : parseDatetime rt (.str (iso t)) field = .ok (wholeSecond t) := by
  have hwhole := representable_wholeSecond h.range
  have hzero : wholeSecond t - 0 = wholeSecond t := Int.sub_zero _
  rw [Consumer.parseDatetime, zuluOffset_iso, h.read]
  simp only [toUtc, hzero, hwhole, if_true]

/-! ## What the consumer reads -/

/-- The text of `amount_signed`. -/
def signedAmount (entryType amount : PyStr) : PyStr :=
  if entryType = RECEIVE then amount else py "-" ++ amount

/-- The number a short text spells. -/
def Spells (text : PyStr) (d : Decimal) : Prop :=
  ∃ n, numericText text = some n ∧ text.length ≤ 28 ∧ d = decimalOf n

theorem ReadsWritten.parseDecimal (h : ReadsWritten rt floatOf) {text : PyStr} {d : Decimal}
    (hd : Spells text d) (field : String) :
    parseDecimal rt.toPyRuntime (.str text) field = .ok d := by
  obtain ⟨n, hn, hlength, rfl⟩ := hd
  exact parseDecimal_ok.mpr ⟨nofun, h.decimal text n hn hlength⟩

/-- The event that the arguments of `_ledger_event` describe. -/
structure LedgerWritten (event : LedgerEntryUpserted)
    (txId walletId entryType amount relatedId : PyStr) (eventTime : DateTime) (version : Int) :
    Prop where
  tx : event.txId = strip txId
  wallet : event.walletId = strip walletId
  type : event.entryType = strip entryType
  number : Spells amount event.amount
  signed : ∃ d, event.amountSigned = some d ∧ Spells (signedAmount entryType amount) d
  related : event.relatedId = some (strip relatedId)
  relatedType : event.relatedType = some PAYMENT_ORDER
  time : event.eventTime = wholeSecond eventTime
  created : event.createdAt = wholeSecond eventTime
  updated : event.updatedAt = some (wholeSecond eventTime)
  sourceVersion : event.sourceVersion = some version

/-- The event that the arguments of `_payment_order_event` describe. -/
structure OrderWritten (event : PaymentOrderUpserted) (orderId amount : PyStr)
    (eventTime : DateTime) (version : Int) : Prop where
  order : event.orderId = strip orderId
  user : event.userId = some (py "user-synthetic")
  merchant : event.merchantName = some (py "MERCHANT-SYNTHETIC")
  number : Spells amount event.amount
  status : event.status = py "SETTLED"
  created : event.createdAt = wholeSecond eventTime
  updated : event.updatedAt = some (wholeSecond eventTime)
  sourceVersion : event.sourceVersion = some version

/-- A text that is not blank is a value. -/
theorem isMissing_str {s : PyStr} (h : strip s ≠ []) : isMissing (.str s) = false :=
  List.isEmpty_eq_false_iff.mpr h

theorem ne_nil_of_strip {s : PyStr} (h : strip s ≠ []) : s ≠ [] := by
  rintro rfl
  exact h rfl

theorem requiredText_str {rt : PyRuntime} {s : PyStr} (h : strip s ≠ []) :
    requiredText rt (.str s) = strip s := by
  rw [requiredText, Json.or_of_truthy (truthy_of_ne_nil (ne_nil_of_strip h))]
  rfl

theorem Spells.strip_ne {text : PyStr} {d : Decimal} (h : Spells text d) : strip text ≠ [] := by
  obtain ⟨n, hn, -, -⟩ := h
  intro hblank
  rw [numericText_blank hblank] at hn
  cases hn

theorem missingRequired_iff {kind : TopicKind} {payload : PyDict} :
    MissingRequired canonicalV1 kind payload ↔ ∃ required ∈ canonicalV1.coreRequiredFor kind,
      isMissing (PyDict.get (normalizedPayload kind payload) (requiredKey required)) = true := by
  simp only [PyDict.get, normalizedPayload, lookup_resolved (canonicalV1_nodup kind)]
  rfl

/-- A group whose values are all the same agrees. -/
theorem groupAgrees_of_same {payload : PyDict} {aliases : List PyStr} {value : Json}
    (hself : value.pyEq value = true)
    (h : ∀ name ∈ aliases, isMissing (payload.get name) = true ∨
      normalizeValue (payload.get name) = value) : GroupAgrees payload aliases := by
  have hvalue : ∀ candidate ∈ aliasCandidates payload aliases, candidate.2 = value := by
    intro candidate hcandidate
    obtain ⟨name, hname, hpresent, rfl⟩ := mem_aliasCandidates.mp hcandidate
    refine (h name hname).resolve_left fun hmissing => ?_
    rw [hmissing] at hpresent
    cases hpresent
  intro first rest hcandidates other hother
  rw [hcandidates] at hvalue
  rw [hvalue first List.mem_cons_self, hvalue other (List.mem_cons_of_mem first hother)]
  exact hself

theorem pyEq_str (s : PyStr) : (Json.str s).pyEq (.str s) = true := by
  simp [Json.pyEq]

theorem pyEq_int (n : Int) : (Json.int n).pyEq (.int n) = true := by
  simp [Json.pyEq, Json.number, PyFloat.numEq]

section
variable {txId walletId entryType amount relatedId : PyStr} {eventTime : DateTime} {version : Int}
  {event : LedgerEntryUpserted}

/-- The three groups of aliases each have one value. -/
theorem ledgerEvent_agreed : Agreed
    (ledgerEvent txId walletId entryType amount relatedId eventTime version)
    (canonicalV1.aliasesFor .ledger) := by
  have htype : GroupAgrees (ledgerEvent txId walletId entryType amount relatedId eventTime version)
      [py "entry_type", py "type"] := by
    refine groupAgrees_of_same (pyEq_str (strip entryType)) fun name hname => ?_
    simp only [List.mem_cons, List.not_mem_nil, or_false] at hname
    rcases hname with rfl | rfl
    · exact .inr rfl
    · exact .inl rfl
  have htime : GroupAgrees (ledgerEvent txId walletId entryType amount relatedId eventTime version)
      [py "event_time", py "source_created_at", py "created_at"] := by
    refine groupAgrees_of_same (pyEq_str (strip (iso eventTime))) fun name hname => ?_
    simp only [List.mem_cons, List.not_mem_nil, or_false] at hname
    rcases hname with rfl | rfl | rfl
    · exact .inr rfl
    · exact .inl rfl
    · exact .inr rfl
  have hversion : GroupAgrees
      (ledgerEvent txId walletId entryType amount relatedId eventTime version)
      [py "version", py "source_version"] := by
    refine groupAgrees_of_same (pyEq_int version) fun name hname => ?_
    simp only [List.mem_cons, List.not_mem_nil, or_false] at hname
    rcases hname with rfl | rfl
    · exact .inr rfl
    · exact .inl rfl
  intro field hfield
  have hcases : field = (py "entry_type", [py "entry_type", py "type"]) ∨
      field = (py "event_time", [py "event_time", py "source_created_at", py "created_at"]) ∨
      field = (py "version", [py "version", py "source_version"]) := by
    simpa [canonicalV1, EventContractProfile.aliasesFor] using hfield
  rcases hcases with rfl | rfl | rfl
  · exact htype
  · exact htime
  · exact hversion

/-- The parser finds every argument under its own name. -/
theorem ledgerEvent_get {name : PyStr} (h : (canonicalV1.aliasesFor .ledger).lookup name = none) :
    PyDict.get (normalizedPayload .ledger
      (ledgerEvent txId walletId entryType amount relatedId eventTime version)) name =
      (ledgerEvent txId walletId entryType amount relatedId eventTime version).get name :=
  get_unaliased h

theorem ledgerEvent_type (htype : strip entryType ≠ []) :
    PyDict.get (normalizedPayload .ledger
      (ledgerEvent txId walletId entryType amount relatedId eventTime version))
      (py "entry_type") = .str (strip entryType) := by
  have hpresent : ¬ isMissing ((ledgerEvent txId walletId entryType amount relatedId eventTime
      version).get (py "entry_type")) = true := by
    rw [Bool.not_eq_true]
    exact isMissing_str htype
  rw [get_aliased (by rfl), firstNonblank_cons, if_neg hpresent]
  rfl

theorem ledgerEvent_time : PyDict.get (normalizedPayload .ledger
      (ledgerEvent txId walletId entryType amount relatedId eventTime version))
      (py "event_time") = .str (iso eventTime) := by
  have hpresent : ¬ isMissing ((ledgerEvent txId walletId entryType amount relatedId eventTime
      version).get (py "event_time")) = true := by
    rw [Bool.not_eq_true]
    exact isMissing_str (by rw [strip_iso]; exact iso_ne_nil eventTime)
  rw [get_aliased (by rfl), firstNonblank_cons, if_neg hpresent]
  exact congrArg Json.str (strip_iso eventTime)

theorem ledgerEvent_version : PyDict.get (normalizedPayload .ledger
      (ledgerEvent txId walletId entryType amount relatedId eventTime version))
      (py "version") = .int version := by
  rw [get_version]
  rfl

/-- No required field is absent or blank. -/
theorem ledgerEvent_required (htx : strip txId ≠ []) (hwallet : strip walletId ≠ [])
    (htype : strip entryType ≠ []) (hamount : strip amount ≠ []) :
    ¬ MissingRequired canonicalV1 .ledger
      (ledgerEvent txId walletId entryType amount relatedId eventTime version) := by
  rw [missingRequired_iff]
  rintro ⟨required, hrequired, hmissing⟩
  have hcases : required = py "tx_id" ∨ required = py "wallet_id" ∨ required = py "entry_type" ∨
      required = py "amount" ∨ required = py "event_time_or_alias" := by
    simpa [canonicalV1, EventContractProfile.coreRequiredFor] using hrequired
  refine Bool.false_ne_true (Eq.trans ?_ hmissing)
  rcases hcases with rfl | rfl | rfl | rfl | rfl
  · rw [ledgerEvent_get (by rfl)]
    exact (isMissing_str htx).symm
  · rw [ledgerEvent_get (by rfl)]
    exact (isMissing_str hwallet).symm
  · rw [show requiredKey (py "entry_type") = py "entry_type" from rfl, ledgerEvent_type htype]
    exact (isMissing_str (by rw [strip_strip]; exact htype)).symm
  · rw [ledgerEvent_get (by rfl)]
    exact (isMissing_str hamount).symm
  · rw [show requiredKey (py "event_time_or_alias") = py "event_time" from rfl, ledgerEvent_time]
    exact (isMissing_str (by rw [strip_iso]; exact iso_ne_nil eventTime)).symm

/-- A ledger event is read as it was written. -/
theorem ledgerEvent_read (hrt : ReadsWritten rt floatOf) {profile : EventContractProfile}
    (hprofile : Shipped rt.toPyRuntime profile)
    (h : LedgerWritten event txId walletId entryType amount relatedId eventTime version)
    (ht : ReadsTime rt.toPyRuntime eventTime) (hversion : version ≠ 0) :
    parsePayload rt.toPyRuntime profile (profile.topicOf .ledger)
      (ledgerEvent txId walletId entryType amount relatedId eventTime version) =
        .ok (.ledger event) := by
  have htx : strip txId ≠ [] := h.tx ▸ event.txId_ne
  have hwallet : strip walletId ≠ [] := h.wallet ▸ event.walletId_ne
  have htype : strip entryType ≠ [] := h.type ▸ event.entryType_ne
  have htruthy : (Json.str (iso eventTime)).truthy = true := truthy_of_ne_nil (iso_ne_nil eventTime)
  have hintTruthy : (Json.int version).truthy = true := bne_iff_ne.mpr hversion
  refine (parsePayload_ok hprofile (topicKind_topicOf profile .ledger)).mpr ⟨⟨ledgerEvent_agreed,
    ledgerEvent_required htx hwallet htype h.number.strip_ne⟩,
    parseEvent_ledger.mpr ⟨event, rfl, ?_⟩⟩
  constructor
  case txId =>
    rw [ledgerEvent_get (by rfl)]
    exact h.tx.trans (requiredText_str htx).symm
  case walletId =>
    rw [ledgerEvent_get (by rfl)]
    exact h.wallet.trans (requiredText_str hwallet).symm
  case entryType =>
    have hstrip : strip (strip entryType) ≠ [] := by
      rw [strip_strip]
      exact htype
    rw [ledgerEvent_type htype, Json.or_of_truthy (truthy_of_ne_nil htype),
      requiredText_str hstrip, strip_strip]
    exact h.type
  case amount =>
    rw [ledgerEvent_get (by rfl)]
    exact hrt.parseDecimal h.number "amount"
  case amountSigned =>
    obtain ⟨d, hd, hspells⟩ := h.signed
    rw [ledgerEvent_get (by rfl), hd]
    exact congrArg (Except.map some) (hrt.parseDecimal hspells "amount_signed")
  case relatedId =>
    rw [ledgerEvent_get (by rfl)]
    exact h.related
  case relatedType =>
    rw [ledgerEvent_get (by rfl)]
    exact h.relatedType
  case eventTime =>
    rw [eventTimeValue, ledgerEvent_time, Json.or_of_truthy htruthy, Json.or_of_truthy htruthy,
      h.time]
    exact ht.parseDatetime "event_time"
  case createdAt =>
    have hsource : PyDict.get (normalizedPayload .ledger (ledgerEvent txId walletId entryType
        amount relatedId eventTime version)) (py "source_created_at") = .null := get_unaliased (by rfl)
    have hcreated : PyDict.get (normalizedPayload .ledger (ledgerEvent txId walletId entryType
        amount relatedId eventTime version)) (py "created_at") = .str (iso eventTime) :=
      get_unaliased (by rfl)
    rw [createdValue, hsource, hcreated, Json.or_of_falsy (a := .null) rfl,
      Json.or_of_truthy htruthy, h.created]
    exact ht.parseDatetime "created_at"
  case updatedAt =>
    rw [ledgerEvent_get (by rfl), h.updated]
    exact congrArg (Except.map some) (ht.parseDatetime "updated_at")
  case sourceVersion =>
    rw [versionValue, ledgerEvent_version, Json.or_of_truthy hintTruthy, h.sourceVersion]
    simp only [parseOptionalInt, hrt.intOf]

end

section
variable {orderId amount : PyStr} {eventTime : DateTime} {version : Int}
  {event : PaymentOrderUpserted}

theorem paymentOrderEvent_agreed : Agreed
    (paymentOrderEvent orderId amount eventTime version)
    (canonicalV1.aliasesFor .paymentOrder) := by
  have hversion : GroupAgrees (paymentOrderEvent orderId amount eventTime version)
      [py "version", py "source_version"] := by
    refine groupAgrees_of_same (pyEq_int version) fun name hname => ?_
    simp only [List.mem_cons, List.not_mem_nil, or_false] at hname
    rcases hname with rfl | rfl
    · exact .inr rfl
    · exact .inl rfl
  intro field hfield
  have hone : field = (py "version", [py "version", py "source_version"]) := by
    simpa [canonicalV1, EventContractProfile.aliasesFor] using hfield
  rw [hone]
  exact hversion

theorem paymentOrderEvent_get {name : PyStr}
    (h : (canonicalV1.aliasesFor .paymentOrder).lookup name = none) :
    PyDict.get (normalizedPayload .paymentOrder
      (paymentOrderEvent orderId amount eventTime version)) name =
      (paymentOrderEvent orderId amount eventTime version).get name :=
  get_unaliased h

theorem paymentOrderEvent_required (horder : strip orderId ≠ []) (hamount : strip amount ≠ []) :
    ¬ MissingRequired canonicalV1 .paymentOrder
      (paymentOrderEvent orderId amount eventTime version) := by
  rw [missingRequired_iff]
  rintro ⟨required, hrequired, hmissing⟩
  have hcases : required = py "order_id" ∨ required = py "amount" ∨ required = py "status" ∨
      required = py "created_at" := by
    simpa [canonicalV1, EventContractProfile.coreRequiredFor] using hrequired
  refine Bool.false_ne_true (Eq.trans ?_ hmissing)
  rcases hcases with rfl | rfl | rfl | rfl
  · rw [paymentOrderEvent_get (by rfl)]
    exact (isMissing_str horder).symm
  · rw [paymentOrderEvent_get (by rfl)]
    exact (isMissing_str hamount).symm
  · rw [paymentOrderEvent_get (by rfl)]
    rfl
  · rw [paymentOrderEvent_get (by rfl)]
    exact (isMissing_str (by rw [strip_iso]; exact iso_ne_nil eventTime)).symm

/-- An order event is read as it was written. -/
theorem paymentOrderEvent_read (hrt : ReadsWritten rt floatOf) {profile : EventContractProfile}
    (hprofile : Shipped rt.toPyRuntime profile)
    (h : OrderWritten event orderId amount eventTime version)
    (ht : ReadsTime rt.toPyRuntime eventTime) (hversion : version ≠ 0) :
    parsePayload rt.toPyRuntime profile (profile.topicOf .paymentOrder)
      (paymentOrderEvent orderId amount eventTime version) = .ok (.order event) := by
  have horder : strip orderId ≠ [] := h.order ▸ event.orderId_ne
  have hintTruthy : (Json.int version).truthy = true := bne_iff_ne.mpr hversion
  refine (parsePayload_ok hprofile (topicKind_topicOf profile .paymentOrder)).mpr
    ⟨⟨paymentOrderEvent_agreed, paymentOrderEvent_required horder h.number.strip_ne⟩,
      parseEvent_order.mpr ⟨event, rfl, ?_⟩⟩
  constructor
  case orderId =>
    rw [paymentOrderEvent_get (by rfl)]
    exact h.order.trans (requiredText_str horder).symm
  case status =>
    rw [paymentOrderEvent_get (by rfl)]
    exact h.status
  case amount =>
    rw [paymentOrderEvent_get (by rfl)]
    exact hrt.parseDecimal h.number "amount"
  case createdAt =>
    rw [paymentOrderEvent_get (by rfl), h.created]
    exact ht.parseDatetime "created_at"
  case updatedAt =>
    rw [paymentOrderEvent_get (by rfl), h.updated]
    exact congrArg (Except.map some) (ht.parseDatetime "updated_at")
  case sourceVersion =>
    have hvalue : PyDict.get (normalizedPayload .paymentOrder
        (paymentOrderEvent orderId amount eventTime version)) (py "version") = .int version := by
      rw [get_version]
      rfl
    rw [versionValue, hvalue, Json.or_of_truthy hintTruthy, h.sourceVersion]
    simp only [parseOptionalInt, hrt.intOf]
  case userId =>
    rw [paymentOrderEvent_get (by rfl)]
    exact h.user
  case merchantName =>
    rw [paymentOrderEvent_get (by rfl)]
    exact h.merchant

end

/-! ## Through the bytes -/

theorem ascii_dumpsAscii (floatRepr : PyFloat → PyStr) (v : Json) :
    ascii (v.dumpsAscii floatRepr) = true := by
  rw [ascii, List.all_eq_true]
  intro c hc
  obtain ⟨d, -, hd⟩ := List.mem_flatMap.mp hc
  exact List.all_eq_true.mp (ascii_escapeChar d) c hd

/-- An object of the script is read back from its bytes. -/
theorem loadPayload_written (hrt : ReadsWritten rt floatOf) {msg : Message} {payload : PyDict}
    (hplain : Plain floatOf (fun c => isScalar c = true) (.obj payload))
    (hvalue : msg.value = some (encode ((Json.obj payload).dumpsAscii rt.floatRepr))) :
    loadPayload rt.toPyRuntime msg = .ok payload := by
  have hopen : (Json.obj payload).dumpsAscii rt.floatRepr ≠ [] :=
    List.append_ne_nil_of_left_ne_nil (List.cons_ne_nil 123 []) _
  obtain ⟨b, bs, hbytes⟩ := List.exists_cons_of_ne_nil (encode_ne_nil hopen)
  have hloads : rt.jsonLoads (b :: bs) = .ok (.obj payload) := by
    have hback := @loads_dumpsAscii floatOf rt.floatRepr hrt.floats _ hplain [] (by simp)
    rw [List.append_nil] at hback
    rw [← hbytes, hrt.bytes _ (ascii_dumpsAscii _ _), hrt.loads]
    exact jsonLoadsText_eq_ok.mpr hback
  rw [loadPayload, hvalue, hbytes]
  simp only [hloads]

theorem isScalar_iso (t : DateTime) : ∀ c ∈ iso t, isScalar c = true := by
  intro c hc
  rw [iso, replace_isoformat] at hc
  refine isScalar_iff.mpr ?_
  rcases List.mem_append.mp hc with hc | hc
  · have hbounds := isTimeChar_bounds (List.all_eq_true.mp (isTimeChar_dateAndTime _) c hc)
    omega
  · rw [show py "Z" = [90] from rfl, List.mem_singleton] at hc
    omega

/-- A text of scalar values. -/
theorem plain_scalars {s : PyStr} (h : wellFormed s = true) :
    Plain floatOf (fun c => isScalar c = true) (.str s) := by
  rw [Plain]
  exact wellFormed_iff.mp h

theorem plain_iso (t : DateTime) : Plain floatOf (fun c => isScalar c = true) (.str (iso t)) := by
  rw [Plain]
  exact isScalar_iso t

theorem plain_version {n : Int} (h : n.natAbs ≤ 2 ^ 63) :
    Plain floatOf (fun c => isScalar c = true) (.int n) := by
  rw [Plain]
  exact bounded_lt h

/-- An object whose keys and values are plain. -/
theorem plain_object {payload : PyDict} (keys : List PyStr) (hpayload : payload.map Prod.fst = keys)
    (hnodup : keys.Nodup) (hkeys : ∀ k ∈ keys, wellFormed k = true)
    (hvalues : ∀ kv ∈ payload, Plain floatOf (fun c => isScalar c = true) kv.2) :
    Plain floatOf (fun c => isScalar c = true) (.obj payload) := by
  subst hpayload
  rw [Plain, plainFields_iff]
  exact ⟨hnodup, fun kv hkv =>
    ⟨wellFormed_iff.mp (hkeys _ (List.mem_map_of_mem hkv)), hvalues kv hkv⟩⟩

theorem wellFormed_append {s t : PyStr} (hs : wellFormed s = true) (ht : wellFormed t = true) :
    wellFormed (s ++ t) = true := by
  simp only [wellFormed, List.all_append, Bool.and_eq_true]
  exact ⟨hs, ht⟩

theorem plain_ledgerEvent {txId walletId entryType amount relatedId : PyStr} {eventTime : DateTime}
    {version : Int} (htx : wellFormed txId = true) (hwallet : wellFormed walletId = true)
    (htype : wellFormed entryType = true) (hamount : wellFormed amount = true)
    (hrelated : wellFormed relatedId = true) (hversion : version.natAbs ≤ 2 ^ 63) :
    Plain floatOf (fun c => isScalar c = true)
      (.obj (ledgerEvent txId walletId entryType amount relatedId eventTime version)) := by
  have hsigned : wellFormed (signedAmount entryType amount) = true := by
    unfold signedAmount
    split
    · exact hamount
    · exact wellFormed_append (by decide) hamount
  refine plain_object [py "tx_id", py "wallet_id", py "entry_type", py "amount",
    py "amount_signed", py "related_id", py "related_type", py "event_time", py "created_at",
    py "updated_at", py "version"] rfl (by decide) (by decide) ?_
  simp only [ledgerEvent, List.forall_mem_cons, List.not_mem_nil, false_implies, implies_true,
    and_true]
  exact ⟨plain_scalars htx, plain_scalars hwallet, plain_scalars htype, plain_scalars hamount,
    plain_scalars hsigned, plain_scalars hrelated, plain_scalars (by decide), plain_iso _,
    plain_iso _, plain_iso _, plain_version hversion⟩

theorem plain_paymentOrderEvent {orderId amount : PyStr} {eventTime : DateTime} {version : Int}
    (horder : wellFormed orderId = true) (hamount : wellFormed amount = true)
    (hversion : version.natAbs ≤ 2 ^ 63) : Plain floatOf (fun c => isScalar c = true)
      (.obj (paymentOrderEvent orderId amount eventTime version)) := by
  refine plain_object [py "order_id", py "user_id", py "merchant_name", py "amount", py "status",
    py "created_at", py "updated_at", py "version"] rfl (by decide) (by decide) ?_
  simp only [paymentOrderEvent, List.forall_mem_cons, List.not_mem_nil, false_implies,
    implies_true, and_true]
  exact ⟨plain_scalars horder, plain_scalars (by decide), plain_scalars (by decide),
    plain_scalars hamount, plain_scalars (by decide), plain_iso _, plain_iso _,
    plain_version hversion⟩

/-- A payload that parses is the event of a message that carries it. -/
theorem eventOf_written {profile : EventContractProfile} {msg : Message} {payload : PyDict}
    {event : Event} (hload : loadPayload rt.toPyRuntime msg = .ok payload)
    (hparse : parsePayload rt.toPyRuntime profile msg.topic payload = .ok event) :
    eventOf rt.toPyRuntime profile msg = .ok event := by
  rw [eventOf, hload]
  exact hparse

end TxLookup.Scripts
