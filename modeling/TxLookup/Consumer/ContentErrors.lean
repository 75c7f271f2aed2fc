import TxLookup.Consumer.Parsing

/-!
# Errors of content

Every check of the normaliser and the parser raises `EventValidationError` or a
subclass, and every conversion does but one: `astimezone` stands after the `try` that
guards `fromisoformat`, so an instant it cannot represent leaves the parser as
`OverflowError`. When this happens is a condition on the first field that fails.
-/
namespace TxLookup.Consumer

open Library Library.PyText Db Common

/-- `EventValidationError` or a subclass. -/
def PyExc.IsEventValidation : PyExc → Prop
  | .eventValidation _ | .unsupportedTopic _ | .contractCoreViolation _ => True
  | _ => False

theorem classifyError_of_isEventValidation {exc : PyExc} (h : exc.IsEventValidation) :
    classifyError exc ≠ py "internal_error" := by
  have hparse : py "parse_error" ≠ py "internal_error" := by decide +kernel
  have htopic : py "unsupported_topic" ≠ py "internal_error" := by decide +kernel
  have hcore : py "contract_core_violation" ≠ py "internal_error" := by decide +kernel
  cases exc with
  | eventValidation _ => exact hparse
  | unsupportedTopic _ => exact htopic
  | contractCoreViolation _ => exact hcore
  | _ => cases h

/-- A text of a date with an offset whose instant is outside the years 1 to 9999. -/
def Overflows (rt : PyRuntime) (value : Json) : Prop :=
  ∃ s parsed offset, value = .str s ∧ rt.fromisoformat (zuluOffset (strip s)) = some parsed ∧
    parsed.utcoffset = some offset ∧ representable (parsed.wall - offset) = false

/-! ## The conversions -/

section
variable {rt : PyRuntime}

theorem requireText_guarded (field : String) (s : PyStr) :
    ¬ Escapes PyExc.IsEventValidation (requireText field s) := by
  unfold requireText
  split
  · exact not_escapes_error trivial
  · exact not_escapes_ok _

theorem parseDecimal_guarded (value : Json) (field : String) :
    ¬ Escapes PyExc.IsEventValidation (parseDecimal rt value field) := by
  unfold parseDecimal
  split
  · exact not_escapes_error trivial
  · cases rt.decimal (rt.str value) with
    | some d => exact not_escapes_ok d
    | none => exact not_escapes_error trivial

theorem parseOptionalDecimal_guarded (value : Json) (field : String) :
    ¬ Escapes PyExc.IsEventValidation (parseOptionalDecimal rt value field) := by
  by_cases hnull : value = .null
  · rw [hnull]
    exact not_escapes_ok none
  · rw [parseOptionalDecimal_of_ne hnull, escapes_map]
    exact parseDecimal_guarded value field

theorem parseOptionalInt_guarded (value : Json) :
    ¬ Escapes PyExc.IsEventValidation (parseOptionalInt rt value) := by
  unfold parseOptionalInt
  split
  · exact not_escapes_ok none
  · cases rt.intOf value with
    | some n => exact not_escapes_ok (some n)
    | none => exact not_escapes_error trivial

theorem toUtc_escapes (parsed : IsoDatetime) : Escapes PyExc.IsEventValidation (toUtc parsed) ↔
    ∃ offset, parsed.utcoffset = some offset ∧ representable (parsed.wall - offset) = false := by
  unfold toUtc
  cases parsed.utcoffset with
  | none => exact iff_of_false (not_escapes_ok _) (fun ⟨_, h, _⟩ => by cases h)
  | some offset =>
    simp only [Option.some.injEq, exists_eq_left']
    split
    · next h => exact iff_of_false (not_escapes_ok _) (by simp [h])
    · next h => exact iff_of_true ⟨_, rfl, id⟩ (by simpa using h)

/-- The one conversion that lets another exception out. -/
theorem parseDatetime_escapes (value : Json) (field : String) :
    Escapes PyExc.IsEventValidation (parseDatetime rt value field) ↔ Overflows rt value := by
  cases value with
  | str s =>
    rw [parseDatetime]
    unfold Overflows
    cases hparsed : rt.fromisoformat (zuluOffset (strip s)) with
    | none =>
      refine iff_of_false (not_escapes_error trivial) ?_
      intro hparts
      obtain ⟨s', parsed, offset, heq, h, -⟩ := hparts
      cases heq
      cases hparsed.symm.trans h
    | some parsed =>
      rw [toUtc_escapes]
      constructor
      · intro hparts
        obtain ⟨offset, hoffset, hrange⟩ := hparts
        exact ⟨s, parsed, offset, rfl, hparsed, hoffset, hrange⟩
      · intro hparts
        obtain ⟨s', parsed', offset, heq, h, hoffset, hrange⟩ := hparts
        cases heq
        cases hparsed.symm.trans h
        exact ⟨offset, hoffset, hrange⟩
  | _ =>
    refine iff_of_false (not_escapes_error trivial) ?_
    intro hparts
    obtain ⟨s, _, _, heq, -⟩ := hparts
    cases heq

theorem parseOptionalDatetime_escapes (value : Json) :
    Escapes PyExc.IsEventValidation (parseOptionalDatetime rt value) ↔ Overflows rt value := by
  by_cases hnull : value = .null
  · rw [hnull]
    refine iff_of_false (not_escapes_ok none) ?_
    intro hparts
    obtain ⟨s, _, _, heq, -⟩ := hparts
    cases heq
  · rw [parseOptionalDatetime_of_ne hnull, escapes_map, parseDatetime_escapes]

end

/-! ## The first field that fails -/

/-- A date of a ledger payload overflows, and every field before it can be read. -/
structure LedgerOverflows (rt : PyRuntime) (dict : PyDict) : Prop extends LedgerHead rt dict where
  date : Overflows rt (eventTimeValue dict) ∨
    (∃ t, parseDatetime rt (eventTimeValue dict) "event_time" = .ok t) ∧
      (Overflows rt (createdValue dict) ∨
        (∃ t, parseDatetime rt (createdValue dict) "created_at" = .ok t) ∧
          Overflows rt (dict.get (py "updated_at")))

/-- A date of an order payload overflows, and every field before it can be read. -/
structure OrderOverflows (rt : PyRuntime) (dict : PyDict) : Prop extends OrderHead rt dict where
  date : Overflows rt (dict.get (py "created_at")) ∨
    (∃ t, parseDatetime rt (dict.get (py "created_at")) "created_at" = .ok t) ∧
      Overflows rt (dict.get (py "updated_at"))

section
variable {rt : PyRuntime} {dict : PyDict}

theorem exists_requireText {field : String} {s : PyStr} :
    (∃ t, requireText field s = .ok t) ↔ s ≠ [] := by
  constructor
  · intro hparts
    obtain ⟨t, ht⟩ := hparts
    exact requireText_ok.mp ht ▸ t.2
  · intro hs
    exact ⟨⟨s, hs⟩, requireText_ok.mpr rfl⟩

theorem ledger_fromDict_escapes :
    Escapes PyExc.IsEventValidation (LedgerEntryUpserted.fromDict rt dict) ↔
      LedgerOverflows rt dict := by
  have hreturn : ∀ entry : LedgerEntryUpserted,
      ¬ Escapes PyExc.IsEventValidation (pure entry : Except PyExc LedgerEntryUpserted) :=
    not_escapes_ok
  rw [ledger_fromDict_eq]
  simp only [escapes_bind_of_not (requireText_guarded _ _),
    escapes_bind_of_not (parseDecimal_guarded _ _),
    escapes_bind_of_not (parseOptionalDecimal_guarded _ _),
    escapes_bind_of_not (parseOptionalInt_guarded _), escapes_bind, parseDatetime_escapes,
    parseOptionalDatetime_escapes, hreturn, and_false, exists_false, or_false,
    exists_and_right, exists_requireText]
  constructor
  · intro hparts
    obtain ⟨htxId, hwallet, htype, hamount, hsigned, hdate⟩ := hparts
    exact ⟨⟨htxId, hwallet, htype, hamount, hsigned⟩, hdate⟩
  · intro h
    exact ⟨h.txId, h.walletId, h.entryType, h.amount, h.amountSigned, h.date⟩

theorem order_fromDict_escapes :
    Escapes PyExc.IsEventValidation (PaymentOrderUpserted.fromDict rt dict) ↔
      OrderOverflows rt dict := by
  have hreturn : ∀ order : PaymentOrderUpserted,
      ¬ Escapes PyExc.IsEventValidation (pure order : Except PyExc PaymentOrderUpserted) :=
    not_escapes_ok
  unfold PaymentOrderUpserted.fromDict
  simp only [escapes_bind_of_not (requireText_guarded _ _),
    escapes_bind_of_not (parseDecimal_guarded _ _),
    escapes_bind_of_not (parseOptionalInt_guarded _), escapes_bind, parseDatetime_escapes,
    parseOptionalDatetime_escapes, hreturn, and_false, exists_false, or_false,
    exists_and_right, exists_requireText]
  constructor
  · intro hparts
    obtain ⟨hid, hstatus, hamount, hdate⟩ := hparts
    exact ⟨⟨hid, hstatus, hamount⟩, hdate⟩
  · intro h
    exact ⟨h.orderId, h.status, h.amount, h.date⟩

end

/-! ## The whole payload -/

/-- The payload passes the normaliser, and the first field the parser fails on is a
date that overflows. -/
def ContentOverflows (rt : PyRuntime) (profile : EventContractProfile) (kind : TopicKind)
    (payload : PyDict) : Prop :=
  Agreed payload (profile.aliasesFor kind) ∧ ¬ MissingRequired profile kind payload ∧
    match kind with
    | .ledger => LedgerOverflows rt (resolved payload (profile.aliasesFor kind))
    | .paymentOrder => OrderOverflows rt (resolved payload (profile.aliasesFor kind))

theorem parseEvent_escapes {rt : PyRuntime} {dict : PyDict} {kind : TopicKind}
    {hits : List (PyStr × PyStr)} :
    Escapes PyExc.IsEventValidation (parseEvent rt ⟨dict, kind, hits⟩) ↔
      (kind = .ledger ∧ LedgerOverflows rt dict) ∨
        (kind = .paymentOrder ∧ OrderOverflows rt dict) := by
  cases kind with
  | ledger => simp [parseEvent, escapes_map, ledger_fromDict_escapes]
  | paymentOrder => simp [parseEvent, escapes_map, order_fromDict_escapes]

/-- A failure on the content is an `EventValidationError`, and is classified so. -/
def Classified (outcome : Except PyExc Event) : Prop :=
  ∀ exc, outcome = .error exc →
    exc.IsEventValidation ∧ classifyError exc ≠ py "internal_error"

theorem classified_iff_not_escapes {outcome : Except PyExc Event} :
    Classified outcome ↔ ¬ Escapes PyExc.IsEventValidation outcome := by
  constructor
  · intro h hparts
    obtain ⟨exc, hexc, hnot⟩ := hparts
    exact hnot (h exc hexc).1
  · intro h exc hexc
    have hvalidation : exc.IsEventValidation := by
      by_contra hnot
      exact h ⟨exc, hexc, hnot⟩
    exact ⟨hvalidation, classifyError_of_isEventValidation hvalidation⟩

/-- Whatever the payload holds, its failure is classified as one of the contract if and
only if no date overflows before another field fails. -/
theorem content_classified_iff (rt : PyRuntime) {reprOf : Yaml → PyStr} {document : Yaml}
    {profiles : List (PyStr × RawProfile)} (h : loadEventProfiles reprOf document = .ok profiles)
    {config : ProfileConfig} {profile : EventContractProfile}
    (hprofile : loadEventContractProfile rt profiles config = .ok profile) {topic : PyStr}
    {kind : TopicKind} (htopic : profile.topicKind topic = some kind) (payload : PyDict) :
    Classified (parsePayload rt profile topic payload) ↔
      ¬ ContentOverflows rt profile kind payload := by
  have hnodup := (aliasesFor_ok rt h hprofile kind).nodup
  rw [classified_iff_not_escapes, not_iff_not]
  unfold parsePayload ContentOverflows
  by_cases hagreed : Agreed payload (profile.aliasesFor kind)
  · by_cases hmissing : MissingRequired profile kind payload
    · obtain ⟨message, hmessage⟩ := @normalize_missing rt _ _ _ _ htopic hnodup hagreed hmissing
      rw [hmessage]
      exact iff_of_false (not_escapes_error trivial) (fun hoverflow => hoverflow.2.1 hmissing)
    · obtain ⟨hits, hok⟩ := @normalize_ok rt _ _ _ _ htopic hnodup hagreed hmissing
      rw [hok]
      show Escapes PyExc.IsEventValidation (parseEvent rt _) ↔ _
      rw [parseEvent_escapes, and_iff_right hagreed, and_iff_right hmissing]
      cases kind <;> simp
  · obtain ⟨message, hmessage⟩ := @normalize_conflict rt _ _ _ _ htopic hagreed
    rw [hmessage]
    exact iff_of_false (not_escapes_error trivial) (fun hoverflow => hagreed hoverflow.1)

/-- The first instant of the calendar, fourteen hours east of Greenwich. -/
def firstInstant : PyStr := py "0001-01-01T00:00:00+14:00"

def edgeRuntime : PyRuntime :=
  { exactRuntime with
    fromisoformat := fun s =>
      if s = firstInstant then some ⟨-62135596800000000, some 50400000000⟩
      else exactRuntime.fromisoformat s }

def edgePayload : PyDict :=
  [(py "order_id", .str (py "po-1")), (py "amount", .int 10), (py "status", .str (py "PAID")),
    (py "created_at", .str firstInstant)]

theorem edgePayload_classified_iff :
    Classified (parsePayload edgeRuntime canonicalV1 (py "payment.order.upserted") edgePayload) ↔
      ¬ ContentOverflows edgeRuntime canonicalV1 .paymentOrder edgePayload :=
  content_classified_iff edgeRuntime (loadEventProfiles_shipped fun _ => [])
    (load_canonicalV1 edgeRuntime) canonicalV1_orderTopic edgePayload

/-- The order ends as an internal error. -/
theorem edgePayload_internalError : ¬ ∀ (rt : PyRuntime) (reprOf : Yaml → PyStr) (document : Yaml)
    (profiles : List (PyStr × RawProfile)) (config : ProfileConfig)
    (profile : EventContractProfile) (topic : PyStr) (kind : TopicKind) (payload : PyDict),
    loadEventProfiles reprOf document = .ok profiles →
    loadEventContractProfile rt profiles config = .ok profile →
    profile.topicKind topic = some kind →
    Classified (parsePayload rt profile topic payload) := by
  intro h
  have hclassified := h edgeRuntime (fun _ => []) shippedDocument shippedProfiles _ canonicalV1
    (py "payment.order.upserted") .paymentOrder edgePayload (loadEventProfiles_shipped fun _ => [])
    (load_canonicalV1 edgeRuntime) canonicalV1_orderTopic
  have hoverflow : parsePayload edgeRuntime canonicalV1 (py "payment.order.upserted")
      edgePayload = .error (.overflow (py "date value out of range")) := by
    decide +kernel
  exact (hclassified _ hoverflow).1

end TxLookup.Consumer
