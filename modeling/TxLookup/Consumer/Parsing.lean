import TxLookup.Consumer.Normalization
import TxLookup.Library.PyNumeral

/-!
# What is accepted

An event is read field by field from the resolved payload. This module says which
value each field is read from and when all of them can be read; the results on
blanks, versions, amounts and times are read off it.
-/
namespace TxLookup.Consumer

open Library Library.PyText Db

/-! ## Numbers -/

/-- The number a text spells. -/
def decimalOf : NumericText → Decimal
  | .number n => .finite n.negative n.coefficient n.exponent
  | .infinity negative => .infinity negative
  | .nan negative signaling payload => .nan negative signaling payload

/-- A number that `Decimal` or `int` returns is the one its argument spells. Both may
raise all the same: they limit the size of what they read. -/
structure PyRuntime.Exact (rt : PyRuntime) : Prop where
  decimal : ∀ {text d}, rt.decimal text = some d → (numericText text).map decimalOf = some d
  intOf : ∀ {value n}, rt.intOf value = some n → value.toInt = some n

variable {rt : PyRuntime}

theorem PyRuntime.Exact.decimal_blank (hrt : rt.Exact) {s : PyStr} (h : strip s = []) :
    rt.decimal s = none := by
  rw [Option.eq_none_iff_forall_ne_some]
  intro d hd
  have hspelled := hrt.decimal hd
  rw [numericText_blank h] at hspelled
  cases hspelled

/-- A runtime with the conversions of numbers as they are. -/
def exactRuntime : PyRuntime :=
  { sampleRuntime with
    decimal := fun text => (numericText text).map decimalOf
    intOf := Json.toInt }

theorem exactRuntime_exact : exactRuntime.Exact := ⟨fun h => h, fun h => h⟩

/-! ## The fields of an event -/

section
variable (payload : PyDict)

def eventTimeValue : Json :=
  ((payload.get (py "event_time")).or (payload.get (py "source_created_at"))).or
    (payload.get (py "created_at"))

def createdValue : Json :=
  ((payload.get (py "source_created_at")).or (payload.get (py "created_at"))).or
    (payload.get (py "event_time"))

def versionValue : Json := (payload.get (py "version")).or (payload.get (py "source_version"))

end

def Event.updatedAt : Event → Option DateTime
  | .ledger entry => entry.updatedAt
  | .order payment => payment.updatedAt

def Event.sourceVersion : Event → Option Int
  | .ledger entry => entry.sourceVersion
  | .order payment => payment.sourceVersion

/-- `_parse_decimal(value, field) if value is not None else None`. -/
def parseOptionalDecimal (rt : PyRuntime) (value : Json) (field : String) :
    Except PyExc (Option Decimal) :=
  match value with
  | .null => pure none
  | value => (parseDecimal rt value field).map some

/-- What each field of a ledger event is read from. -/
structure LedgerFields (rt : PyRuntime) (payload : PyDict) (event : LedgerEntryUpserted) :
    Prop where
  txId : event.txId = requiredText rt (payload.get (py "tx_id"))
  walletId : event.walletId = requiredText rt (payload.get (py "wallet_id"))
  entryType : event.entryType =
    requiredText rt ((payload.get (py "entry_type")).or (payload.get (py "type")))
  amount : parseDecimal rt (payload.get (py "amount")) "amount" = .ok event.amount
  amountSigned : parseOptionalDecimal rt (payload.get (py "amount_signed")) "amount_signed" =
    .ok event.amountSigned
  relatedId : event.relatedId = optionalText rt (payload.get (py "related_id"))
  relatedType : event.relatedType = optionalText rt (payload.get (py "related_type"))
  eventTime : parseDatetime rt (eventTimeValue payload) "event_time" = .ok event.eventTime
  createdAt : parseDatetime rt (createdValue payload) "created_at" = .ok event.createdAt
  updatedAt : parseOptionalDatetime rt (payload.get (py "updated_at")) = .ok event.updatedAt
  sourceVersion : parseOptionalInt rt (versionValue payload) = .ok event.sourceVersion

/-- What each field of an order event is read from. -/
structure OrderFields (rt : PyRuntime) (payload : PyDict) (event : PaymentOrderUpserted) :
    Prop where
  orderId : event.orderId = requiredText rt (payload.get (py "order_id"))
  status : event.status = requiredText rt (payload.get (py "status"))
  amount : parseDecimal rt (payload.get (py "amount")) "amount" = .ok event.amount
  createdAt : parseDatetime rt (payload.get (py "created_at")) "created_at" = .ok event.createdAt
  updatedAt : parseOptionalDatetime rt (payload.get (py "updated_at")) = .ok event.updatedAt
  sourceVersion : parseOptionalInt rt (versionValue payload) = .ok event.sourceVersion
  userId : event.userId = optionalText rt (payload.get (py "user_id"))
  merchantName : event.merchantName = optionalText rt (payload.get (py "merchant_name"))

/-- The fields of a ledger event that are read before its dates can be read. -/
structure LedgerHead (rt : PyRuntime) (dict : PyDict) : Prop where
  txId : requiredText rt (dict.get (py "tx_id")) ≠ []
  walletId : requiredText rt (dict.get (py "wallet_id")) ≠ []
  entryType : requiredText rt ((dict.get (py "entry_type")).or (dict.get (py "type"))) ≠ []
  amount : ∃ d, parseDecimal rt (dict.get (py "amount")) "amount" = .ok d
  amountSigned : ∃ d, parseOptionalDecimal rt (dict.get (py "amount_signed")) "amount_signed" =
    .ok d

/-- The fields of an order event that are read before its dates can be read. -/
structure OrderHead (rt : PyRuntime) (dict : PyDict) : Prop where
  orderId : requiredText rt (dict.get (py "order_id")) ≠ []
  status : requiredText rt (dict.get (py "status")) ≠ []
  amount : ∃ d, parseDecimal rt (dict.get (py "amount")) "amount" = .ok d

theorem map_some_ok {α : Type} {x : Except PyExc α} {a : Option α} (h : x.map some = .ok a) :
    ∃ b, x = .ok b ∧ a = some b := by
  cases x with
  | error exc => cases h
  | ok b =>
    cases h
    exact ⟨b, rfl, rfl⟩

theorem parseDecimal_ok {value : Json} {field : String} {d : Decimal} :
    parseDecimal rt value field = .ok d ↔ value ≠ .null ∧ rt.decimal (rt.str value) = some d := by
  unfold parseDecimal
  split
  · simp
  · next hnull =>
    rw [and_iff_right hnull]
    cases rt.decimal (rt.str value) <;> simp

theorem parseOptionalDecimal_of_ne {value : Json} (h : value ≠ .null) (field : String) :
    parseOptionalDecimal rt value field = (parseDecimal rt value field).map some := by
  cases value with
  | null => exact absurd rfl h
  | _ => rfl

theorem parseOptionalDatetime_of_ne {value : Json} (h : value ≠ .null) :
    parseOptionalDatetime rt value = (parseDatetime rt value "updated_at").map some := by
  cases value with
  | null => exact absurd rfl h
  | _ => rfl

theorem requireText_ok {field : String} {s : PyStr} {t : { s : PyStr // s ≠ [] }} :
    requireText field s = .ok t ↔ t.1 = s := by
  unfold requireText
  split
  · next h =>
    constructor
    · intro hok
      cases hok
    · intro heq
      exact absurd (heq.trans h) t.2
  · next h =>
    rw [Except.ok.injEq, Subtype.ext_iff]
    exact eq_comm

/-- The parser of ledger events with its intermediate values named. -/
theorem ledger_fromDict_eq (payload : PyDict) : LedgerEntryUpserted.fromDict rt payload = (do
    let txId ← requireText "tx_id" (requiredText rt (payload.get (py "tx_id")))
    let walletId ← requireText "wallet_id" (requiredText rt (payload.get (py "wallet_id")))
    let entryType ← requireText "entry_type"
      (requiredText rt ((payload.get (py "entry_type")).or (payload.get (py "type"))))
    let amount ← parseDecimal rt (payload.get (py "amount")) "amount"
    let amountSigned ←
      parseOptionalDecimal rt (payload.get (py "amount_signed")) "amount_signed"
    let eventTime ← parseDatetime rt (eventTimeValue payload) "event_time"
    let createdAt ← parseDatetime rt (createdValue payload) "created_at"
    let updatedAt ← parseOptionalDatetime rt (payload.get (py "updated_at"))
    let sourceVersion ← parseOptionalInt rt (versionValue payload)
    return {
      txId := txId.1
      walletId := walletId.1
      entryType := entryType.1
      amount, amountSigned
      relatedId := optionalText rt (payload.get (py "related_id"))
      relatedType := optionalText rt (payload.get (py "related_type"))
      eventTime, createdAt, updatedAt, sourceVersion
      txId_ne := txId.2
      walletId_ne := walletId.2
      entryType_ne := entryType.2 }) := by
  unfold LedgerEntryUpserted.fromDict parseOptionalDecimal
  cases payload.get (py "amount_signed") <;> rfl

theorem ledger_fromDict_ok {payload : PyDict} {event : LedgerEntryUpserted} :
    LedgerEntryUpserted.fromDict rt payload = .ok event ↔ LedgerFields rt payload event := by
  rw [ledger_fromDict_eq]
  constructor
  · intro h
    obtain ⟨txId, htx, h⟩ := bind_eq_ok.mp h
    obtain ⟨walletId, hwallet, h⟩ := bind_eq_ok.mp h
    obtain ⟨entryType, htype, h⟩ := bind_eq_ok.mp h
    obtain ⟨amount, hamount, h⟩ := bind_eq_ok.mp h
    obtain ⟨amountSigned, hsigned, h⟩ := bind_eq_ok.mp h
    obtain ⟨eventTime, htime, h⟩ := bind_eq_ok.mp h
    obtain ⟨createdAt, hcreated, h⟩ := bind_eq_ok.mp h
    obtain ⟨updatedAt, hupdated, h⟩ := bind_eq_ok.mp h
    obtain ⟨sourceVersion, hversion, h⟩ := bind_eq_ok.mp h
    cases h
    exact ⟨requireText_ok.mp htx, requireText_ok.mp hwallet, requireText_ok.mp htype, hamount,
      hsigned, rfl, rfl, htime, hcreated, hupdated, hversion⟩
  · intro h
    refine bind_eq_ok.mpr ⟨⟨event.txId, event.txId_ne⟩, requireText_ok.mpr h.txId, ?_⟩
    refine bind_eq_ok.mpr ⟨⟨event.walletId, event.walletId_ne⟩, requireText_ok.mpr h.walletId, ?_⟩
    refine bind_eq_ok.mpr ⟨⟨event.entryType, event.entryType_ne⟩,
      requireText_ok.mpr h.entryType, ?_⟩
    refine bind_eq_ok.mpr ⟨_, h.amount, ?_⟩
    refine bind_eq_ok.mpr ⟨_, h.amountSigned, ?_⟩
    refine bind_eq_ok.mpr ⟨_, h.eventTime, ?_⟩
    refine bind_eq_ok.mpr ⟨_, h.createdAt, ?_⟩
    refine bind_eq_ok.mpr ⟨_, h.updatedAt, ?_⟩
    refine bind_eq_ok.mpr ⟨_, h.sourceVersion, ?_⟩
    rw [← h.relatedId, ← h.relatedType]
    rfl

theorem order_fromDict_ok {payload : PyDict} {event : PaymentOrderUpserted} :
    PaymentOrderUpserted.fromDict rt payload = .ok event ↔ OrderFields rt payload event := by
  unfold PaymentOrderUpserted.fromDict
  constructor
  · intro h
    obtain ⟨orderId, hid, h⟩ := bind_eq_ok.mp h
    obtain ⟨status, hstatus, h⟩ := bind_eq_ok.mp h
    obtain ⟨amount, hamount, h⟩ := bind_eq_ok.mp h
    obtain ⟨createdAt, hcreated, h⟩ := bind_eq_ok.mp h
    obtain ⟨updatedAt, hupdated, h⟩ := bind_eq_ok.mp h
    obtain ⟨sourceVersion, hversion, h⟩ := bind_eq_ok.mp h
    cases h
    exact ⟨requireText_ok.mp hid, requireText_ok.mp hstatus, hamount, hcreated, hupdated, hversion,
      rfl, rfl⟩
  · intro h
    refine bind_eq_ok.mpr ⟨⟨event.orderId, event.orderId_ne⟩, requireText_ok.mpr h.orderId, ?_⟩
    refine bind_eq_ok.mpr ⟨⟨event.status, event.status_ne⟩, requireText_ok.mpr h.status, ?_⟩
    refine bind_eq_ok.mpr ⟨_, h.amount, ?_⟩
    refine bind_eq_ok.mpr ⟨_, h.createdAt, ?_⟩
    refine bind_eq_ok.mpr ⟨_, h.updatedAt, ?_⟩
    refine bind_eq_ok.mpr ⟨_, h.sourceVersion, ?_⟩
    rw [← h.userId, ← h.merchantName]
    rfl

/-! ## Normalisation, then parsing -/

/-- `normalize_payload_for_topic`, then the parser of the topic's kind. -/
def parsePayload (rt : PyRuntime) (profile : EventContractProfile) (topic : PyStr)
    (payload : PyDict) : Except PyExc Event := do
  let normalized ← normalizePayloadForTopic rt topic payload profile
  parseEvent rt normalized

/-- The consumer does this when no external call raises. -/
theorem handlePayload_none (config : AppConfig) (topic : PyStr) (payload : PyDict) :
    handlePayload rt config topic payload Faults.none =
      parsePayload rt config.profile topic payload := by
  unfold handlePayload parsePayload
  cases normalizePayloadForTopic rt topic payload config.profile with
  | error exc => rfl
  | ok normalized =>
    show (parseEvent rt normalized >>= fun event => Except.ok event) = parseEvent rt normalized
    cases parseEvent rt normalized <;> rfl

/-- What the parser of the kind is given, under the shipped profiles. -/
def normalizedPayload (kind : TopicKind) (payload : PyDict) : PyDict :=
  resolved payload (canonicalV1.aliasesFor kind)

/-- The shipped profiles let the payload through to the parser. -/
structure Normalizes (kind : TopicKind) (payload : PyDict) : Prop where
  agreed : Agreed payload (canonicalV1.aliasesFor kind)
  required : ¬ MissingRequired canonicalV1 kind payload

theorem canonicalV1_ledgerTopic :
    canonicalV1.topicKind (py "ledger.entry.upserted") = some .ledger := by
  decide +kernel

theorem canonicalV1_orderTopic :
    canonicalV1.topicKind (py "payment.order.upserted") = some .paymentOrder := by
  decide +kernel

theorem canonicalV1_nodup (kind : TopicKind) :
    (Assoc.keys (canonicalV1.aliasesFor kind)).Nodup := by
  cases kind <;> decide +kernel

section
variable {payload : PyDict} {kind : TopicKind}

theorem get_normalized (name : PyStr) : PyDict.get (normalizedPayload kind payload) name =
    (((canonicalV1.aliasesFor kind).lookup name).bind (firstNonblank payload)).getD
      (payload.get name) := by
  rw [PyDict.get, normalizedPayload, lookup_resolved (canonicalV1_nodup kind), resolvedLookup]
  cases ((canonicalV1.aliasesFor kind).lookup name).bind (firstNonblank payload) <;> rfl

theorem get_unaliased {name : PyStr} (h : (canonicalV1.aliasesFor kind).lookup name = none) :
    PyDict.get (normalizedPayload kind payload) name = payload.get name := by
  rw [get_normalized, h]
  rfl

theorem get_aliased {name : PyStr} {aliases : List PyStr}
    (h : (canonicalV1.aliasesFor kind).lookup name = some aliases) :
    PyDict.get (normalizedPayload kind payload) name =
      (firstNonblank payload aliases).getD (payload.get name) := by
  rw [get_normalized, h]
  rfl

theorem Normalizes.present (h : Normalizes kind payload) {required : PyStr}
    (hrequired : required ∈ canonicalV1.coreRequiredFor kind) :
    isMissing (PyDict.get (normalizedPayload kind payload) (requiredKey required)) = false := by
  rw [PyDict.get, normalizedPayload, lookup_resolved (canonicalV1_nodup kind)]
  by_contra hmissing
  exact h.required ⟨required, hrequired, by simpa using hmissing⟩

end

section
variable {profile : EventContractProfile} (hprofile : Shipped rt profile) {topic : PyStr}
  {kind : TopicKind} (htopic : profile.topicKind topic = some kind) {payload : PyDict}
include hprofile

theorem Shipped.aliasesFor (kind : TopicKind) :
    profile.aliasesFor kind = canonicalV1.aliasesFor kind := by
  cases kind with
  | ledger => exact congrArg AliasProfile.ledger hprofile.fields.1
  | paymentOrder => exact congrArg AliasProfile.paymentOrder hprofile.fields.1

theorem Shipped.coreRequiredFor (kind : TopicKind) :
    profile.coreRequiredFor kind = canonicalV1.coreRequiredFor kind := by
  cases kind with
  | ledger => exact congrArg CoreRequiredPolicy.ledger hprofile.fields.2
  | paymentOrder => exact congrArg CoreRequiredPolicy.paymentOrder hprofile.fields.2

theorem Shipped.missingRequired : MissingRequired profile kind payload ↔
    MissingRequired canonicalV1 kind payload := by
  unfold MissingRequired
  rw [hprofile.aliasesFor, hprofile.coreRequiredFor]

include htopic

theorem parsePayload_of_normalizes (h : Normalizes kind payload) :
    parsePayload rt profile topic payload =
      parseEvent rt ⟨normalizedPayload kind payload, kind, []⟩ := by
  have haliases := hprofile.aliasesFor kind
  obtain ⟨hits, hok⟩ := @normalize_ok rt _ _ _ payload htopic
    (haliases ▸ canonicalV1_nodup kind) (haliases ▸ h.agreed)
    (fun hmissing => h.required (hprofile.missingRequired.mp hmissing))
  rw [parsePayload, hok, haliases]
  rfl

theorem parsePayload_of_not_normalizes (h : ¬ Normalizes kind payload) : ∃ message,
    parsePayload rt profile topic payload = .error (.contractCoreViolation message) ∨
      parsePayload rt profile topic payload = .error (.eventValidation message) := by
  have haliases := hprofile.aliasesFor kind
  unfold parsePayload
  by_cases hagreed : Agreed payload (canonicalV1.aliasesFor kind)
  · have hmissing : MissingRequired profile kind payload := by
      by_contra hpresent
      exact h ⟨hagreed, fun hmissing => hpresent (hprofile.missingRequired.mpr hmissing)⟩
    obtain ⟨message, hmessage⟩ := @normalize_missing rt _ _ _ payload htopic
      (haliases ▸ canonicalV1_nodup kind) (haliases ▸ hagreed) hmissing
    rw [hmessage]
    exact ⟨message, .inr rfl⟩
  · obtain ⟨message, hmessage⟩ :=
      @normalize_conflict rt _ _ _ payload htopic (haliases ▸ hagreed)
    rw [hmessage]
    exact ⟨message, .inl rfl⟩

/-- A payload is accepted if it passes normalisation and every field can be read. -/
theorem parsePayload_ok {event : Event} : parsePayload rt profile topic payload = .ok event ↔
    Normalizes kind payload ∧
      parseEvent rt ⟨normalizedPayload kind payload, kind, []⟩ = .ok event := by
  by_cases h : Normalizes kind payload
  · rw [parsePayload_of_normalizes hprofile htopic h, and_iff_right h]
  · obtain ⟨message, hmessage | hmessage⟩ := parsePayload_of_not_normalizes hprofile htopic h
    · simp [hmessage, h]
    · simp [hmessage, h]

end

/-! ## The version chain -/

theorem truthy_of_ne_nil {s : PyStr} (h : s ≠ []) : (Json.str s).truthy = true := by
  cases s with
  | nil => exact absurd rfl h
  | cons c s => rfl

theorem truthy_normalizeValue {value : Json} (h : isMissing value = false) :
    (normalizeValue value).truthy = value.truthy := by
  cases value with
  | str s =>
    have hne : strip s ≠ [] := List.isEmpty_eq_false_iff.mp h
    have hs : s ≠ [] := by
      rintro rfl
      exact hne rfl
    rw [normalizeValue, truthy_of_ne_nil hne, truthy_of_ne_nil hs]
  | _ => rfl

theorem get_version (kind : TopicKind) (payload : PyDict) :
    PyDict.get (normalizedPayload kind payload) (py "version") =
      if isMissing (payload.get (py "version")) = true then
        if isMissing (payload.get (py "source_version")) = true then payload.get (py "version")
        else normalizeValue (payload.get (py "source_version"))
      else normalizeValue (payload.get (py "version")) := by
  have haliases : (canonicalV1.aliasesFor kind).lookup (py "version") =
      some [py "version", py "source_version"] := by
    cases kind <;> rfl
  rw [get_aliased haliases, firstNonblank_cons, firstNonblank_cons]
  split
  · split <;> rfl
  · rfl

theorem get_sourceVersion (kind : TopicKind) (payload : PyDict) :
    PyDict.get (normalizedPayload kind payload) (py "source_version") =
      payload.get (py "source_version") := by
  have haliases : (canonicalV1.aliasesFor kind).lookup (py "source_version") = none := by
    cases kind <;> rfl
  exact get_unaliased haliases

/-- Two values that are not blank agree. -/
theorem Normalizes.version_agrees {kind : TopicKind} {payload : PyDict}
    (h : Normalizes kind payload) (hversion : isMissing (payload.get (py "version")) = false)
    (hsource : isMissing (payload.get (py "source_version")) = false) :
    (normalizeValue (payload.get (py "source_version"))).pyEq
      (normalizeValue (payload.get (py "version"))) = true := by
  have hmem : (py "version", [py "version", py "source_version"]) ∈
      canonicalV1.aliasesFor kind := by
    cases kind <;> decide +kernel
  refine h.agreed _ hmem (py "version", normalizeValue (payload.get (py "version")))
    [(py "source_version", normalizeValue (payload.get (py "source_version")))] ?_ _
    List.mem_cons_self
  dsimp only
  rw [aliasCandidates_cons, if_neg (by simp [hversion]), aliasCandidates_cons,
    if_neg (by simp [hsource])]
  rfl

theorem parseOptionalInt_ok (hrt : rt.Exact) {value : Json} {n : Option Int}
    (h : parseOptionalInt rt value = .ok n) :
    (value = .null ∧ n = none) ∨ ∃ k, n = some k ∧ value.toInt = some k := by
  unfold parseOptionalInt at h
  split at h
  · cases h
    exact .inl ⟨rfl, rfl⟩
  · cases hint : rt.intOf value with
    | some k =>
      rw [hint] at h
      cases h
      exact .inr ⟨k, rfl, hrt.intOf hint⟩
    | none =>
      rw [hint] at h
      cases h

theorem parseOptionalInt_blank (hrt : rt.Exact) {s : PyStr} (hblank : strip s = [])
    {n : Option Int} : parseOptionalInt rt (.str s) ≠ .ok n := by
  intro hok
  rcases parseOptionalInt_ok hrt hok with ⟨heq, -⟩ | ⟨k, -, hk⟩
  · cases heq
  · rw [toInt_blank hblank] at hk
    cases hk

theorem parseEvent_ledger {payload : PyDict} {hits : List (PyStr × PyStr)} {event : Event} :
    parseEvent rt ⟨payload, .ledger, hits⟩ = .ok event ↔
      ∃ entry, event = .ledger entry ∧ LedgerFields rt payload entry := by
  unfold parseEvent
  dsimp only
  cases h : LedgerEntryUpserted.fromDict rt payload with
  | error exc =>
    simp only [← ledger_fromDict_ok, h]
    simp [Except.map]
  | ok entry =>
    simp only [← ledger_fromDict_ok, h, Except.map, Except.ok.injEq]
    exact ⟨fun heq => ⟨entry, heq.symm, rfl⟩, fun ⟨_, heq, hentry⟩ => hentry ▸ heq.symm⟩

theorem parseEvent_order {payload : PyDict} {hits : List (PyStr × PyStr)} {event : Event} :
    parseEvent rt ⟨payload, .paymentOrder, hits⟩ = .ok event ↔
      ∃ order, event = .order order ∧ OrderFields rt payload order := by
  unfold parseEvent
  dsimp only
  cases h : PaymentOrderUpserted.fromDict rt payload with
  | error exc =>
    simp only [← order_fromDict_ok, h]
    simp [Except.map]
  | ok order =>
    simp only [← order_fromDict_ok, h, Except.map, Except.ok.injEq]
    exact ⟨fun heq => ⟨order, heq.symm, rfl⟩, fun ⟨_, heq, horder⟩ => horder ▸ heq.symm⟩

/-! ## A sample -/

theorem sampleId_ne : py "po-1" ≠ [] := by decide +kernel

theorem samplePaid_ne : py "PAID" ≠ [] := by decide +kernel

/-- The event of an order without optional fields. -/
def acceptedOrder (amount : Decimal) : PaymentOrderUpserted where
  orderId := py "po-1"
  userId := none
  merchantName := none
  amount := amount
  status := py "PAID"
  createdAt := 1767225600000000
  updatedAt := none
  sourceVersion := none
  orderId_ne := sampleId_ne
  status_ne := samplePaid_ne

end TxLookup.Consumer
