import TxLookup.Consumer.Parsing

/-!
# Version metadata

A number under `version` or `source_version` goes through the alias resolution, an
`or` chain and `int`. The chain loses a zero, and `int` the fraction. An event
without a version and a time of update counts as unversioned; the chain drops every
falsy version, so the payload may hold one all the same.
-/
namespace TxLookup.Consumer

open Library Library.PyText Db

/-- A JSON number. -/
def IsNumber : Json → Prop
  | .int _ | .float _ => True
  | _ => False

theorem IsNumber.number {n : Json} (h : IsNumber n) : ∃ x, n.number = some x := by
  cases n with
  | int n => exact ⟨_, rfl⟩
  | float x => exact ⟨_, rfl⟩
  | _ => cases h

theorem IsNumber.present {n : Json} (h : IsNumber n) : isMissing n = false := by
  cases n with
  | int _ | float _ => rfl
  | _ => cases h

theorem IsNumber.normalizeValue {n : Json} (h : IsNumber n) : normalizeValue n = n := by
  cases n with
  | int _ | float _ => rfl
  | _ => cases h

/-- What equals a number is no text, so trimming leaves it. -/
theorem normalizeValue_of_pyEq {n value : Json} (hn : IsNumber n)
    (h : n.pyEq (normalizeValue value) = true) : normalizeValue value = value := by
  cases value with
  | str s =>
    cases Json.pyEq_str_right.mp h
    cases hn
  | _ => rfl

/-- The payload carries `n` under one of the two names. -/
def Carries (payload : PyDict) (n : Json) : Prop :=
  payload.get (py "version") = n ∨ payload.get (py "source_version") = n

/-- A falsy version that no value under `source_version` repeats. -/
def FalsyVersion (payload : PyDict) : Prop :=
  (payload.get (py "version")).truthy = false ∧ payload.get (py "source_version") = .null

/-! ## The value that is converted -/

section
variable {kind : TopicKind} {payload : PyDict}

theorem truthy_version (h : payload.get (py "source_version") = .null) :
    (PyDict.get (normalizedPayload kind payload) (py "version")).truthy =
      (payload.get (py "version")).truthy := by
  rw [get_version, h]
  split
  · rfl
  · next hversion => exact truthy_normalizeValue (Bool.eq_false_iff.mpr hversion)

theorem versionValue_eq_null :
    versionValue (normalizedPayload kind payload) = .null ↔ FalsyVersion payload := by
  unfold versionValue FalsyVersion
  rw [get_sourceVersion]
  constructor
  · intro h
    cases hversion : (PyDict.get (normalizedPayload kind payload) (py "version")).truthy with
    | true =>
      rw [Json.or_of_truthy hversion] at h
      rw [h] at hversion
      cases hversion
    | false =>
      rw [Json.or_of_falsy hversion] at h
      exact ⟨truthy_version h ▸ hversion, h⟩
  · intro hparts
    obtain ⟨hversion, hsource⟩ := hparts
    rw [Json.or_of_falsy ((truthy_version hsource).trans hversion), hsource]

/-- What becomes of a carried number: it is lost, it reaches the conversion as it is
or as an equal number, or a blank does in its place. -/
theorem versionValue_of_carried (h : Normalizes kind payload) {n : Json} (hn : IsNumber n)
    (hcarries : Carries payload n) :
    FalsyVersion payload ∨
      (∃ s, strip s = [] ∧ versionValue (normalizedPayload kind payload) = .str s) ∨
      versionValue (normalizedPayload kind payload) = n ∨
      n.pyEq (versionValue (normalizedPayload kind payload)) = true := by
  have hpresent := hn.present
  have hsame := hn.normalizeValue
  unfold versionValue
  rw [get_version, get_sourceVersion]
  rcases hcarries with hversion | hsource
  · rw [hversion, hpresent, if_neg Bool.false_ne_true, hsame]
    cases htruthy : n.truthy with
    | true => exact .inr (.inr (.inl (Json.or_of_truthy htruthy _)))
    | false =>
      rw [Json.or_of_falsy htruthy]
      cases hsource : isMissing (payload.get (py "source_version")) with
      | true =>
        cases hvalue : payload.get (py "source_version") with
        | null => exact .inl ⟨by rw [hversion, htruthy], hvalue⟩
        | str s =>
          rw [hvalue] at hsource
          exact .inr (.inl ⟨s, List.isEmpty_iff.mp hsource, rfl⟩)
        | _ =>
          rw [hvalue] at hsource
          cases hsource
      | false =>
        have hagrees := h.version_agrees (hversion ▸ hpresent) hsource
        rw [hversion, hsame] at hagrees
        obtain ⟨x, hx⟩ := hn.number
        have heq := Json.pyEq_number_right hx hagrees
        rw [normalizeValue_of_pyEq hn heq] at heq
        exact .inr (.inr (.inr heq))
  · rw [hsource, hpresent, if_neg Bool.false_ne_true, hsame]
    cases hversion : isMissing (payload.get (py "version")) with
    | true =>
      rw [if_pos rfl]
      exact .inr (.inr ((Json.or_eq n n).elim .inl .inl))
    | false =>
      have hagrees := h.version_agrees hversion (hsource ▸ hpresent)
      rw [hsource, hsame] at hagrees
      rw [if_neg Bool.false_ne_true]
      rcases Json.or_eq (normalizeValue (payload.get (py "version"))) n with heq | heq
      · rw [heq]
        exact .inr (.inr (.inr hagrees))
      · exact .inr (.inr (.inl heq))

end

/-! ## The event -/

/-- The flag `upsert_ledger_entry` or `upsert_payment_order` returns. -/
def missingVersion (env : Surroundings) (db : Database) : Event → Bool
  | .ledger entry => (upsertLedgerEntry env entry db).2.1
  | .order payment => (upsertPaymentOrder env payment db).2

theorem missingVersion_eq (env : Surroundings) (db : Database) (event : Event) :
    missingVersion env db event = (event.updatedAt.isNone && event.sourceVersion.isNone) := by
  cases event with
  | ledger entry =>
    unfold missingVersion upsertLedgerEntry
    dsimp only
    cases pairingTarget entry <;> rfl
  | order order => rfl

section
variable {rt : PyRuntime}

theorem parseEvent_stamps {dict : PyDict} {kind : TopicKind} {hits : List (PyStr × PyStr)}
    {event : Event} (h : parseEvent rt ⟨dict, kind, hits⟩ = .ok event) :
    parseOptionalDatetime rt (dict.get (py "updated_at")) = .ok event.updatedAt ∧
      parseOptionalInt rt (versionValue dict) = .ok event.sourceVersion := by
  cases kind with
  | ledger =>
    obtain ⟨entry, rfl, hfields⟩ := parseEvent_ledger.mp h
    exact ⟨hfields.updatedAt, hfields.sourceVersion⟩
  | paymentOrder =>
    obtain ⟨order, rfl, hfields⟩ := parseEvent_order.mp h
    exact ⟨hfields.updatedAt, hfields.sourceVersion⟩

theorem parseOptionalDatetime_none {value : Json} {t : Option DateTime}
    (h : parseOptionalDatetime rt value = .ok t) : t = none ↔ value = .null := by
  by_cases hnull : value = .null
  · rw [hnull] at h
    cases h
    exact iff_of_true rfl hnull
  · rw [parseOptionalDatetime_of_ne hnull] at h
    obtain ⟨b, -, rfl⟩ := map_some_ok h
    exact iff_of_false (fun hnone => by cases hnone) hnull

/-- The version metadata of the payload is in the event: a number is its version, and
the flag is raised only without any metadata. -/
structure VersionSurvives (payload : PyDict) (event : Event) : Prop where
  carried : ∀ n, IsNumber n → Carries payload n →
    ∃ k, event.sourceVersion = some k ∧ (Json.int k).pyEq n = true
  flag : ∀ env db, missingVersion env db event = true →
    isMissing (payload.get (py "updated_at")) = true ∧
      isMissing (payload.get (py "version")) = true ∧
      isMissing (payload.get (py "source_version")) = true

/-- Every number carried is whole, and no falsy version is lost: neither a zero nor,
without a time of update, any other. -/
structure VersionKept (payload : PyDict) : Prop where
  whole : ∀ n, IsNumber n → Carries payload n → ∃ k, (Json.int k).pyEq n = true
  zero : FalsyVersion payload → ¬ IsNumber (payload.get (py "version"))
  falsy : FalsyVersion payload → payload.get (py "updated_at") = .null →
    isMissing (payload.get (py "version")) = true

variable (hrt : rt.Exact) {profile : EventContractProfile} (hprofile : Shipped rt profile)
  {topic : PyStr} {kind : TopicKind} (htopic : profile.topicKind topic = some kind)
  {payload : PyDict} {event : Event} (hok : parsePayload rt profile topic payload = .ok event)
include hrt hprofile htopic hok

/-- An event has no version if and only if the chain ends in `None`. -/
theorem sourceVersion_eq_none : event.sourceVersion = none ↔ FalsyVersion payload := by
  obtain ⟨hnormalizes, hevent⟩ := (parsePayload_ok hprofile htopic).mp hok
  rw [← @versionValue_eq_null kind]
  rcases parseOptionalInt_ok hrt (parseEvent_stamps hevent).2 with ⟨hnull, hnone⟩ | ⟨k, hk, hint⟩
  · exact iff_of_true hnone hnull
  · refine iff_of_false (fun hnone => ?_) (fun hnull => ?_)
    · rw [hnone] at hk
      cases hk
    · rw [hnull] at hint
      cases hint

omit hrt in
theorem flag_iff (env : Surroundings) (db : Database) : missingVersion env db event = true ↔
    payload.get (py "updated_at") = .null ∧ event.sourceVersion = none := by
  obtain ⟨hnormalizes, hevent⟩ := (parsePayload_ok hprofile htopic).mp hok
  have hunaliased : (canonicalV1.aliasesFor kind).lookup (py "updated_at") = none := by
    cases kind <;> rfl
  have hupdated := parseOptionalDatetime_none (parseEvent_stamps hevent).1
  rw [get_unaliased hunaliased] at hupdated
  rw [missingVersion_eq, Bool.and_eq_true, Option.isNone_iff_eq_none, Option.isNone_iff_eq_none,
    hupdated]

theorem carried_iff {n : Json} (hn : IsNumber n) (hcarries : Carries payload n) :
    (∃ k, event.sourceVersion = some k ∧ (Json.int k).pyEq n = true) ↔
      (∃ k, (Json.int k).pyEq n = true) ∧ ¬ FalsyVersion payload := by
  obtain ⟨hnormalizes, hevent⟩ := (parsePayload_ok hprofile htopic).mp hok
  have hread := (parseEvent_stamps hevent).2
  rw [← sourceVersion_eq_none hrt hprofile htopic hok]
  constructor
  · intro hparts
    obtain ⟨k, hk, heq⟩ := hparts
    exact ⟨⟨k, heq⟩, by simp [hk]⟩
  · intro hparts
    obtain ⟨⟨k, heq⟩, hsome⟩ := hparts
    refine ⟨k, ?_, heq⟩
    rcases parseOptionalInt_ok hrt hread with ⟨-, hnone⟩ | ⟨k', hk', hint⟩
    · exact absurd hnone hsome
    · rw [hk', ← hint]
      rcases versionValue_of_carried hnormalizes hn hcarries with hlost | ⟨s, hblank, hs⟩ | hsame
      · exact absurd ((sourceVersion_eq_none hrt hprofile htopic hok).mpr hlost) hsome
      · rw [hs] at hread
        exact absurd hread (parseOptionalInt_blank hrt hblank)
      · refine toInt_of_pyEq ?_
        rcases hsame with hsame | hsame
        · rw [hsame]
          exact heq
        · exact Json.pyEq_trans heq hsame

/-- The metadata of an accepted payload survives if and only if every number is whole
and no falsy version is lost. -/
theorem versionSurvives_iff : VersionSurvives payload event ↔ VersionKept payload := by
  have hnone := sourceVersion_eq_none hrt hprofile htopic hok
  constructor
  · intro h
    refine ⟨fun n hn hcarries => ?_, fun hfalsy hn => ?_, fun hfalsy hupdated => ?_⟩
    · obtain ⟨k, -, heq⟩ := h.carried n hn hcarries
      exact ⟨k, heq⟩
    · obtain ⟨k, hk, -⟩ := h.carried _ hn (.inl rfl)
      rw [hnone.mpr hfalsy] at hk
      cases hk
    · have hraised := (flag_iff hprofile htopic hok (.still 0) Database.empty).mpr
        ⟨hupdated, hnone.mpr hfalsy⟩
      exact (h.flag _ _ hraised).2.1
  · intro h
    refine ⟨fun n hn hcarries => ?_, fun env db hraised => ?_⟩
    · refine (carried_iff hrt hprofile htopic hok hn hcarries).mpr
        ⟨h.whole n hn hcarries, fun hfalsy => ?_⟩
      rcases hcarries with hversion | hsource
      · exact h.zero hfalsy (hversion ▸ hn)
      · rw [hfalsy.2] at hsource
        rw [← hsource] at hn
        cases hn
    · obtain ⟨hupdated, hversion⟩ := (flag_iff hprofile htopic hok env db).mp hraised
      have hfalsy := hnone.mp hversion
      refine ⟨?_, h.falsy hfalsy hupdated, ?_⟩
      · rw [hupdated]
        rfl
      · rw [hfalsy.2]
        rfl

end

/-- An order whose version is a zero. -/
def zeroVersionPayload : PyDict :=
  [(py "order_id", .str (py "po-1")), (py "amount", .int 10), (py "status", .str (py "PAID")),
    (py "created_at", .str (py "2026-01-01T00:00:00Z")), (py "version", .int 0)]

theorem parse_zeroVersion : parsePayload exactRuntime canonicalV1 (py "payment.order.upserted")
    zeroVersionPayload = .ok (.order (acceptedOrder (.finite false 10 0))) := by
  decide +kernel

theorem zeroVersion_survives_iff :
    VersionSurvives zeroVersionPayload (.order (acceptedOrder (.finite false 10 0))) ↔
      VersionKept zeroVersionPayload :=
  versionSurvives_iff exactRuntime_exact (shipped_canonicalV1 exactRuntime)
    canonicalV1_orderTopic parse_zeroVersion

/-- The zero is lost: the event has no version, and counts as unversioned. -/
theorem zeroVersion_lost : ¬ ∀ (rt : PyRuntime) (profile : EventContractProfile) (topic : PyStr)
    (kind : TopicKind) (payload : PyDict) (event : Event), rt.Exact → Shipped rt profile →
    profile.topicKind topic = some kind → parsePayload rt profile topic payload = .ok event →
    VersionSurvives payload event := by
  intro h
  have hsurvives := h exactRuntime canonicalV1 (py "payment.order.upserted") .paymentOrder
    zeroVersionPayload (.order (acceptedOrder (.finite false 10 0))) exactRuntime_exact
    (shipped_canonicalV1 exactRuntime) canonicalV1_orderTopic parse_zeroVersion
  obtain ⟨k, hk, -⟩ := hsurvives.carried (.int 0) trivial (.inl (by rfl))
  cases hk

end TxLookup.Consumer
