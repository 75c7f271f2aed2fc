import TxLookup.Consumer.TimeChains

/-!
# Blank fields

The normaliser takes a blank text for an absent field and the parser does not
always: it stops at a text of blanks in an `or` chain, at an empty text where it
asks for `None` only, and keeps an empty optional text. The outcomes for a payload
with a blank field and without it are compared field by field.
-/
namespace TxLookup.Consumer

open Library Library.PyText Db

/-- The same event, or rejection in both cases. -/
def SameOutcome (x y : Except PyExc Event) : Prop := x.toOption = y.toOption

theorem sameOutcome_iff {x y : Except PyExc Event} :
    SameOutcome x y ↔ ∀ event, x = .ok event ↔ y = .ok event := by
  unfold SameOutcome
  cases x with
  | error exc =>
    cases y with
    | error exc' => simp [Except.toOption]
    | ok event => simp [Except.toOption]
  | ok event =>
    cases y with
    | error exc' => simp [Except.toOption]
    | ok event' =>
      simp only [Except.toOption, Option.some.injEq, Except.ok.injEq]
      exact ⟨fun h _ => by rw [h], fun h => ((h event).mp rfl).symm⟩

/-- Two parsers that never give the same, the second reading what the first reads,
agree if the second reads nothing. -/
theorem agree_iff_of_disjoint {α : Type} {A B : α → Prop} {noticed : Prop} (hnoticed : noticed)
    (hdisjoint : ∀ a, A a → ¬ B a) (hreads : ∀ a, A a → ∃ b, B b) :
    (∀ a, A a ↔ B a) ↔ ¬ ((∃ b, B b) ∧ noticed) := by
  constructor
  · intro h hparts
    obtain ⟨⟨b, hb⟩, -⟩ := hparts
    exact hdisjoint b ((h b).mpr hb) hb
  · intro h a
    exact iff_of_false (fun ha => h ⟨hreads a ha, hnoticed⟩) (fun hb => h ⟨⟨a, hb⟩, hnoticed⟩)

/-! ## The payload without the field -/

/-- `dict` and `dict'` are the same but for a blank that `dict` has and `dict'` has not. -/
structure BlankRemoved (field s : PyStr) (dict dict' : PyDict) : Prop where
  blank : strip s = []
  other : ∀ name, name ≠ field → dict'.get name = dict.get name
  removed : dict'.get field = dict.get field ∨ dict.get field = .str s ∧ dict'.get field = .null

section
variable {payload : PyDict} {field s : PyStr} {kind : TopicKind}

theorem get_erase (name : PyStr) : PyDict.get (Assoc.erase payload field) name =
    if name = field then .null else payload.get name := by
  rw [PyDict.get, Assoc.lookup_erase]
  by_cases h : name = field
  · rw [if_pos h, if_pos h]
    rfl
  · rw [if_neg h, if_neg h]
    rfl

variable (hfield : payload.get field = .str s) (hblank : strip s = [])
include hfield hblank

theorem isMissing_field : isMissing (payload.get field) = true := by
  rw [hfield, isMissing, hblank]
  rfl

theorem aliasCandidates_erase (aliases : List PyStr) :
    aliasCandidates (Assoc.erase payload field) aliases = aliasCandidates payload aliases := by
  refine List.filterMap_congr fun name _ => ?_
  dsimp only
  rw [get_erase]
  by_cases h : name = field
  · rw [if_pos h, h, if_pos (isMissing_field hfield hblank)]
    rfl
  · rw [if_neg h]

theorem firstNonblank_erase (aliases : List PyStr) :
    firstNonblank (Assoc.erase payload field) aliases = firstNonblank payload aliases := by
  rw [← head?_aliasCandidates, aliasCandidates_erase hfield hblank, head?_aliasCandidates]

theorem agreed_erase (fields : List (PyStr × List PyStr)) :
    Agreed (Assoc.erase payload field) fields ↔ Agreed payload fields := by
  unfold Agreed GroupAgrees
  simp only [aliasCandidates_erase hfield hblank]

theorem blankRemoved_normalized : BlankRemoved field s (normalizedPayload kind payload)
    (normalizedPayload kind (Assoc.erase payload field)) := by
  have hget : ∀ name, PyDict.get (normalizedPayload kind (Assoc.erase payload field)) name =
      (((canonicalV1.aliasesFor kind).lookup name).bind (firstNonblank payload)).getD
        (if name = field then .null else payload.get name) := by
    intro name
    rw [get_normalized, get_erase]
    congr 2
    exact funext (firstNonblank_erase hfield hblank)
  refine ⟨hblank, fun name hname => ?_, ?_⟩
  · rw [hget, get_normalized, if_neg hname]
  · rw [hget, get_normalized, if_pos rfl, hfield]
    cases ((canonicalV1.aliasesFor kind).lookup field).bind (firstNonblank payload) with
    | none => exact .inr ⟨rfl, rfl⟩
    | some value => exact .inl rfl

end

section
variable {field s : PyStr} {dict dict' : PyDict} (h : BlankRemoved field s dict dict')
include h

theorem BlankRemoved.get (name : PyStr) : dict'.get name = dict.get name ∨
    name = field ∧ dict.get name = .str s ∧ dict'.get name = .null := by
  by_cases hname : name = field
  · rw [hname]
    exact h.removed.imp_right (fun hremoved => ⟨rfl, hremoved⟩)
  · exact .inl (h.other name hname)

theorem BlankRemoved.isMissing (name : PyStr) :
    isMissing (dict'.get name) = isMissing (dict.get name) := by
  rcases h.get name with heq | ⟨-, hs, hnull⟩
  · rw [heq]
  · rw [hs, hnull]
    exact (List.isEmpty_iff.mpr h.blank).symm

/-- A value that is not blank is kept. -/
theorem BlankRemoved.present {name : PyStr} (hname : Consumer.isMissing (dict.get name) = false) :
    dict'.get name = dict.get name := by
  rcases h.get name with heq | ⟨-, hs, -⟩
  · exact heq
  · rw [hs, Consumer.isMissing, h.blank] at hname
    cases hname

end

section
variable {payload : PyDict} {field s : PyStr} {kind : TopicKind}
  (hfield : payload.get field = .str s) (hblank : strip s = [])
include hfield hblank

theorem missingRequired_erase : MissingRequired canonicalV1 kind (Assoc.erase payload field) ↔
    MissingRequired canonicalV1 kind payload := by
  have hget : ∀ (payload : PyDict) name,
      (resolvedLookup payload (canonicalV1.aliasesFor kind) name).getD .null =
        PyDict.get (normalizedPayload kind payload) name := by
    intro payload name
    rw [PyDict.get, normalizedPayload, lookup_resolved (canonicalV1_nodup kind)]
  unfold MissingRequired
  simp only [hget, (blankRemoved_normalized hfield hblank).isMissing]

theorem normalizes_erase :
    Normalizes kind (Assoc.erase payload field) ↔ Normalizes kind payload := by
  constructor
  · intro h
    exact ⟨(agreed_erase hfield hblank _).mp h.agreed,
      fun hmissing => h.required ((missingRequired_erase hfield hblank).mpr hmissing)⟩
  · intro h
    exact ⟨(agreed_erase hfield hblank _).mpr h.agreed,
      fun hmissing => h.required ((missingRequired_erase hfield hblank).mp hmissing)⟩

end

/-! ## What each field is read from -/

section
variable {rt : PyRuntime} {field s : PyStr} {dict dict' : PyDict}

theorem requiredText_blank {s : PyStr} (h : strip s = []) : requiredText rt (.str s) = [] := by
  unfold requiredText
  cases s with
  | nil => rfl
  | cons c s => exact h

/-- `str(a or b or "").strip()`, with `b` blank or absent. -/
theorem requiredText_or_blank (a : Json) {s : PyStr} (h : strip s = []) :
    requiredText rt (a.or (.str s)) = requiredText rt (a.or .null) := by
  cases ha : a.truthy with
  | true => rw [Json.or_of_truthy ha, Json.or_of_truthy ha]
  | false =>
    rw [Json.or_of_falsy ha, Json.or_of_falsy ha, requiredText_blank h]
    rfl

variable (h : BlankRemoved field s dict dict')
include h

theorem BlankRemoved.requiredText_type
    (htype : Consumer.isMissing (dict.get (py "entry_type")) = false) :
    requiredText rt ((dict'.get (py "entry_type")).or (dict'.get (py "type"))) =
      requiredText rt ((dict.get (py "entry_type")).or (dict.get (py "type"))) := by
  rw [h.present htype]
  rcases h.get (py "type") with heq | ⟨-, hs, hnull⟩
  · rw [heq]
  · rw [hs, hnull, requiredText_or_blank _ h.blank]

/-- The version chain stops at the blank. -/
def VersionStops (dict : PyDict) (field s : PyStr) : Prop :=
  (field = py "version" ∧ s ≠ [] ∧ dict.get (py "version") = .str s) ∨
    (field = py "source_version" ∧ (dict.get (py "version")).truthy = false)

theorem BlankRemoved.version_kept (hstops : ¬ VersionStops dict field s) :
    versionValue dict' = versionValue dict := by
  unfold versionValue
  rw [VersionStops, not_or] at hstops
  rcases h.get (py "version") with hversion | ⟨hname, hs, hnull⟩
  · rw [hversion]
    rcases h.get (py "source_version") with hsource | ⟨hname, -, -⟩
    · rw [hsource]
    · have htruthy : (dict.get (py "version")).truthy = true := by
        by_contra hfalsy
        exact hstops.2 ⟨hname.symm, Bool.eq_false_iff.mpr hfalsy⟩
      rw [Json.or_of_truthy htruthy, Json.or_of_truthy htruthy]
  · have hempty : s = [] := by
      by_contra hne
      exact hstops.1 ⟨hname.symm, hne, hs⟩
    have hsource : dict'.get (py "source_version") = dict.get (py "source_version") := by
      refine h.other _ (fun heq => ?_)
      rw [← hname] at heq
      exact absurd heq (by decide +kernel)
    rw [hs, hnull, hempty, hsource]
    rfl

/-- The chain of the creation time stops at the blank. -/
def CreatedStops (dict : PyDict) (field s : PyStr) : Prop :=
  s ≠ [] ∧ (field = py "source_created_at" ∨
    field = py "created_at" ∧ (dict.get (py "source_created_at")).truthy = false)

theorem BlankRemoved.created_kept
    (htime : Consumer.isMissing (dict.get (py "event_time")) = false)
    (hstops : ¬ CreatedStops dict field s) : createdValue dict' = createdValue dict := by
  unfold createdValue
  rw [h.present htime]
  rcases h.get (py "source_created_at") with hsource | ⟨hname, hs, hnull⟩
  · rw [hsource]
    rcases h.get (py "created_at") with hcreated | ⟨hname, hs, hnull⟩
    · rw [hcreated]
    · rw [hs, hnull]
      cases htruthy : (dict.get (py "source_created_at")).truthy with
      | true => rw [Json.or_of_truthy htruthy .null, Json.or_of_truthy htruthy (.str s)]
      | false =>
        have hempty : s = [] := by
          by_contra hne
          exact hstops ⟨hne, .inr ⟨hname.symm, htruthy⟩⟩
        rw [hempty, Json.or_of_falsy htruthy, Json.or_of_falsy htruthy]
        rfl
  · have hempty : s = [] := by
      by_contra hne
      exact hstops ⟨hne, .inl hname.symm⟩
    have hcreated : dict'.get (py "created_at") = dict.get (py "created_at") := by
      refine h.other _ (fun heq => ?_)
      rw [← hname] at heq
      exact absurd heq (by decide +kernel)
    rw [hs, hnull, hempty, hcreated]
    rfl

end

section
variable {rt : PyRuntime} (hiso : rt.fromisoformat [] = none) {payload : PyDict}

include hiso in
/-- A blank that a chain stops at is no date. -/
theorem parseDatetime_blank {s : PyStr} (hblank : strip s = []) {field : String} {t : DateTime} :
    parseDatetime rt (.str s) field ≠ .ok t := by
  intro hok
  obtain ⟨s', heq, hne⟩ := parseDatetime_ok hiso hok
  cases heq
  exact hne hblank

include hiso in
theorem eventTime_truthy (h : Normalizes .ledger payload) {field : String} {t : DateTime}
    (hok : parseDatetime rt (eventTimeValue (normalizedPayload .ledger payload)) field = .ok t) :
    (PyDict.get (normalizedPayload .ledger payload) (py "event_time")).truthy = true := by
  obtain ⟨s, hs, hne⟩ := parseDatetime_ok hiso hok
  obtain ⟨t, ht, hst⟩ := time_of_chain h (Json.or_or_eq _ _ _) hs hne
  rw [ht]
  refine truthy_of_ne_nil (fun hnil => hne ?_)
  rw [hst, hnil]
  rfl

theorem time_present (h : Normalizes .ledger payload) :
    isMissing (PyDict.get (normalizedPayload .ledger payload) (py "event_time")) = false := by
  have hrequired : py "event_time_or_alias" ∈ canonicalV1.coreRequiredFor .ledger := by
    decide +kernel
  exact h.present hrequired

theorem eventTimeValue_of_truthy {dict : PyDict}
    (h : (dict.get (py "event_time")).truthy = true) :
    eventTimeValue dict = dict.get (py "event_time") := by
  rw [eventTimeValue, Json.or_of_truthy h, Json.or_of_truthy h]

variable {field s : PyStr} (hfield : payload.get field = .str s) (hblank : strip s = [])
include hfield hblank

include hiso in
theorem eventTime_kept (h : Normalizes .ledger payload) {label : String} {t : DateTime} :
    parseDatetime rt (eventTimeValue (normalizedPayload .ledger payload)) label = .ok t ↔
      parseDatetime rt (eventTimeValue
        (normalizedPayload .ledger (Assoc.erase payload field))) label = .ok t := by
  have hpresent : isMissing (PyDict.get (normalizedPayload .ledger payload)
      (py "event_time")) = false := time_present h
  have hsame := (blankRemoved_normalized hfield hblank).present hpresent
  constructor
  · intro hok
    have htruthy := eventTime_truthy hiso h hok
    rw [eventTimeValue_of_truthy htruthy] at hok
    rw [eventTimeValue_of_truthy (hsame ▸ htruthy), hsame]
    exact hok
  · intro hok
    have htruthy := eventTime_truthy hiso ((normalizes_erase hfield hblank).mpr h) hok
    rw [eventTimeValue_of_truthy htruthy, hsame] at hok
    rw [eventTimeValue_of_truthy (hsame ▸ htruthy)]
    exact hok

end

/-! ## The fields the parser notices -/

/-- The version chain stops at the blank: under `version` unless another name gives
the version, under `source_version` where `version` is falsy. -/
def VersionNoticed (payload : PyDict) (field s : PyStr) : Prop :=
  (field = py "version" ∧ s ≠ [] ∧ isMissing (payload.get (py "source_version")) = true) ∨
    (field = py "source_version" ∧ (payload.get (py "version")).truthy = false)

/-- The fields of a ledger payload where the parser tells a blank from no value. -/
def LedgerNoticed (payload : PyDict) (field s : PyStr) : Prop :=
  field = py "related_id" ∨ field = py "related_type" ∨ field = py "amount_signed" ∨
    field = py "updated_at" ∨ CreatedStops payload field s ∨ VersionNoticed payload field s

def OrderNoticed (payload : PyDict) (field s : PyStr) : Prop :=
  field = py "user_id" ∨ field = py "merchant_name" ∨ field = py "updated_at" ∨
    VersionNoticed payload field s

section
variable {payload : PyDict} {field s : PyStr} (kind : TopicKind)
  (hfield : payload.get field = .str s) (hblank : strip s = [])
include hfield hblank

theorem versionStops_iff :
    VersionStops (normalizedPayload kind payload) field s ↔ VersionNoticed payload field s := by
  have hmissing := isMissing_field hfield hblank
  refine or_congr (and_congr_right fun hname => and_congr_right fun _ => ?_)
    (and_congr_right fun hname => ?_)
  · subst hname
    rw [get_version, if_pos hmissing]
    split
    · next hsource => exact iff_of_true hfield hsource
    · next hsource =>
      refine iff_of_false (fun heq => ?_) hsource
      rw [← isMissing_normalizeValue, heq, ← hfield] at hsource
      exact hsource hmissing
  · subst hname
    rw [get_version, if_pos hmissing]
    split
    · rfl
    · next hversion => rw [truthy_normalizeValue (Bool.eq_false_iff.mpr hversion)]

theorem versionValue_of_noticed (h : VersionNoticed payload field s) :
    versionValue (normalizedPayload kind payload) = .str s := by
  unfold versionValue
  rcases (versionStops_iff kind hfield hblank).mpr h with ⟨-, hne, hs⟩ | ⟨hname, hfalsy⟩
  · rw [hs, Json.or_of_truthy (truthy_of_ne_nil hne)]
  · rw [Json.or_of_falsy hfalsy, get_sourceVersion, ← hname, hfield]

end

/-! ## Ledger payloads -/

section
variable {rt : PyRuntime} {dict dict' : PyDict}

/-- The two dictionaries give the same event but for the relation. -/
structure LedgerSame (rt : PyRuntime) (dict dict' : PyDict) : Prop where
  txId : dict'.get (py "tx_id") = dict.get (py "tx_id")
  walletId : dict'.get (py "wallet_id") = dict.get (py "wallet_id")
  entryType : requiredText rt ((dict'.get (py "entry_type")).or (dict'.get (py "type"))) =
    requiredText rt ((dict.get (py "entry_type")).or (dict.get (py "type")))
  amount : dict'.get (py "amount") = dict.get (py "amount")
  amountSigned : dict'.get (py "amount_signed") = dict.get (py "amount_signed")
  eventTime : ∀ t, parseDatetime rt (eventTimeValue dict) "event_time" = .ok t ↔
    parseDatetime rt (eventTimeValue dict') "event_time" = .ok t
  createdAt : createdValue dict' = createdValue dict
  updatedAt : dict'.get (py "updated_at") = dict.get (py "updated_at")
  version : versionValue dict' = versionValue dict

theorem LedgerSame.symm (h : LedgerSame rt dict dict') : LedgerSame rt dict' dict :=
  ⟨h.txId.symm, h.walletId.symm, h.entryType.symm, h.amount.symm, h.amountSigned.symm,
    fun t => (h.eventTime t).symm, h.createdAt.symm, h.updatedAt.symm, h.version.symm⟩

theorem LedgerSame.fields (h : LedgerSame rt dict dict') {entry : LedgerEntryUpserted}
    (hentry : LedgerFields rt dict entry) : LedgerFields rt dict' { entry with
      relatedId := optionalText rt (dict'.get (py "related_id"))
      relatedType := optionalText rt (dict'.get (py "related_type")) } where
  txId := by rw [h.txId, ← hentry.txId]
  walletId := by rw [h.walletId, ← hentry.walletId]
  entryType := by rw [h.entryType, ← hentry.entryType]
  amount := by rw [h.amount, ← hentry.amount]
  amountSigned := by rw [h.amountSigned, ← hentry.amountSigned]
  relatedId := rfl
  relatedType := rfl
  eventTime := (h.eventTime _).mp hentry.eventTime
  createdAt := by rw [h.createdAt, ← hentry.createdAt]
  updatedAt := by rw [h.updatedAt, ← hentry.updatedAt]
  sourceVersion := by rw [h.version, ← hentry.sourceVersion]

theorem LedgerSame.fields_iff (h : LedgerSame rt dict dict')
    (hid : dict'.get (py "related_id") = dict.get (py "related_id"))
    (htype : dict'.get (py "related_type") = dict.get (py "related_type"))
    (entry : LedgerEntryUpserted) : LedgerFields rt dict entry ↔ LedgerFields rt dict' entry := by
  constructor
  · intro hentry
    have hother := h.fields hentry
    rw [hid, htype, ← hentry.relatedId, ← hentry.relatedType] at hother
    exact hother
  · intro hentry
    have hother := h.symm.fields hentry
    rw [← hid, ← htype, ← hentry.relatedId, ← hentry.relatedType] at hother
    exact hother

/-- Every field of a ledger event can be read. -/
structure LedgerReads (rt : PyRuntime) (dict : PyDict) : Prop extends LedgerHead rt dict where
  eventTime : ∃ t, parseDatetime rt (eventTimeValue dict) "event_time" = .ok t
  createdAt : ∃ t, parseDatetime rt (createdValue dict) "created_at" = .ok t
  updatedAt : ∃ t, parseOptionalDatetime rt (dict.get (py "updated_at")) = .ok t
  version : ∃ n, parseOptionalInt rt (versionValue dict) = .ok n

theorem ledgerReads_iff : LedgerReads rt dict ↔ ∃ entry, LedgerFields rt dict entry := by
  constructor
  · intro h
    obtain ⟨amount, hamount⟩ := h.amount
    obtain ⟨amountSigned, hsigned⟩ := h.amountSigned
    obtain ⟨eventTime, htime⟩ := h.eventTime
    obtain ⟨createdAt, hcreated⟩ := h.createdAt
    obtain ⟨updatedAt, hupdated⟩ := h.updatedAt
    obtain ⟨version, hversion⟩ := h.version
    exact ⟨⟨_, _, _, amount, amountSigned, _, _, eventTime, createdAt, updatedAt, version, h.txId,
      h.walletId, h.entryType⟩, rfl, rfl, rfl, hamount, hsigned, rfl, rfl, htime, hcreated,
      hupdated, hversion⟩
  · intro hparts
    obtain ⟨entry, h⟩ := hparts
    have hhead : LedgerHead rt dict :=
      ⟨h.txId ▸ entry.txId_ne, h.walletId ▸ entry.walletId_ne, h.entryType ▸ entry.entryType_ne,
        ⟨_, h.amount⟩, ⟨_, h.amountSigned⟩⟩
    exact ⟨hhead, ⟨_, h.eventTime⟩, ⟨_, h.createdAt⟩, ⟨_, h.updatedAt⟩, ⟨_, h.sourceVersion⟩⟩

variable (hrt : rt.Exact) (hiso : rt.fromisoformat [] = none) {s : PyStr} (hblank : strip s = [])
include hblank

include hrt in
theorem parseOptionalDecimal_blank {field : String} {d : Option Decimal} :
    parseOptionalDecimal rt (.str s) field ≠ .ok d := by
  intro hok
  obtain ⟨amount, hamount, -⟩ := map_some_ok hok
  have hdecimal : rt.decimal s = some amount := (parseDecimal_ok.mp hamount).2
  rw [hrt.decimal_blank hblank] at hdecimal
  cases hdecimal

include hiso in
theorem parseOptionalDatetime_blank {t : Option DateTime} :
    parseOptionalDatetime rt (.str s) ≠ .ok t := by
  intro hok
  obtain ⟨t, ht, -⟩ := map_some_ok hok
  exact parseDatetime_blank hiso hblank ht

end

section
variable {rt : PyRuntime} (hrt : rt.Exact) (hiso : rt.fromisoformat [] = none) {payload : PyDict}
  {field s : PyStr} (hfield : payload.get field = .str s) (hblank : strip s = [])
include hfield hblank

/-- The blank makes a ledger payload unreadable. -/
def LedgerRejects (payload : PyDict) (field s : PyStr) : Prop :=
  field = py "amount_signed" ∨ field = py "updated_at" ∨ CreatedStops payload field s ∨
    VersionNoticed payload field s

include hrt hiso in
theorem not_ledgerFields (h : LedgerRejects payload field s) (entry : LedgerEntryUpserted) :
    ¬ LedgerFields rt (normalizedPayload .ledger payload) entry := by
  intro hentry
  rcases h with rfl | rfl | ⟨hne, hstops⟩ | hversion
  · have hget : PyDict.get (normalizedPayload .ledger payload) (py "amount_signed") = .str s :=
      (get_unaliased (by rfl)).trans hfield
    exact parseOptionalDecimal_blank hrt hblank (hget ▸ hentry.amountSigned)
  · have hget : PyDict.get (normalizedPayload .ledger payload) (py "updated_at") = .str s :=
      (get_unaliased (by rfl)).trans hfield
    exact parseOptionalDatetime_blank hiso hblank (hget ▸ hentry.updatedAt)
  · have hcreated : createdValue (normalizedPayload .ledger payload) = .str s := by
      rw [createdValue, get_sourceCreatedAt, get_createdAt]
      rcases hstops with rfl | ⟨rfl, hfalsy⟩
      · rw [hfield, Json.or_of_truthy (truthy_of_ne_nil hne),
          Json.or_of_truthy (truthy_of_ne_nil hne)]
      · rw [Json.or_of_falsy hfalsy, hfield, Json.or_of_truthy (truthy_of_ne_nil hne)]
    exact parseDatetime_blank hiso hblank (hcreated ▸ hentry.createdAt)
  · have hvalue := versionValue_of_noticed .ledger hfield hblank hversion
    exact parseOptionalInt_blank hrt hblank (hvalue ▸ hentry.sourceVersion)

include hiso in
theorem ledgerSame (hnormalizes : Normalizes .ledger payload)
    (h : ¬ LedgerRejects payload field s) :
    LedgerSame rt (normalizedPayload .ledger payload)
      (normalizedPayload .ledger (Assoc.erase payload field)) := by
  simp only [LedgerRejects, not_or] at h
  obtain ⟨hsigned, hupdated, hcreated, hversion⟩ := h
  have hremoved := @blankRemoved_normalized payload field s .ledger hfield hblank
  have htxId : py "tx_id" ∈ canonicalV1.coreRequiredFor .ledger := by decide +kernel
  have hwallet : py "wallet_id" ∈ canonicalV1.coreRequiredFor .ledger := by decide +kernel
  have htype : py "entry_type" ∈ canonicalV1.coreRequiredFor .ledger := by decide +kernel
  have hamount : py "amount" ∈ canonicalV1.coreRequiredFor .ledger := by decide +kernel
  refine ⟨hremoved.present (hnormalizes.present htxId),
    hremoved.present (hnormalizes.present hwallet),
    hremoved.requiredText_type (hnormalizes.present htype),
    hremoved.present (hnormalizes.present hamount), hremoved.other _ (Ne.symm hsigned),
    fun t => eventTime_kept hiso hfield hblank hnormalizes,
    hremoved.created_kept (time_present hnormalizes) ?_, hremoved.other _ (Ne.symm hupdated),
    hremoved.version_kept ?_⟩
  · unfold CreatedStops at hcreated ⊢
    rw [get_sourceCreatedAt]
    exact hcreated
  · rw [versionStops_iff .ledger hfield hblank]
    exact hversion

include hrt hiso in
theorem ledger_blank_iff (hnormalizes : Normalizes .ledger payload) :
    (∀ entry, LedgerFields rt (normalizedPayload .ledger payload) entry ↔
      LedgerFields rt (normalizedPayload .ledger (Assoc.erase payload field)) entry) ↔
    ¬ (LedgerReads rt (normalizedPayload .ledger (Assoc.erase payload field)) ∧
      LedgerNoticed payload field s) := by
  have hremoved := @blankRemoved_normalized payload field s .ledger hfield hblank
  rw [ledgerReads_iff]
  by_cases hrejects : LedgerRejects payload field s
  · have hnone := not_ledgerFields hrt hiso hfield hblank hrejects
    exact agree_iff_of_disjoint (.inr (.inr hrejects)) (fun entry h => absurd h (hnone entry))
      (fun entry h => absurd h (hnone entry))
  · have hsame := ledgerSame hiso hfield hblank hnormalizes hrejects
    by_cases hrelated : field = py "related_id" ∨ field = py "related_type"
    · refine agree_iff_of_disjoint (or_assoc.mp (.inl hrelated)) (fun entry h herased => ?_)
        (fun entry h => ⟨_, hsame.fields h⟩)
      have hnull := @get_erase payload field field
      rw [if_pos rfl] at hnull
      rcases hrelated with rfl | rfl
      · have hid := h.relatedId
        rw [herased.relatedId, get_unaliased (by rfl), get_unaliased (by rfl), hnull, hfield] at hid
        cases hid
      · have htype := h.relatedType
        rw [herased.relatedType, get_unaliased (by rfl), get_unaliased (by rfl), hnull,
          hfield] at htype
        cases htype
    · rw [not_or] at hrelated
      have hunnoticed : ¬ LedgerNoticed payload field s := by
        intro hparts
        rcases hparts with hid | htype | hother
        · exact hrelated.1 hid
        · exact hrelated.2 htype
        · exact hrejects hother
      refine iff_of_true (hsame.fields_iff (hremoved.other _ (Ne.symm hrelated.1))
        (hremoved.other _ (Ne.symm hrelated.2))) (fun h => hunnoticed h.2)

end

/-! ## Order payloads -/

section
variable {rt : PyRuntime} {dict dict' : PyDict}

/-- The two dictionaries give the same event but for the user and the merchant. -/
structure OrderSame (dict dict' : PyDict) : Prop where
  orderId : dict'.get (py "order_id") = dict.get (py "order_id")
  status : dict'.get (py "status") = dict.get (py "status")
  amount : dict'.get (py "amount") = dict.get (py "amount")
  createdAt : dict'.get (py "created_at") = dict.get (py "created_at")
  updatedAt : dict'.get (py "updated_at") = dict.get (py "updated_at")
  version : versionValue dict' = versionValue dict

theorem OrderSame.symm (h : OrderSame dict dict') : OrderSame dict' dict :=
  ⟨h.orderId.symm, h.status.symm, h.amount.symm, h.createdAt.symm, h.updatedAt.symm,
    h.version.symm⟩

theorem OrderSame.fields (h : OrderSame dict dict') {order : PaymentOrderUpserted}
    (horder : OrderFields rt dict order) : OrderFields rt dict' { order with
      userId := optionalText rt (dict'.get (py "user_id"))
      merchantName := optionalText rt (dict'.get (py "merchant_name")) } where
  orderId := by rw [h.orderId, ← horder.orderId]
  status := by rw [h.status, ← horder.status]
  amount := by rw [h.amount, ← horder.amount]
  createdAt := by rw [h.createdAt, ← horder.createdAt]
  updatedAt := by rw [h.updatedAt, ← horder.updatedAt]
  sourceVersion := by rw [h.version, ← horder.sourceVersion]
  userId := rfl
  merchantName := rfl

theorem OrderSame.fields_iff (h : OrderSame dict dict')
    (huser : dict'.get (py "user_id") = dict.get (py "user_id"))
    (hmerchant : dict'.get (py "merchant_name") = dict.get (py "merchant_name"))
    (order : PaymentOrderUpserted) : OrderFields rt dict order ↔ OrderFields rt dict' order := by
  constructor
  · intro horder
    have hother := h.fields horder
    rw [huser, hmerchant, ← horder.userId, ← horder.merchantName] at hother
    exact hother
  · intro horder
    have hother := h.symm.fields horder
    rw [← huser, ← hmerchant, ← horder.userId, ← horder.merchantName] at hother
    exact hother

/-- Every field of an order event can be read. -/
structure OrderReads (rt : PyRuntime) (dict : PyDict) : Prop extends OrderHead rt dict where
  createdAt : ∃ t, parseDatetime rt (dict.get (py "created_at")) "created_at" = .ok t
  updatedAt : ∃ t, parseOptionalDatetime rt (dict.get (py "updated_at")) = .ok t
  version : ∃ n, parseOptionalInt rt (versionValue dict) = .ok n

theorem orderReads_iff : OrderReads rt dict ↔ ∃ order, OrderFields rt dict order := by
  constructor
  · intro h
    obtain ⟨amount, hamount⟩ := h.amount
    obtain ⟨createdAt, hcreated⟩ := h.createdAt
    obtain ⟨updatedAt, hupdated⟩ := h.updatedAt
    obtain ⟨version, hversion⟩ := h.version
    exact ⟨⟨_, _, _, amount, _, createdAt, updatedAt, version, h.orderId, h.status⟩, rfl, rfl,
      hamount, hcreated, hupdated, hversion, rfl, rfl⟩
  · intro hparts
    obtain ⟨order, h⟩ := hparts
    have hhead : OrderHead rt dict :=
      ⟨h.orderId ▸ order.orderId_ne, h.status ▸ order.status_ne, ⟨_, h.amount⟩⟩
    exact ⟨hhead, ⟨_, h.createdAt⟩, ⟨_, h.updatedAt⟩, ⟨_, h.sourceVersion⟩⟩

end

section
variable {rt : PyRuntime} (hrt : rt.Exact) (hiso : rt.fromisoformat [] = none) {payload : PyDict}
  {field s : PyStr} (hfield : payload.get field = .str s) (hblank : strip s = [])
include hfield hblank

/-- The blank makes an order payload unreadable. -/
def OrderRejects (payload : PyDict) (field s : PyStr) : Prop :=
  field = py "updated_at" ∨ VersionNoticed payload field s

include hrt hiso in
theorem not_orderFields (h : OrderRejects payload field s) (order : PaymentOrderUpserted) :
    ¬ OrderFields rt (normalizedPayload .paymentOrder payload) order := by
  intro horder
  rcases h with rfl | hversion
  · have hget : PyDict.get (normalizedPayload .paymentOrder payload) (py "updated_at") = .str s :=
      (get_unaliased (by rfl)).trans hfield
    exact parseOptionalDatetime_blank hiso hblank (hget ▸ horder.updatedAt)
  · have hvalue := versionValue_of_noticed .paymentOrder hfield hblank hversion
    exact parseOptionalInt_blank hrt hblank (hvalue ▸ horder.sourceVersion)

theorem orderSame (hnormalizes : Normalizes .paymentOrder payload)
    (h : ¬ OrderRejects payload field s) :
    OrderSame (normalizedPayload .paymentOrder payload)
      (normalizedPayload .paymentOrder (Assoc.erase payload field)) := by
  rw [OrderRejects, not_or] at h
  obtain ⟨hupdated, hversion⟩ := h
  have hremoved := @blankRemoved_normalized payload field s .paymentOrder hfield hblank
  have hid : py "order_id" ∈ canonicalV1.coreRequiredFor .paymentOrder := by decide +kernel
  have hstatus : py "status" ∈ canonicalV1.coreRequiredFor .paymentOrder := by decide +kernel
  have hamount : py "amount" ∈ canonicalV1.coreRequiredFor .paymentOrder := by decide +kernel
  have hcreated : py "created_at" ∈ canonicalV1.coreRequiredFor .paymentOrder := by
    decide +kernel
  refine ⟨hremoved.present (hnormalizes.present hid),
    hremoved.present (hnormalizes.present hstatus),
    hremoved.present (hnormalizes.present hamount),
    hremoved.present (hnormalizes.present hcreated), hremoved.other _ (Ne.symm hupdated),
    hremoved.version_kept ?_⟩
  rw [versionStops_iff .paymentOrder hfield hblank]
  exact hversion

include hrt hiso in
theorem order_blank_iff (hnormalizes : Normalizes .paymentOrder payload) :
    (∀ order, OrderFields rt (normalizedPayload .paymentOrder payload) order ↔
      OrderFields rt (normalizedPayload .paymentOrder (Assoc.erase payload field)) order) ↔
    ¬ (OrderReads rt (normalizedPayload .paymentOrder (Assoc.erase payload field)) ∧
      OrderNoticed payload field s) := by
  have hremoved := @blankRemoved_normalized payload field s .paymentOrder hfield hblank
  rw [orderReads_iff]
  by_cases hrejects : OrderRejects payload field s
  · have hnone := not_orderFields hrt hiso hfield hblank hrejects
    exact agree_iff_of_disjoint (.inr (.inr hrejects)) (fun order h => absurd h (hnone order))
      (fun order h => absurd h (hnone order))
  · have hsame := orderSame hfield hblank hnormalizes hrejects
    by_cases hnamed : field = py "user_id" ∨ field = py "merchant_name"
    · refine agree_iff_of_disjoint (or_assoc.mp (.inl hnamed)) (fun order h herased => ?_)
        (fun order h => ⟨_, hsame.fields h⟩)
      have hnull := @get_erase payload field field
      rw [if_pos rfl] at hnull
      rcases hnamed with rfl | rfl
      · have huser := h.userId
        rw [herased.userId, get_unaliased (by rfl), get_unaliased (by rfl), hnull, hfield] at huser
        cases huser
      · have hmerchant := h.merchantName
        rw [herased.merchantName, get_unaliased (by rfl), get_unaliased (by rfl), hnull,
          hfield] at hmerchant
        cases hmerchant
    · rw [not_or] at hnamed
      have hunnoticed : ¬ OrderNoticed payload field s := by
        intro hparts
        rcases hparts with huser | hmerchant | hother
        · exact hnamed.1 huser
        · exact hnamed.2 hmerchant
        · exact hrejects hother
      refine iff_of_true (hsame.fields_iff (hremoved.other _ (Ne.symm hnamed.1))
        (hremoved.other _ (Ne.symm hnamed.2))) (fun h => hunnoticed h.2)

end

/-! ## The outcome -/

/-- The parser tells a blank text `s` under `field` from no value. -/
def Noticed : TopicKind → PyDict → PyStr → PyStr → Prop
  | .ledger => LedgerNoticed
  | .paymentOrder => OrderNoticed

/-- A payload that passes normalisation and whose fields can all be read. -/
def Readable (rt : PyRuntime) (kind : TopicKind) (payload : PyDict) : Prop :=
  Normalizes kind payload ∧
    match kind with
    | .ledger => LedgerReads rt (normalizedPayload .ledger payload)
    | .paymentOrder => OrderReads rt (normalizedPayload .paymentOrder payload)

/-- These are the payloads accepted under a shipped profile. -/
theorem readable_iff_accepted {rt : PyRuntime} {profile : EventContractProfile}
    (hprofile : Shipped rt profile) {topic : PyStr} {kind : TopicKind}
    (htopic : profile.topicKind topic = some kind) {payload : PyDict} :
    Readable rt kind payload ↔ ∃ event, parsePayload rt profile topic payload = .ok event := by
  simp only [parsePayload_ok hprofile htopic, exists_and_left, Readable]
  refine and_congr_right fun _ => ?_
  cases kind with
  | ledger => simp only [parseEvent_ledger, ledgerReads_iff, exists_comm, exists_eq_left]
  | paymentOrder => simp only [parseEvent_order, orderReads_iff, exists_comm, exists_eq_left]

/-- A blank text under `field` has the outcome of no value if and only if the parser
does not notice it or the payload is rejected without the field too. -/
theorem blank_sameOutcome_iff {rt : PyRuntime} (hrt : rt.Exact) (hiso : rt.fromisoformat [] = none)
    {profile : EventContractProfile} (hprofile : Shipped rt profile) {topic : PyStr}
    {kind : TopicKind} (htopic : profile.topicKind topic = some kind) {payload : PyDict}
    {field s : PyStr} (hfield : payload.get field = .str s) (hblank : strip s = []) :
    SameOutcome (parsePayload rt profile topic payload)
        (parsePayload rt profile topic (Assoc.erase payload field)) ↔
      ¬ (Readable rt kind (Assoc.erase payload field) ∧ Noticed kind payload field s) := by
  have hnormalizes := @normalizes_erase payload field s kind hfield hblank
  simp only [sameOutcome_iff, parsePayload_ok hprofile htopic, hnormalizes]
  unfold Readable
  rw [hnormalizes]
  by_cases h : Normalizes kind payload
  · simp only [h, true_and]
    cases kind with
    | ledger =>
      simp only [parseEvent_ledger]
      refine Iff.trans ⟨fun hsame entry => ?_, fun hsame event => ?_⟩
        (ledger_blank_iff hrt hiso hfield hblank h)
      · have hentry := hsame (.ledger entry)
        simpa using hentry
      · exact exists_congr fun entry => and_congr_right fun _ => hsame entry
    | paymentOrder =>
      simp only [parseEvent_order]
      refine Iff.trans ⟨fun hsame order => ?_, fun hsame event => ?_⟩
        (order_blank_iff hrt hiso hfield hblank h)
      · have horder := hsame (.order order)
        simpa using horder
      · exact exists_congr fun order => and_congr_right fun _ => hsame order
  · simp [h]

/-- An order with an empty time of its last update. -/
def blankUpdatePayload : PyDict :=
  [(py "order_id", .str (py "po-1")), (py "amount", .int 10), (py "status", .str (py "PAID")),
    (py "created_at", .str (py "2026-01-01T00:00:00Z")), (py "updated_at", .str [])]

theorem blankUpdate_sameOutcome_iff :
    SameOutcome (parsePayload exactRuntime canonicalV1 (py "payment.order.upserted")
        blankUpdatePayload)
      (parsePayload exactRuntime canonicalV1 (py "payment.order.upserted")
        (Assoc.erase blankUpdatePayload (py "updated_at"))) ↔
      ¬ (Readable exactRuntime .paymentOrder
          (Assoc.erase blankUpdatePayload (py "updated_at")) ∧
        Noticed .paymentOrder blankUpdatePayload (py "updated_at") []) :=
  blank_sameOutcome_iff exactRuntime_exact (by decide +kernel)
    (shipped_canonicalV1 exactRuntime) canonicalV1_orderTopic (by rfl) (by rfl)

/-- The order is rejected, and accepted without the empty text. -/
theorem blankUpdate_not_absent : ¬ ∀ (rt : PyRuntime) (profile : EventContractProfile)
    (topic : PyStr) (kind : TopicKind) (payload : PyDict) (field s : PyStr),
    rt.Exact → rt.fromisoformat [] = none → Shipped rt profile →
    profile.topicKind topic = some kind → payload.get field = .str s → strip s = [] →
    SameOutcome (parsePayload rt profile topic payload)
      (parsePayload rt profile topic (Assoc.erase payload field)) := by
  intro h
  have hsame := h exactRuntime canonicalV1 (py "payment.order.upserted") .paymentOrder
    blankUpdatePayload (py "updated_at") [] exactRuntime_exact (by decide +kernel)
    (shipped_canonicalV1 exactRuntime) canonicalV1_orderTopic (by rfl) (by rfl)
  revert hsame
  unfold SameOutcome
  decide +kernel

end TxLookup.Consumer
