import TxLookup.Consumer.Parsing

/-!
# The two times of a ledger event

`event_time` and `created_at` are read by two chains over the same three fields,
in different orders. The normaliser lets a payload through only if the non-blank
values of the three are one text, and a blank value that a chain stops at is no
date, so both chains read this text.
-/
namespace TxLookup.Consumer

open Library Library.PyText Db

/-- The names of an event's time, in the order of the profile. -/
def timeAliases : List PyStr := [py "event_time", py "source_created_at", py "created_at"]

section
variable {rt : PyRuntime} (hiso : rt.fromisoformat [] = none)
include hiso

/-- Only a text that is not blank is a date. -/
theorem parseDatetime_ok {value : Json} {field : String} {t : DateTime}
    (h : parseDatetime rt value field = .ok t) : ∃ s, value = .str s ∧ strip s ≠ [] := by
  cases value with
  | str s =>
    refine ⟨s, rfl, fun hblank => ?_⟩
    have hzulu : zuluOffset [] = [] := rfl
    rw [parseDatetime, hblank, hzulu, hiso] at h
    cases h
  | _ => cases h

end

/-- What is parsed is the trimmed text. -/
theorem parseDatetime_strip {rt : PyRuntime} {s s' : PyStr} (h : strip s = strip s')
    {field field' : String} {t : DateTime} (hok : parseDatetime rt (.str s) field = .ok t) :
    parseDatetime rt (.str s') field' = .ok t := by
  rw [parseDatetime] at hok ⊢
  rw [← h]
  cases hparsed : rt.fromisoformat (zuluOffset (strip s)) with
  | none =>
    rw [hparsed] at hok
    cases hok
  | some parsed =>
    rw [hparsed] at hok
    exact hok

section
variable {payload : PyDict}

theorem get_eventTime : PyDict.get (normalizedPayload .ledger payload) (py "event_time") =
    (firstNonblank payload timeAliases).getD (payload.get (py "event_time")) :=
  get_aliased (by rfl)

theorem get_sourceCreatedAt :
    PyDict.get (normalizedPayload .ledger payload) (py "source_created_at") =
      payload.get (py "source_created_at") :=
  get_unaliased (by rfl)

theorem get_createdAt : PyDict.get (normalizedPayload .ledger payload) (py "created_at") =
    payload.get (py "created_at") :=
  get_unaliased (by rfl)

/-- A value of the three that is a text and not blank is the resolved time. -/
theorem time_of_text (h : Normalizes .ledger payload) {name : PyStr} (hname : name ∈ timeAliases)
    {s : PyStr} (hs : payload.get name = .str s) (hne : strip s ≠ []) :
    PyDict.get (normalizedPayload .ledger payload) (py "event_time") = .str (strip s) := by
  have hagrees : GroupAgrees payload timeAliases :=
    h.agreed (py "event_time", timeAliases) (by decide +kernel)
  have hpresent : isMissing (payload.get name) = false := by
    rw [hs, isMissing, List.isEmpty_eq_false_iff]
    exact hne
  rw [get_eventTime]
  cases hfirst : firstNonblank payload timeAliases with
  | none =>
    rw [firstNonblank_none hfirst name hname] at hpresent
    cases hpresent
  | some value =>
    rw [Option.getD_some]
    have hvalue := hagrees.value hfirst hname hpresent
    rw [hs] at hvalue
    rcases hvalue with heq | heq
    · exact heq.symm
    · exact Json.pyEq_str.mp heq

/-- What a chain over the three stops at, if it is a text and not blank, is the
resolved time up to trimming. -/
theorem time_of_chain (h : Normalizes .ledger payload) {value : Json}
    (hvalue : value = PyDict.get (normalizedPayload .ledger payload) (py "event_time") ∨
      value = PyDict.get (normalizedPayload .ledger payload) (py "source_created_at") ∨
      value = PyDict.get (normalizedPayload .ledger payload) (py "created_at"))
    {s : PyStr} (hs : value = .str s) (hne : strip s ≠ []) :
    ∃ t, PyDict.get (normalizedPayload .ledger payload) (py "event_time") = .str t ∧
      strip s = strip t := by
  rw [get_sourceCreatedAt, get_createdAt] at hvalue
  rcases hvalue with hvalue | hvalue | hvalue
  · exact ⟨s, hvalue.symm.trans hs, rfl⟩
  · exact ⟨strip s, time_of_text h (by simp [timeAliases]) (hvalue.symm.trans hs) hne,
      (strip_strip s).symm⟩
  · exact ⟨strip s, time_of_text h (by simp [timeAliases]) (hvalue.symm.trans hs) hne,
      (strip_strip s).symm⟩

end

/-- The event's time and its creation time are the same instant. -/
theorem eventTime_eq_createdAt {rt : PyRuntime} (hiso : rt.fromisoformat [] = none)
    {profile : EventContractProfile} (hprofile : Shipped rt profile) {topic : PyStr}
    (htopic : profile.topicKind topic = some .ledger) {payload : PyDict}
    {entry : LedgerEntryUpserted}
    (hok : parsePayload rt profile topic payload = .ok (.ledger entry)) :
    entry.eventTime = entry.createdAt := by
  obtain ⟨hnormalizes, hevent⟩ := (parsePayload_ok hprofile htopic).mp hok
  obtain ⟨entry', heq, hfields⟩ := parseEvent_ledger.mp hevent
  cases heq
  obtain ⟨s, hs, hsne⟩ := parseDatetime_ok hiso hfields.eventTime
  obtain ⟨u, hu, hune⟩ := parseDatetime_ok hiso hfields.createdAt
  obtain ⟨t, ht, hst⟩ := time_of_chain hnormalizes (Json.or_or_eq _ _ _) hs hsne
  obtain ⟨t', ht', hut⟩ := time_of_chain hnormalizes
    (or_rotate.mpr (Json.or_or_eq _ _ _)) hu hune
  -- both chains stop at texts that trim to the resolved time
  have hsame : strip s = strip u := by
    cases ht.symm.trans ht'
    rw [hst, hut]
  have hevent := hfields.eventTime
  have hcreated := hfields.createdAt
  rw [hs] at hevent
  rw [hu, parseDatetime_strip hsame hevent] at hcreated
  exact Except.ok.inj hcreated

/-- An entry with its time under two names, in different spellings. -/
def twoTimesPayload : PyDict :=
  [(py "tx_id", .str (py "tx-1")), (py "wallet_id", .str (py "w1")),
    (py "entry_type", .str (py "PAYMENT")), (py "amount", .int 10),
    (py "event_time", .str (py "2026-01-01T00:00:00Z")),
    (py "created_at", .str (py " 2026-01-01T00:00:00Z "))]

theorem twoTimesPayload_agree : ∃ entry,
    parsePayload exactRuntime canonicalV1 (py "ledger.entry.upserted") twoTimesPayload =
      .ok (.ledger entry) ∧ entry.eventTime = entry.createdAt := by
  have hok : ∃ entry, parsePayload exactRuntime canonicalV1 (py "ledger.entry.upserted")
      twoTimesPayload = .ok (.ledger entry) := by
    refine ⟨⟨py "tx-1", py "w1", py "PAYMENT", .finite false 10 0, none, none, none,
      1767225600000000, 1767225600000000, none, none, ?_, ?_, ?_⟩, ?_⟩
    all_goals decide +kernel
  obtain ⟨entry, hentry⟩ := hok
  exact ⟨entry, hentry, eventTime_eq_createdAt (by decide +kernel)
    (shipped_canonicalV1 exactRuntime) canonicalV1_ledgerTopic hentry⟩

end TxLookup.Consumer
