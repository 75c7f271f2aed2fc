import TxLookup.Consumer.ContractProfile
import TxLookup.Consumer.Offsets
import TxLookup.Library.PyEq

/-!
# What normalisation does

A payload is the one it was, updated with the first non-blank alias of every
canonical field. Aliases are compared with the first only, which is enough
because Python's equality is an equivalence; a group's own canonical name is
among its aliases, so a value under it is never overwritten by another.
-/
namespace TxLookup.Consumer

open Library Library.PyText Common

/-! ## The values of a group -/

/-- Two non-blank values of the group differ after trimming. -/
def GroupConflict (payload : PyDict) (aliases : List PyStr) : Prop :=
  ∃ a ∈ aliases, ∃ b ∈ aliases, isMissing (payload.get a) = false ∧
    isMissing (payload.get b) = false ∧
    (normalizeValue (payload.get a)).pyEq (normalizeValue (payload.get b)) = false

/-- The trimmed value of the first alias in declared order that is not blank. -/
def firstNonblank (payload : PyDict) (aliases : List PyStr) : Option Json :=
  (aliases.find? (fun name => !isMissing (payload.get name))).map
    (fun name => normalizeValue (payload.get name))

theorem normalizeValue_normalizeValue (value : Json) :
    normalizeValue (normalizeValue value) = normalizeValue value := by
  cases value with
  | str s => exact congrArg Json.str (strip_strip s)
  | _ => rfl

theorem isMissing_normalizeValue (value : Json) :
    isMissing (normalizeValue value) = isMissing value := by
  cases value with
  | str s => exact congrArg List.isEmpty (strip_strip s)
  | _ => rfl

theorem proper_normalizeValue {value : Json} (h : value.Proper) :
    (normalizeValue value).Proper := by
  cases value with
  | str s => trivial
  | _ => exact h

theorem proper_get {payload : PyDict} (h : (Json.obj payload).Proper) (name : PyStr) :
    (payload.get name).Proper := by
  unfold PyDict.get
  cases hvalue : payload.lookup name with
  | none => trivial
  | some value => exact Json.properFields_iff.mp h.2 _ (Assoc.mem_of_lookup hvalue)

section
variable {payload : PyDict} {aliases : List PyStr}

theorem mem_aliasCandidates {candidate : PyStr × Json} :
    candidate ∈ aliasCandidates payload aliases ↔
    ∃ name ∈ aliases, isMissing (payload.get name) = false ∧
      candidate = (name, normalizeValue (payload.get name)) := by
  rw [aliasCandidates, List.mem_filterMap]
  refine exists_congr fun name => and_congr_right fun _ => ?_
  dsimp only
  split
  · next h => simp [h]
  · next h =>
    rw [Option.some.injEq, and_iff_right (Bool.not_eq_true _ ▸ h)]
    exact eq_comm

theorem firstNonblank_cons (name : PyStr) (aliases : List PyStr) :
    firstNonblank payload (name :: aliases) =
      if isMissing (payload.get name) = true then firstNonblank payload aliases
      else some (normalizeValue (payload.get name)) := by
  rw [firstNonblank, List.find?_cons]
  cases isMissing (payload.get name) <;> rfl

theorem aliasCandidates_cons (name : PyStr) (aliases : List PyStr) :
    aliasCandidates payload (name :: aliases) =
      if isMissing (payload.get name) = true then aliasCandidates payload aliases
      else (name, normalizeValue (payload.get name)) :: aliasCandidates payload aliases := by
  rw [aliasCandidates, List.filterMap_cons]
  dsimp only
  cases isMissing (payload.get name) <;> rfl

theorem head?_aliasCandidates : (aliasCandidates payload aliases).head?.map Prod.snd =
    firstNonblank payload aliases := by
  induction aliases with
  | nil => rfl
  | cons name aliases ih =>
    rw [aliasCandidates_cons, firstNonblank_cons]
    split
    · exact ih
    · rfl

variable (rt : PyRuntime) (canonicalKey profileId : PyStr) (topicKind : TopicKind)

/-- Every value of the group equals the first. -/
def GroupAgrees (payload : PyDict) (aliases : List PyStr) : Prop :=
  ∀ first rest, aliasCandidates payload aliases = first :: rest →
    ∀ other ∈ rest, other.2.pyEq first.2 = true

/-- Then the first candidate is returned. -/
theorem resolveAliasValue_ok (h : GroupAgrees payload aliases) :
    resolveAliasValue rt payload aliases canonicalKey topicKind profileId =
      .ok (aliasCandidates payload aliases).head? := by
  unfold resolveAliasValue
  cases hcandidates : aliasCandidates payload aliases with
  | nil => rfl
  | cons first rest =>
    have hnone : rest.find? (fun other => !other.2.pyEq first.2) = none := by
      rw [List.find?_eq_none]
      intro other hother
      rw [h first rest hcandidates other hother]
      decide
    dsimp only
    rw [hnone, List.head?_cons]

/-- Else some candidate differs from the first. -/
theorem resolveAliasValue_error (h : ¬ GroupAgrees payload aliases) : ∃ message,
    resolveAliasValue rt payload aliases canonicalKey topicKind profileId =
      .error (.contractCoreViolation message) := by
  unfold resolveAliasValue
  cases hcandidates : aliasCandidates payload aliases with
  | nil => exact absurd (fun first rest hcons => by rw [hcandidates] at hcons; cases hcons) h
  | cons first rest =>
    dsimp only
    cases hfind : rest.find? (fun other => !other.2.pyEq first.2) with
    | some other => exact ⟨_, rfl⟩
    | none =>
      refine absurd (fun first' rest' hcons other hother => ?_) h
      rw [hcandidates] at hcons
      cases hcons
      simpa using List.find?_eq_none.mp hfind other hother

theorem groupAgrees_of_not_conflict (h : ¬ GroupConflict payload aliases) :
    GroupAgrees payload aliases := by
  intro first rest hcandidates other hother
  have hmem : ∀ c ∈ first :: rest, c ∈ aliasCandidates payload aliases :=
    fun c hc => hcandidates ▸ hc
  obtain ⟨a, ha, hva, rfl⟩ := mem_aliasCandidates.mp (hmem other (List.mem_cons_of_mem _ hother))
  obtain ⟨b, hb, hvb, rfl⟩ := mem_aliasCandidates.mp (hmem first List.mem_cons_self)
  by_contra hne
  exact h ⟨a, ha, b, hb, hva, hvb, Bool.eq_false_iff.mpr hne⟩

theorem groupAgrees_iff (hpayload : (Json.obj payload).Proper) :
    GroupAgrees payload aliases ↔ ¬ GroupConflict payload aliases := by
  refine ⟨?_, groupAgrees_of_not_conflict⟩
  rintro h ⟨a, ha, b, hb, hva, hvb, hne⟩
  have hproper : ∀ name, (normalizeValue (payload.get name)).Proper :=
    fun name => proper_normalizeValue (proper_get hpayload name)
  have hmem : ∀ name ∈ aliases, isMissing (payload.get name) = false →
      (name, normalizeValue (payload.get name)) ∈ aliasCandidates payload aliases :=
    fun name hname hvalue => mem_aliasCandidates.mpr ⟨name, hname, hvalue, rfl⟩
  cases hcandidates : aliasCandidates payload aliases with
  | nil => exact absurd (hmem a ha hva) (hcandidates ▸ List.not_mem_nil)
  | cons first rest =>
    -- all candidates equal the first, so they equal each other
    have hfirst : first.2.Proper := by
      obtain ⟨name, -, -, rfl⟩ := mem_aliasCandidates.mp (hcandidates ▸ List.mem_cons_self)
      exact hproper name
    have hall : ∀ c ∈ first :: rest, c.2.pyEq first.2 = true := by
      intro c hc
      rcases List.mem_cons.mp hc with rfl | hc
      · exact Json.pyEq_refl hfirst
      · exact h first rest hcandidates c hc
    have heqa := hall _ (hcandidates ▸ hmem a ha hva)
    have heqb := hall _ (hcandidates ▸ hmem b hb hvb)
    have heq := Json.pyEq_trans heqa (Json.pyEq_symm (hproper b) hfirst heqb)
    rw [hne] at heq
    cases heq

end

/-! ## All groups -/

/-- Some group has a conflict. -/
def Conflict (payload : PyDict) (fields : List (PyStr × List PyStr)) : Prop :=
  ∃ field ∈ fields, GroupConflict payload field.2

/-- In every group each value equals the first. -/
def Agreed (payload : PyDict) (fields : List (PyStr × List PyStr)) : Prop :=
  ∀ field ∈ fields, GroupAgrees payload field.2

theorem agreed_of_not_conflict {payload : PyDict} {fields : List (PyStr × List PyStr)}
    (h : ¬ Conflict payload fields) : Agreed payload fields :=
  fun field hfield => groupAgrees_of_not_conflict fun hc => h ⟨field, hfield, hc⟩

theorem not_agreed_of_conflict {payload : PyDict} {fields : List (PyStr × List PyStr)}
    (hpayload : (Json.obj payload).Proper) (h : Conflict payload fields) :
    ¬ Agreed payload fields := by
  obtain ⟨field, hfield, hc⟩ := h
  exact fun hagreed => (groupAgrees_iff hpayload).mp (hagreed field hfield) hc

/-- What is written: the value of each canonical name that has one. -/
def resolvedFields (payload : PyDict) (fields : List (PyStr × List PyStr)) : PyDict :=
  fields.filterMap (fun field =>
    (firstNonblank payload field.2).map (fun value => (field.1, value)))

/-- What a name stands for after resolution. -/
def resolvedLookup (payload : PyDict) (fields : List (PyStr × List PyStr)) (name : PyStr) :
    Option Json :=
  ((fields.lookup name).bind (firstNonblank payload)).or (payload.lookup name)

/-- The name a required field stands for. -/
def requiredKey (required : PyStr) : PyStr :=
  if required = eventTimeRequiredSentinel then py "event_time" else required

section
variable {payload : PyDict} {fields : List (PyStr × List PyStr)} {rt : PyRuntime}

theorem keys_resolvedFields_sublist :
    (Assoc.keys (resolvedFields payload fields)).Sublist (Assoc.keys fields) := by
  induction fields with
  | nil => exact .slnil
  | cons field fields ih =>
    rw [resolvedFields, List.filterMap_cons]
    cases firstNonblank payload field.2 with
    | none => exact ih.cons _
    | some value => exact ih.cons_cons _

theorem lookup_resolvedFields (h : (Assoc.keys fields).Nodup) (name : PyStr) :
    (resolvedFields payload fields).lookup name =
      (fields.lookup name).bind (firstNonblank payload) := by
  induction fields with
  | nil => rfl
  | cons field fields ih =>
    rw [Assoc.keys, List.map_cons, List.nodup_cons] at h
    rw [resolvedFields, List.filterMap_cons, ← resolvedFields, Assoc.lookup_cons]
    by_cases hname : name = field.1
    · have hnone : fields.lookup name = none := Assoc.lookup_eq_none_iff.mpr (hname ▸ h.1)
      have hrest := ih h.2
      rw [hnone, Option.bind_none] at hrest
      rw [if_pos hname, Option.bind_some]
      cases firstNonblank payload field.2 with
      | none => exact hrest
      | some value => exact (Assoc.lookup_cons _ _ _).trans (if_pos hname)
    · rw [if_neg hname, ← ih h.2]
      cases firstNonblank payload field.2 with
      | none => rfl
      | some value => exact (Assoc.lookup_cons _ _ _).trans (if_neg hname)

/-- The loop over the groups updates the payload with the resolved fields. -/
theorem normalizeField_loop (topicKind : TopicKind) (profileId : PyStr)
    (h : Agreed payload fields) (acc : PyDict × List (PyStr × PyStr)) :
    ∃ hits, fields.foldlM (normalizeField rt payload topicKind profileId) acc =
      .ok (Assoc.update acc.1 (resolvedFields payload fields), hits) := by
  induction fields generalizing acc with
  | nil => exact ⟨acc.2, rfl⟩
  | cons field fields ih =>
    obtain ⟨hgroup, hrest⟩ := List.forall_mem_cons.mp h
    have hfirst := @head?_aliasCandidates payload field.2
    rw [List.foldlM_cons, normalizeField, resolveAliasValue_ok rt _ _ _ hgroup, resolvedFields,
      List.filterMap_cons]
    cases hhead : (aliasCandidates payload field.2).head? with
    | none =>
      rw [hhead] at hfirst
      rw [← hfirst]
      exact ih hrest acc
    | some candidate =>
      rw [hhead] at hfirst
      rw [← hfirst]
      exact ih hrest _

theorem normalizeField_raises (topicKind : TopicKind) (profileId : PyStr)
    (h : ¬ Agreed payload fields) (acc : PyDict × List (PyStr × PyStr)) : ∃ message,
      fields.foldlM (normalizeField rt payload topicKind profileId) acc =
        .error (.contractCoreViolation message) := by
  simp only [Agreed, not_forall] at h
  obtain ⟨field, hfield, hgroup⟩ := h
  have hraise : ∀ acc, ∃ exc,
      normalizeField rt payload topicKind profileId acc field = .error exc := by
    intro acc
    obtain ⟨message, hmessage⟩ := resolveAliasValue_error rt field.1 profileId topicKind hgroup
    exact ⟨_, by rw [normalizeField, hmessage]; rfl⟩
  obtain ⟨exc, hexc, other, -, acc', hother⟩ := foldlM_of_error hfield hraise acc
  by_cases hc : GroupAgrees payload other.2
  · rw [normalizeField, resolveAliasValue_ok rt _ _ _ hc] at hother
    cases hhead : (aliasCandidates payload other.2).head? with
    | none =>
      rw [hhead] at hother
      cases hother
    | some candidate =>
      rw [hhead] at hother
      cases hother
  · obtain ⟨message, hmessage⟩ := resolveAliasValue_error rt other.1 profileId topicKind hc
    rw [normalizeField, hmessage] at hother
    cases hother
    exact ⟨message, hexc⟩

/-- The payload after resolution. -/
def resolved (payload : PyDict) (fields : List (PyStr × List PyStr)) : PyDict :=
  Assoc.update payload (resolvedFields payload fields)

theorem lookup_resolved (h : (Assoc.keys fields).Nodup) (name : PyStr) :
    (resolved payload fields).lookup name = resolvedLookup payload fields name := by
  rw [resolved, Assoc.lookup_update (keys_resolvedFields_sublist.nodup h),
    lookup_resolvedFields h, resolvedLookup]

end

/-! ## The outcome for a subscribed topic -/

section
variable {rt : PyRuntime} {profile : EventContractProfile} {topic : PyStr} {topicKind : TopicKind}
  {payload : PyDict}

/-- The required fields that are absent or blank after resolution. -/
def MissingRequired (profile : EventContractProfile) (topicKind : TopicKind) (payload : PyDict) :
    Prop :=
  ∃ required ∈ profile.coreRequiredFor topicKind, isMissing
    ((resolvedLookup payload (profile.aliasesFor topicKind)
      (requiredKey required)).getD .null) = true

theorem normalize_conflict (htopic : profile.topicKind topic = some topicKind)
    (h : ¬ Agreed payload (profile.aliasesFor topicKind)) : ∃ message,
      normalizePayloadForTopic rt topic payload profile =
        .error (.contractCoreViolation message) := by
  obtain ⟨message, hloop⟩ :=
    @normalizeField_raises payload _ rt topicKind profile.profileId h (payload, [])
  rw [normalizePayloadForTopic, htopic]
  dsimp only
  rw [hloop]
  exact ⟨message, rfl⟩

theorem missingCoreFields_eq_nil_iff (hnodup : (Assoc.keys (profile.aliasesFor topicKind)).Nodup) :
    missingCoreFields (resolved payload (profile.aliasesFor topicKind))
      (profile.coreRequiredFor topicKind) = [] ↔ ¬ MissingRequired profile topicKind payload := by
  have hget : ∀ name, PyDict.get (resolved payload (profile.aliasesFor topicKind)) name =
      (resolvedLookup payload (profile.aliasesFor topicKind) name).getD .null := by
    intro name
    rw [PyDict.get, lookup_resolved hnodup]
  rw [missingCoreFields, List.filter_eq_nil_iff, MissingRequired, not_exists]
  refine forall_congr' fun required => ?_
  rw [not_and]
  show _ → ¬ isMissing (PyDict.get _ (requiredKey required)) = true ↔ _
  rw [hget]

theorem normalize_missing (htopic : profile.topicKind topic = some topicKind)
    (hnodup : (Assoc.keys (profile.aliasesFor topicKind)).Nodup)
    (h : Agreed payload (profile.aliasesFor topicKind))
    (hmissing : MissingRequired profile topicKind payload) : ∃ message,
      normalizePayloadForTopic rt topic payload profile = .error (.eventValidation message) := by
  obtain ⟨hits, hloop⟩ :=
    @normalizeField_loop payload _ rt topicKind profile.profileId h (payload, [])
  rw [normalizePayloadForTopic, htopic]
  dsimp only
  rw [hloop]
  have hfields : missingCoreFields (resolved payload (profile.aliasesFor topicKind))
      (profile.coreRequiredFor topicKind) ≠ [] :=
    fun hnil => (missingCoreFields_eq_nil_iff hnodup).mp hnil hmissing
  obtain ⟨field, fields, hcons⟩ := List.exists_cons_of_ne_nil hfields
  unfold resolved at hcons
  simp only [bind, Except.bind, validateCoreRequired, hcons]
  exact ⟨_, rfl⟩

theorem normalize_ok (htopic : profile.topicKind topic = some topicKind)
    (hnodup : (Assoc.keys (profile.aliasesFor topicKind)).Nodup)
    (h : Agreed payload (profile.aliasesFor topicKind))
    (hmissing : ¬ MissingRequired profile topicKind payload) : ∃ hits,
      normalizePayloadForTopic rt topic payload profile =
        .ok ⟨resolved payload (profile.aliasesFor topicKind), topicKind, hits⟩ := by
  obtain ⟨hits, hloop⟩ :=
    @normalizeField_loop payload _ rt topicKind profile.profileId h (payload, [])
  have hnil := (missingCoreFields_eq_nil_iff hnodup).mpr hmissing
  unfold resolved at hnil
  rw [normalizePayloadForTopic, htopic]
  dsimp only
  rw [hloop]
  simp only [bind, Except.bind, validateCoreRequired, hnil]
  exact ⟨hits, rfl⟩

end

/-! ## A second normalisation -/

/-- No name occurs in two groups. -/
def GroupsDisjoint (fields : List (PyStr × List PyStr)) : Prop :=
  ∀ field ∈ fields, ∀ other ∈ fields, field.1 ≠ other.1 → ∀ name ∈ field.2, name ∉ other.2

section
variable {payload : PyDict} {fields : List (PyStr × List PyStr)}

/-- The first non-blank value of a group stays the first when it is written under
one of the names. -/
theorem firstNonblank_stable {payload' : PyDict} {canonical : PyStr} {value : Json}
    (hcanonical : payload'.get canonical = value) (hvalue : isMissing value = false)
    (htrimmed : normalizeValue value = value) {aliases : List PyStr}
    (hother : ∀ name ∈ aliases, name ≠ canonical → payload'.get name = payload.get name)
    (h : firstNonblank payload aliases = some value) :
    firstNonblank payload' aliases = some value := by
  induction aliases with
  | nil => cases h
  | cons name aliases ih =>
    obtain ⟨hname, hrest⟩ := List.forall_mem_cons.mp hother
    rw [firstNonblank_cons] at h ⊢
    by_cases hown : name = canonical
    · rw [hown, hcanonical, hvalue, htrimmed]
      rfl
    · rw [hname hown]
      split at h
      · next hmissing =>
        rw [if_pos hmissing]
        exact ih hrest h
      · next hpresent =>
        rw [if_neg hpresent]
        exact h

theorem firstNonblank_some {aliases : List PyStr} {value : Json}
    (h : firstNonblank payload aliases = some value) :
    ∃ name ∈ aliases, isMissing (payload.get name) = false ∧
      value = normalizeValue (payload.get name) := by
  obtain ⟨name, hfind, rfl⟩ := Option.map_eq_some_iff.mp h
  exact ⟨name, List.mem_of_find?_eq_some hfind, by simpa using List.find?_some hfind, rfl⟩

theorem firstNonblank_none {aliases : List PyStr} (h : firstNonblank payload aliases = none) :
    ∀ name ∈ aliases, isMissing (payload.get name) = true := by
  have hfind := Option.map_eq_none_iff.mp h
  exact fun name hname => by simpa using List.find?_eq_none.mp hfind name hname

/-- Where the group agrees, every value in it is its first or equals it. -/
theorem GroupAgrees.value {aliases : List PyStr} (h : GroupAgrees payload aliases) {value : Json}
    (hfirst : firstNonblank payload aliases = some value) {name : PyStr} (hname : name ∈ aliases)
    (hpresent : isMissing (payload.get name) = false) :
    normalizeValue (payload.get name) = value ∨
      (normalizeValue (payload.get name)).pyEq value = true := by
  have hmem := mem_aliasCandidates.mpr ⟨name, hname, hpresent, rfl⟩
  rw [← head?_aliasCandidates] at hfirst
  cases hcandidates : aliasCandidates payload aliases with
  | nil =>
    rw [hcandidates] at hfirst
    cases hfirst
  | cons first rest =>
    rw [hcandidates] at hfirst hmem
    cases hfirst
    rcases List.mem_cons.mp hmem with heq | hrest
    · exact .inl (congrArg Prod.snd heq)
    · exact .inr (h first rest hcandidates _ hrest)

variable (payload) (hmap : AliasMapOk fields) (hdisjoint : GroupsDisjoint fields)
include hmap hdisjoint

/-- Within a group only the canonical name is written. -/
theorem get_resolved_other {field : PyStr × List PyStr} (hfield : field ∈ fields) {name : PyStr}
    (hname : name ∈ field.2) (hne : name ≠ field.1) :
    PyDict.get (resolved payload fields) name = PyDict.get payload name := by
  have hnone : fields.lookup name = none := by
    rw [Assoc.lookup_eq_none_iff]
    intro hkey
    obtain ⟨other, hother, rfl⟩ := List.mem_map.mp hkey
    exact hdisjoint field hfield other hother (Ne.symm hne) _ hname (hmap.fields other hother).mem
  rw [PyDict.get, lookup_resolved hmap.nodup, resolvedLookup, hnone]
  rfl

omit hdisjoint in
theorem get_resolved_canonical {field : PyStr × List PyStr} (hfield : field ∈ fields) :
    PyDict.get (resolved payload fields) field.1 =
      (firstNonblank payload field.2).getD (payload.get field.1) := by
  have hlookup : fields.lookup field.1 = some field.2 := Assoc.lookup_of_mem hmap.nodup hfield
  rw [PyDict.get, lookup_resolved hmap.nodup, resolvedLookup, hlookup, Option.bind_some]
  cases firstNonblank payload field.2 <;> rfl

theorem firstNonblank_resolved {field : PyStr × List PyStr} (hfield : field ∈ fields) :
    firstNonblank (resolved payload fields) field.2 = firstNonblank payload field.2 := by
  have hcanonical := get_resolved_canonical payload hmap hfield
  have hother : ∀ name ∈ field.2, name ≠ field.1 →
      PyDict.get (resolved payload fields) name = payload.get name :=
    fun _ => get_resolved_other payload hmap hdisjoint hfield
  cases hfirst : firstNonblank payload field.2 with
  | some value =>
    rw [hfirst, Option.getD_some] at hcanonical
    obtain ⟨name, hname, hpresent, hvalue⟩ := firstNonblank_some hfirst
    refine firstNonblank_stable hcanonical ?_ ?_ hother hfirst
    · rw [hvalue, isMissing_normalizeValue, hpresent]
    · rw [hvalue, normalizeValue_normalizeValue]
  | none =>
    rw [hfirst, Option.getD_none] at hcanonical
    have hsame : ∀ name ∈ field.2,
        PyDict.get (resolved payload fields) name = payload.get name := by
      intro name hname
      by_cases hne : name = field.1
      · rw [hne, hcanonical]
      · exact hother name hname hne
    rw [firstNonblank, Option.map_eq_none_iff, List.find?_eq_none]
    intro name hname
    rw [hsame name hname, firstNonblank_none hfirst name hname]
    decide

theorem resolved_resolved (hpayload : (Assoc.keys payload).Nodup) :
    resolved (resolved payload fields) fields = resolved payload fields := by
  have hsame : resolvedFields (resolved payload fields) fields = resolvedFields payload fields := by
    unfold resolvedFields
    refine List.filterMap_congr fun field hfield => ?_
    rw [firstNonblank_resolved payload hmap hdisjoint hfield]
  rw [resolved, hsame]
  refine Assoc.update_of_lookup (Assoc.nodup_keys_update hpayload _) fun kv hkv => ?_
  change (resolved payload fields).lookup kv.1 = _
  rw [lookup_resolved hmap.nodup, resolvedLookup, ← lookup_resolvedFields hmap.nodup,
    Assoc.lookup_of_mem (keys_resolvedFields_sublist.nodup hmap.nodup) hkv]
  rfl

/-- Every non-blank value of a group after resolution is one before it, trimmed. -/
theorem value_of_resolved {field : PyStr × List PyStr} (hfield : field ∈ fields) {name : PyStr}
    (hname : name ∈ field.2)
    (hpresent : isMissing (PyDict.get (resolved payload fields) name) = false) :
    ∃ source ∈ field.2, isMissing (payload.get source) = false ∧
      normalizeValue (PyDict.get (resolved payload fields) name) =
        normalizeValue (payload.get source) := by
  by_cases hne : name = field.1
  · have hcanonical := get_resolved_canonical payload hmap hfield
    rw [hne, hcanonical] at hpresent ⊢
    cases hfirst : firstNonblank payload field.2 with
    | some value =>
      obtain ⟨source, hsource, hvalue, rfl⟩ := firstNonblank_some hfirst
      exact ⟨source, hsource, hvalue, normalizeValue_normalizeValue _⟩
    | none =>
      rw [hfirst, Option.getD_none, firstNonblank_none hfirst _ (hne ▸ hname)] at hpresent
      cases hpresent
  · rw [get_resolved_other payload hmap hdisjoint hfield hname hne] at hpresent ⊢
    exact ⟨name, hname, hpresent, rfl⟩

theorem not_conflict_resolved (h : ¬ Conflict payload fields) :
    ¬ Conflict (resolved payload fields) fields := by
  rintro ⟨field, hfield, a, ha, b, hb, hva, hvb, hne⟩
  obtain ⟨a', ha', hva', haeq⟩ := value_of_resolved payload hmap hdisjoint hfield ha hva
  obtain ⟨b', hb', hvb', hbeq⟩ := value_of_resolved payload hmap hdisjoint hfield hb hvb
  rw [haeq, hbeq] at hne
  exact h ⟨field, hfield, a', ha', b', hb', hva', hvb', hne⟩

end

/-! ## The contract -/

/-- The law of normalisation for a payload of a topic: a conflict is raised exactly
if there is one, and then a missing field exactly if there is one. Else each name of
the result is what it resolves to, a value under a canonical name is kept up to
trimming and equality, and where the groups have no name in common a second pass
changes nothing. -/
structure NormalizationLaw (rt : PyRuntime) (profile : EventContractProfile) (topic : PyStr)
    (topicKind : TopicKind) (payload : PyDict) : Prop where
  conflict : (∃ message, normalizePayloadForTopic rt topic payload profile =
    .error (.contractCoreViolation message)) ↔ Conflict payload (profile.aliasesFor topicKind)
  missing : ¬ Conflict payload (profile.aliasesFor topicKind) →
    ((∃ message, normalizePayloadForTopic rt topic payload profile =
      .error (.eventValidation message)) ↔ MissingRequired profile topicKind payload)
  accepted : ¬ Conflict payload (profile.aliasesFor topicKind) →
    ¬ MissingRequired profile topicKind payload →
    ∃ result, normalizePayloadForTopic rt topic payload profile = .ok result ∧
      (∀ name, result.payload.lookup name =
        resolvedLookup payload (profile.aliasesFor topicKind) name) ∧
      (∀ field ∈ profile.aliasesFor topicKind, isMissing (payload.get field.1) = false →
        ∃ value, result.payload.lookup field.1 = some value ∧
          (normalizeValue (payload.get field.1)).pyEq value = true) ∧
      (GroupsDisjoint (profile.aliasesFor topicKind) → ∃ again,
        normalizePayloadForTopic rt topic result.payload profile = .ok again ∧
          again.payload = result.payload)

/-- Every profile both loaders return obeys the law. -/
theorem normalization_law (rt : PyRuntime) {reprOf : Yaml → PyStr} {document : Yaml}
    {profiles : List (PyStr × RawProfile)} (h : loadEventProfiles reprOf document = .ok profiles)
    {config : ProfileConfig} {profile : EventContractProfile}
    (hprofile : loadEventContractProfile rt profiles config = .ok profile) {topic : PyStr}
    {topicKind : TopicKind} (htopic : profile.topicKind topic = some topicKind) {payload : PyDict}
    (hpayload : (Json.obj payload).Proper) :
    NormalizationLaw rt profile topic topicKind payload := by
  have hmap : AliasMapOk (profile.aliasesFor topicKind) := aliasesFor_ok rt h hprofile topicKind
  refine ⟨⟨fun ⟨message, hmessage⟩ => ?_, fun hconflict =>
      normalize_conflict htopic (not_agreed_of_conflict hpayload hconflict)⟩, fun hconflict =>
    ⟨fun ⟨message, hmessage⟩ => ?_,
      normalize_missing htopic hmap.nodup (agreed_of_not_conflict hconflict)⟩,
    fun hconflict hmissing => ?_⟩
  · by_contra hconflict
    have hagreed := agreed_of_not_conflict hconflict
    by_cases hmissing : MissingRequired profile topicKind payload
    · obtain ⟨other, hother⟩ := @normalize_missing rt _ _ _ _ htopic hmap.nodup hagreed hmissing
      cases hmessage.symm.trans hother
    · obtain ⟨hits, hok⟩ := @normalize_ok rt _ _ _ _ htopic hmap.nodup hagreed hmissing
      cases hmessage.symm.trans hok
  · by_contra hmissing
    have hagreed := agreed_of_not_conflict hconflict
    obtain ⟨hits, hok⟩ := @normalize_ok rt _ _ _ _ htopic hmap.nodup hagreed hmissing
    cases hmessage.symm.trans hok
  · have hagreed := agreed_of_not_conflict hconflict
    obtain ⟨hits, hok⟩ := @normalize_ok rt _ _ _ _ htopic hmap.nodup hagreed hmissing
    refine ⟨_, hok, lookup_resolved hmap.nodup, fun field hfield hpresent => ?_,
      fun hdisjoint => ?_⟩
    · -- the first value does not conflict with the one under the canonical name
      have hlookup : (profile.aliasesFor topicKind).lookup field.1 = some field.2 :=
        Assoc.lookup_of_mem hmap.nodup hfield
      have hown : field.1 ∈ field.2 := (hmap.fields field hfield).mem
      cases hfirst : firstNonblank payload field.2 with
      | none =>
        rw [firstNonblank_none hfirst _ hown] at hpresent
        cases hpresent
      | some value =>
        refine ⟨value, ?_, ?_⟩
        · change (resolved payload (profile.aliasesFor topicKind)).lookup field.1 = some value
          rw [lookup_resolved hmap.nodup, resolvedLookup, hlookup, Option.bind_some, hfirst]
          rfl
        · obtain ⟨name, hname, hvalue, rfl⟩ := firstNonblank_some hfirst
          by_contra hne
          exact hconflict ⟨field, hfield, field.1, hown, name, hname, hpresent, hvalue,
            Bool.eq_false_iff.mpr hne⟩
    · have hsame := resolved_resolved payload hmap hdisjoint hpayload.1
      have hmissing' : ¬ MissingRequired profile topicKind
          (resolved payload (profile.aliasesFor topicKind)) := by
        rintro ⟨required, hrequired, hblank⟩
        rw [← lookup_resolved hmap.nodup, hsame, lookup_resolved hmap.nodup] at hblank
        exact hmissing ⟨required, hrequired, hblank⟩
      obtain ⟨hits', hok'⟩ := @normalize_ok rt _ _ _ _ htopic hmap.nodup
        (agreed_of_not_conflict (not_conflict_resolved payload hmap hdisjoint hconflict)) hmissing'
      exact ⟨_, hok', hsame⟩

/-- An entry under alias names, with blanks around a value. -/
def aliasedPayload : PyDict :=
  [(py "tx_id", .str (py "tx-1")), (py "wallet_id", .str (py "w1")),
    (py "type", .str (py " PAYMENT ")), (py "amount", .int 10),
    (py "source_created_at", .str (py "2026-02-05T01:00:00Z")), (py "source_version", .int 7)]

theorem aliasedPayload_proper : (Json.obj aliasedPayload).Proper :=
  ⟨by decide +kernel, by simp [aliasedPayload, Json.ProperFields, Json.Proper]⟩

theorem aliasedPayload_law : NormalizationLaw sampleRuntime canonicalV1
    (py "ledger.entry.upserted") .ledger aliasedPayload :=
  normalization_law sampleRuntime (loadEventProfiles_shipped fun _ => [])
    (load_canonicalV1 sampleRuntime) (by decide +kernel) aliasedPayload_proper

end TxLookup.Consumer
