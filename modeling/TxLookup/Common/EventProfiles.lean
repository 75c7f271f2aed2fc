import TxLookup.Consumer.Runtime
import TxLookup.Library.Assoc
import TxLookup.Library.Fold

/-!
# Loading event profiles

The profiles come from a YAML document. Every text is trimmed and must not be
blank; a list of aliases loses its repetitions and begins with the canonical
name where it does not contain it. Later entries of one name replace earlier
ones.
-/
namespace TxLookup.Common

open Library Library.PyText Consumer

/-- What `yaml.safe_load` returns. Dates, binary data and sets are only told
apart by their truth value. -/
inductive Yaml where
  | null
  | bool (b : Bool)
  | int (n : Int)
  | float (x : PyFloat)
  | str (s : PyStr)
  | seq (items : List Yaml)
  | map (entries : List (Yaml × Yaml))
  | other (truthy : Bool)

namespace Yaml

def truthy : Yaml → Bool
  | .null => false
  | .bool b => b
  | .int n => n != 0
  | .float (.finite _ m _) => m != 0
  | .float _ => true
  | .str s => !s.isEmpty
  | .seq items => !items.isEmpty
  | .map entries => !entries.isEmpty
  | .other b => b

/-- `value == 1`. -/
def isOne : Yaml → Bool
  | .bool b => b
  | .int n => n == 1
  | .float x => x.numEq (.finite false 1 0)
  | _ => false

/-- `entries.get(key)` for a text key. -/
def get? (entries : List (Yaml × Yaml)) (key : PyStr) : Option Yaml :=
  entries.findSome? (fun entry =>
    match entry.1 with
    | .str s => if s = key then some entry.2 else none
    | _ => none)

end Yaml

/-- One value for each topic kind. -/
structure PerTopic (α : Type) where
  ledger : α
  paymentOrder : α
  deriving DecidableEq

structure RawProfile where
  topics : PerTopic PyStr
  aliases : PerTopic (List (PyStr × List PyStr))
  coreRequired : PerTopic (List PyStr)
  deriving DecidableEq

def valueError (message : PyStr) : PyExc := .other message

def expectMapping (value : Yaml) (context : PyStr) : Except PyExc (List (Yaml × Yaml)) :=
  match value with
  | .map entries => .ok entries
  | _ => .error (valueError (context ++ py " must be a mapping"))

def expectText (value : Yaml) (context : PyStr) : Except PyExc PyStr :=
  match value with
  | .str s =>
    if strip s = [] then .error (valueError (context ++ py " must be a non-empty string"))
    else .ok (strip s)
  | _ => .error (valueError (context ++ py " must be a non-empty string"))

/-- Append what the list does not hold yet. -/
def appendNew (values : List PyStr) (value : PyStr) : List PyStr :=
  if value ∈ values then values else values ++ [value]

/-- Put the canonical name in front where the list does not hold it. -/
def withCanonical (canonical : PyStr) (values : List PyStr) : List PyStr :=
  if canonical ∈ values then values else canonical :: values

/-- `profiles.<profile>.<section>.<topic_kind>`. -/
def fieldPath (profileId section' topicKind : PyStr) : PyStr :=
  py "profiles." ++ profileId ++ py "." ++ section' ++ py "." ++ topicKind

def normalizeAliasList (profileId topicKind canonical : PyStr) (aliasesRawValue : Yaml) :
    Except PyExc (List PyStr) :=
  let path := fieldPath profileId (py "aliases") topicKind ++ py "." ++ canonical
  match aliasesRawValue with
  | .seq (item :: items) => do
    let deduped ← (item :: items).foldlM (fun deduped aliasValue => do
      let name ← expectText aliasValue (path ++ py "[]")
      return appendNew deduped name) []
    return withCanonical canonical deduped
  | _ => .error (valueError (path ++ py " must be a non-empty list"))

def normalizeTopicAliases (profileId : PyStr) (aliasesRaw : List (Yaml × Yaml)) (topicKind : PyStr) :
    Except PyExc (List (PyStr × List PyStr)) := do
  let path := fieldPath profileId (py "aliases") topicKind
  let topicAliases ← expectMapping ((Yaml.get? aliasesRaw topicKind).getD (.map [])) path
  topicAliases.foldlM (fun canonicalMap entry => do
    let canonical ← expectText entry.1 (path ++ py ".<canonical_key>")
    let values ← normalizeAliasList profileId topicKind canonical entry.2
    return Assoc.set canonicalMap canonical values) []

def normalizeAliases (profileId : PyStr) (aliasesRaw : List (Yaml × Yaml)) :
    Except PyExc (PerTopic (List (PyStr × List PyStr))) := do
  let ledger ← normalizeTopicAliases profileId aliasesRaw (py "ledger")
  let paymentOrder ← normalizeTopicAliases profileId aliasesRaw (py "payment_order")
  return { ledger, paymentOrder }

def normalizeTopicRequired (profileId : PyStr) (requiredRaw : List (Yaml × Yaml))
    (topicKind : PyStr) : Except PyExc (List PyStr) :=
  let path := fieldPath profileId (py "core_required") topicKind
  match (Yaml.get? requiredRaw topicKind).getD (.seq []) with
  | .seq items => items.mapM (fun field => expectText field (path ++ py "[]"))
  | _ => .error (valueError (path ++ py " must be a list"))

def normalizeCoreRequired (profileId : PyStr) (requiredRaw : List (Yaml × Yaml)) :
    Except PyExc (PerTopic (List PyStr)) := do
  let ledger ← normalizeTopicRequired profileId requiredRaw (py "ledger")
  let paymentOrder ← normalizeTopicRequired profileId requiredRaw (py "payment_order")
  return { ledger, paymentOrder }

/-- One profile of the document. -/
def loadProfile (profileIdRaw profileRawValue : Yaml) : Except PyExc (PyStr × RawProfile) := do
  let profileId ← expectText profileIdRaw (py "profile id")
  let path := py "profiles." ++ profileId
  let profileRaw ← expectMapping profileRawValue path
  let topicsRaw ← expectMapping ((Yaml.get? profileRaw (py "topics")).getD .null)
    (path ++ py ".topics")
  let ledger ← expectText ((Yaml.get? topicsRaw (py "ledger")).getD .null)
    (path ++ py ".topics.ledger")
  let paymentOrder ← expectText ((Yaml.get? topicsRaw (py "payment_order")).getD .null)
    (path ++ py ".topics.payment_order")
  let aliasesRaw ← expectMapping ((Yaml.get? profileRaw (py "aliases")).getD (.map []))
    (path ++ py ".aliases")
  let aliases ← normalizeAliases profileId aliasesRaw
  let coreRequiredRaw ← expectMapping ((Yaml.get? profileRaw (py "core_required")).getD (.map []))
    (path ++ py ".core_required")
  let coreRequired ← normalizeCoreRequired profileId coreRequiredRaw
  return (profileId, { topics := { ledger, paymentOrder }, aliases, coreRequired })

/-- `load_event_profiles`, from what the file holds; `reprOf` is `repr`. -/
def loadEventProfiles (reprOf : Yaml → PyStr) (loaded : Yaml) :
    Except PyExc (List (PyStr × RawProfile)) := do
  let root ← expectMapping (if loaded.truthy then loaded else .map []) (py "event profile root")
  let version := (Yaml.get? root (py "version")).getD .null
  if version.isOne = false then
    .error (valueError (py "event profile version must be 1 (got " ++ reprOf version ++ py ")"))
  else
    let profilesRaw ← expectMapping ((Yaml.get? root (py "profiles")).getD .null) (py "profiles")
    if profilesRaw.isEmpty then
      .error (valueError (py "profiles must define at least one profile"))
    else
      profilesRaw.foldlM (fun profiles entry => do
        let loaded ← loadProfile entry.1 entry.2
        return Assoc.set profiles loaded.1 loaded.2) []

/-! ## What a loaded profile satisfies -/

/-- A text without blanks around it that is not empty. -/
def Trimmed (s : PyStr) : Prop := strip s = s ∧ s ≠ []

/-- The aliases of a canonical name: texts, each once, with the name among them. -/
structure AliasListOk (canonical : PyStr) (values : List PyStr) : Prop where
  mem : canonical ∈ values
  nodup : values.Nodup
  trimmed : ∀ value ∈ values, Trimmed value

/-- The aliases of a topic kind: every canonical name once. -/
structure AliasMapOk (aliases : List (PyStr × List PyStr)) : Prop where
  nodup : (Assoc.keys aliases).Nodup
  fields : ∀ field ∈ aliases, AliasListOk field.1 field.2

theorem expectText_ok {value : Yaml} {context s : PyStr} (h : expectText value context = .ok s) :
    Trimmed s := by
  unfold expectText at h
  split at h
  · split at h
    · cases h
    · next hne =>
      cases h
      exact ⟨strip_strip _, hne⟩
  · cases h

theorem appendNew_ok {values : List PyStr} (h : values.Nodup ∧ ∀ value ∈ values, Trimmed value)
    {value : PyStr} (hvalue : Trimmed value) :
    (appendNew values value).Nodup ∧ ∀ v ∈ appendNew values value, Trimmed v := by
  unfold appendNew
  split
  · exact h
  · next hnew =>
    refine ⟨List.nodup_append.mpr ⟨h.1, List.nodup_singleton _, ?_⟩, ?_⟩
    · intro v hv v' hv' heq
      rw [List.mem_singleton.mp hv'] at heq
      exact hnew (heq ▸ hv)
    · intro v hv
      rcases List.mem_append.mp hv with hv | hv
      · exact h.2 v hv
      · exact List.mem_singleton.mp hv ▸ hvalue

theorem withCanonical_ok {canonical : PyStr} {values : List PyStr} (hcanonical : Trimmed canonical)
    (h : values.Nodup ∧ ∀ value ∈ values, Trimmed value) :
    AliasListOk canonical (withCanonical canonical values) := by
  unfold withCanonical
  split
  · next hmem => exact ⟨hmem, h.1, h.2⟩
  · next hnew =>
    exact ⟨List.mem_cons_self, List.nodup_cons.mpr ⟨hnew, h.1⟩,
      List.forall_mem_cons.mpr ⟨hcanonical, h.2⟩⟩

theorem normalizeAliasList_ok {profileId topicKind canonical : PyStr} {value : Yaml}
    {values : List PyStr} (hcanonical : Trimmed canonical)
    (h : normalizeAliasList profileId topicKind canonical value = .ok values) :
    AliasListOk canonical values := by
  unfold normalizeAliasList at h
  split at h
  · obtain ⟨deduped, hloop, h⟩ := bind_eq_ok.mp h
    cases h
    refine withCanonical_ok hcanonical (foldlM_invariant
      (P := fun values => values.Nodup ∧ ∀ value ∈ values, Trimmed value) (fun s a t hs ht => ?_)
      ⟨List.nodup_nil, fun _ hmem => by cases hmem⟩ hloop)
    obtain ⟨name, hname, ht⟩ := bind_eq_ok.mp ht
    cases ht
    exact appendNew_ok hs (expectText_ok hname)
  · cases h

theorem aliasMapOk_nil : AliasMapOk [] := ⟨List.nodup_nil, fun _ hmem => by cases hmem⟩

theorem AliasMapOk.set {aliases : List (PyStr × List PyStr)} (h : AliasMapOk aliases)
    {canonical : PyStr} {values : List PyStr} (hvalues : AliasListOk canonical values) :
    AliasMapOk (Assoc.set aliases canonical values) := by
  refine ⟨Assoc.nodup_keys_set h.nodup _ _, fun field hfield => ?_⟩
  rcases Assoc.mem_set hfield with rfl | hfield
  · exact hvalues
  · exact h.fields field hfield

theorem normalizeTopicAliases_ok {profileId topicKind : PyStr} {aliasesRaw : List (Yaml × Yaml)}
    {aliases : List (PyStr × List PyStr)}
    (h : normalizeTopicAliases profileId aliasesRaw topicKind = .ok aliases) :
    AliasMapOk aliases := by
  obtain ⟨entries, -, hloop⟩ := bind_eq_ok.mp h
  refine foldlM_invariant (fun s a t hs ht => ?_) aliasMapOk_nil hloop
  obtain ⟨canonical, hcanonical, ht⟩ := bind_eq_ok.mp ht
  obtain ⟨values, hvalues, ht⟩ := bind_eq_ok.mp ht
  cases ht
  exact hs.set (normalizeAliasList_ok (expectText_ok hcanonical) hvalues)

theorem mapM_ok {α β ε : Type} {f : α → Except ε β} {P : β → Prop}
    (hf : ∀ a b, f a = .ok b → P b) {as : List α} {bs : List β} (h : as.mapM f = .ok bs) :
    ∀ b ∈ bs, P b := by
  induction as generalizing bs with
  | nil =>
    cases h
    exact fun _ hmem => by cases hmem
  | cons a as ih =>
    rw [List.mapM_cons] at h
    obtain ⟨b, hb, h⟩ := bind_eq_ok.mp h
    obtain ⟨bs, hbs, h⟩ := bind_eq_ok.mp h
    cases h
    exact List.forall_mem_cons.mpr ⟨hf a b hb, ih hbs⟩

theorem normalizeTopicRequired_ok {profileId topicKind : PyStr} {requiredRaw : List (Yaml × Yaml)}
    {fields : List PyStr} (h : normalizeTopicRequired profileId requiredRaw topicKind = .ok fields) :
    ∀ field ∈ fields, Trimmed field := by
  unfold normalizeTopicRequired at h
  dsimp only at h
  split at h
  · exact mapM_ok (fun _ _ => expectText_ok) h
  · cases h

/-- Both topic kinds of a profile are well formed. -/
structure RawProfile.Ok (profile : RawProfile) : Prop where
  ledgerAliases : AliasMapOk profile.aliases.ledger
  orderAliases : AliasMapOk profile.aliases.paymentOrder
  ledgerRequired : ∀ field ∈ profile.coreRequired.ledger, Trimmed field
  orderRequired : ∀ field ∈ profile.coreRequired.paymentOrder, Trimmed field

theorem loadProfile_ok {profileIdRaw profileRawValue : Yaml} {loaded : PyStr × RawProfile}
    (h : loadProfile profileIdRaw profileRawValue = .ok loaded) : loaded.2.Ok := by
  simp only [loadProfile, normalizeAliases, normalizeCoreRequired, bind_eq_ok] at h
  obtain ⟨_, -, _, -, _, -, _, -, _, -, _, -, _, ⟨_, hledger, _, horder, haliases⟩, _, -, _,
    ⟨_, hledger', _, horder', hrequired⟩, h⟩ := h
  cases haliases
  cases hrequired
  cases h
  exact ⟨normalizeTopicAliases_ok hledger, normalizeTopicAliases_ok horder,
    normalizeTopicRequired_ok hledger', normalizeTopicRequired_ok horder'⟩

/-- Every profile of every document is well formed. -/
theorem loadEventProfiles_ok {reprOf : Yaml → PyStr} {document : Yaml}
    {profiles : List (PyStr × RawProfile)} (h : loadEventProfiles reprOf document = .ok profiles)
    {profileId : PyStr} {profile : RawProfile} (hprofile : profiles.lookup profileId = some profile) :
    profile.Ok := by
  obtain ⟨root, -, h⟩ := bind_eq_ok.mp h
  dsimp only at h
  split at h
  · cases h
  · obtain ⟨profilesRaw, -, h⟩ := bind_eq_ok.mp h
    split at h
    · cases h
    · have hall : ∀ entry ∈ profiles, entry.2.Ok := by
        refine foldlM_invariant (P := fun profiles => ∀ entry ∈ profiles, entry.2.Ok)
          (fun s a t hs ht => ?_) (fun _ hmem => by cases hmem) h
        obtain ⟨loaded, hloaded, ht⟩ := bind_eq_ok.mp ht
        cases ht
        intro entry hentry
        rcases Assoc.mem_set hentry with rfl | hentry
        · exact loadProfile_ok hloaded
        · exact hs entry hentry
      exact hall _ (Assoc.mem_of_lookup hprofile)

/-- `configs/event_profiles.yaml`. -/
def shippedDocument : Yaml :=
  let text (s : String) : Yaml := .str (py s)
  let profile (ledger paymentOrder : String) : Yaml := .map [
    (text "topics", .map [(text "ledger", text ledger), (text "payment_order", text paymentOrder)]),
    (text "aliases", .map [
      (text "ledger", .map [
        (text "entry_type", .seq [text "entry_type", text "type"]),
        (text "event_time", .seq [text "event_time", text "source_created_at", text "created_at"]),
        (text "version", .seq [text "version", text "source_version"])]),
      (text "payment_order", .map [
        (text "version", .seq [text "version", text "source_version"])])]),
    (text "core_required", .map [
      (text "ledger", .seq [text "tx_id", text "wallet_id", text "entry_type", text "amount",
        text "event_time_or_alias"]),
      (text "payment_order", .seq [text "order_id", text "amount", text "status",
        text "created_at"])])]
  .map [(text "version", .int 1), (text "profiles", .map [
    (text "canonical-v1", profile "ledger.entry.upserted" "payment.order.upserted"),
    (text "nsc-dev-v1", profile "cdc-events" "order-events")])]

/-- What both shipped profiles hold, but for the topics. -/
def shippedProfile (topics : PerTopic PyStr) : RawProfile where
  topics := topics
  aliases := {
    ledger := [(py "entry_type", [py "entry_type", py "type"]),
      (py "event_time", [py "event_time", py "source_created_at", py "created_at"]),
      (py "version", [py "version", py "source_version"])]
    paymentOrder := [(py "version", [py "version", py "source_version"])] }
  coreRequired := {
    ledger := [py "tx_id", py "wallet_id", py "entry_type", py "amount", py "event_time_or_alias"]
    paymentOrder := [py "order_id", py "amount", py "status", py "created_at"] }

def shippedProfiles : List (PyStr × RawProfile) :=
  [(py "canonical-v1",
      shippedProfile ⟨py "ledger.entry.upserted", py "payment.order.upserted"⟩),
    (py "nsc-dev-v1", shippedProfile ⟨py "cdc-events", py "order-events"⟩)]

theorem loadEventProfiles_shipped (reprOf : Yaml → PyStr) :
    loadEventProfiles reprOf shippedDocument = .ok shippedProfiles := by
  rfl

end TxLookup.Common
