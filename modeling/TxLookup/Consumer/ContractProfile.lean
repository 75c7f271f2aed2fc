import TxLookup.Common.EventProfiles
import TxLookup.Consumer.Contract
import TxLookup.Library.Fold

/-!
# The contract profile of the consumer

The loaded profile is trimmed and checked a second time, and combined with the
topics of the configuration. Whatever the document, the canonical names of the
result are distinct and each is among its own aliases. The second loader changes
nothing in what the first returns.
-/
namespace TxLookup.Consumer

open Library Library.PyText Common

/-- The values of the configuration a profile depends on. -/
structure ProfileConfig where
  eventProfileId : PyStr
  effectiveLedgerTopic : PyStr
  effectivePaymentOrderTopic : PyStr

/-- The aliases of one canonical field. A loaded profile holds texts only, so the
type checks of the source never fail. -/
def toAliasList (path canonicalKey : PyStr) (aliasValues : List PyStr) : Except PyExc (List PyStr) := do
  let values ← aliasValues.foldlM (fun values aliasValue =>
    if strip aliasValue = [] then
      .error (valueError (path ++ py "." ++ canonicalKey ++ py " has empty alias"))
    else .ok (appendNew values (strip aliasValue))) []
  return withCanonical canonicalKey values

def toAliasMap (aliasesRaw : List (PyStr × List PyStr)) (profileId : PyStr) (topicKind : TopicKind) :
    Except PyExc (List (PyStr × List PyStr)) :=
  let path := profileId ++ py " aliases." ++ topicKind.name
  aliasesRaw.foldlM (fun canonicalMap entry =>
    let canonicalKey := strip entry.1
    if canonicalKey = [] then .error (valueError (path ++ py " has empty canonical key"))
    else do
      let values ← toAliasList path canonicalKey entry.2
      return Assoc.set canonicalMap canonicalKey values) []

def toCoreRequired (requiredRaw : List PyStr) (profileId : PyStr) (topicKind : TopicKind) :
    Except PyExc (List PyStr) :=
  requiredRaw.mapM (fun rawField =>
    if strip rawField = [] then
      .error (valueError (profileId ++ py " core_required." ++ topicKind.name ++
        py " has empty field"))
    else .ok (strip rawField))

/-! ## The second pass changes nothing -/

theorem foldl_appendNew {values : List PyStr} (h : ∀ value ∈ values, Trimmed value) {acc : List PyStr}
    (hnodup : (acc ++ values).Nodup) :
    values.foldl (fun acc value => appendNew acc (strip value)) acc = acc ++ values := by
  induction values generalizing acc with
  | nil => rw [List.append_nil]; rfl
  | cons value values ih =>
    obtain ⟨hvalue, hvalues⟩ := List.forall_mem_cons.mp h
    have hnew : value ∉ acc := fun hmem =>
      (List.nodup_append.mp hnodup).2.2 _ hmem _ List.mem_cons_self rfl
    rw [List.foldl_cons, hvalue.1, appendNew, if_neg hnew, List.append_cons acc value values]
    refine ih hvalues ?_
    rw [← List.append_cons]
    exact hnodup

theorem toAliasList_of_ok {canonical : PyStr} {values : List PyStr}
    (h : AliasListOk canonical values) (path : PyStr) :
    toAliasList path canonical values = .ok values := by
  have hloop := @foldlM_of_ok (List PyStr) PyExc PyStr (fun values aliasValue =>
      if strip aliasValue = [] then
        .error (valueError (path ++ py "." ++ canonical ++ py " has empty alias"))
      else .ok (appendNew values (strip aliasValue)))
    (fun values aliasValue => appendNew values (strip aliasValue)) values
    (fun value hvalue _ => by rw [(h.trimmed value hvalue).1, if_neg (h.trimmed value hvalue).2]) []
  rw [foldl_appendNew h.trimmed (by simpa using h.nodup), List.nil_append] at hloop
  rw [toAliasList, hloop]
  exact congrArg Except.ok (if_pos h.mem)

theorem toAliasMap_of_ok {aliases : List (PyStr × List PyStr)} (h : AliasMapOk aliases)
    (profileId : PyStr) (topicKind : TopicKind) :
    toAliasMap aliases profileId topicKind = .ok aliases := by
  refine (@foldlM_of_ok _ _ _ _ (fun canonicalMap entry => Assoc.set canonicalMap entry.1 entry.2) _
    (fun entry hentry s => ?_) []).trans ?_
  · have hfield := h.fields entry hentry
    have hname := hfield.trimmed _ hfield.mem
    dsimp only
    rw [hname.1, if_neg hname.2, toAliasList_of_ok hfield]
    rfl
  · exact congrArg Except.ok (Assoc.update_of_new (d := []) h.nodup)

theorem toCoreRequired_of_trimmed {fields : List PyStr} (h : ∀ field ∈ fields, Trimmed field)
    (profileId : PyStr) (topicKind : TopicKind) :
    toCoreRequired fields profileId topicKind = .ok fields := by
  unfold toCoreRequired
  induction fields with
  | nil => rfl
  | cons field fields ih =>
    obtain ⟨hfield, hfields⟩ := List.forall_mem_cons.mp h
    rw [List.mapM_cons, hfield.1, if_neg hfield.2, ih hfields]
    rfl

variable (rt : PyRuntime)

/-- `load_event_contract_profile`, from the loaded profiles. -/
def loadEventContractProfile (profiles : List (PyStr × RawProfile)) (config : ProfileConfig) :
    Except PyExc EventContractProfile :=
  match profiles.lookup config.eventProfileId with
  | none => .error (valueError (py "unknown event profile: " ++ config.eventProfileId))
  | some profileRaw =>
    if h : config.effectiveLedgerTopic = config.effectivePaymentOrderTopic then
      .error (valueError (py "effective ledger/payment topics must be distinct (got " ++
        rt.reprOf (.str config.effectiveLedgerTopic) ++ py ")"))
    else do
      let ledgerAliases ← toAliasMap profileRaw.aliases.ledger config.eventProfileId .ledger
      let orderAliases ←
        toAliasMap profileRaw.aliases.paymentOrder config.eventProfileId .paymentOrder
      let ledgerRequired ←
        toCoreRequired profileRaw.coreRequired.ledger config.eventProfileId .ledger
      let orderRequired ←
        toCoreRequired profileRaw.coreRequired.paymentOrder config.eventProfileId .paymentOrder
      return {
        profileId := config.eventProfileId
        topics := ⟨config.effectiveLedgerTopic, config.effectivePaymentOrderTopic⟩
        aliases := ⟨ledgerAliases, orderAliases⟩
        coreRequired := ⟨ledgerRequired, orderRequired⟩
        distinct := h }

/-- A profile that both loaders accept has the aliases and the required fields of
the document, which are well formed. -/
theorem loadEventContractProfile_ok {reprOf : Yaml → PyStr} {document : Yaml}
    {profiles : List (PyStr × RawProfile)} (h : loadEventProfiles reprOf document = .ok profiles)
    {config : ProfileConfig} {profile : EventContractProfile}
    (hprofile : loadEventContractProfile rt profiles config = .ok profile) :
    ∃ raw, profiles.lookup config.eventProfileId = some raw ∧ raw.Ok ∧
      profile.aliases = ⟨raw.aliases.ledger, raw.aliases.paymentOrder⟩ ∧
      profile.coreRequired = ⟨raw.coreRequired.ledger, raw.coreRequired.paymentOrder⟩ := by
  unfold loadEventContractProfile at hprofile
  split at hprofile
  · cases hprofile
  · next raw hraw =>
    have hok := loadEventProfiles_ok h hraw
    split at hprofile
    · cases hprofile
    · simp only [toAliasMap_of_ok hok.ledgerAliases, toAliasMap_of_ok hok.orderAliases,
        toCoreRequired_of_trimmed hok.ledgerRequired, toCoreRequired_of_trimmed hok.orderRequired,
        bind_eq_ok, Except.ok.injEq, exists_eq_left'] at hprofile
      cases hprofile
      exact ⟨raw, hraw, hok, rfl, rfl⟩

/-- The aliases of every topic kind of a loaded profile are well formed. -/
theorem aliasesFor_ok {reprOf : Yaml → PyStr} {document : Yaml}
    {profiles : List (PyStr × RawProfile)} (h : loadEventProfiles reprOf document = .ok profiles)
    {config : ProfileConfig} {profile : EventContractProfile}
    (hprofile : loadEventContractProfile rt profiles config = .ok profile) (topicKind : TopicKind) :
    AliasMapOk (profile.aliasesFor topicKind) := by
  obtain ⟨raw, -, hok, haliases, -⟩ := loadEventContractProfile_ok rt h hprofile
  cases topicKind with
  | ledger =>
    rw [EventContractProfile.aliasesFor, haliases]
    exact hok.ledgerAliases
  | paymentOrder =>
    rw [EventContractProfile.aliasesFor, haliases]
    exact hok.orderAliases

/-! ## The shipped profiles -/

/-- A profile of `configs/event_profiles.yaml`, under any configuration. -/
def Shipped (profile : EventContractProfile) : Prop :=
  ∃ config, loadEventContractProfile rt shippedProfiles config = .ok profile

variable {rt} in
theorem Shipped.fields {profile : EventContractProfile} (h : Shipped rt profile) :
    profile.aliases = canonicalV1.aliases ∧ profile.coreRequired = canonicalV1.coreRequired := by
  obtain ⟨config, hprofile⟩ := h
  obtain ⟨raw, hraw, -, haliases, hrequired⟩ :=
    loadEventContractProfile_ok rt (loadEventProfiles_shipped fun _ => []) hprofile
  have hshipped : ∃ topics, raw = shippedProfile topics := by
    have hmem := Assoc.mem_of_lookup hraw
    simp only [shippedProfiles, List.mem_cons, Prod.mk.injEq, List.not_mem_nil, or_false] at hmem
    rcases hmem with ⟨-, rfl⟩ | ⟨-, rfl⟩
    · exact ⟨_, rfl⟩
    · exact ⟨_, rfl⟩
  obtain ⟨topics, rfl⟩ := hshipped
  exact ⟨haliases, hrequired⟩

theorem load_canonicalV1 : loadEventContractProfile rt shippedProfiles
    ⟨py "canonical-v1", py "ledger.entry.upserted", py "payment.order.upserted"⟩ =
      .ok canonicalV1 := by
  rfl

theorem shipped_canonicalV1 : Shipped rt canonicalV1 := ⟨_, load_canonicalV1 rt⟩

end TxLookup.Consumer
