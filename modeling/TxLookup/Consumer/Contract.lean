import TxLookup.Consumer.Events

/-!
# The event contract

A profile names the two topics, the aliases of each canonical field and the
fields a payload must have. Normalisation writes the first non-blank alias under
the canonical name and rejects aliases that disagree.
-/
namespace TxLookup.Consumer

open Library Library.PyText

inductive TopicKind where
  | ledger
  | paymentOrder
  deriving DecidableEq, Repr

/-- The name of the kind in error texts. -/
def TopicKind.name : TopicKind → PyStr
  | .ledger => py "ledger"
  | .paymentOrder => py "payment_order"

structure TopicProfile where
  ledger : PyStr
  paymentOrder : PyStr

/-- Canonical fields with their aliases, in the order of the mapping. -/
structure AliasProfile where
  ledger : List (PyStr × List PyStr)
  paymentOrder : List (PyStr × List PyStr)

structure CoreRequiredPolicy where
  ledger : List PyStr
  paymentOrder : List PyStr

structure EventContractProfile where
  profileId : PyStr
  topics : TopicProfile
  aliases : AliasProfile
  coreRequired : CoreRequiredPolicy
  distinct : topics.ledger ≠ topics.paymentOrder

namespace EventContractProfile

variable (profile : EventContractProfile)

def topicKind (topic : PyStr) : Option TopicKind :=
  if topic = profile.topics.ledger then some .ledger
  else if topic = profile.topics.paymentOrder then some .paymentOrder
  else none

def aliasesFor : TopicKind → List (PyStr × List PyStr)
  | .ledger => profile.aliases.ledger
  | .paymentOrder => profile.aliases.paymentOrder

def coreRequiredFor : TopicKind → List PyStr
  | .ledger => profile.coreRequired.ledger
  | .paymentOrder => profile.coreRequired.paymentOrder

end EventContractProfile

/-- The profile `canonical-v1` of the configuration, with its own topics. -/
def canonicalV1 : EventContractProfile where
  profileId := py "canonical-v1"
  topics := ⟨py "ledger.entry.upserted", py "payment.order.upserted"⟩
  aliases := {
    ledger := [(py "entry_type", [py "entry_type", py "type"]),
      (py "event_time", [py "event_time", py "source_created_at", py "created_at"]),
      (py "version", [py "version", py "source_version"])]
    paymentOrder := [(py "version", [py "version", py "source_version"])] }
  coreRequired := {
    ledger := [py "tx_id", py "wallet_id", py "entry_type", py "amount", py "event_time_or_alias"]
    paymentOrder := [py "order_id", py "amount", py "status", py "created_at"] }
  distinct := by decide

structure NormalizedPayload where
  payload : PyDict
  topicKind : TopicKind
  aliasHits : List (PyStr × PyStr)

def eventTimeRequiredSentinel : PyStr := py "event_time_or_alias"

def isMissing : Json → Bool
  | .null => true
  | .str s => (strip s).isEmpty
  | _ => false

def normalizeValue : Json → Json
  | .str s => .str (strip s)
  | value => value

variable (rt : PyRuntime)

/-- The non-missing values of the aliases, in order. -/
def aliasCandidates (payload : PyDict) (aliases : List PyStr) : List (PyStr × Json) :=
  aliases.filterMap (fun name =>
    let rawValue := payload.get name
    if isMissing rawValue then none else some (name, normalizeValue rawValue))

def aliasConflict (canonicalKey : PyStr) (topicKind : TopicKind) (profileId : PyStr)
    (first other : PyStr × Json) : PyExc :=
  .contractCoreViolation (py "Alias conflict detected for " ++ topicKind.name ++ py "." ++
    canonicalKey ++ py " in profile " ++ profileId ++ py ": " ++ first.1 ++ py "=" ++
    rt.reprOf first.2 ++ py ", " ++ other.1 ++ py "=" ++ rt.reprOf other.2)

def resolveAliasValue (payload : PyDict) (aliases : List PyStr) (canonicalKey : PyStr)
    (topicKind : TopicKind) (profileId : PyStr) : Except PyExc (Option (PyStr × Json)) :=
  match aliasCandidates payload aliases with
  | [] => .ok none
  | first :: rest =>
    match rest.find? (fun other => !other.2.pyEq first.2) with
    | some other => .error (aliasConflict rt canonicalKey topicKind profileId first other)
    | none => .ok (some first)

/-- `", ".join(fields)`. -/
def joinComma : List PyStr → PyStr
  | [] => []
  | [field] => field
  | field :: fields => field ++ py ", " ++ joinComma fields

def missingCoreFields (normalized : PyDict) (requiredFields : List PyStr) : List PyStr :=
  requiredFields.filter (fun required =>
    let key := if required = eventTimeRequiredSentinel then py "event_time" else required
    isMissing (normalized.get key))

def validateCoreRequired (normalized : PyDict) (topicKind : TopicKind)
    (requiredFields : List PyStr) : Except PyExc Unit :=
  match missingCoreFields normalized requiredFields with
  | [] => .ok ()
  | missing => .error (.eventValidation (py "Missing core required fields for " ++
      topicKind.name ++ py ": " ++ joinComma missing))

/-- One canonical field: its value is written, and a hit noted for another alias. -/
def normalizeField (payload : PyDict) (topicKind : TopicKind) (profileId : PyStr)
    (acc : PyDict × List (PyStr × PyStr)) (field : PyStr × List PyStr) :
    Except PyExc (PyDict × List (PyStr × PyStr)) := do
  match ← resolveAliasValue rt payload field.2 field.1 topicKind profileId with
  | none => return acc
  | some (aliasName, value) =>
    let aliasHits := if aliasName = field.1 then acc.2 else acc.2 ++ [(field.1, aliasName)]
    return (PyDict.set acc.1 field.1 value, aliasHits)

def unsupportedTopic (topic : PyStr) (profile : EventContractProfile) : PyExc :=
  .unsupportedTopic (py "Unsupported topic " ++ rt.reprOf (.str topic) ++ py " for profile " ++
    profile.profileId)

def normalizePayloadForTopic (topic : PyStr) (payload : PyDict) (profile : EventContractProfile) :
    Except PyExc NormalizedPayload :=
  match profile.topicKind topic with
  | none => .error (unsupportedTopic rt topic profile)
  | some topicKind => do
    let (normalized, aliasHits) ← (profile.aliasesFor topicKind).foldlM
      (normalizeField rt payload topicKind profile.profileId) (payload, [])
    validateCoreRequired normalized topicKind (profile.coreRequiredFor topicKind)
    return { payload := normalized, topicKind, aliasHits }

end TxLookup.Consumer
