import TxLookup.Common.EventProfiles
import TxLookup.Library.JsonText
import TxLookup.Library.PyNumeral

/-!
# The configuration

Every setting is read from the environment, with a default. Five settings must
have one of a few values, SASL needs credentials, the two topics differ and the
numbers are integers; otherwise a `ValueError` names what is wrong. The first
failing check decides, in the order of the source.
-/
namespace TxLookup.Common.Config

open Library Library.PyText Consumer Common

abbrev Env := List (PyStr × PyStr)

structure AppConfig where
  appEnv : PyStr
  logLevel : PyStr
  databaseUrl : PyStr
  kafkaBrokers : PyStr
  kafkaSecurityProtocol : PyStr
  kafkaSaslMechanism : PyStr
  kafkaSaslUsername : PyStr
  kafkaSaslPassword : PyStr
  kafkaSslCaLocation : PyStr
  serviceName : PyStr
  consumerGroupId : PyStr
  ledgerTopic : PyStr
  paymentOrderTopic : PyStr
  eventProfileId : PyStr
  effectiveLedgerTopic : PyStr
  effectivePaymentOrderTopic : PyStr
  dlqPath : PyStr
  dlqBackend : PyStr
  dlqRetentionDays : Int
  consumerPollTimeoutMs : Int
  consumerOffsetReset : PyStr
  authMode : PyStr
  authIssuer : PyStr
  authAudience : PyStr
  authJwksUrl : PyStr
  authAlgorithm : PyStr
  authRolesClaim : PyStr
  authActorIdClaims : PyStr
  auditMaskQueryKeys : PyStr
  dbPoolSize : Int
  dbMaxOverflow : Int
  dbPoolTimeout : Int
  dbPoolRecycle : Int
  appinsightsConnectionString : PyStr
  dbSlowQueryMs : Int

def allowedEnvs : List PyStr := [py "local", py "dev", py "prod"]
def allowedAuthModes : List PyStr := [py "disabled", py "oidc"]
def allowedKafkaSecurityProtocols : List PyStr :=
  [py "PLAINTEXT", py "SSL", py "SASL_PLAINTEXT", py "SASL_SSL"]
def allowedDlqBackends : List PyStr := [py "file", py "db"]

def defaultEventProfileId : PyStr := py "canonical-v1"
def defaultTopics : PerTopic PyStr := ⟨py "ledger.entry.upserted", py "payment.order.upserted"⟩

variable (rt : PyRuntime) (source : Env)

def getEnv (key default : PyStr) : PyStr :=
  match source.lookup key with
  | some value => strip value
  | none => default

/-- `int(text)`; a text of more than 4300 digits raises `ValueError` as well. -/
def intOfText (text : PyStr) : Option Int :=
  (integerText text).bind fun (negative, digits) =>
    if digits.length ≤ JsonText.maxStrDigits then some (signed negative (digitsValue digits)) else none

def getInt (key : PyStr) (default : Int) : Except PyExc Int :=
  match source.lookup key with
  | none => .ok default
  | some value =>
    match intOfText (strip value) with
    | some n => .ok n
    | none => .error (valueError (key ++ py " must be an integer (got " ++ rt.reprOf (.str value) ++
        py ")"))

def getOptionalEnv (key : PyStr) : Option PyStr :=
  match source.lookup key with
  | none => none
  | some value => if strip value = [] then none else some (strip value)

/-- `str(sorted(texts))`. -/
def sortedRepr (texts : List PyStr) : PyStr :=
  py "[" ++ List.intercalate (py ", ")
    ((texts.mergeSort fun a b => decide (a ≤ b)).map fun text => rt.reprOf (.str text)) ++ py "]"

/-- The check of a setting that must have one of a few values. -/
def requireOneOf (key : PyStr) (allowed : List PyStr) (value : PyStr) : Except PyExc Unit :=
  if value ∈ allowed then .ok ()
  else .error (valueError (key ++ py " must be one of " ++ sortedRepr rt allowed ++ py " (got " ++
    rt.reprOf (.str value) ++ py ")"))

def usesSasl (protocol : PyStr) : Bool := (py "SASL").isPrefixOf protocol

def requireCredentials (protocol username password : PyStr) : Except PyExc Unit :=
  if usesSasl protocol = true ∧ (username = [] ∨ password = []) then
    .error (valueError (py ("KAFKA_SASL_USERNAME and KAFKA_SASL_PASSWORD are required " ++
      "when KAFKA_SECURITY_PROTOCOL uses SASL")))
  else .ok ()

/-- `profiles.get(event_profile_id)`, which must not be `None`. -/
def requireProfile (profiles : List (PyStr × RawProfile)) (profileId : PyStr) :
    Except PyExc RawProfile :=
  match profiles.lookup profileId with
  | some profile => .ok profile
  | none => .error (valueError (py "EVENT_PROFILE_ID must be one of " ++
      sortedRepr rt (Assoc.keys profiles) ++ py " (got " ++ rt.reprOf (.str profileId) ++ py ")"))

/-- The topic of the environment, else of the profile, else the default. -/
def effectiveTopic (key topic default : PyStr) : PyStr :=
  match getOptionalEnv source key with
  | some value => value
  | none => if strip topic = [] then default else strip topic

def requireDistinct (ledger paymentOrder : PyStr) : Except PyExc Unit :=
  if ledger = paymentOrder then
    .error (valueError (py "effective ledger/payment topics must be distinct (got " ++
      rt.reprOf (.str ledger) ++ py ")"))
  else .ok ()

/-- `env or os.environ`. -/
def effectiveEnv (environ : Env) : Option Env → Env
  | some (entry :: entries) => entry :: entries
  | some [] | none => environ

/-- `load_config`; `loaded` is what `load_event_profiles` returns or raises. -/
def loadConfig (loaded : Except PyExc (List (PyStr × RawProfile))) (environ : Env)
    (env : Option Env) : Except PyExc AppConfig := do
  let source := effectiveEnv environ env
  let appEnv := getEnv source (py "APP_ENV") (py "local")
  requireOneOf rt (py "APP_ENV") allowedEnvs appEnv
  let authMode := getEnv source (py "AUTH_MODE") (py "disabled")
  requireOneOf rt (py "AUTH_MODE") allowedAuthModes authMode
  let kafkaSecurityProtocol := upper (getEnv source (py "KAFKA_SECURITY_PROTOCOL") (py "PLAINTEXT"))
  requireOneOf rt (py "KAFKA_SECURITY_PROTOCOL") allowedKafkaSecurityProtocols kafkaSecurityProtocol
  let kafkaSaslMechanism := getEnv source (py "KAFKA_SASL_MECHANISM") (py "PLAIN")
  let kafkaSaslUsername := getEnv source (py "KAFKA_SASL_USERNAME") []
  let kafkaSaslPassword := getEnv source (py "KAFKA_SASL_PASSWORD") []
  requireCredentials kafkaSecurityProtocol kafkaSaslUsername kafkaSaslPassword
  let dlqBackendDefault := if appEnv = py "prod" then py "db" else py "file"
  let dlqBackend := lower (getEnv source (py "DLQ_BACKEND") dlqBackendDefault)
  requireOneOf rt (py "DLQ_BACKEND") allowedDlqBackends dlqBackend
  let eventProfileId := getEnv source (py "EVENT_PROFILE_ID") defaultEventProfileId
  let profiles ← loaded
  let profile ← requireProfile rt profiles eventProfileId
  let effectiveLedgerTopic :=
    effectiveTopic source (py "LEDGER_TOPIC") profile.topics.ledger defaultTopics.ledger
  let effectivePaymentOrderTopic := effectiveTopic source (py "PAYMENT_ORDER_TOPIC")
    profile.topics.paymentOrder defaultTopics.paymentOrder
  requireDistinct rt effectiveLedgerTopic effectivePaymentOrderTopic
  let dlqRetentionDays ← getInt rt source (py "DLQ_RETENTION_DAYS") 14
  let consumerPollTimeoutMs ← getInt rt source (py "CONSUMER_POLL_TIMEOUT_MS") 1000
  let dbPoolSize ← getInt rt source (py "DB_POOL_SIZE") 5
  let dbMaxOverflow ← getInt rt source (py "DB_MAX_OVERFLOW") 10
  let dbPoolTimeout ← getInt rt source (py "DB_POOL_TIMEOUT") 30
  let dbPoolRecycle ← getInt rt source (py "DB_POOL_RECYCLE") 1800
  let dbSlowQueryMs ← getInt rt source (py "DB_SLOW_QUERY_MS") 200
  return {
    appEnv
    logLevel := getEnv source (py "LOG_LEVEL") (py "INFO")
    databaseUrl :=
      getEnv source (py "DATABASE_URL") (py "postgresql+psycopg://bo:bo@localhost:5432/bo")
    kafkaBrokers := getEnv source (py "KAFKA_BROKERS") (py "localhost:9092")
    kafkaSecurityProtocol, kafkaSaslMechanism, kafkaSaslUsername, kafkaSaslPassword
    kafkaSslCaLocation := getEnv source (py "KAFKA_SSL_CA_LOCATION") []
    serviceName := getEnv source (py "SERVICE_NAME") (py "tx-lookup-service")
    consumerGroupId := getEnv source (py "KAFKA_GROUP_ID") (py "bo-sync-consumer")
    ledgerTopic := effectiveLedgerTopic
    paymentOrderTopic := effectivePaymentOrderTopic
    eventProfileId, effectiveLedgerTopic, effectivePaymentOrderTopic
    dlqPath := getEnv source (py "DLQ_PATH") (py "./dlq/failed_events.jsonl")
    dlqBackend, dlqRetentionDays, consumerPollTimeoutMs
    consumerOffsetReset := getEnv source (py "CONSUMER_OFFSET_RESET") (py "earliest")
    authMode
    authIssuer := getEnv source (py "AUTH_ISSUER") []
    authAudience := getEnv source (py "AUTH_AUDIENCE") []
    authJwksUrl := getEnv source (py "AUTH_JWKS_URL") []
    authAlgorithm := getEnv source (py "AUTH_ALGORITHM") (py "RS256")
    authRolesClaim := getEnv source (py "AUTH_ROLES_CLAIM") (py "roles,scp")
    authActorIdClaims := getEnv source (py "AUTH_ACTOR_ID_CLAIMS") (py "oid,sub")
    auditMaskQueryKeys := getEnv source (py "AUDIT_MASK_QUERY_KEYS") (py "access_token,token")
    dbPoolSize, dbMaxOverflow, dbPoolTimeout, dbPoolRecycle
    appinsightsConnectionString := getEnv source (py "APPLICATIONINSIGHTS_CONNECTION_STRING") []
    dbSlowQueryMs }

/-! ## When a configuration loads -/

def appEnvOf : PyStr := getEnv source (py "APP_ENV") (py "local")

def authModeOf : PyStr := getEnv source (py "AUTH_MODE") (py "disabled")

def protocolOf : PyStr := upper (getEnv source (py "KAFKA_SECURITY_PROTOCOL") (py "PLAINTEXT"))

def dlqBackendOf : PyStr :=
  lower (getEnv source (py "DLQ_BACKEND")
    (if appEnvOf source = py "prod" then py "db" else py "file"))

def profileIdOf : PyStr := getEnv source (py "EVENT_PROFILE_ID") defaultEventProfileId

def topicsOf (profile : RawProfile) : PerTopic PyStr where
  ledger := effectiveTopic source (py "LEDGER_TOPIC") profile.topics.ledger defaultTopics.ledger
  paymentOrder := effectiveTopic source (py "PAYMENT_ORDER_TOPIC") profile.topics.paymentOrder
    defaultTopics.paymentOrder

/-- The settings that are read as integers. -/
def intSettings : List PyStr :=
  [py "DLQ_RETENTION_DAYS", py "CONSUMER_POLL_TIMEOUT_MS", py "DB_POOL_SIZE", py "DB_MAX_OVERFLOW",
    py "DB_POOL_TIMEOUT", py "DB_POOL_RECYCLE", py "DB_SLOW_QUERY_MS"]

/-- What an operator has to provide for a start. -/
structure Acceptable (loaded : Except PyExc (List (PyStr × RawProfile))) (source : Env) : Prop where
  appEnv : appEnvOf source ∈ allowedEnvs
  authMode : authModeOf source ∈ allowedAuthModes
  protocol : protocolOf source ∈ allowedKafkaSecurityProtocols
  credentials : usesSasl (protocolOf source) = true →
    getEnv source (py "KAFKA_SASL_USERNAME") [] ≠ [] ∧
      getEnv source (py "KAFKA_SASL_PASSWORD") [] ≠ []
  dlqBackend : dlqBackendOf source ∈ allowedDlqBackends
  profile : ∃ profiles profile, loaded = .ok profiles ∧
    profiles.lookup (profileIdOf source) = some profile ∧
      (topicsOf source profile).ledger ≠ (topicsOf source profile).paymentOrder
  integers : ∀ key ∈ intSettings, ∀ value, source.lookup key = some value →
    (intOfText (strip value)).isSome = true

variable {rt source}

theorem requireOneOf_ok {key : PyStr} {allowed : List PyStr} {value : PyStr} :
    requireOneOf rt key allowed value = .ok () ↔ value ∈ allowed := by
  unfold requireOneOf
  split_ifs with h <;> simp [h]

theorem requireCredentials_ok {protocol username password : PyStr} :
    requireCredentials protocol username password = .ok () ↔
      (usesSasl protocol = true → username ≠ [] ∧ password ≠ []) := by
  unfold requireCredentials
  split_ifs with h
  · simp only [false_iff, Classical.not_imp]
    exact ⟨h.1, fun hne => h.2.elim hne.1 hne.2⟩
  · simp only [true_iff]
    intro hsasl
    rw [not_and, not_or] at h
    exact h hsasl

theorem requireProfile_ok {profiles : List (PyStr × RawProfile)} {profileId : PyStr}
    {profile : RawProfile} :
    requireProfile rt profiles profileId = .ok profile ↔ profiles.lookup profileId = some profile := by
  unfold requireProfile
  cases profiles.lookup profileId <;> simp

theorem requireDistinct_ok {ledger paymentOrder : PyStr} :
    requireDistinct rt ledger paymentOrder = .ok () ↔ ledger ≠ paymentOrder := by
  unfold requireDistinct
  split_ifs with h <;> simp [h]

/-- A number is read unless its text is there and is no integer. -/
theorem getInt_ok {key : PyStr} {default : Int} :
    (∃ n, getInt rt source key default = .ok n) ↔
      ∀ value, source.lookup key = some value → (intOfText (strip value)).isSome = true := by
  unfold getInt
  cases hvalue : source.lookup key with
  | none => simp
  | some value =>
    cases hint : intOfText (strip value) <;> simp [hint]

/-- What the later parts of the program rely on in a loaded configuration. -/
structure Loaded (profiles : List (PyStr × RawProfile)) (source : Env) (config : AppConfig) : Prop where
  protocol : config.kafkaSecurityProtocol = protocolOf source
  username : config.kafkaSaslUsername = getEnv source (py "KAFKA_SASL_USERNAME") []
  password : config.kafkaSaslPassword = getEnv source (py "KAFKA_SASL_PASSWORD") []
  dlqBackend : config.dlqBackend = dlqBackendOf source
  authMode : config.authMode = authModeOf source
  profileId : config.eventProfileId = profileIdOf source
  topics : ∃ profile, profiles.lookup config.eventProfileId = some profile ∧
    config.effectiveLedgerTopic = (topicsOf source profile).ledger ∧
      config.effectivePaymentOrderTopic = (topicsOf source profile).paymentOrder

variable {loaded : Except PyExc (List (PyStr × RawProfile))} {environ : Env} {env : Option Env}

/-- A configuration that loads has passed every check. -/
theorem acceptable_of_loadConfig {config : AppConfig}
    (h : loadConfig rt loaded environ env = .ok config) :
    Acceptable loaded (effectiveEnv environ env) ∧
      ∃ profiles, loaded = .ok profiles ∧ Loaded profiles (effectiveEnv environ env) config := by
  obtain ⟨_, henv, h⟩ := bind_eq_ok.mp h
  obtain ⟨_, hauth, h⟩ := bind_eq_ok.mp h
  obtain ⟨_, hprotocol, h⟩ := bind_eq_ok.mp h
  obtain ⟨_, hcredentials, h⟩ := bind_eq_ok.mp h
  obtain ⟨_, hbackend, h⟩ := bind_eq_ok.mp h
  obtain ⟨profiles, hprofiles, h⟩ := bind_eq_ok.mp h
  obtain ⟨profile, hprofile, h⟩ := bind_eq_ok.mp h
  obtain ⟨_, hdistinct, h⟩ := bind_eq_ok.mp h
  obtain ⟨_, hretention, h⟩ := bind_eq_ok.mp h
  obtain ⟨_, htimeout, h⟩ := bind_eq_ok.mp h
  obtain ⟨_, hsize, h⟩ := bind_eq_ok.mp h
  obtain ⟨_, hoverflow, h⟩ := bind_eq_ok.mp h
  obtain ⟨_, hpool, h⟩ := bind_eq_ok.mp h
  obtain ⟨_, hrecycle, h⟩ := bind_eq_ok.mp h
  obtain ⟨_, hslow, h⟩ := bind_eq_ok.mp h
  cases h
  have hlookup := requireProfile_ok.mp hprofile
  refine ⟨⟨requireOneOf_ok.mp henv, requireOneOf_ok.mp hauth, requireOneOf_ok.mp hprotocol,
    requireCredentials_ok.mp hcredentials, requireOneOf_ok.mp hbackend,
    ⟨profiles, profile, hprofiles, hlookup, requireDistinct_ok.mp hdistinct⟩, ?_⟩,
    profiles, hprofiles, ⟨rfl, rfl, rfl, rfl, rfl, rfl, profile, hlookup, rfl, rfl⟩⟩
  simp only [intSettings, List.forall_mem_cons, List.not_mem_nil, false_implies, implies_true,
    and_true]
  exact ⟨getInt_ok.mp ⟨_, hretention⟩, getInt_ok.mp ⟨_, htimeout⟩, getInt_ok.mp ⟨_, hsize⟩,
    getInt_ok.mp ⟨_, hoverflow⟩, getInt_ok.mp ⟨_, hpool⟩, getInt_ok.mp ⟨_, hrecycle⟩,
    getInt_ok.mp ⟨_, hslow⟩⟩

theorem exists_bind_ok {ε α β : Type} {x : Except ε α} {f : α → Except ε β} {a : α}
    (ha : x = .ok a) (h : ∃ b, f a = .ok b) : ∃ b, (x >>= f) = .ok b := by
  obtain ⟨b, hb⟩ := h
  exact ⟨b, bind_eq_ok.mpr ⟨a, ha, hb⟩⟩

/-- Checks that all pass let the configuration load. -/
theorem loadConfig_of_acceptable (h : Acceptable loaded (effectiveEnv environ env)) :
    ∃ config, loadConfig rt loaded environ env = .ok config := by
  obtain ⟨profiles, profile, hprofiles, hlookup, hdistinct⟩ := h.profile
  have hint : ∀ key ∈ intSettings, ∀ default, ∃ n,
      getInt rt (effectiveEnv environ env) key default = .ok n :=
    fun key hkey default => getInt_ok.mpr (h.integers key hkey)
  obtain ⟨retention, hretention⟩ := hint (py "DLQ_RETENTION_DAYS") (by decide) 14
  obtain ⟨timeout, htimeout⟩ := hint (py "CONSUMER_POLL_TIMEOUT_MS") (by decide) 1000
  obtain ⟨size, hsize⟩ := hint (py "DB_POOL_SIZE") (by decide) 5
  obtain ⟨overflow, hoverflow⟩ := hint (py "DB_MAX_OVERFLOW") (by decide) 10
  obtain ⟨pool, hpool⟩ := hint (py "DB_POOL_TIMEOUT") (by decide) 30
  obtain ⟨recycle, hrecycle⟩ := hint (py "DB_POOL_RECYCLE") (by decide) 1800
  obtain ⟨slow, hslow⟩ := hint (py "DB_SLOW_QUERY_MS") (by decide) 200
  refine exists_bind_ok (requireOneOf_ok.mpr h.appEnv) ?_
  refine exists_bind_ok (requireOneOf_ok.mpr h.authMode) ?_
  refine exists_bind_ok (requireOneOf_ok.mpr h.protocol) ?_
  refine exists_bind_ok (requireCredentials_ok.mpr h.credentials) ?_
  refine exists_bind_ok (requireOneOf_ok.mpr h.dlqBackend) ?_
  refine exists_bind_ok hprofiles ?_
  refine exists_bind_ok (requireProfile_ok.mpr hlookup) ?_
  refine exists_bind_ok (requireDistinct_ok.mpr hdistinct) ?_
  refine exists_bind_ok hretention ?_
  refine exists_bind_ok htimeout ?_
  refine exists_bind_ok hsize ?_
  refine exists_bind_ok hoverflow ?_
  refine exists_bind_ok hpool ?_
  refine exists_bind_ok hrecycle ?_
  exact exists_bind_ok hslow ⟨_, rfl⟩

theorem loadConfig_iff : (∃ config, loadConfig rt loaded environ env = .ok config) ↔
    Acceptable loaded (effectiveEnv environ env) :=
  ⟨fun ⟨_, h⟩ => (acceptable_of_loadConfig h).1, loadConfig_of_acceptable⟩

end TxLookup.Common.Config
