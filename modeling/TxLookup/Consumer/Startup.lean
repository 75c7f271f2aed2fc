import TxLookup.Common.Config
import TxLookup.Consumer.ContractProfile

/-!
# The start of the consumer

The configuration is loaded, the contract profile is built from it, and the
client gets its settings. Whatever the environment and the profile document,
nothing after `load_config` rejects what it has accepted: the consumer starts
exactly if every setting is acceptable, and then with a profile the contract
can be read by.
-/
namespace TxLookup.Consumer

open Library Library.PyText Common Common.Config

inductive KafkaValue where
  | text (value : PyStr)
  | flag (value : Bool)
  deriving DecidableEq

abbrev KafkaConfig := List (PyStr × KafkaValue)

/-- `if condition: settings[key] = value`. -/
def setIf (condition : Bool) (key value : PyStr) (settings : KafkaConfig) : KafkaConfig :=
  if condition then Assoc.set settings key (.text value) else settings

def buildKafkaClientConfig (config : Config.AppConfig) : KafkaConfig :=
  let sasl := usesSasl config.kafkaSecurityProtocol
  [(py "bootstrap.servers", .text config.kafkaBrokers)]
  |> setIf (!config.kafkaSecurityProtocol.isEmpty) (py "security.protocol")
    config.kafkaSecurityProtocol
  |> setIf sasl (py "sasl.mechanism") config.kafkaSaslMechanism
  |> setIf sasl (py "sasl.username") config.kafkaSaslUsername
  |> setIf sasl (py "sasl.password") config.kafkaSaslPassword
  |> setIf (!config.kafkaSslCaLocation.isEmpty) (py "ssl.ca.location") config.kafkaSslCaLocation

/-- The settings `_build_consumer` hands to the client. -/
def buildConsumer (config : Config.AppConfig) : KafkaConfig :=
  Assoc.update (buildKafkaClientConfig config)
    [(py "group.id", .text config.consumerGroupId),
      (py "enable.auto.commit", .flag false),
      (py "auto.offset.reset", .text config.consumerOffsetReset)]

structure ConsumerRuntime where
  config : Config.AppConfig
  profile : EventContractProfile

variable (rt : PyRuntime) (reprOf : Yaml → PyStr)

/-- `_build_runtime`, over the profiles `load_event_contract_profile` loads. -/
def buildRuntime (profiles : List (PyStr × RawProfile)) (config : Config.AppConfig) :
    Except PyExc ConsumerRuntime := do
  let profile ← loadEventContractProfile rt profiles
    ⟨config.eventProfileId, config.effectiveLedgerTopic, config.effectivePaymentOrderTopic⟩
  if profile.topics.ledger = profile.topics.paymentOrder then
    .error (valueError (py "effective ledger/payment topics must be distinct (got " ++
      rt.reprOf (.str profile.topics.ledger) ++ py ")"))
  else return ⟨config, profile⟩

/-- What the loop of `run_consumer` starts with. -/
structure Started where
  runtime : ConsumerRuntime
  clientConfig : KafkaConfig
  topics : List PyStr

/-- `run_consumer` up to its subscription; the document is read twice. -/
def startUp (document : Yaml) (environ : Env) (env : Option Env) : Except PyExc Started := do
  let config ← loadConfig rt (loadEventProfiles reprOf document) environ env
  let profiles ← loadEventProfiles reprOf document
  let runtime ← buildRuntime rt profiles config
  return {
    runtime
    clientConfig := buildConsumer config
    topics := [runtime.profile.topics.ledger, runtime.profile.topics.paymentOrder] }

/-- A start the loop can rely on: messages of the subscribed topics have a kind,
the contract of the kind is well formed, offsets are committed by the loop only,
and credentials are sent exactly over SASL. -/
structure WellStarted (started : Started) : Prop where
  trimmed : ∀ topic ∈ started.topics, Trimmed topic
  kinds : ∀ topic ∈ started.topics,
    ∃ kind, started.runtime.profile.topicKind topic = some kind
  aliases : ∀ kind, AliasMapOk (started.runtime.profile.aliasesFor kind)
  required : ∀ kind, ∀ field ∈ started.runtime.profile.coreRequiredFor kind, Trimmed field
  settings : (Assoc.keys started.clientConfig).Nodup
  autoCommit : started.clientConfig.lookup (py "enable.auto.commit") = some (.flag false)
  protocol : ∃ protocol ∈ allowedKafkaSecurityProtocols,
    started.clientConfig.lookup (py "security.protocol") = some (.text protocol) ∧
    ∀ key ∈ [py "sasl.username", py "sasl.password"],
      if usesSasl protocol then
        ∃ value, value ≠ [] ∧ started.clientConfig.lookup key = some (.text value)
      else started.clientConfig.lookup key = none

variable {rt reprOf}

/-! ## The settings of the client -/

theorem lookup_setIf (condition : Bool) (key value : PyStr) (settings : KafkaConfig) (k : PyStr) :
    (setIf condition key value settings).lookup k =
      if condition = true ∧ k = key then some (.text value) else settings.lookup k := by
  cases condition with
  | false => simp [setIf]
  | true => simp [setIf, Assoc.lookup_set]

theorem nodup_setIf {settings : KafkaConfig} (h : (Assoc.keys settings).Nodup) (condition : Bool)
    (key value : PyStr) : (Assoc.keys (setIf condition key value settings)).Nodup := by
  cases condition with
  | false => exact h
  | true => exact Assoc.nodup_keys_set h key _

theorem nodup_buildKafkaClientConfig (config : Config.AppConfig) :
    (Assoc.keys (buildKafkaClientConfig config)).Nodup := by
  refine nodup_setIf (nodup_setIf (nodup_setIf (nodup_setIf (nodup_setIf ?_ _ _ _) _ _ _) _ _ _)
    _ _ _) _ _ _
  exact List.nodup_singleton _

/-- The settings only the consumer has. -/
def consumerSettings (config : Config.AppConfig) : KafkaConfig :=
  [(py "group.id", .text config.consumerGroupId),
    (py "enable.auto.commit", .flag false),
    (py "auto.offset.reset", .text config.consumerOffsetReset)]

theorem lookup_buildConsumer (config : Config.AppConfig) (key : PyStr) :
    (buildConsumer config).lookup key =
      ((consumerSettings config).lookup key).or ((buildKafkaClientConfig config).lookup key) := by
  refine Assoc.lookup_update ?_ _ _
  simp only [Assoc.keys, List.map_cons, List.map_nil]
  decide

theorem autoCommit_disabled (config : Config.AppConfig) :
    (buildConsumer config).lookup (py "enable.auto.commit") = some (.flag false) := by
  rw [lookup_buildConsumer]
  rfl

/-- A setting the consumer does not add comes from the client settings. -/
theorem lookup_clientSetting (config : Config.AppConfig) {key : PyStr}
    (h : (consumerSettings config).lookup key = none) :
    (buildConsumer config).lookup key = (buildKafkaClientConfig config).lookup key := by
  rw [lookup_buildConsumer, h, Option.none_or]

theorem lookup_protocol {config : Config.AppConfig} (h : config.kafkaSecurityProtocol ≠ []) :
    (buildConsumer config).lookup (py "security.protocol") =
      some (.text config.kafkaSecurityProtocol) := by
  rw [lookup_clientSetting config rfl]
  simp +decide [buildKafkaClientConfig, lookup_setIf, h]

theorem lookup_username (config : Config.AppConfig) :
    (buildConsumer config).lookup (py "sasl.username") =
      if usesSasl config.kafkaSecurityProtocol then some (.text config.kafkaSaslUsername)
      else none := by
  rw [lookup_clientSetting config rfl]
  simp +decide [buildKafkaClientConfig, lookup_setIf, Assoc.lookup_cons]

theorem lookup_password (config : Config.AppConfig) :
    (buildConsumer config).lookup (py "sasl.password") =
      if usesSasl config.kafkaSecurityProtocol then some (.text config.kafkaSaslPassword)
      else none := by
  rw [lookup_clientSetting config rfl]
  simp +decide [buildKafkaClientConfig, lookup_setIf, Assoc.lookup_cons]

/-! ## The profile of a loaded configuration -/

theorem effectiveTopic_trimmed {source : Env} {key topic default : PyStr} (h : Trimmed default) :
    Trimmed (effectiveTopic source key topic default) := by
  unfold effectiveTopic getOptionalEnv
  cases source.lookup key with
  | none =>
    simp only
    split_ifs with htopic
    · exact h
    · exact ⟨strip_strip topic, htopic⟩
  | some value =>
    by_cases hvalue : strip value = []
    · simp only [hvalue, if_true]
      split_ifs with htopic
      · exact h
      · exact ⟨strip_strip topic, htopic⟩
    · simp only [hvalue, if_false]
      exact ⟨strip_strip value, hvalue⟩

/-- The contract of a raw profile under the topics of a configuration. -/
def contractOf (raw : RawProfile) (config : Config.AppConfig)
    (distinct : config.effectiveLedgerTopic ≠ config.effectivePaymentOrderTopic) :
    EventContractProfile where
  profileId := config.eventProfileId
  topics := ⟨config.effectiveLedgerTopic, config.effectivePaymentOrderTopic⟩
  aliases := ⟨raw.aliases.ledger, raw.aliases.paymentOrder⟩
  coreRequired := ⟨raw.coreRequired.ledger, raw.coreRequired.paymentOrder⟩
  distinct := distinct

/-- A loaded configuration always gives a runtime. -/
theorem buildRuntime_of_loaded {document : Yaml} {profiles : List (PyStr × RawProfile)}
    (hprofiles : loadEventProfiles reprOf document = .ok profiles) {source : Env}
    {config : Config.AppConfig} (hloaded : Loaded profiles source config)
    (hdistinct : config.effectiveLedgerTopic ≠ config.effectivePaymentOrderTopic) :
    ∃ profile : EventContractProfile, buildRuntime rt profiles config = .ok ⟨config, profile⟩ ∧
      profile.topics = ⟨config.effectiveLedgerTopic, config.effectivePaymentOrderTopic⟩ ∧
      (∀ kind, AliasMapOk (profile.aliasesFor kind)) ∧
      ∀ kind, ∀ field ∈ profile.coreRequiredFor kind, Trimmed field := by
  obtain ⟨raw, hraw, -, -⟩ := hloaded.topics
  have hok := loadEventProfiles_ok hprofiles hraw
  refine ⟨contractOf raw config hdistinct, ?_, rfl, ?_, ?_⟩
  · have hload : loadEventContractProfile rt profiles
        ⟨config.eventProfileId, config.effectiveLedgerTopic, config.effectivePaymentOrderTopic⟩ =
          .ok (contractOf raw config hdistinct) := by
      rw [loadEventContractProfile, hraw]
      simp only [dif_neg hdistinct, toAliasMap_of_ok hok.ledgerAliases,
        toAliasMap_of_ok hok.orderAliases, toCoreRequired_of_trimmed hok.ledgerRequired,
        toCoreRequired_of_trimmed hok.orderRequired]
      rfl
    unfold buildRuntime
    rw [hload]
    exact if_neg hdistinct
  · intro kind
    cases kind with
    | ledger => exact hok.ledgerAliases
    | paymentOrder => exact hok.orderAliases
  · intro kind
    cases kind with
    | ledger => exact hok.ledgerRequired
    | paymentOrder => exact hok.orderRequired

/-! ## Starts -/

theorem distinct_of_loaded {loaded : Except PyExc (List (PyStr × RawProfile))} {source : Env}
    {profiles : List (PyStr × RawProfile)} {config : Config.AppConfig}
    (hprofiles : loaded = .ok profiles) (hacceptable : Acceptable loaded source)
    (hloaded : Loaded profiles source config) :
    config.effectiveLedgerTopic ≠ config.effectivePaymentOrderTopic := by
  obtain ⟨profile, hlookup, hledger, horder⟩ := hloaded.topics
  obtain ⟨profiles', profile', hprofiles', hlookup', hdistinct⟩ := hacceptable.profile
  rw [hprofiles] at hprofiles'
  cases hprofiles'
  rw [← hloaded.profileId, hlookup] at hlookup'
  cases hlookup'
  rw [hledger, horder]
  exact hdistinct

theorem wellStarted {document : Yaml} {environ : Env} {env : Option Env}
    {profiles : List (PyStr × RawProfile)} {config : Config.AppConfig}
    (hacceptable : Acceptable (loadEventProfiles reprOf document) (effectiveEnv environ env))
    (hloaded : Loaded profiles (effectiveEnv environ env) config)
    {profile : EventContractProfile}
    (htopics : profile.topics = ⟨config.effectiveLedgerTopic, config.effectivePaymentOrderTopic⟩)
    (haliases : ∀ kind, AliasMapOk (profile.aliasesFor kind))
    (hrequired : ∀ kind, ∀ field ∈ profile.coreRequiredFor kind, Trimmed field) :
    WellStarted ⟨⟨config, profile⟩, buildConsumer config,
      [profile.topics.ledger, profile.topics.paymentOrder]⟩ where
  trimmed := by
    obtain ⟨raw, -, hledger, horder⟩ := hloaded.topics
    simp only [htopics, hledger, horder, List.forall_mem_cons, List.not_mem_nil, false_implies,
      implies_true, and_true]
    exact ⟨effectiveTopic_trimmed (by unfold Trimmed; decide),
      effectiveTopic_trimmed (by unfold Trimmed; decide)⟩
  kinds := by
    simp only [List.forall_mem_cons, List.not_mem_nil, false_implies, implies_true, and_true]
    refine ⟨⟨.ledger, if_pos rfl⟩, ⟨.paymentOrder, ?_⟩⟩
    unfold EventContractProfile.topicKind
    rw [if_neg profile.distinct.symm, if_pos rfl]
  aliases := haliases
  required := hrequired
  settings := Assoc.nodup_keys_update (nodup_buildKafkaClientConfig config) _
  autoCommit := autoCommit_disabled config
  protocol := by
    have hallowed := hacceptable.protocol
    rw [← hloaded.protocol] at hallowed
    have hne : config.kafkaSecurityProtocol ≠ [] := by
      intro hnil
      rw [hnil] at hallowed
      revert hallowed
      decide
    refine ⟨config.kafkaSecurityProtocol, hallowed, lookup_protocol hne, ?_⟩
    simp only [List.forall_mem_cons, List.not_mem_nil, false_implies, implies_true, and_true,
      lookup_username, lookup_password]
    by_cases hsasl : usesSasl config.kafkaSecurityProtocol = true
    · have hgiven := hacceptable.credentials (hloaded.protocol ▸ hsasl)
      simp only [hsasl, if_true]
      exact ⟨⟨_, hloaded.username ▸ hgiven.1, rfl⟩, ⟨_, hloaded.password ▸ hgiven.2, rfl⟩⟩
    · simp [hsasl]

/-- The consumer starts exactly if every setting is acceptable; it is `load_config`
that raises otherwise, and a start is one the loop can rely on. -/
theorem start_up_law (rt : PyRuntime) (reprOf : Yaml → PyStr) (document : Yaml) (environ : Env)
    (env : Option Env) :
    ((∃ started, startUp rt reprOf document environ env = .ok started) ↔
      Acceptable (loadEventProfiles reprOf document) (effectiveEnv environ env)) ∧
    (∀ started, startUp rt reprOf document environ env = .ok started → WellStarted started) ∧
    ∀ exc, startUp rt reprOf document environ env = .error exc →
      loadConfig rt (loadEventProfiles reprOf document) environ env = .error exc := by
  cases hconfig : loadConfig rt (loadEventProfiles reprOf document) environ env with
  | error exc =>
    have hstart : startUp rt reprOf document environ env = .error exc := by
      unfold startUp
      rw [hconfig]
      rfl
    rw [hstart, ← @loadConfig_iff rt, hconfig]
    exact ⟨by simp, (fun started h => by cases h), (fun exc' h => by cases h; rfl)⟩
  | ok config =>
    obtain ⟨hacceptable, profiles, hprofiles, hloaded⟩ := acceptable_of_loadConfig hconfig
    have hdistinct := distinct_of_loaded hprofiles hacceptable hloaded
    obtain ⟨profile, hruntime, htopics, haliases, hrequired⟩ :=
      @buildRuntime_of_loaded rt _ _ _ hprofiles _ _ hloaded hdistinct
    have hstart : startUp rt reprOf document environ env = .ok ⟨⟨config, profile⟩,
        buildConsumer config, [profile.topics.ledger, profile.topics.paymentOrder]⟩ := by
      unfold startUp
      rw [hconfig, hprofiles]
      show (buildRuntime rt profiles config >>= _) = _
      rw [hruntime]
      rfl
    rw [hstart]
    refine ⟨⟨fun _ => hacceptable, fun _ => ⟨_, rfl⟩⟩, ?_, fun exc h => by cases h⟩
    rintro started ⟨rfl⟩
    exact wellStarted hacceptable hloaded htopics haliases hrequired

end TxLookup.Consumer
