import TxLookup.Api.Audit
import TxLookup.Api.Service
import TxLookup.Library.Transaction

/-!
# The admin endpoints

Each handler reads, assembles its response and records the lookup in one session
scope; a missing row becomes a 404 after the scope has committed. Any step can
raise, and the insert of the audit row is part of the commit. The three handlers
are one procedure with their own reads, counts and texts.
-/
namespace TxLookup.Api

open Library Library.Transaction Db Consumer

/-- The tables the handlers read and the one they write. -/
structure AdminStore where
  business : Database
  adminAuditLogs : List AdminAuditLog

/-- The steps of a handler that can fail. -/
inductive HandlerStep where
  | openSession
  | fetch
  | assemble
  | auditInsert
  | commit
  deriving DecidableEq

/-- What a call of a handler finds: configuration, clocks, the text of a refusal of
a response model, and the steps that raise, with the text of their exception. -/
structure HandlerEnv where
  collation : Collation
  config : AuthConfig
  lowerOf : PyStr → PyStr
  now : DateTime
  requestedAt : DateTime
  durationMs : Int
  errorText : ValidationError → PyStr
  fault : HandlerStep → Option PyStr

/-- What a handler has worked out before it records the lookup. -/
structure Lookup (α : Type) where
  response : Option α
  result : PyStr
  statusCode : Nat
  resultCount : Nat

namespace HandlerEnv

variable (env : HandlerEnv) {α : Type}

def raised (step : HandlerStep) : Option ApiExc := (env.fault step).map ApiExc.other

def fetch (read : Database → α) : SessionM AdminStore ApiExc α :=
  SessionM.query (env.raised .fetch) (fun store => read store.business)

def assemble (built : Except ValidationError α) : SessionM AdminStore ApiExc α :=
  SessionM.ofExcept (match env.raised .assemble with
    | some exc => .error exc
    | none => built.mapError (fun exc => .other (env.errorText exc)))

/-- `session_scope()`: nothing has happened if no session can be opened. The
insert is sent when the session commits. -/
def sessionScope (body : SessionM AdminStore ApiExc α) (store : AdminStore) :
    Except ApiExc α × AdminStore :=
  match env.raised .openSession with
  | some exc => (.error exc, store)
  | none =>
    let ended := SessionM.scope ((env.raised .auditInsert).or (env.raised .commit)) body
      ⟨store, store⟩
    (ended.1, ended.2.committed)

end HandlerEnv

def addAudit (row : AdminAuditLog) (store : AdminStore) : AdminStore :=
  { store with adminAuditLogs := recordAdminAudit store.adminAuditLogs row }

section
variable {α : Type} (env : HandlerEnv) (request : Request)

/-- The audit row of a lookup. -/
def lookupFields (action resourceType resourceId : PyStr) (lookup : Lookup α) :
    Except ApiExc AdminAuditLog :=
  buildAuditFields env.lowerOf env.config env.requestedAt (extractActor request) action resourceType
    (some resourceId) lookup.result lookup.statusCode request (some env.durationMs)
    (some lookup.resultCount)

/-- The body of the scope: the lookup and its audit row. -/
def lookupBody (action resourceType resourceId : PyStr)
    (lookup : SessionM AdminStore ApiExc (Lookup α)) : SessionM AdminStore ApiExc (Option α) := do
  let found ← lookup
  let auditFields ← SessionM.ofExcept (lookupFields env request action resourceType resourceId found)
  SessionM.execute none (addAudit auditFields)
  return found.response

/-- The scope, then the response or the 404. -/
def answer (action resourceType resourceId notFound : PyStr)
    (lookup : SessionM AdminStore ApiExc (Lookup α)) (store : AdminStore) :
    Except ApiExc α × AdminStore :=
  let ended := env.sessionScope (lookupBody env request action resourceType resourceId lookup) store
  (match ended.1 with
    | .error exc => .error exc
    | .ok none => .error (.http 404 notFound)
    | .ok (some response) => .ok response, ended.2)

/-- A lookup of at most one context. -/
def lookupOne {γ : Type} (read : Database → Option γ) (build : γ → Except ValidationError α)
    (count : γ → Nat) : SessionM AdminStore ApiExc (Lookup α) := do
  let context ← env.fetch read
  match context with
  | none => return ⟨none, py "NOT_FOUND", 404, 0⟩
  | some context =>
    let response ← env.assemble (build context)
    return ⟨some response, py "FOUND", 200, count context⟩

def getAdminTx (txId : PyStr) (store : AdminStore) : Except ApiExc AdminTxResponse × AdminStore :=
  answer env request (py "ADMIN_TX_LOOKUP") (py "TX") txId (py "tx_id not found")
    (lookupOne env (fetchAdminTxContext env.collation · txId) (buildAdminTxResponse env.now)
      (fun _ => 1)) store

def getAdminOrder (orderId : PyStr) (store : AdminStore) :
    Except ApiExc AdminOrderResponse × AdminStore :=
  answer env request (py "ADMIN_ORDER_LOOKUP") (py "PAYMENT_ORDER") orderId
    (py "order_id not found")
    (lookupOne env (fetchAdminOrderContext env.collation · orderId)
      (buildAdminOrderResponse env.now) (fun context => context.ledgerEntries.length)) store

/-- A wallet without entries is answered, so there is no 404. -/
def walletLookup (walletId : PyStr) (fromTime toTime : Option DateTime) (limit : Nat) :
    SessionM AdminStore ApiExc (Lookup AdminWalletTxResponse) := do
  let entries ← env.fetch (fetchAdminWalletTx env.collation · walletId fromTime toTime limit)
  let response ← env.assemble (buildAdminWalletTxResponse env.now walletId entries)
  return ⟨some response, if entries.isEmpty then py "EMPTY" else py "FOUND", 200, entries.length⟩

def getAdminWalletTx (walletId : PyStr) (fromTime toTime : Option DateTime) (limit : Nat)
    (store : AdminStore) : Except ApiExc AdminWalletTxResponse × AdminStore :=
  answer env request (py "ADMIN_WALLET_TX_LOOKUP") (py "WALLET") walletId []
    (walletLookup env walletId fromTime toTime limit) store

end

/-! ## Answered and audited -/

/-- One row is added, for this resource, status and count, and nothing else changes. -/
def Audited (store store' : AdminStore) (request : Request) (resourceId : PyStr)
    (statusCode resultCount : Nat) : Prop :=
  ∃ row, store' = { store with adminAuditLogs := store.adminAuditLogs ++ [row] } ∧
    row.actorId = (extractActor request).actorId ∧
    row.actorRoles = (extractActor request).actorRoles ∧
    row.resourceId = some resourceId ∧ row.statusCode = statusCode ∧
    row.resultCount = some resultCount

/-- An answer, the 404 included, comes with its audit row; another exception
leaves no row. -/
def AnsweredAudited {α : Type} (request : Request) (resourceId : PyStr) (count : α → Nat)
    (store : AdminStore) (outcome : Except ApiExc α × AdminStore) : Prop :=
  match outcome.1 with
  | .ok response => Audited store outcome.2 request resourceId 200 (count response)
  | .error (.http 404 _) => Audited store outcome.2 request resourceId 404 0
  | .error _ => outcome.2 = store

/-- The status and the count are those of the answer. -/
def Lookup.Coherent {α : Type} (lookup : Lookup α) (count : α → Nat) : Prop :=
  match lookup.response with
  | some response => lookup.statusCode = 200 ∧ lookup.resultCount = count response
  | none => lookup.statusCode = 404 ∧ lookup.resultCount = 0

section
variable {α : Type} {env : HandlerEnv} {store : AdminStore} (request : Request)

/-- A fault of a step is never an HTTP answer. -/
def Other (faults : List (Option ApiExc)) : Prop :=
  ∀ exc, some exc ∈ faults → ∃ message, exc = .other message

theorem other_raised (env : HandlerEnv) (step : HandlerStep) : Other [env.raised step] := by
  intro exc h
  obtain ⟨message, -, rfl⟩ := Option.map_eq_some_iff.mp (List.mem_singleton.mp h).symm
  exact ⟨message, rfl⟩

theorem Other.append {faults more : List (Option ApiExc)} (h : Other faults) (h' : Other more) :
    Other (faults ++ more) := by
  intro exc hmem
  rcases List.mem_append.mp hmem with hmem | hmem
  · exact h exc hmem
  · exact h' exc hmem

theorem Other.first {faults : List (Option ApiExc)} (h : Other faults) {exc : ApiExc}
    (hexc : firstFault faults = some exc) : ∃ message, exc = .other message := by
  obtain ⟨fault, hmem, heq⟩ := List.exists_of_findSome?_eq_some hexc
  cases heq
  exact h exc hmem

theorem fetch_does (read : Database → α) :
    Does (env.fetch read) store [env.raised .fetch] (read store.business) store :=
  Does.query _ _ _

/-- The refusal of a response model is a fault like any other. -/
def refusal (env : HandlerEnv) : Except ValidationError α → Option ApiExc
  | .ok _ => none
  | .error exc => some (.other (env.errorText exc))

theorem refusal_eq_none {built : Except ValidationError α} :
    refusal env built = none ↔ ∃ response, built = .ok response := by
  cases built <;> simp [refusal]

theorem other_refusal (env : HandlerEnv) (built : Except ValidationError α) :
    Other [refusal env built] := by
  intro exc h
  have h := (List.mem_singleton.mp h).symm
  cases built with
  | ok response => cases h
  | error raised =>
    cases h
    exact ⟨_, rfl⟩

/-- Assembly returns the response with its values, or raises. -/
theorem assemble_does {built : Except ValidationError α} {values : α}
    (hvalues : ∀ response, built = .ok response → response = values) :
    Does (env.assemble built) store ([env.raised .assemble] ++ [refusal env built]) values store := by
  unfold HandlerEnv.assemble
  cases hfault : env.raised .assemble with
  | some exc =>
    intro c
    refine ⟨(fun h => by cases h), fun exc' h => ⟨store, ?_⟩⟩
    cases h
    rfl
  | none =>
    intro c
    cases built with
    | ok response =>
      obtain rfl := hvalues response rfl
      exact ⟨fun _ => rfl, fun exc h => by cases h⟩
    | error raised =>
      refine ⟨(fun h => by cases h), fun exc' h => ⟨store, ?_⟩⟩
      cases h
      rfl

theorem maskQuery_other {lowerOf : PyStr → PyStr} {query : PyStr} {keys : List PyStr} {exc : ApiExc}
    (h : maskQuery lowerOf query keys = .error exc) : ∃ message, exc = .other message := by
  unfold maskQuery at h
  split_ifs at h
  dsimp only at h
  split at h
  · cases h
  · cases h
    exact ⟨_, rfl⟩

/-- The row of a lookup, or the fault of building it. -/
theorem lookupFields_spec (env : HandlerEnv) (action resourceType resourceId : PyStr)
    (found : Lookup α) :
    (∃ row, lookupFields env request action resourceType resourceId found = .ok row ∧
      row.actorId = (extractActor request).actorId ∧
      row.actorRoles = (extractActor request).actorRoles ∧ row.resourceId = some resourceId ∧
      row.statusCode = found.statusCode ∧ row.resultCount = some found.resultCount) ∨
    ∃ message, lookupFields env request action resourceType resourceId found =
      .error (.other message) := by
  cases hrow : lookupFields env request action resourceType resourceId found with
  | ok row => exact .inl ⟨row, rfl, buildAuditFields_ok hrow⟩
  | error exc =>
    right
    unfold lookupFields buildAuditFields at hrow
    cases hquery : maskQuery env.lowerOf request.query (splitCsv env.config.auditMaskQueryKeys) with
    | ok query =>
      rw [hquery] at hrow
      cases hrow
    | error exc' =>
      rw [hquery] at hrow
      cases hrow
      obtain ⟨message, rfl⟩ := maskQuery_other hquery
      exact ⟨message, rfl⟩

/-- The scope ends with the lookup's response and one row more, or it raises and
the store is as it was. -/
theorem sessionScope_lookup {lookup : SessionM AdminStore ApiExc (Lookup α)}
    {faults : List (Option ApiExc)} {found : Lookup α} (hlookup : Does lookup store faults found store)
    (hother : Other faults) (action resourceType resourceId : PyStr) :
    let ended := env.sessionScope (lookupBody env request action resourceType resourceId lookup) store
    (ended.1 = .ok found.response ∧
      Audited store ended.2 request resourceId found.statusCode found.resultCount) ∨
    ∃ message, ended = (.error (.other message), store) := by
  dsimp only
  have hcommit : Other [(env.raised .auditInsert).or (env.raised .commit)] := by
    cases h : env.raised .auditInsert with
    | none => exact other_raised env .commit
    | some exc =>
      have hinsert := other_raised env .auditInsert
      rw [h] at hinsert
      exact hinsert
  unfold HandlerEnv.sessionScope
  cases hopen : env.raised .openSession with
  | some exc =>
    have hfirst : firstFault [env.raised .openSession] = some exc := by
      rw [hopen]
      rfl
    obtain ⟨message, rfl⟩ := (other_raised env .openSession).first hfirst
    exact .inr ⟨message, rfl⟩
  | none =>
    rcases lookupFields_spec request env action resourceType resourceId found with
      ⟨row, hrow, hid, hroles, hresource, hstatus, hcount⟩ | ⟨message, hrow⟩
    · have hbody : Does (lookupBody env request action resourceType resourceId lookup) store
          (faults ++ ([] ++ ([none] ++ []))) found.response (addAudit row store) := by
        refine hlookup.bind (Does.bind (a := row) ?_ ((Does.execute none _ _).bind (Does.pure _ _)))
        rw [hrow]
        exact Does.ofOk row store
      obtain ⟨hok, herror⟩ := hbody.scope ((env.raised .auditInsert).or (env.raised .commit))
      cases hfault : firstFault (faults ++ ([] ++ ([none] ++ [])) ++
          [(env.raised .auditInsert).or (env.raised .commit)]) with
      | none =>
        rw [hok hfault]
        exact .inl ⟨rfl, row, rfl, hid, hroles, hresource, hstatus, hcount⟩
      | some exc =>
        have hnone : Other [(none : Option ApiExc)] := fun exc h => by simp at h
        obtain ⟨message, rfl⟩ := ((hother.append hnone).append hcommit).first hfault
        rw [herror _ hfault]
        exact .inr ⟨message, rfl⟩
    · have hbody : Does (lookupBody env request action resourceType resourceId lookup) store
          (faults ++ [some (.other message)]) found.response store := by
        refine hlookup.bind (Does.raise (fun s => ?_) _ _ _)
        rw [hrow]
        rfl
      have hraise : Other [some (.other message)] := fun exc h => ⟨message, by simpa using h⟩
      obtain ⟨hok, herror⟩ := hbody.scope ((env.raised .auditInsert).or (env.raised .commit))
      cases hfault : firstFault (faults ++ [some (.other message)] ++
          [(env.raised .auditInsert).or (env.raised .commit)]) with
      | none =>
        exact absurd (firstFault_eq_none.mp hfault (some (.other message)) (by simp)) (by simp)
      | some exc =>
        obtain ⟨message, rfl⟩ := ((hother.append hraise).append hcommit).first hfault
        rw [herror _ hfault]
        exact .inr ⟨message, rfl⟩

/-- A handler whose lookup is coherent answers exactly what it has recorded. -/
theorem answer_audited {lookup : SessionM AdminStore ApiExc (Lookup α)}
    {faults : List (Option ApiExc)} {found : Lookup α} (hlookup : Does lookup store faults found store)
    (hother : Other faults) {count : α → Nat} (hcoherent : found.Coherent count)
    (action resourceType resourceId notFound : PyStr) :
    AnsweredAudited request resourceId count store
      (answer env request action resourceType resourceId notFound lookup store) := by
  unfold answer
  dsimp only
  rcases sessionScope_lookup request hlookup hother action resourceType resourceId with
    ⟨hok, haudit⟩ | ⟨message, hended⟩
  · rw [hok]
    unfold Lookup.Coherent at hcoherent
    cases hresponse : found.response with
    | none =>
      rw [hresponse] at hcoherent
      rw [hcoherent.1, hcoherent.2] at haudit
      exact haudit
    | some response =>
      rw [hresponse] at hcoherent
      rw [hcoherent.1, hcoherent.2] at haudit
      exact haudit
  · rw [hended]
    rfl

/-- What a lookup has found that read this. -/
def foundOne {γ : Type} (values : γ → α) (count : γ → Nat) : Option γ → Lookup α
  | none => ⟨none, py "NOT_FOUND", 404, 0⟩
  | some context => ⟨some (values context), py "FOUND", 200, count context⟩

theorem foundOne_coherent {γ : Type} {values : γ → α} {count : γ → Nat} {counted : α → Nat}
    (hcount : ∀ context, count context = counted (values context)) (read : Option γ) :
    (foundOne values count read).Coherent counted := by
  cases read with
  | none => exact ⟨rfl, rfl⟩
  | some context => exact ⟨rfl, hcount context⟩

/-- A lookup of one context finds what it reads. If nothing fails, the model has
taken the response. -/
theorem lookupOne_does (env : HandlerEnv) (store : AdminStore) {γ : Type}
    (read : Database → Option γ) {build : γ → Except ValidationError α} {values : γ → α}
    (hvalues : ∀ context response, build context = .ok response → response = values context)
    (count : γ → Nat) :
    ∃ faults, Does (lookupOne env read build count) store faults
        (foundOne values count (read store.business)) store ∧ Other faults ∧
      (firstFault faults = none → ∀ context, read store.business = some context →
        ∃ response, build context = .ok response) := by
  cases hread : read store.business with
  | none =>
    refine ⟨[env.raised .fetch] ++ [], ?_, ?_, fun _ context h => by cases h⟩
    · refine (fetch_does read).bind ?_
      rw [hread]
      exact Does.pure _ _
    · exact (other_raised env .fetch).append (fun exc h => by cases h)
  | some context =>
    refine ⟨[env.raised .fetch] ++ ([env.raised .assemble] ++ [refusal env (build context)] ++ []),
      ?_, ?_, ?_⟩
    · refine (fetch_does read).bind ?_
      rw [hread]
      exact (assemble_does (hvalues context)).bind (Does.pure _ _)
    · exact (other_raised env .fetch).append (((other_raised env .assemble).append
        (other_refusal env _)).append (fun exc h => by cases h))
    · intro hnone context' hcontext
      cases hcontext
      exact (@refusal_eq_none _ env _).mp (firstFault_eq_none.mp hnone _ (by simp))

theorem walletLookup_does (env : HandlerEnv) (store : AdminStore) (walletId : PyStr)
    (fromTime toTime : Option DateTime) (limit : Nat) {entries : List LedgerEntry}
    (hentries : fetchAdminWalletTx env.collation store.business walletId fromTime toTime limit =
      entries) :
    ∃ faults, Does (walletLookup env walletId fromTime toTime limit) store faults
        ⟨some (adminWalletTxValues env.now walletId entries),
          if entries.isEmpty then py "EMPTY" else py "FOUND", 200, entries.length⟩ store ∧
      Other faults ∧ (firstFault faults = none →
        ∃ response, buildAdminWalletTxResponse env.now walletId entries = .ok response) := by
  refine ⟨[env.raised .fetch] ++ ([env.raised .assemble] ++
    [refusal env (buildAdminWalletTxResponse env.now walletId entries)] ++ []), ?_, ?_, ?_⟩
  · refine (fetch_does _).bind ?_
    rw [hentries]
    refine (assemble_does fun response hok => ?_).bind (Does.pure _ _)
    exact (buildAdminWalletTxResponse_eq_ok.mp hok).2
  · exact (other_raised env .fetch).append (((other_raised env .assemble).append
      (other_refusal env _)).append (fun exc h => by cases h))
  · intro hnone
    exact (@refusal_eq_none _ env _).mp (firstFault_eq_none.mp hnone _ (by simp))

end

/-- Each of the three endpoints answers exactly the lookups it has recorded. -/
theorem answered_iff_audited (env : HandlerEnv) (request : Request) (store : AdminStore)
    (id : PyStr) (fromTime toTime : Option DateTime) (limit : Nat) :
    AnsweredAudited request id (fun _ => 1) store (getAdminTx env request id store) ∧
    AnsweredAudited request id (fun response => response.ledgerEntries.length) store
      (getAdminOrder env request id store) ∧
    AnsweredAudited request id (fun response => response.entries.length) store
      (getAdminWalletTx env request id fromTime toTime limit store) := by
  refine ⟨?_, ?_, ?_⟩
  · obtain ⟨_, hdoes, hother, -⟩ := lookupOne_does env store
      (fetchAdminTxContext env.collation · id)
      (fun _ _ h => (buildAdminTxResponse_eq_ok.mp h).2) (fun _ => 1)
    refine answer_audited request hdoes hother (foundOne_coherent ?_ _) _ _ _ _
    exact fun _ => rfl
  · obtain ⟨_, hdoes, hother, -⟩ := lookupOne_does env store
      (fetchAdminOrderContext env.collation · id)
      (fun _ _ h => (buildAdminOrderResponse_eq_ok.mp h).2) (fun context => context.ledgerEntries.length)
    refine answer_audited request hdoes hother (foundOne_coherent ?_ _) _ _ _ _
    exact fun _ => (List.length_map _).symm
  · obtain ⟨_, hdoes, hother, -⟩ := walletLookup_does env store id fromTime toTime limit rfl
    exact answer_audited request hdoes hother ⟨rfl, (List.length_map _).symm⟩ _ _ _ _

end TxLookup.Api
