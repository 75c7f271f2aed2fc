import TxLookup.Api.Main
import Mathlib.Data.List.Forall2

/-!
# The server, request by request

Requests come in between the transactions of the consumer, each through
`require_admin_read` and, if that lets it pass, its handler. The audit log gains
one row for each answer and no other, in order; the row names the lookup, its
outcome and what the token says of the caller. The business tables are those of
the consumer alone.
-/
namespace TxLookup.Api

open Library Library.Transaction Db Consumer

/-- The three endpoints with their parameters. -/
inductive AdminQuery where
  | tx (txId : PyStr)
  | order (orderId : PyStr)
  | wallet (walletId : PyStr) (fromTime toTime : Option DateTime) (limit : Nat)

inductive AdminResponse where
  | tx (response : AdminTxResponse)
  | order (response : AdminOrderResponse)
  | wallet (response : AdminWalletTxResponse)

/-- The number of ledger entries in a response. -/
def AdminResponse.resultCount : AdminResponse → Nat
  | .tx _ => 1
  | .order response => response.ledgerEntries.length
  | .wallet response => response.entries.length

namespace AdminQuery

def action : AdminQuery → PyStr
  | .tx _ => py "ADMIN_TX_LOOKUP"
  | .order _ => py "ADMIN_ORDER_LOOKUP"
  | .wallet .. => py "ADMIN_WALLET_TX_LOOKUP"

def resourceType : AdminQuery → PyStr
  | .tx _ => py "TX"
  | .order _ => py "PAYMENT_ORDER"
  | .wallet .. => py "WALLET"

def resourceId : AdminQuery → PyStr
  | .tx id | .order id | .wallet id _ _ _ => id

def notFound : AdminQuery → PyStr
  | .tx _ => py "tx_id not found"
  | .order _ => py "order_id not found"
  | .wallet .. => []

/-- What a query is about in these tables; `none` is a 404. A response model can
refuse what is stored. -/
def view (env : HandlerEnv) (db : Database) :
    AdminQuery → Except ValidationError (Option AdminResponse)
  | .tx txId =>
    match fetchAdminTxContext env.collation db txId with
    | none => .ok none
    | some context => (buildAdminTxResponse env.now context).map (some <| .tx ·)
  | .order orderId =>
    match fetchAdminOrderContext env.collation db orderId with
    | none => .ok none
    | some context => (buildAdminOrderResponse env.now context).map (some <| .order ·)
  | .wallet walletId fromTime toTime limit =>
    (buildAdminWalletTxResponse env.now walletId
      (fetchAdminWalletTx env.collation db walletId fromTime toTime limit)).map (some <| .wallet ·)

/-- The handler of the endpoint. -/
def handle (env : HandlerEnv) (request : Request) (store : AdminStore) :
    AdminQuery → Except ApiExc AdminResponse × AdminStore
  | .tx txId =>
    let outcome := getAdminTx env request txId store
    (outcome.1.map .tx, outcome.2)
  | .order orderId =>
    let outcome := getAdminOrder env request orderId store
    (outcome.1.map .order, outcome.2)
  | .wallet walletId fromTime toTime limit =>
    let outcome := getAdminWalletTx env request walletId fromTime toTime limit store
    (outcome.1.map .wallet, outcome.2)

end AdminQuery

variable (rt : PyRuntime) (jwt : JwtDecode)

/-- One request: the handler is called only if the dependency returns. -/
def serve (env : HandlerEnv) (request : Request) (query : AdminQuery) (store : AdminStore) :
    Except ApiExc AdminResponse × AdminStore :=
  match requireAdminRead rt jwt env.config request with
  | .error exc => (.error exc, store)
  | .ok admitted => query.handle env admitted.2 store

/-- A request that has been served, over the tables it met. -/
structure Exchange where
  env : HandlerEnv
  request : Request
  query : AdminQuery
  seen : Database
  outcome : Except ApiExc AdminResponse

/-- The caller learns what the tables hold, or that they hold nothing. -/
def Exchange.answered (exchange : Exchange) : Bool :=
  match exchange.outcome with
  | .ok _ => true
  | .error (.http statusCode _) => statusCode == 404
  | .error (.other _) => false

structure Server where
  store : AdminStore
  exchanges : List Exchange

inductive ServerEvent where
  /-- The consumer commits a transaction. -/
  | consumed (call : Call)
  | requested (env : HandlerEnv) (request : Request) (query : AdminQuery)

namespace Server

def start (store : AdminStore) : Server := ⟨store, []⟩

def step (server : Server) : ServerEvent → Server
  | .consumed call =>
    { server with store := { server.store with business := call.apply server.store.business } }
  | .requested env request query =>
    let served := serve rt jwt env request query server.store
    { store := served.2
      exchanges := server.exchanges ++
        [⟨env, request, query, server.store.business, served.1⟩] }

def run (store : AdminStore) (events : List ServerEvent) : Server :=
  events.foldl (step rt jwt) (start store)

end Server

/-- The transactions of the consumer among the events. -/
def consumedCalls (events : List ServerEvent) : List Call :=
  events.filterMap fun event =>
    match event with
    | .consumed call => some call
    | .requested .. => none

/-- The response, or the 404. -/
def AdminQuery.reply (query : AdminQuery) : Option AdminResponse → Except ApiExc AdminResponse
  | some response => .ok response
  | none => .error (.http 404 query.notFound)

def AdminQuery.replyStatus : Option AdminResponse → Nat
  | some _ => 200
  | none => 404

/-- Under `oidc` the token of the request carries a required role, and the row has
the roles of the token and the name the token gives the caller. -/
def Entitled (exchange : Exchange) (row : AdminAuditLog) : Prop :=
  exchange.env.config.authMode = .oidc →
    ∃ token claims, extractBearer exchange.request = .ok token ∧
      decodeToken jwt exchange.env.config token = .ok claims ∧
      hasRequiredRole (extractRoles rt claims (roleClaimNames exchange.env.config)) = true ∧
      row.actorRoles =
        some (List.intercalate [44] (extractRoles rt claims (roleClaimNames exchange.env.config))) ∧
      ∀ actorId, extractActorId claims (actorClaimNames exchange.env.config) = some actorId →
        row.actorId = some actorId

/-- The row tells who was told what, and the answer is what the tables held. -/
structure Accounts (exchange : Exchange) (seen : Option AdminResponse) (row : AdminAuditLog) :
    Prop where
  view : exchange.query.view exchange.env exchange.seen = .ok seen
  truthful : exchange.outcome = exchange.query.reply seen
  action : row.action = exchange.query.action
  resourceType : row.resourceType = exchange.query.resourceType
  resourceId : row.resourceId = some exchange.query.resourceId
  statusCode : row.statusCode = AdminQuery.replyStatus seen
  resultCount : row.resultCount = some ((seen.map AdminResponse.resultCount).getD 0)
  entitled : Entitled rt jwt exchange row

/-- What holds after the events, over a store that had these tables and rows. -/
structure Accountable (store : AdminStore) (events : List ServerEvent) (server : Server) : Prop where
  business : server.store.business = runFrom store.business (consumedCalls events)
  audited : ∃ rows, server.store.adminAuditLogs = store.adminAuditLogs ++ rows ∧
    List.Forall₂ (fun exchange row => ∃ seen, Accounts rt jwt exchange seen row)
      (server.exchanges.filter Exchange.answered) rows
  seen : ∀ exchange ∈ server.exchanges, ∃ front rest,
    events = front ++ .requested exchange.env exchange.request exchange.query :: rest ∧
      exchange.seen = runFrom store.business (consumedCalls front)

/-! ## What a handler ends in -/

section
variable {α : Type} {env : HandlerEnv} {store : AdminStore} {request : Request}

/-- A scope ends with what its body does, or it raises and changes nothing. -/
theorem sessionScope_settled (env : HandlerEnv) {body : SessionM AdminStore ApiExc α} {faults : List (Option ApiExc)}
    {a : α} {store' : AdminStore} (hbody : Does body store faults a store') (hother : Other faults) :
    (firstFault faults = none ∧ env.sessionScope body store = (.ok a, store')) ∨
    ∃ message, env.sessionScope body store = (.error (.other message), store) := by
  unfold HandlerEnv.sessionScope
  cases hopen : env.raised .openSession with
  | some exc =>
    obtain ⟨message, rfl⟩ := other_raised env .openSession exc (by simp [hopen])
    exact .inr ⟨message, rfl⟩
  | none =>
    obtain ⟨hok, hraise⟩ := hbody.scope ((env.raised .auditInsert).or (env.raised .commit))
    cases hfault : firstFault (faults ++ [(env.raised .auditInsert).or (env.raised .commit)]) with
    | none =>
      rw [firstFault_append, Option.or_eq_none_iff] at hfault
      refine .inl ⟨hfault.1, ?_⟩
      simp only [hok (by rw [firstFault_append, Option.or_eq_none_iff]; exact hfault)]
    | some exc =>
      have hcommit : Other [(env.raised .auditInsert).or (env.raised .commit)] := by
        cases hinsert : env.raised .auditInsert with
        | none => exact other_raised env .commit
        | some exc => simpa [hinsert] using other_raised env .auditInsert
      obtain ⟨message, rfl⟩ := (hother.append hcommit).first hfault
      refine .inr ⟨message, ?_⟩
      simp only [hraise _ hfault]

/-- A lookup ends in its reply and its row, or in an exception that is no reply. -/
theorem answer_settled {lookup : SessionM AdminStore ApiExc (Lookup α)}
    {faults : List (Option ApiExc)} {found : Lookup α} (hlookup : Does lookup store faults found store)
    (hother : Other faults) (action resourceType resourceId notFound : PyStr) :
    (∃ row, firstFault faults = none ∧
      lookupFields env request action resourceType resourceId found = .ok row ∧
      answer env request action resourceType resourceId notFound lookup store =
        (found.response.elim (.error (.http 404 notFound)) .ok, addAudit row store)) ∨
    ∃ message, answer env request action resourceType resourceId notFound lookup store =
      (.error (.other message), store) := by
  unfold answer
  cases hrow : lookupFields env request action resourceType resourceId found with
  | ok row =>
    have hbody : Does (lookupBody env request action resourceType resourceId lookup) store
        (faults ++ ([] ++ ([none] ++ []))) found.response (addAudit row store) := by
      refine hlookup.bind (Does.bind (a := row) ?_ ((Does.execute none _ _).bind (Does.pure _ _)))
      rw [hrow]
      exact Does.ofOk row store
    have hnone : Other [(none : Option ApiExc)] := fun exc h => by simp at h
    rcases sessionScope_settled env hbody (hother.append hnone) with
      ⟨hfaults, hended⟩ | ⟨message, hended⟩
    · rw [firstFault_append, Option.or_eq_none_iff] at hfaults
      refine .inl ⟨row, hfaults.1, rfl, ?_⟩
      simp only [hended]
      cases found.response with
      | none => rfl
      | some response => rfl
    · refine .inr ⟨message, ?_⟩
      simp only [hended]
  | error exc =>
    obtain ⟨row, hok, -⟩ | ⟨message, hraised⟩ :=
      lookupFields_spec request env action resourceType resourceId found
    · rw [hrow] at hok
      cases hok
    · have hbody : Does (lookupBody env request action resourceType resourceId lookup) store
          (faults ++ [some (.other message)]) found.response store := by
        refine hlookup.bind (Does.raise (fun s => ?_) _ _ _)
        rw [hraised]
        rfl
      have hraise : Other [some (.other message)] := fun exc h => ⟨message, by simpa using h⟩
      rcases sessionScope_settled env hbody (hother.append hraise) with
        ⟨hfaults, -⟩ | ⟨message, hended⟩
      · exact absurd (firstFault_eq_none.mp hfaults (some (.other message)) (by simp)) (by simp)
      · refine .inr ⟨message, ?_⟩
        simp only [hended]

theorem buildAuditFields_texts {lowerOf : PyStr → PyStr} {config : AuthConfig} {now : DateTime}
    {actor : AuditActor} {action resourceType : PyStr} {resourceId : Option PyStr}
    {result : PyStr} {statusCode : Nat} {durationMs : Option Int} {resultCount : Option Nat}
    {row : AdminAuditLog}
    (h : buildAuditFields lowerOf config now actor action resourceType resourceId result statusCode
      request durationMs resultCount = .ok row) :
    row.action = action ∧ row.resourceType = resourceType := by
  obtain ⟨query, -, h⟩ := bind_eq_ok.mp h
  cases h
  exact ⟨rfl, rfl⟩

end

/-- The row of a query that is answered with what is seen. -/
structure RowOf (request : Request) (query : AdminQuery) (seen : Option AdminResponse)
    (row : AdminAuditLog) : Prop where
  actorId : row.actorId = (extractActor request).actorId
  actorRoles : row.actorRoles = (extractActor request).actorRoles
  action : row.action = query.action
  resourceType : row.resourceType = query.resourceType
  resourceId : row.resourceId = some query.resourceId
  statusCode : row.statusCode = AdminQuery.replyStatus seen
  resultCount : row.resultCount = some ((seen.map AdminResponse.resultCount).getD 0)

section
variable {α : Type} {env : HandlerEnv} {store : AdminStore} {request : Request}

/-- The lookup of a handler in terms of the view of its query. -/
structure LooksUp (query : AdminQuery) (seen : Option AdminResponse) (wrap : α → AdminResponse)
    (found : Lookup α) : Prop where
  response : found.response.map wrap = seen
  statusCode : found.statusCode = AdminQuery.replyStatus seen
  resultCount : found.resultCount = (seen.map AdminResponse.resultCount).getD 0

theorem rowOf_lookupFields {query : AdminQuery} {seen : Option AdminResponse}
    {wrap : α → AdminResponse} {found : Lookup α} (hfound : LooksUp query seen wrap found)
    {row : AdminAuditLog} (hrow : lookupFields env request query.action query.resourceType
      query.resourceId found = .ok row) : RowOf request query seen row := by
  obtain ⟨hid, hroles, hresource, hstatus, hcount⟩ := buildAuditFields_ok hrow
  obtain ⟨haction, htype⟩ := buildAuditFields_texts hrow
  exact ⟨hid, hroles, haction, htype, hresource, hstatus.trans hfound.statusCode,
    hcount.trans (congrArg some hfound.resultCount)⟩

end

/-- A handler replies with what its query sees and adds its row, or raises an
exception that is no reply and changes nothing. -/
def Settles (env : HandlerEnv) (request : Request) (query : AdminQuery) (store : AdminStore)
    (outcome : Except ApiExc AdminResponse × AdminStore) : Prop :=
  (∃ seen row, query.view env store.business = .ok seen ∧
    outcome = (query.reply seen, addAudit row store) ∧ RowOf request query seen row) ∨
  ∃ message, outcome = (.error (.other message), store)

section
variable {α : Type} {env : HandlerEnv} {store : AdminStore} {request : Request}

/-- If nothing fails, the lookup is that of the view. -/
theorem settles_answer {query : AdminQuery} {lookup : SessionM AdminStore ApiExc (Lookup α)}
    {faults : List (Option ApiExc)} {found : Lookup α} {wrap : α → AdminResponse}
    (hlookup : Does lookup store faults found store) (hother : Other faults)
    (hfound : firstFault faults = none → ∃ seen, query.view env store.business = .ok seen ∧
      LooksUp query seen wrap found) :
    let outcome := answer env request query.action query.resourceType query.resourceId
      query.notFound lookup store
    Settles env request query store (outcome.1.map wrap, outcome.2) := by
  dsimp only
  rcases answer_settled hlookup hother query.action query.resourceType query.resourceId
    query.notFound with ⟨row, hfaults, hrow, houtcome⟩ | ⟨message, houtcome⟩
  · obtain ⟨seen, hseen, hlooks⟩ := hfound hfaults
    refine .inl ⟨seen, row, hseen, ?_, rowOf_lookupFields hlooks hrow⟩
    rw [houtcome, ← hlooks.response]
    cases found.response with
    | none => rfl
    | some response => rfl
  · refine .inr ⟨message, ?_⟩
    rw [houtcome]
    rfl

/-- The lookup of one context that is read, in terms of the view. -/
theorem foundOne_looksUp {query : AdminQuery} {γ : Type} {values : γ → α} {count : γ → Nat}
    {wrap : α → AdminResponse} (hcount : ∀ context, (wrap (values context)).resultCount = count context)
    (read : Option γ) :
    LooksUp query (read.map (wrap <| values ·)) wrap (foundOne values count read) := by
  cases read with
  | none => exact ⟨rfl, rfl, rfl⟩
  | some context => exact ⟨rfl, rfl, (hcount context).symm⟩

end

/-- Every handler settles its query. -/
theorem handle_settles (env : HandlerEnv) (request : Request) (store : AdminStore)
    (query : AdminQuery) : Settles env request query store (query.handle env request store) := by
  cases query with
  | tx txId =>
    obtain ⟨faults, hdoes, hother, hok⟩ := lookupOne_does env store
      (fetchAdminTxContext env.collation · txId)
      (fun _ _ h => (buildAdminTxResponse_eq_ok.mp h).2) (fun _ => 1)
    refine settles_answer hdoes hother fun hfaults =>
      ⟨_, ?_, @foundOne_looksUp _ (.tx txId) _ _ _ .tx (fun _ => rfl) _⟩
    cases hread : fetchAdminTxContext env.collation store.business txId with
    | none => simp only [AdminQuery.view, hread, Option.map_none]
    | some context =>
      obtain ⟨response, hresponse⟩ := hok hfaults context hread
      obtain ⟨-, rfl⟩ := buildAdminTxResponse_eq_ok.mp hresponse
      simp only [AdminQuery.view, hread, hresponse, Option.map_some, Except.map]
  | order orderId =>
    obtain ⟨faults, hdoes, hother, hok⟩ := lookupOne_does env store
      (fetchAdminOrderContext env.collation · orderId)
      (fun _ _ h => (buildAdminOrderResponse_eq_ok.mp h).2)
      (fun context => context.ledgerEntries.length)
    have hcount : ∀ context : AdminOrderContext,
        (AdminResponse.order (adminOrderValues env.now context)).resultCount =
          context.ledgerEntries.length := fun _ => List.length_map _
    refine settles_answer hdoes hother fun hfaults =>
      ⟨_, ?_, @foundOne_looksUp _ (.order orderId) _ _ _ .order hcount _⟩
    cases hread : fetchAdminOrderContext env.collation store.business orderId with
    | none => simp only [AdminQuery.view, hread, Option.map_none]
    | some context =>
      obtain ⟨response, hresponse⟩ := hok hfaults context hread
      obtain ⟨-, rfl⟩ := buildAdminOrderResponse_eq_ok.mp hresponse
      simp only [AdminQuery.view, hread, hresponse, Option.map_some, Except.map]
  | wallet walletId fromTime toTime limit =>
    obtain ⟨faults, hdoes, hother, hok⟩ :=
      walletLookup_does env store walletId fromTime toTime limit rfl
    refine settles_answer hdoes hother fun hfaults => ?_
    obtain ⟨response, hresponse⟩ := hok hfaults
    obtain ⟨-, rfl⟩ := buildAdminWalletTxResponse_eq_ok.mp hresponse
    refine ⟨some (.wallet _), ?_, rfl, rfl, (List.length_map _).symm⟩
    simp only [AdminQuery.view, hresponse, Except.map]

/-! ## Runs -/

variable {rt jwt}

theorem mapError_eq_ok {ε ε' α : Type} {f : ε → ε'} {x : Except ε α} {a : α} :
    x.mapError f = .ok a ↔ x = .ok a := by
  cases x <;> simp [Except.mapError]

theorem mapError_eq_error {ε ε' α : Type} {f : ε → ε'} {x : Except ε α} {exc : ε'} :
    x.mapError f = .error exc ↔ ∃ raised, x = .error raised ∧ f raised = exc := by
  cases x <;> simp [Except.mapError]

/-- What the dependency has found out about a request it lets pass. -/
theorem entitled_of_admitted {env : HandlerEnv} {request : Request} {admitted : AuthActor × Request}
    (h : requireAdminRead rt jwt env.config request = .ok admitted) {query : AdminQuery}
    {db : Database} {outcome : Except ApiExc AdminResponse} {seen : Option AdminResponse}
    {row : AdminAuditLog} (hrow : RowOf admitted.2 query seen row) :
    Entitled rt jwt ⟨env, request, query, db, outcome⟩ row := by
  intro hmode
  simp only [requireAdminRead, show env.config.authMode = .oidc from hmode] at h
  obtain ⟨token, htoken, h⟩ := bind_eq_ok.mp h
  obtain ⟨claims, hclaims, h⟩ := bind_eq_ok.mp h
  split_ifs at h with hrole
  cases h
  refine ⟨token, claims, mapError_eq_ok.mp htoken, mapError_eq_ok.mp hclaims, hrole, ?_, ?_⟩
  · rw [hrow.actorRoles, extractActor_oidc (ne_nil_of_hasRequiredRole hrole)]
  · intro actorId hid
    rw [hrow.actorId, extractActor_oidc (ne_nil_of_hasRequiredRole hrole), hid, pyOr,
      if_pos (truthy_some (extractActorId_ne_nil hid))]

theorem toApiExc_ne_notFound (exc : TokenExc) (detail : PyStr) :
    exc.toApiExc ≠ .http 404 detail := by
  cases exc <;> simp [TokenExc.toApiExc]

/-- A refusal is no answer: the dependency never ends in a 404. -/
theorem not_answered_of_refused {env : HandlerEnv} {request : Request} {exc : ApiExc}
    (h : requireAdminRead rt jwt env.config request = .error exc) (query : AdminQuery)
    (db : Database) : Exchange.answered ⟨env, request, query, db, .error exc⟩ = false := by
  have hne : ∀ detail, exc ≠ .http 404 detail := by
    intro detail hexc
    subst hexc
    unfold requireAdminRead at h
    split at h
    · cases h
    · rcases bind_eq_error.mp h with h | ⟨token, -, h⟩
      · obtain ⟨exc, -, hexc⟩ := mapError_eq_error.mp h
        exact toApiExc_ne_notFound exc detail hexc
      · rcases bind_eq_error.mp h with h | ⟨claims, -, h⟩
        · obtain ⟨exc, -, hexc⟩ := mapError_eq_error.mp h
          exact toApiExc_ne_notFound exc detail hexc
        · dsimp only at h
          split_ifs at h
          · cases h
          · cases h
  cases exc with
  | other message => rfl
  | http statusCode detail =>
    simp only [Exchange.answered, beq_eq_false_iff_ne]
    rintro rfl
    exact hne detail rfl

/-- One served request: it is answered and leaves its row, or neither. -/
theorem serve_accounts (env : HandlerEnv) (request : Request) (query : AdminQuery)
    (store : AdminStore) :
    let served := serve rt jwt env request query store
    let exchange : Exchange := ⟨env, request, query, store.business, served.1⟩
    served.2.business = store.business ∧
    ((exchange.answered = true ∧ ∃ row, served.2.adminAuditLogs = store.adminAuditLogs ++ [row] ∧
        ∃ seen, Accounts rt jwt exchange seen row) ∨
      (exchange.answered = false ∧ served.2.adminAuditLogs = store.adminAuditLogs)) := by
  dsimp only
  cases hadmitted : requireAdminRead rt jwt env.config request with
  | error exc =>
    have hserve : serve rt jwt env request query store = (.error exc, store) := by
      simp only [serve, hadmitted]
    rw [hserve]
    exact ⟨rfl, .inr ⟨not_answered_of_refused hadmitted query store.business, rfl⟩⟩
  | ok admitted =>
    have hserve : serve rt jwt env request query store = query.handle env admitted.2 store := by
      simp only [serve, hadmitted]
    rw [hserve]
    rcases handle_settles env admitted.2 store query with
      ⟨seen, row, hseen, houtcome, hrow⟩ | ⟨message, houtcome⟩
    · rw [houtcome]
      refine ⟨rfl, .inl ⟨?_, row, rfl, seen, ?_⟩⟩
      · cases seen <;> rfl
      · exact ⟨hseen, rfl, hrow.action, hrow.resourceType, hrow.resourceId, hrow.statusCode,
          hrow.resultCount, entitled_of_admitted hadmitted hrow⟩
    · rw [houtcome]
      exact ⟨rfl, .inr ⟨rfl, rfl⟩⟩

theorem runFrom_consumed (db : Database) (events : List ServerEvent) (call : Call) :
    runFrom db (consumedCalls (events ++ [.consumed call])) =
      call.apply (runFrom db (consumedCalls events)) := by
  simp [consumedCalls, runFrom]

theorem runFrom_requested (db : Database) (events : List ServerEvent) (env : HandlerEnv)
    (request : Request) (query : AdminQuery) :
    runFrom db (consumedCalls (events ++ [.requested env request query])) =
      runFrom db (consumedCalls events) := by
  simp [consumedCalls]

theorem Accountable.step {store : AdminStore} {events : List ServerEvent} {server : Server}
    (h : Accountable rt jwt store events server) (event : ServerEvent) :
    Accountable rt jwt store (events ++ [event]) (server.step rt jwt event) := by
  have hseen : ∀ exchange ∈ server.exchanges, ∃ front rest,
      events ++ [event] =
        front ++ .requested exchange.env exchange.request exchange.query :: rest ∧
      exchange.seen = runFrom store.business (consumedCalls front) := by
    intro exchange hmem
    obtain ⟨front, rest, hevents, hexchange⟩ := h.seen exchange hmem
    exact ⟨front, rest ++ [event], by simp [hevents], hexchange⟩
  cases event with
  | consumed call =>
    refine ⟨?_, h.audited, hseen⟩
    rw [runFrom_consumed, ← h.business]
    rfl
  | requested env request query =>
    obtain ⟨hbusiness, haudit⟩ := @serve_accounts rt jwt env request query server.store
    refine ⟨?_, ?_, ?_⟩
    · rw [runFrom_requested, ← h.business]
      exact hbusiness
    · obtain ⟨rows, hrows, haccounts⟩ := h.audited
      rcases haudit with ⟨hanswered, row, hrow, haccount⟩ | ⟨hanswered, hkept⟩
      · refine ⟨rows ++ [row], ?_, ?_⟩
        · show (serve rt jwt env request query server.store).2.adminAuditLogs = _
          rw [hrow, hrows, List.append_assoc]
        · simp only [Server.step, List.filter_append, List.filter_cons, hanswered]
          exact List.rel_append haccounts (.cons haccount .nil)
      · refine ⟨rows, hkept.trans hrows, ?_⟩
        simp only [Server.step, List.filter_append, List.filter_cons, hanswered]
        simpa using haccounts
    · intro exchange hmem
      rcases List.mem_append.mp hmem with hmem | hmem
      · exact hseen exchange hmem
      · obtain rfl := List.mem_singleton.mp hmem
        exact ⟨events, [], rfl, h.business⟩

/-- After every sequence of transactions and requests, with whatever faults: each
answer has its row, each row its answer, in order; refused and failed requests
leave nothing; and the business tables are those of the consumer alone. -/
theorem server_accountable (rt : PyRuntime) (jwt : JwtDecode) (store : AdminStore)
    (events : List ServerEvent) :
    Accountable rt jwt store events (Server.run rt jwt store events) := by
  induction events using List.reverseRecOn with
  | nil => exact ⟨rfl, ⟨[], (List.append_nil _).symm, .nil⟩, fun exchange hmem => by cases hmem⟩
  | append_singleton events event ih =>
    rw [Server.run, List.foldl_append]
    exact ih.step event

end TxLookup.Api
