import TxLookup.Api.Auth
import TxLookup.Consumer.Offsets
import TxLookup.Db.Audit

/-!
# The actor of an audit row

The actor is read from the request's state and, where the state has none, from
the headers. Under `oidc` the roles are never empty, so they come from the token
alone. The identifier comes from the token exactly if some configured claim is a
text that is not blank; otherwise the caller's header decides.
-/
namespace TxLookup.Api

open Library Library.PyText Db Consumer

structure AuditActor where
  actorId : Option PyStr
  actorRoles : Option PyStr
  deriving DecidableEq, Repr

def extractActor (request : Request) : AuditActor where
  actorId := pyOr request.state.actorId (request.header (py "X-Actor-Id"))
  actorRoles :=
    match request.state.actorRoles with
    | some (role :: roles) => some (List.intercalate [44] (role :: roles))
    | _ => request.header (py "X-Actor-Roles")

/-- `build_audit_fields` under the loaded configuration, at the instant `now`. -/
def buildAuditFields (lowerOf : PyStr → PyStr) (config : AuthConfig) (now : DateTime)
    (actor : AuditActor) (action resourceType : PyStr) (resourceId : Option PyStr)
    (result : PyStr) (statusCode : Nat) (request : Request) (durationMs : Option Int)
    (resultCount : Option Nat) : Except ApiExc AdminAuditLog := do
  let query ← maskQuery lowerOf request.query (splitCsv config.auditMaskQueryKeys)
  return {
    actorId := actor.actorId
    actorRoles := actor.actorRoles
    action, resourceType, resourceId, result, statusCode
    ip := request.client
    userAgent := request.header (py "user-agent")
    requestMethod := request.method
    requestPath := request.path
    requestQuery := if truthy query then query else none
    requestedAt := now
    durationMs, resultCount }

/-- The row a call builds is the call's arguments, with the actor's columns. -/
theorem buildAuditFields_ok {lowerOf : PyStr → PyStr} {config : AuthConfig} {now : DateTime}
    {actor : AuditActor} {action resourceType : PyStr} {resourceId : Option PyStr}
    {result : PyStr} {statusCode : Nat} {request : Request} {durationMs : Option Int}
    {resultCount : Option Nat} {row : AdminAuditLog}
    (h : buildAuditFields lowerOf config now actor action resourceType resourceId result statusCode
      request durationMs resultCount = .ok row) :
    row.actorId = actor.actorId ∧ row.actorRoles = actor.actorRoles ∧
      row.resourceId = resourceId ∧ row.statusCode = statusCode ∧ row.resultCount = resultCount := by
  unfold buildAuditFields at h
  cases hq : maskQuery lowerOf request.query (splitCsv config.auditMaskQueryKeys) with
  | error exc =>
    rw [hq] at h
    cases h
  | ok query =>
    rw [hq] at h
    cases h
    exact ⟨rfl, rfl, rfl, rfl, rfl⟩

/-! ## Two requests with one token -/

/-- Equal in everything but the headers `X-Actor-Id` and `X-Actor-Roles`. -/
def SameButActorHeaders (r r' : Request) : Prop :=
  r' = { r with headers := r'.headers } ∧ ∀ name, name ≠ py "x-actor-id" →
    name ≠ py "x-actor-roles" → r'.headers.lookup name = r.headers.lookup name

/-- Some configured claim is a text that is not blank. -/
def HasActorClaim (claims : PyDict) (actorClaims : List PyStr) : Prop :=
  ∃ claim ∈ actorClaims, ∃ value, claims.get claim = .str value ∧ strip value ≠ []

/-- Every two variants of the request pass with one actor, which every audit row
built for them names. -/
def OneActor (rt : PyRuntime) (jwt : JwtDecode) (config : AuthConfig) (request : Request) : Prop :=
  ∀ r r', SameButActorHeaders request r → SameButActorHeaders request r' →
    ∃ s s', requireAdminRead rt jwt config r = .ok s ∧ requireAdminRead rt jwt config r' = .ok s' ∧
      extractActor s.2 = extractActor s'.2 ∧
      ∀ lowerOf now action resourceType resourceId result statusCode durationMs resultCount row row',
        buildAuditFields lowerOf config now (extractActor s.2) action resourceType resourceId result
          statusCode s.2 durationMs resultCount = .ok row →
        buildAuditFields lowerOf config now (extractActor s'.2) action resourceType resourceId result
          statusCode s'.2 durationMs resultCount = .ok row' →
        row.actorId = row'.actorId ∧ row.actorRoles = row'.actorRoles

theorem extractActorId_eq_none {claims : PyDict} {actorClaims : List PyStr} :
    extractActorId claims actorClaims = none ↔ ¬HasActorClaim claims actorClaims := by
  unfold HasActorClaim
  induction actorClaims with
  | nil => simp [extractActorId]
  | cons claim actorClaims ih =>
    rw [List.exists_mem_cons_iff, not_or, extractActorId]
    split
    · rename_i value hvalue
      rw [hvalue]
      by_cases hblank : strip value = []
      · rw [if_pos hblank, ih]
        simp [hblank]
      · rw [if_neg hblank]
        simp [hblank]
    · rename_i hother
      rw [ih]
      exact (and_iff_right fun ⟨value, hvalue, _⟩ => hother value hvalue).symm

/-- What is read of the claims is never empty. -/
theorem extractActorId_ne_nil {claims : PyDict} {actorClaims : List PyStr} {actorId : PyStr}
    (h : extractActorId claims actorClaims = some actorId) : actorId ≠ [] := by
  induction actorClaims with
  | nil => cases h
  | cons claim actorClaims ih =>
    rw [extractActorId] at h
    split at h
    · split_ifs at h with hblank
      · exact ih h
      · cases h
        exact hblank
    · exact ih h

theorem ne_nil_of_hasRequiredRole {roles : List PyStr} (h : hasRequiredRole roles = true) :
    roles ≠ [] := by
  rintro rfl
  cases h

section
variable {rt : PyRuntime} {jwt : JwtDecode} {config : AuthConfig} {request r : Request}
  {token : PyStr} {claims : PyDict}

theorem SameButActorHeaders.bearer (h : SameButActorHeaders request r) :
    extractBearer r = extractBearer request := by
  have hname : lower (py "authorization") = py "authorization" := by decide +kernel
  unfold extractBearer Request.header
  rw [hname, h.2 _ (by decide +kernel) (by decide +kernel)]

/-- A variant of the request passes with the state the claims give. -/
theorem requireAdminRead_oidc (hmode : config.authMode = .oidc)
    (hbearer : extractBearer request = .ok token) (hclaims : decodeToken jwt config token = .ok claims)
    (hroles : hasRequiredRole (extractRoles rt claims (roleClaimNames config)) = true)
    (hr : SameButActorHeaders request r) : ∃ actor, requireAdminRead rt jwt config r = .ok (actor,
      { r with state := ⟨extractActorId claims (actorClaimNames config),
        some (extractRoles rt claims (roleClaimNames config))⟩ }) := by
  refine ⟨⟨extractActorId claims (actorClaimNames config),
    extractRoles rt claims (roleClaimNames config)⟩, ?_⟩
  unfold requireAdminRead
  rw [hmode, hr.bearer, hbearer]
  simp only [Except.mapError, bind, Except.bind]
  rw [hclaims]
  simp only
  rw [if_pos hroles]
  rfl

/-- The actor under a state with roles: only the identifier can come from a header. -/
theorem extractActor_oidc {actorId : Option PyStr} {roles : List PyStr} (hroles : roles ≠ []) :
    extractActor { r with state := ⟨actorId, some roles⟩ } =
      ⟨pyOr actorId (r.headers.lookup (py "x-actor-id")), some (List.intercalate [44] roles)⟩ := by
  have hname : lower (py "X-Actor-Id") = py "x-actor-id" := by decide +kernel
  obtain ⟨role, roles, rfl⟩ := List.exists_cons_of_ne_nil hroles
  simp only [extractActor, Request.header, hname]

/-- The request with another `X-Actor-Id`. -/
def Request.actAs (request : Request) (actorId : PyStr) : Request :=
  { request with headers := (py "x-actor-id", actorId) :: request.headers }

theorem sameButActorHeaders_actAs (request : Request) (actorId : PyStr) :
    SameButActorHeaders request (request.actAs actorId) := by
  refine ⟨rfl, fun name hid _ => ?_⟩
  rw [Request.actAs, List.lookup_cons, beq_eq_false_iff_ne.mpr hid]

/-- An accepted token decides the recorded actor alone exactly if it has a claim
that names one. -/
theorem oneActor_iff (hmode : config.authMode = .oidc)
    (hbearer : extractBearer request = .ok token) (hclaims : decodeToken jwt config token = .ok claims)
    (hroles : hasRequiredRole (extractRoles rt claims (roleClaimNames config)) = true) :
    OneActor rt jwt config request ↔ HasActorClaim claims (actorClaimNames config) := by
  have hne := ne_nil_of_hasRequiredRole hroles
  have hpass := fun r => requireAdminRead_oidc (r := r) hmode hbearer hclaims hroles
  constructor
  · intro h
    by_contra hno
    -- without a claim the two callers are recorded under the names they chose
    have hid := extractActorId_eq_none.mpr hno
    obtain ⟨s, s', hs, hs', hactor, -⟩ := h (request.actAs (py "a")) (request.actAs (py "b"))
      (sameButActorHeaders_actAs request _) (sameButActorHeaders_actAs request _)
    obtain ⟨actor, hok⟩ := hpass _ (sameButActorHeaders_actAs request (py "a"))
    obtain ⟨actor', hok'⟩ := hpass _ (sameButActorHeaders_actAs request (py "b"))
    rw [hok] at hs
    rw [hok'] at hs'
    cases hs
    cases hs'
    rw [extractActor_oidc hne, extractActor_oidc hne, hid] at hactor
    simp only [Request.actAs, List.lookup_cons, beq_self_eq_true, AuditActor.mk.injEq] at hactor
    exact absurd hactor.1 (by decide +kernel)
  · intro hclaim r r' hr hr'
    obtain ⟨actor, hok⟩ := hpass r hr
    obtain ⟨actor', hok'⟩ := hpass r' hr'
    have hsome : ∃ actorId, extractActorId claims (actorClaimNames config) = some actorId := by
      cases hid : extractActorId claims (actorClaimNames config) with
      | none => exact absurd hclaim (extractActorId_eq_none.mp hid)
      | some actorId => exact ⟨actorId, rfl⟩
    obtain ⟨actorId, hid⟩ := hsome
    have hsame : ∀ r : Request, extractActor { r with state := ⟨extractActorId claims
        (actorClaimNames config), some (extractRoles rt claims (roleClaimNames config))⟩ } =
        ⟨some actorId, some (List.intercalate [44]
          (extractRoles rt claims (roleClaimNames config)))⟩ := by
      intro r
      rw [extractActor_oidc hne, hid, pyOr, if_pos (truthy_some (extractActorId_ne_nil hid))]
    refine ⟨_, _, hok, hok', (hsame r).trans (hsame r').symm, ?_⟩
    intro _ _ _ _ _ _ _ _ _ row row' hrow hrow'
    obtain ⟨hid, hroles, -⟩ := buildAuditFields_ok hrow
    obtain ⟨hid', hroles', -⟩ := buildAuditFields_ok hrow'
    rw [hid, hroles, hid', hroles', hsame r, hsame r']
    exact ⟨rfl, rfl⟩

end

/-! ## Samples -/

/-- The claims of a token under the default settings. -/
def sampleAuthConfig : AuthConfig where
  authMode := .oidc
  authIssuer := py "issuer"
  authAudience := py "audience"
  authJwksUrl := py "https://keys"
  authAlgorithm := py "RS256"
  authRolesClaim := py "roles,scp"
  authActorIdClaims := py "oid,sub"
  auditMaskQueryKeys := py "access_token,token"

/-- Two tokens: `t1` names its subject, `t2` does not. -/
def sampleJwt : JwtDecode := fun _ token =>
  if token = py "t1" then
    .ok [(py "sub", .str (py "alice")), (py "roles", .arr [.str (py "ADMIN_READ")])]
  else if token = py "t2" then .ok [(py "roles", .arr [.str (py "ADMIN_READ")])]
  else .error .pyJwt

def sampleRequest (token : String) : Request where
  headers := [(py "authorization", py "Bearer " ++ py token)]
  client := some (py "10.0.0.1")
  method := py "GET"
  path := py "/admin/tx/tx-1"
  query := []
  state := ⟨none, none⟩

theorem named_subject_oneActor :
    OneActor sampleRuntime sampleJwt sampleAuthConfig (sampleRequest "t1") ↔
      HasActorClaim [(py "sub", .str (py "alice")), (py "roles", .arr [.str (py "ADMIN_READ")])]
        (actorClaimNames sampleAuthConfig) :=
  oneActor_iff rfl (by rfl) (by rfl) (by decide +kernel)

/-- The token `t2` passes, and the header names the recorded actor. -/
theorem header_names_actor : ¬ ∀ rt jwt config request token claims, config.authMode = .oidc →
    extractBearer request = .ok token → decodeToken jwt config token = .ok claims →
    hasRequiredRole (extractRoles rt claims (roleClaimNames config)) = true →
    OneActor rt jwt config request := by
  intro h
  have hone := h sampleRuntime sampleJwt sampleAuthConfig (sampleRequest "t2") (py "t2")
    [(py "roles", .arr [.str (py "ADMIN_READ")])] rfl (by rfl) (by rfl) (by decide +kernel)
  obtain ⟨s, s', hs, hs', hactor, -⟩ := hone _ _
    (sameButActorHeaders_actAs _ (py "mallory")) (sameButActorHeaders_actAs _ (py "eve"))
  have hnames : (requireAdminRead sampleRuntime sampleJwt sampleAuthConfig
      ((sampleRequest "t2").actAs (py "mallory"))).map (fun s => (extractActor s.2).actorId) =
        .ok (some (py "mallory")) ∧
      (requireAdminRead sampleRuntime sampleJwt sampleAuthConfig
      ((sampleRequest "t2").actAs (py "eve"))).map (fun s => (extractActor s.2).actorId) =
        .ok (some (py "eve")) := by decide +kernel
  rw [hs, hs'] at hnames
  simp only [Except.map, hactor, Except.ok.injEq] at hnames
  exact absurd (hnames.1.symm.trans hnames.2) (by decide +kernel)

end TxLookup.Api
