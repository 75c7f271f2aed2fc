import TxLookup.Consumer.Runtime
import TxLookup.Library.FormUrl

/-!
# Authentication of admin requests

With `AUTH_MODE=disabled` the actor comes from two request headers. Otherwise
it comes from the claims of the bearer token, and a token without one of the
required roles is refused. The lookup of the signing key and `jwt.decode` are a
parameter, as is the text `str` gives a claim.
-/
namespace TxLookup.Api

open Library Library.PyText Consumer

/-- What a handler can raise: an `HTTPException`, or anything else. -/
inductive ApiExc where
  | http (statusCode : Nat) (detail : PyStr)
  | other (message : PyStr)
  deriving DecidableEq, Repr

/-- The values of `load_config` the API reads. -/
inductive AuthMode where
  | disabled
  | oidc
  deriving DecidableEq, Repr

structure AuthConfig where
  authMode : AuthMode
  authIssuer : PyStr
  authAudience : PyStr
  authJwksUrl : PyStr
  authAlgorithm : PyStr
  authRolesClaim : PyStr
  authActorIdClaims : PyStr
  auditMaskQueryKeys : PyStr

/-- `request.state`; an attribute that is not set reads as `None`. -/
structure RequestState where
  actorId : Option PyStr
  actorRoles : Option (List PyStr)

/-- A request; header names are in lower case. -/
structure Request where
  headers : List (PyStr × PyStr)
  client : Option PyStr
  method : PyStr
  path : PyStr
  query : PyStr
  state : RequestState

/-- `request.headers.get(name)`. -/
def Request.header (request : Request) (name : PyStr) : Option PyStr :=
  request.headers.lookup (lower name)

structure AuthActor where
  actorId : Option PyStr
  actorRoles : List PyStr

/-- Why no claims are returned; an `AuthError` and a `PyJWTError` become a 401. -/
inductive TokenExc where
  | auth (message : PyStr)
  | pyJwt
  | other (message : PyStr)

/-- The key lookup and `jwt.decode` under the algorithm, audience and issuer of
the configuration. -/
abbrev JwtDecode := AuthConfig → PyStr → Except TokenExc PyDict

def authRequiredRoles : List PyStr := [py "ADMIN_READ", py "ADMIN_AUDIT"]

/-- The fields between commas, without surrounding blanks and without empty ones. -/
def splitCsv (value : PyStr) : List PyStr :=
  ((value.splitOn 44).map strip).filter (fun item => !item.isEmpty)

/-- `value.split()`. -/
def splitBlank (value : PyStr) : List PyStr :=
  (value.splitOnP isSpace).filter (fun item => !item.isEmpty)

variable (rt : PyRuntime)

def normalizeRoles : Json → List PyStr
  | .str value => splitBlank value
  | .arr items => (items.map rt.str).filter (fun item => !item.isEmpty)
  | _ => []

/-- The roles of all claims in order, each once. -/
def extractRoles (claims : PyDict) (roleClaims : List PyStr) : List PyStr :=
  (roleClaims.flatMap (fun claim => normalizeRoles rt (claims.get claim))).foldl
    (fun ordered role => if role ∈ ordered then ordered else ordered ++ [role]) []

def extractActorId (claims : PyDict) : List PyStr → Option PyStr
  | [] => none
  | claim :: actorClaims =>
    match claims.get claim with
    | .str value => if strip value = [] then extractActorId claims actorClaims else some (strip value)
    | _ => extractActorId claims actorClaims

/-- `mask_query`; an empty query gives `None`, and encoding the masked pairs may
raise. `lowerOf` is `str.lower`. -/
def maskQuery (lowerOf : PyStr → PyStr) (query : PyStr) (sensitiveKeys : List PyStr) :
    Except ApiExc (Option PyStr) :=
  if query = [] then .ok none
  else
    let sensitive := sensitiveKeys.map lowerOf
    let masked := (FormUrl.parseQsl query).map (fun pair =>
      if lowerOf pair.1 ∈ sensitive then (pair.1, py "***") else pair)
    match FormUrl.urlencode masked with
    | some text => .ok (some text)
    | none => .error (.other (py "surrogates not allowed"))

def decodeToken (jwt : JwtDecode) (config : AuthConfig) (token : PyStr) : Except TokenExc PyDict :=
  if config.authIssuer = [] ∨ config.authAudience = [] ∨ config.authJwksUrl = [] then
    .error (.auth (py "OIDC settings missing"))
  else jwt config token

def extractBearer (request : Request) : Except TokenExc PyStr :=
  match request.header (py "authorization") with
  | none | some [] => .error (.auth (py "Authorization header missing"))
  | some authHeader =>
    match splitBlank authHeader with
    | [scheme, token] =>
      if lower scheme = py "bearer" then .ok token
      else .error (.auth (py "Authorization header must be Bearer token"))
    | _ => .error (.auth (py "Authorization header must be Bearer token"))

/-- The response to a token that gives no claims. -/
def TokenExc.toApiExc : TokenExc → ApiExc
  | .auth message => .http 401 message
  | .pyJwt => .http 401 (py "Invalid token")
  | .other message => .other message

/-- The claims the roles are read from. -/
def roleClaimNames (config : AuthConfig) : List PyStr :=
  match splitCsv config.authRolesClaim with
  | [] => [py "roles"]
  | names => names

/-- The claims the actor is read from. -/
def actorClaimNames (config : AuthConfig) : List PyStr :=
  match splitCsv config.authActorIdClaims with
  | [] => [py "sub"]
  | names => names

/-- `set(roles).intersection(auth_required_roles)` is not empty. -/
def hasRequiredRole (roles : List PyStr) : Bool := roles.any (· ∈ authRequiredRoles)

/-- The dependency of every admin endpoint: the actor, and the request with its
state set. -/
def requireAdminRead (jwt : JwtDecode) (config : AuthConfig) (request : Request) :
    Except ApiExc (AuthActor × Request) :=
  match config.authMode with
  | .disabled =>
    let actorId := request.header (py "X-Actor-Id")
    let actorRoles := splitCsv ((request.header (py "X-Actor-Roles")).getD [])
    .ok (⟨actorId, actorRoles⟩, { request with state := ⟨actorId, some actorRoles⟩ })
  | .oidc => do
    let token ← (extractBearer request).mapError TokenExc.toApiExc
    let claims ← (decodeToken jwt config token).mapError TokenExc.toApiExc
    let roles := extractRoles rt claims (roleClaimNames config)
    let actorId := extractActorId claims (actorClaimNames config)
    if hasRequiredRole roles then
      return (⟨actorId, roles⟩, { request with state := ⟨actorId, some roles⟩ })
    else .error (.http 403 (py "Forbidden"))

end TxLookup.Api
