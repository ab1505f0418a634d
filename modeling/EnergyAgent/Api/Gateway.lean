import EnergyAgent.Cases.Reviews
import EnergyAgent.Core.Config
import EnergyAgent.Lib.Precedence
import EnergyAgent.Users.Service

/-!
# The HTTP API

`request_context_middleware` with the routes behind it. A request authenticates itself, its body is
measured, it passes the rate limiter, and only then is it routed; the handler asks once more who the
actor is and whether the role may do this. Handlers of the user API run here, since they share the
control database with the authentication; of the others the call to their service is the result.

A path is the list of its parts after each slash. Traces, metrics and response headers are left out,
and of a JSON body there is what the payload model of its route has read.
-/

namespace EnergyAgent.Api

open EnergyAgent.Core EnergyAgent.Lib EnergyAgent.Users
open EnergyAgent.Cases (CasePatchRequest CaseReviewRequest CaseDisableRequest CaseRevisionRequest
  DiagnosisReviewRequest CaseRequest)

/-! ## Settings and requests -/

/-- `settings`, as far as the API reads them. -/
structure GatewaySettings where
  authMode : AuthMode
  appEnv : String
  internalApiKey : Option String
  requestBodyMaxBytes : Nat
  rateLimitEnabled : Bool
  rateLimitDiagnosisPerMinute : Nat
  rateLimitReviewPerMinute : Nat
  rateLimitCaseWritePerMinute : Nat
  pilotMode : Bool
  pilotAllowedActors : String
  deriving DecidableEq, Repr

/-- `app_env in {"local", "test"}` -/
def GatewaySettings.isLocal (settings : GatewaySettings) : Bool :=
  settings.appEnv = "local" ∨ settings.appEnv = "test"

/-- What a request brings along after its headers. -/
inductive Body
  | none
  | login (username password : String)
  | refresh (refreshToken : String)
  | logout (refreshToken : String)
  | changePassword (currentPassword newPassword : String)
  | createUser (payload : UserCreateRequest)
  | patchUser (payload : UserPatchRequest)
  | resetPassword (temporaryPassword : String)
  | createSession
  | chat (sessionId : String)
  | message
  | reviewDiagnosis (payload : DiagnosisReviewRequest)
  | patchCase (payload : CasePatchRequest)
  | reviewCase (payload : CaseReviewRequest)
  | disableCase (payload : CaseDisableRequest)
  | reviseCase (payload : CaseRevisionRequest)

/-- The answer of `rate_limiter.allow`. -/
inductive LimiterAnswer
  | allowed
  | rejected (retryAfter : Nat)
  | raised
  deriving DecidableEq, Repr

/-- `limiter` answers for the actor, the group and the limit it is asked for; `limited` is the answer
of the limiter that `AuthService` asks on its own. -/
structure HttpRequest where
  method : String
  path : List String
  actorId : Option String
  actorRole : Option String
  internalApiKey : Option String
  serviceActor : Option String
  authorization : Option String
  idempotencyKey : Option String
  contentLength : Option Nat
  bodyLength : Nat
  body : Body
  limiter : String → String → Nat → LimiterAnswer
  limited : Bool
  now : Nat

/-- What the application is built with. -/
structure Env where
  settings : GatewaySettings
  codec : Codec
  auth : AuthSettings
  decodeAccess : String → Presented AccessToken
  decodeRefresh : String → Presented RefreshToken

/-! ## Errors -/

inductive ApiError
  /-- `AuthenticationError("Internal API authentication failed")` -/
  | internalKey
  | tokenMissing
  /-- What `authenticate_access` raises, as the middleware reports it. -/
  | access (e : AuthError)
  | passwordChangeRequired
  | bodyTooLarge
  | rateLimited (retryAfter : Nat)
  | rateLimitUnavailable
  | actorRequired
  | actorRoleInvalid
  /-- `AuthenticationError("Service actors cannot be supplied by external headers")` -/
  | serviceActor
  /-- `PermissionDeniedError`, for the role or the allowlist. -/
  | forbidden
  | validation
  | notFound
  | methodNotAllowed
  /-- What a handler raises. -/
  | service (e : AuthError)
  deriving DecidableEq, Repr

/-- `handle_domain_error`, and `handle_unknown_error` for what is no `DomainError`. -/
def authErrorStatus : AuthError → Nat
  | .rateLimitExceeded => 429
  | .authInvalidCredentials | .authAccountLocked | .authTokenExpired | .authTokenInvalid
  | .authRefreshExpired | .authRefreshInvalid | .authRefreshReused
  | .authCurrentPasswordInvalid => 401
  | .userSelfDisableForbidden | .userSelfRoleChangeForbidden => 403
  | .authNewPasswordInvalid | .invalidRequest => 422
  | .userNotFound => 404
  | .userUsernameExists | .userEmailExists | .userLastAdminProtected => 409
  | .assertionError => 500

def ApiError.status : ApiError → Nat
  | .internalKey | .tokenMissing | .access _ => 401
  | .actorRequired | .actorRoleInvalid | .serviceActor => 401
  | .passwordChangeRequired | .forbidden => 403
  | .bodyTooLarge => 413
  | .rateLimited _ => 429
  | .rateLimitUnavailable => 503
  | .validation => 422
  | .notFound => 404
  | .methodNotAllowed => 405
  | .service e => authErrorStatus e

/-! ## Actors -/

/-- `ActorRole(role_value)` -/
def actorRole? : String → Option ActorRole
  | "viewer" => some .viewer
  | "operator" => some .operator
  | "reviewer" => some .reviewer
  | "admin" => some .admin
  | _ => none

/-- `[A-Za-z0-9][A-Za-z0-9_.:@-]{0,127}` -/
def validActorId (actorId : String) : Bool :=
  match actorId.toList with
  | [] => false
  | c :: cs => c.isAlphanum && cs.length ≤ 127 &&
      cs.all fun c => c.isAlphanum || "_.:@-".toList.contains c

/-- `actor_from_request`, for an actor that the middleware has authenticated or not. -/
def actorFromRequest (settings : GatewaySettings) (request : HttpRequest)
    (actor : Option ActorContext) (explicit : Bool) : Except ApiError ActorContext :=
  match settings.authMode with
  | .jwt => actor.elim (.error .actorRequired) .ok
  | mode =>
      if mode = .trustedHeaders ∧ request.internalApiKey ≠ settings.internalApiKey then
        .error .internalKey
      else
        match Text.truthy request.actorId, Text.truthy request.actorRole with
        | some actorId, some role =>
            if validActorId actorId = false then .error .actorRequired
            else if Text.startsWith actorId "service:" ∧ request.serviceActor ≠ some "trusted" then
              .error .serviceActor
            else
              match actorRole? role with
              | some role => .ok ⟨actorId, role⟩
              | none => .error .actorRoleInvalid
        | _, _ =>
            if explicit ∨ mode = .trustedHeaders then .error .actorRequired
            else .ok ⟨"local-operator", .operator⟩

/-- `require_roles` -/
def requireRoles (actor : ActorContext) (roles : List ActorRole) : Except ApiError Unit :=
  if actor.actorRole ∈ roles then .ok () else .error .forbidden

/-- The actors of `PILOT_ALLOWED_ACTORS`. -/
def GatewaySettings.allowedActors (settings : GatewaySettings) : List String :=
  let values := (settings.pilotAllowedActors.toList.splitOn ',').map fun cs =>
    Text.strip (String.ofList cs)
  values.filter (· ≠ "")

/-- `require_pilot_write` -/
def requirePilotWrite (settings : GatewaySettings) (actor : ActorContext) : Except ApiError Unit :=
  if settings.pilotMode ∧ actor.actorId ∉ settings.allowedActors then .error .forbidden else .ok ()

/-! ## Routes -/

inductive Endpoint
  | login | refresh | me | changePassword | logout | logoutAll
  | listUsers | createUser | getUser | patchUser | disableUser | enableUser | resetPassword
  | revokeSessions
  | live | ready
  | capabilities | sites | devices | device | alarms | alarm
  | sessions | timeline | evidenceDetail | timeseries
  | createSession | chat | sessionMessage | streamMessage | getSession
  | reviewDiagnosis | listCases | getCase | caseHistory | patchCase | submitCase | reviewCase
  | disableCase | reviseCase | reindexCase
  | metrics
  deriving DecidableEq, Repr

/-- All endpoints, in the order of the routers. -/
def endpoints : List Endpoint :=
  [.login, .refresh, .me, .changePassword, .logout, .logoutAll,
    .listUsers, .createUser, .getUser, .patchUser, .disableUser, .enableUser, .resetPassword,
    .revokeSessions, .live, .ready, .capabilities, .sites, .devices, .device, .alarms, .alarm,
    .sessions, .timeline, .evidenceDetail, .timeseries,
    .createSession, .chat, .sessionMessage, .streamMessage, .getSession,
    .reviewDiagnosis, .listCases, .getCase, .caseHistory, .patchCase, .submitCase, .reviewCase,
    .disableCase, .reviseCase, .reindexCase, .metrics]

/-- The method and the path of a route; `none` stands for a parameter. -/
def Endpoint.route : Endpoint → String × List (Option String)
  | .login => ("POST", ["api", "v1", "auth", "login"])
  | .refresh => ("POST", ["api", "v1", "auth", "refresh"])
  | .me => ("GET", ["api", "v1", "auth", "me"])
  | .changePassword => ("POST", ["api", "v1", "auth", "change-password"])
  | .logout => ("POST", ["api", "v1", "auth", "logout"])
  | .logoutAll => ("POST", ["api", "v1", "auth", "logout-all"])
  | .listUsers => ("GET", ["api", "v1", "users"])
  | .createUser => ("POST", ["api", "v1", "users"])
  | .getUser => ("GET", ["api", "v1", "users", none])
  | .patchUser => ("PATCH", ["api", "v1", "users", none])
  | .disableUser => ("POST", ["api", "v1", "users", none, "disable"])
  | .enableUser => ("POST", ["api", "v1", "users", none, "enable"])
  | .resetPassword => ("POST", ["api", "v1", "users", none, "reset-password"])
  | .revokeSessions => ("POST", ["api", "v1", "users", none, "revoke-sessions"])
  | .live => ("GET", ["health", "live"])
  | .ready => ("GET", ["health", "ready"])
  | .capabilities => ("GET", ["api", "v1", "capabilities"])
  | .sites => ("GET", ["api", "v1", "sites"])
  | .devices => ("GET", ["api", "v1", "devices"])
  | .device => ("GET", ["api", "v1", "devices", none])
  | .alarms => ("GET", ["api", "v1", "alarms"])
  | .alarm => ("GET", ["api", "v1", "alarms", none])
  | .sessions => ("GET", ["api", "v1", "diagnosis", "sessions"])
  | .timeline => ("GET", ["api", "v1", "diagnosis", "sessions", none, "timeline"])
  | .evidenceDetail => ("GET", ["api", "v1", "diagnosis", "sessions", none, "evidence", none])
  | .timeseries => ("GET", ["api", "v1", "diagnosis", "sessions", none, "timeseries"])
  | .createSession => ("POST", ["api", "v1", "diagnosis", "sessions"])
  | .chat => ("POST", ["api", "v1", "diagnosis", "chat"])
  | .sessionMessage => ("POST", ["api", "v1", "diagnosis", "sessions", none, "messages"])
  | .streamMessage => ("POST", ["api", "v1", "diagnosis", "sessions", none, "messages", "stream"])
  | .getSession => ("GET", ["api", "v1", "diagnosis", "sessions", none])
  | .reviewDiagnosis => ("POST", ["api", "v1", "diagnosis", "sessions", none, "review"])
  | .listCases => ("GET", ["api", "v1", "cases"])
  | .getCase => ("GET", ["api", "v1", "cases", none])
  | .caseHistory => ("GET", ["api", "v1", "cases", none, "history"])
  | .patchCase => ("PATCH", ["api", "v1", "cases", none])
  | .submitCase => ("POST", ["api", "v1", "cases", none, "submit"])
  | .reviewCase => ("POST", ["api", "v1", "cases", none, "review"])
  | .disableCase => ("POST", ["api", "v1", "cases", none, "disable"])
  | .reviseCase => ("POST", ["api", "v1", "cases", none, "revisions"])
  | .reindexCase => ("POST", ["api", "v1", "cases", none, "reindex"])
  | .metrics => ("GET", ["metrics"])

/-- The parameters of a path that matches; none of them is empty. -/
def matchPath : List (Option String) → List String → Option (List String)
  | [], [] => some []
  | some part :: template, p :: path => if p = part then matchPath template path else none
  | none :: template, p :: path => if p = "" then none else (matchPath template path).map (p :: ·)
  | _, _ => none

/-- The route of a request. A path that is there with other methods only is answered with 405. -/
def findRoute (method : String) (path : List String) : Except ApiError (Endpoint × List String) :=
  match endpoints.find? fun e => e.route.1 = method ∧ (matchPath e.route.2 path).isSome with
  | some e => .ok (e, (matchPath e.route.2 path).getD [])
  | none =>
      .error (if endpoints.any fun e => (matchPath e.route.2 path).isSome then .methodNotAllowed
        else .notFound)

/-- What a handler asks of its actor. -/
structure Access where
  explicit : Bool
  roles : Option (List ActorRole)
  pilotWrite : Bool
  deriving DecidableEq, Repr

def anyActor : Access := ⟨false, none, false⟩

/-- `READ_ROLES` -/
def readRoles : List ActorRole := [.viewer, .operator, .reviewer, .admin]

def reader : Access := ⟨false, some readRoles, false⟩

def administrator : Access := ⟨true, some [.admin], false⟩

def diagnosisWriter : Access := ⟨false, some [.operator, .reviewer, .admin], true⟩

def caseWriter : Access := ⟨true, some [.reviewer, .admin], true⟩

/-- What each handler asks; the ones without an answer do not look at the actor. -/
def Endpoint.access : Endpoint → Option Access
  | .login | .refresh | .live | .ready | .metrics => none
  | .me | .changePassword | .logout | .logoutAll => some anyActor
  | .listUsers | .createUser | .getUser | .patchUser | .disableUser | .enableUser | .resetPassword
  | .revokeSessions => some administrator
  | .capabilities | .sites | .devices | .device | .alarms | .alarm => some reader
  | .sessions | .timeline | .evidenceDetail | .timeseries | .getSession => some reader
  | .createSession | .chat | .sessionMessage | .streamMessage => some diagnosisWriter
  | .listCases | .getCase | .caseHistory => some anyActor
  | .reviewDiagnosis | .patchCase | .submitCase | .reviewCase | .disableCase | .reviseCase
  | .reindexCase => some caseWriter

def Access.checkRole (access : Access) (actor : ActorContext) : Except ApiError Unit :=
  match access.roles with
  | some roles => requireRoles actor roles
  | none => .ok ()

def Access.checkPilot (access : Access) (settings : GatewaySettings) (actor : ActorContext) :
    Except ApiError Unit :=
  if access.pilotWrite then requirePilotWrite settings actor else .ok ()

/-- The actor of a handler, if it may go on. -/
def Access.authorize (access : Access) (settings : GatewaySettings) (request : HttpRequest)
    (actor : Option ActorContext) : Except ApiError ActorContext := do
  let actor ← actorFromRequest settings request actor access.explicit
  access.checkRole actor
  access.checkPilot settings actor
  pure actor

/-! ## Handlers -/

/-- What a handler calls. -/
inductive ServiceCall
  | users (request : Users.Request)
  | cases (actor : ActorContext) (request : CaseRequest) (idempotencyKey : Option String)
  | reviewDiagnosis (actor : ActorContext) (sessionId : String) (payload : DiagnosisReviewRequest)
      (idempotencyKey : Option String)
  | diagnosis (actor : ActorContext) (endpoint : Endpoint) (sessionId : Option String)
      (idempotencyKey : Option String)
  /-- Reads. -/
  | query (endpoint : Endpoint) (parameters : List String)

/-- The call of a handler that asks no actor. -/
def openCall (env : Env) (request : HttpRequest) : Endpoint → Option ServiceCall
  | .login =>
      match request.body with
      | .login username password =>
          some (.users (.login username password request.limited request.now))
      | _ => none
  | .refresh =>
      match request.body with
      | .refresh token =>
          some (.users (.refresh (env.decodeRefresh token) request.limited request.now))
      | _ => none
  | endpoint => some (.query endpoint [])

/-- What a handler calls for its actor, if the body is one of its route. -/
def closedCall (env : Env) (request : HttpRequest) :
    Endpoint → List String → Option (ActorContext → ServiceCall)
  | .me, _ => some fun actor => .users (.get actor.actorId)
  | .changePassword, _ =>
      match request.body with
      | .changePassword current new =>
          some fun actor => .users (.changePassword actor current new request.now)
      | _ => none
  | .logout, _ =>
      match request.body with
      | .logout token => some fun actor => .users (.logout actor (env.decodeRefresh token))
      | _ => none
  | .logoutAll, _ => some fun actor => .users (.logoutAll actor)
  | .createUser, _ =>
      match request.body with
      | .createUser payload => some fun _ => .users (.create payload)
      | _ => none
  | .getUser, [userId] => some fun _ => .users (.get userId)
  | .patchUser, [userId] =>
      match request.body with
      | .patchUser payload => some fun actor => .users (.patch userId payload actor)
      | _ => none
  | .disableUser, [userId] => some fun actor => .users (.disable userId actor)
  | .enableUser, [userId] => some fun _ => .users (.enable userId)
  | .resetPassword, [userId] =>
      match request.body with
      | .resetPassword password => some fun _ => .users (.resetPassword userId password)
      | _ => none
  | .revokeSessions, [userId] => some fun _ => .users (.revokeSessions userId)
  | .createSession, _ =>
      match request.body with
      | .createSession =>
          some fun actor => .diagnosis actor .createSession none request.idempotencyKey
      | _ => none
  | .chat, _ =>
      match request.body with
      | .chat sessionId =>
          some fun actor => .diagnosis actor .chat (some sessionId) request.idempotencyKey
      | _ => none
  | .sessionMessage, [sessionId] =>
      match request.body with
      | .message =>
          some fun actor => .diagnosis actor .sessionMessage (some sessionId) request.idempotencyKey
      | _ => none
  | .streamMessage, [sessionId] =>
      match request.body with
      | .message =>
          some fun actor => .diagnosis actor .streamMessage (some sessionId) request.idempotencyKey
      | _ => none
  | .reviewDiagnosis, [sessionId] =>
      match request.body with
      | .reviewDiagnosis payload =>
          some fun actor => .reviewDiagnosis actor sessionId payload request.idempotencyKey
      | _ => none
  | .patchCase, [caseId] =>
      match request.body with
      | .patchCase payload => some fun actor => .cases actor (.patch caseId payload) none
      | _ => none
  | .submitCase, [caseId] => some fun actor => .cases actor (.submit caseId) request.idempotencyKey
  | .reviewCase, [caseId] =>
      match request.body with
      | .reviewCase payload =>
          some fun actor => .cases actor (.review caseId payload) request.idempotencyKey
      | _ => none
  | .disableCase, [caseId] =>
      match request.body with
      | .disableCase payload =>
          some fun actor => .cases actor (.disable caseId payload) request.idempotencyKey
      | _ => none
  | .reviseCase, [caseId] =>
      match request.body with
      | .reviseCase payload =>
          some fun actor => .cases actor (.revision caseId payload) request.idempotencyKey
      | _ => none
  | .reindexCase, [caseId] =>
      some fun actor => .cases actor (.reindex caseId) request.idempotencyKey
  | endpoint, parameters => some fun _ => .query endpoint parameters

/-- The check of `/metrics`. -/
def metricsAllowed (settings : GatewaySettings) (request : HttpRequest) : Bool :=
  let authorization := request.authorization.getD ""
  let bearer := if Text.startsWith authorization "Bearer " then
    String.ofList (authorization.toList.drop 7) else authorization
  settings.isLocal ∨ request.internalApiKey = settings.internalApiKey ∨
    some bearer = settings.internalApiKey

/-- A handler, up to the call to its service. The payload is read before the handler runs. -/
def handler (env : Env) (request : HttpRequest) (actor : Option ActorContext) (endpoint : Endpoint)
    (parameters : List String) : Except ApiError ServiceCall :=
  match endpoint.access with
  | none =>
      if endpoint = .metrics ∧ metricsAllowed env.settings request = false then
        .error .internalKey
      else (openCall env request endpoint).elim (.error .validation) .ok
  | some access =>
      match closedCall env request endpoint parameters with
      | none => .error .validation
      | some call => (access.authorize env.settings request actor).map call

/-! ## The middleware -/

abbrev Serving := Proc backend ApiError

/-- A call of a service, whose exceptions the middleware or the error handlers report. -/
def reporting {α : Type} (report : AuthError → ApiError) : Users.Call α → Serving α
  | .ret a => .ret a
  | .raise e => .raise (report e)
  | .call op k => .call op fun a => reporting report (k a)

def publicPaths : List (List String) :=
  [["api", "v1", "auth", "login"], ["api", "v1", "auth", "refresh"]]

/-- `allowed_during_password_change` -/
def passwordChangePaths : List (List String) :=
  [["api", "v1", "auth", "me"], ["api", "v1", "auth", "change-password"],
    ["api", "v1", "auth", "logout"], ["api", "v1", "auth", "logout-all"]]

/-- `path.startswith("/api/v1/")` -/
def underApi : List String → Bool
  | "api" :: "v1" :: _ :: _ => true
  | _ => false

/-- The access token of the request. -/
def bearer (request : HttpRequest) : Option String :=
  let authorization := request.authorization.getD ""
  if Text.startsWith authorization "Bearer " then some (String.ofList (authorization.toList.drop 7))
  else none

/-- The authentication of the middleware, in JWT mode: `energy_actor`. -/
def authenticate (env : Env) (request : HttpRequest) : Serving (Option ActorContext) := do
  if env.settings.authMode ≠ .jwt ∨ underApi request.path = false then return none
  Proc.raiseIf (request.internalApiKey ≠ env.settings.internalApiKey) .internalKey
  if request.path ∈ publicPaths then return none
  match bearer request with
  | none => .raise .tokenMissing
  | some token => do
      let (actor, profile) ← reporting .access (authenticateAccess (env.decodeAccess token))
      Proc.raiseIf (profile.mustChangePassword ∧ request.path ∉ passwordChangePaths)
        .passwordChangeRequired
      return some actor

/-- `request.method in {"POST", "PUT", "PATCH"}` -/
def writes (method : String) : Bool := method = "POST" ∨ method = "PUT" ∨ method = "PATCH"

/-- The limit of the request body. -/
def checkBody (settings : GatewaySettings) (request : HttpRequest) : Except ApiError Unit :=
  if writes request.method ∧ (request.contentLength.any (settings.requestBodyMaxBytes < ·) ∨
      settings.requestBodyMaxBytes < request.bodyLength) then .error .bodyTooLarge
  else .ok ()

/-- The group of the rate limit, and its limit. -/
def rateGroup (settings : GatewaySettings) (path : List String) : String × Nat :=
  if path.getLast? = some "review" then ("review", settings.rateLimitReviewPerMinute)
  else if "cases" ∈ path.dropLast then ("case_write", settings.rateLimitCaseWritePerMinute)
  else ("diagnosis", settings.rateLimitDiagnosisPerMinute)

/-- Whom the rate limit is for. -/
def rateActor (request : HttpRequest) (actor : Option ActorContext) : String :=
  match actor with
  | some actor => actor.actorId
  | none => (Text.truthy request.actorId).getD "local-operator"

/-- The generic rate limit of writes. Without an answer of the limiter, only the pilot is closed. -/
def checkRate (settings : GatewaySettings) (request : HttpRequest) (actor : Option ActorContext) :
    Except ApiError Unit :=
  if settings.rateLimitEnabled ∧ writes request.method ∧ request.path ∉ publicPaths then
    let (group, limit) := rateGroup settings request.path
    match request.limiter (rateActor request actor) group limit with
    | .allowed => .ok ()
    | .rejected retryAfter => .error (.rateLimited retryAfter)
    | .raised => if settings.pilotMode then .error .rateLimitUnavailable else .ok ()
  else .ok ()

/-- What the request is answered with: the reply of the user service, or the call of another one. -/
inductive Answer
  | users (reply : Users.Reply)
  | call (call : ServiceCall)

def lift {α : Type} : Except ApiError α → Serving α
  | .ok a => .ret a
  | .error e => .raise e

/-- Make the call of the handler. -/
def answer (env : Env) : ServiceCall → Serving Answer
  | .users request => reporting .service (Users.serve env.codec env.auth request) >>= fun reply =>
      .ret (.users reply)
  | call => .ret (.call call)

/-- What follows the authentication. -/
def proceed (env : Env) (request : HttpRequest) (actor : Option ActorContext) : Serving Answer := do
  lift (checkBody env.settings request)
  lift (checkRate env.settings request actor)
  let (endpoint, parameters) ← lift (findRoute request.method request.path)
  let call ← lift (handler env request actor endpoint parameters)
  answer env call

/-- `request_context_middleware` and the handler behind it. -/
def respond (env : Env) (request : HttpRequest) : Serving Answer :=
  authenticate env request >>= proceed env request

/-- All interleavings of HTTP requests. -/
def api (env : Env) : TransitionSystem (Pool backend HttpRequest ApiError Answer)
    (Move backend HttpRequest) :=
  Pool.system Fresh (respond env)

end EnergyAgent.Api
