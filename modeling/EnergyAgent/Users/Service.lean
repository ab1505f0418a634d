import EnergyAgent.Users.Repository
import EnergyAgent.Lib.Text

/-!
# `AuthService` and `UserService`

Every operation as the program of repository calls it makes, so that requests may interleave
between any two calls. A request carries what the service takes from outside: the clock, the answer
of the rate limiter, and what `JWTCodec` makes of the presented token. Password hashing and the
Unicode folding of names are library functions and stay parameters (`Codec`). Audit and metrics
are left out.
-/

namespace EnergyAgent.Users

open EnergyAgent.Core EnergyAgent.Lib

inductive AuthError
  | rateLimitExceeded | authInvalidCredentials | authAccountLocked
  | authTokenExpired | authTokenInvalid
  | authRefreshExpired | authRefreshInvalid | authRefreshReused
  | authCurrentPasswordInvalid | authNewPasswordInvalid
  | userNotFound | userUsernameExists | userEmailExists | userLastAdminProtected
  | userSelfDisableForbidden | userSelfRoleChangeForbidden
  | invalidRequest | assertionError
  deriving DecidableEq, Repr

def RepositoryError.toAuth : RepositoryError → AuthError
  | .userUsernameExists => .userUsernameExists
  | .userEmailExists => .userEmailExists
  | .userLastAdminProtected => .userLastAdminProtected

/-- The functions of `users/password.py` that rest on a library. -/
structure Codec where
  normalizeUsername : String → String
  hash : String → String
  verifyPassword : String → String → Bool

/-- `settings`, as far as the tokens' life times go (in the unit of the clock). -/
structure AuthSettings where
  refreshTtl : Nat

/-- What `decode_access` and `decode_refresh` make of a presented token: its claims, or the
exception of the JWT library. -/
inductive Presented (τ : Type)
  | claims (token : τ)
  | expired
  | invalid
  deriving DecidableEq, Repr

/-- An access token: the claims that `issue_access` signs, as far as they are read again. -/
structure AccessToken where
  sub : String
  username : String
  role : ActorRole
  tokenVersion : Nat
  deriving DecidableEq, Repr

structure TokenResponse where
  accessToken : AccessToken
  refreshToken : RefreshToken
  user : UserProfile
  deriving DecidableEq, Repr

structure UserCreateRequest where
  username : String
  displayName : String
  email : Option String
  role : ActorRole
  initialPassword : String
  deriving DecidableEq, Repr

/-- A patch; `email` is `none` when the field was not set. -/
structure UserPatchRequest where
  displayName : Option String
  email : Option (Option String)
  role : Option ActorRole
  deriving DecidableEq, Repr

inductive Reply
  | tokens (response : TokenResponse)
  | actor (context : ActorContext) (user : UserProfile)
  | profile (user : UserProfile)
  | unit
  deriving DecidableEq, Repr

abbrev Call := Proc backend AuthError

/-- One repository call. -/
def ask (op : Op) : Call (Ans op) := Proc.call (B := backend) op .ret

/-- The value of an optional answer, or the exception raised without it. -/
def orRaise {α : Type} (e : AuthError) : Option α → Call α
  | some a => .ret a
  | none => .raise e

def liftRepository {α : Type} : Except RepositoryError α → Call α
  | .ok a => .ret a
  | .error e => .raise e.toAuth

variable (codec : Codec) (settings : AuthSettings)

/-- `validate_password`. -/
def validatePassword (password username : String) : Call Unit := do
  Proc.raiseIf (Text.isBlank password ∨ ¬ (10 ≤ password.length ∧ password.length ≤ 128))
    .authNewPasswordInvalid
  Proc.raiseIf (codec.normalizeUsername password = codec.normalizeUsername username)
    .authNewPasswordInvalid

/-- `hash_password`. -/
def hashPassword (password username : String) : Call String := do
  validatePassword codec password username
  return codec.hash password

def currentUser (userId : String) : Call UserProfile := do
  orRaise .userNotFound (← ask (.profile userId))

/-- `issue_access`. -/
def issueAccess (user : AppUser) : AccessToken where
  sub := user.userId
  username := user.username
  role := user.role
  tokenVersion := user.tokenVersion

/-- `issue_refresh`. -/
def issueRefresh (user : AppUser) (familyId : String) (ids : NewIds) : RefreshToken where
  sub := user.userId
  sessionId := ids.sessionId
  familyId := familyId
  jti := ids.jti
  tokenVersion := user.tokenVersion

/-- The session row that goes with a refresh token. -/
def sessionRow (token : RefreshToken) (rotatedFrom : Option String) (now : Nat) :
    RefreshSession where
  sessionId := token.sessionId
  userId := token.sub
  tokenHash := token
  tokenFamilyId := token.familyId
  jti := token.jti
  rotatedFromSessionId := rotatedFrom
  expiresAt := now + settings.refreshTtl
  revokedAt := none
  revokeReason := none

/-- `_issue_pair`. -/
def issuePair (user : AppUser) (now : Nat) : Call TokenResponse := do
  let ids ← ask (.createSession fun ids =>
    sessionRow settings (issueRefresh user ids.familyId ids) none now)
  let profile ← currentUser user.userId
  return ⟨issueAccess user, issueRefresh user ids.familyId ids, profile⟩

def login (username password : String) (limited : Bool) (now : Nat) : Call TokenResponse := do
  Proc.raiseIf (limited = true) .rateLimitExceeded
  let user ← orRaise .authInvalidCredentials
    (← ask (.byNormalizedUsername (codec.normalizeUsername username)))
  Proc.raiseIf (∃ t ∈ user.lockedUntil, now < t) .authAccountLocked
  if codec.verifyPassword password user.passwordHash = false then
    let locked ← ask (.recordLoginFailure user.userId)
    .raise (if locked = true then .authAccountLocked else .authInvalidCredentials)
  else if user.status ≠ .active then
    .raise .authInvalidCredentials
  else
    let user ← orRaise .assertionError (← ask (.recordLoginSuccess user.userId))
    issuePair settings user now

def authenticateAccess (token : Presented AccessToken) : Call (ActorContext × UserProfile) :=
  match token with
  | .expired => .raise .authTokenExpired
  | .invalid => .raise .authTokenInvalid
  | .claims claims => do
      let user ← orRaise .authTokenInvalid (← ask (.byId claims.sub))
      Proc.raiseIf (user.status ≠ .active ∨ user.tokenVersion ≠ claims.tokenVersion ∨
        user.role ≠ claims.role) .authTokenInvalid
      let profile ← currentUser user.userId
      return (⟨user.userId, user.role⟩, profile)

/-- The part of `refresh` behind the decoding of the token. -/
def refreshClaims (claims : RefreshToken) (now : Nat) : Call TokenResponse := do
  let user ← orRaise .authRefreshInvalid (← ask (.byId claims.sub))
  Proc.raiseIf (user.status ≠ .active ∨ user.tokenVersion ≠ claims.tokenVersion)
    .authRefreshInvalid
  match ← ask (.rotate claims.sessionId claims claims.jti fun ids =>
      sessionRow settings (issueRefresh user claims.familyId ids) (some claims.sessionId) now) with
  | .refused => .raise .authRefreshInvalid
  | .reused reusedUser family => do
      let _count ← ask (.revokeFamily family "reuse_detected")
      ask (.incrementTokenVersion reusedUser)
      .raise .authRefreshReused
  | .rotated ids => do
      let profile ← currentUser user.userId
      return ⟨issueAccess user, issueRefresh user claims.familyId ids, profile⟩

def refresh (token : Presented RefreshToken) (limited : Bool) (now : Nat) :
    Call TokenResponse := do
  Proc.raiseIf (limited = true) .rateLimitExceeded
  match token with
  | .expired => .raise .authRefreshExpired
  | .invalid => .raise .authRefreshInvalid
  | .claims claims => refreshClaims settings claims now

def changePassword (actor : ActorContext) (currentPassword newPassword : String) (now : Nat) :
    Call TokenResponse := do
  let user ← orRaise .authCurrentPasswordInvalid (← ask (.byId actor.actorId))
  Proc.raiseIf (codec.verifyPassword currentPassword user.passwordHash = false)
    .authCurrentPasswordInvalid
  validatePassword codec newPassword user.username
  Proc.raiseIf (codec.verifyPassword newPassword user.passwordHash = true) .authNewPasswordInvalid
  let hash ← hashPassword codec newPassword user.username
  let updated ← orRaise .assertionError (← ask (.replacePassword user.userId hash false))
  let _count ← ask (.revokeUser user.userId "password_changed")
  issuePair settings updated now

def logout (actor : ActorContext) (token : Presented RefreshToken) : Call Unit :=
  match token with
  | .claims claims =>
      if claims.sub = actor.actorId then ask (.revoke claims.sessionId "logout") else .ret ()
  | _ => .ret ()

def logoutAll (actor : ActorContext) : Call Unit := do
  let _count ← ask (.revokeUser actor.actorId "logout_all")
  ask (.incrementTokenVersion actor.actorId)

/-! ## `UserService` -/

/-- `get`. -/
def getUser (userId : String) : Call UserProfile := currentUser userId

def create (payload : UserCreateRequest) : Call UserProfile := do
  let normalized := codec.normalizeUsername payload.username
  let displayName := Text.strip payload.displayName
  Proc.raiseIf (normalized = "" ∨ displayName = "") .invalidRequest
  let hash ← hashPassword codec payload.initialPassword payload.username
  liftRepository (← ask (.createUser fun ids =>
    { userId := ids.userId
      username := Text.strip payload.username
      usernameNormalized := normalized
      displayName := displayName
      email := Text.truthy (payload.email.map Text.strip)
      role := payload.role
      status := .active
      passwordHash := hash
      mustChangePassword := true
      tokenVersion := 1
      failedLoginCount := 0
      lockedUntil := none }))

def patch (userId : String) (payload : UserPatchRequest) (actor : ActorContext) :
    Call UserProfile := do
  let _user ← getUser userId
  Proc.raiseIf (∃ name ∈ payload.displayName, Text.isBlank name) .invalidRequest
  Proc.raiseIf (actor.actorId = userId ∧ ∃ role ∈ payload.role, role ≠ .admin)
    .userSelfRoleChangeForbidden
  let (profile, oldRole) ← orRaise .userNotFound (← liftRepository (← ask
    (.updateProfile userId ((Text.truthy payload.displayName).map Text.strip)
      (payload.email.join.map Text.strip) payload.email.isSome payload.role)))
  if ∃ role ∈ payload.role, role ≠ oldRole then
    let _count ← ask (.revokeUser userId "role_changed")
    return profile
  else
    return profile

def disable (userId : String) (actor : ActorContext) : Call UserProfile := do
  Proc.raiseIf (actor.actorId = userId) .userSelfDisableForbidden
  let _user ← getUser userId
  let profile ← orRaise .assertionError (← liftRepository (← ask (.setStatus userId .disabled)))
  let _count ← ask (.revokeUser userId "disabled")
  return profile

def enable (userId : String) : Call UserProfile := do
  orRaise .userNotFound (← liftRepository (← ask (.setStatus userId .active)))

def resetPassword (userId password : String) : Call UserProfile := do
  let current ← getUser userId
  let hash ← hashPassword codec password current.username
  let _model ← orRaise .assertionError (← ask (.replacePassword userId hash true))
  let _count ← ask (.revokeUser userId "password_reset")
  getUser userId

def revokeSessions (userId : String) : Call UserProfile := do
  let _user ← getUser userId
  let _count ← ask (.revokeUser userId "admin_revoked")
  ask (.incrementTokenVersion userId)
  getUser userId

/-! ## The requests -/

inductive Request
  | login (username password : String) (limited : Bool) (now : Nat)
  | authenticateAccess (token : Presented AccessToken)
  | refresh (token : Presented RefreshToken) (limited : Bool) (now : Nat)
  | changePassword (actor : ActorContext) (currentPassword newPassword : String) (now : Nat)
  | logout (actor : ActorContext) (token : Presented RefreshToken)
  | logoutAll (actor : ActorContext)
  | get (userId : String)
  | create (payload : UserCreateRequest)
  | patch (userId : String) (payload : UserPatchRequest) (actor : ActorContext)
  | disable (userId : String) (actor : ActorContext)
  | enable (userId : String)
  | resetPassword (userId password : String)
  | revokeSessions (userId : String)

/-- The program of a request. -/
def serve : Request → Call Reply
  | .login username password limited now =>
      login codec settings username password limited now >>= fun t => .ret (.tokens t)
  | .authenticateAccess token => authenticateAccess token >>= fun (a, u) => .ret (.actor a u)
  | .refresh token limited now => refresh settings token limited now >>= fun t => .ret (.tokens t)
  | .changePassword actor currentPassword newPassword now =>
      changePassword codec settings actor currentPassword newPassword now >>=
        fun t => .ret (.tokens t)
  | .logout actor token => logout actor token >>= fun _ => .ret .unit
  | .logoutAll actor => logoutAll actor >>= fun _ => .ret .unit
  | .get userId => getUser userId >>= fun u => .ret (.profile u)
  | .create payload => create codec payload >>= fun u => .ret (.profile u)
  | .patch userId payload actor => patch userId payload actor >>= fun u => .ret (.profile u)
  | .disable userId actor => disable userId actor >>= fun u => .ret (.profile u)
  | .enable userId => enable userId >>= fun u => .ret (.profile u)
  | .resetPassword userId password =>
      resetPassword codec userId password >>= fun u => .ret (.profile u)
  | .revokeSessions userId => revokeSessions userId >>= fun u => .ret (.profile u)

abbrev UserPool := Pool backend Request AuthError Reply

abbrev UserMove := Move backend Request

/-- The database before the first request: distinct user ids and no refresh session yet. -/
def Fresh (s : Tables) : Prop := (s.users.map AppUser.userId).Nodup ∧ s.sessions = []

/-- All interleavings of the requests. -/
def system : TransitionSystem UserPool UserMove := Pool.system Fresh (serve codec settings)

/-! ## A small service to run -/

/-- Names as they are, and passwords that are their own hash. -/
def sampleCodec : Codec where
  normalizeUsername := id
  hash := id
  verifyPassword password hash := password == hash

def sampleSettings : AuthSettings where
  refreshTtl := 1000

def sampleUser : AppUser where
  userId := "user-1"
  username := "ann"
  usernameNormalized := "ann"
  displayName := "Ann"
  email := none
  role := .operator
  status := .active
  passwordHash := "first-secret"
  mustChangePassword := false
  tokenVersion := 1
  failedLoginCount := 0
  lockedUntil := none

/-- One user, nobody logged in. -/
def samplePool : UserPool := ⟨⟨⟨[sampleUser], []⟩, []⟩, []⟩

def sampleInput (sessionId familyId jti : String) : CallInput := ⟨1, ⟨"user-2", sessionId, familyId, jti⟩⟩

/-- The token of the first login. -/
def sampleToken : RefreshToken := ⟨"user-1", "session-1", "family-1", "jti-1", 1⟩

/-- Request `i` makes `n` calls, drawing the same ids. -/
def calls (i n : Nat) (x : CallInput) : List UserMove := List.replicate n (.step i x)

theorem samplePool_init : (system sampleCodec sampleSettings).init samplePool :=
  ⟨⟨by decide, rfl⟩, rfl, rfl⟩

end EnergyAgent.Users
