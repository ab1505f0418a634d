import EnergyAgent.Core.Context
import EnergyAgent.Lib.Process
import EnergyAgent.Lib.Table

/-!
# Users and refresh sessions

The tables `app_user` and `auth_refresh_session` with the calls of `UserRepository` and
`RefreshSessionRepository`. Every call is one transaction. A SHA-256 digest is its preimage, so
`token_hash` holds the refresh token itself, and a token is the claims it was signed over.

The identifiers that `new_id` draws for a new row belong to the input of the call that stores the
row: no other request can know them earlier. They are new, so a clash of two of them is not a
possible input. Time stamps that nothing reads, and the client hashes, are left out.
-/

namespace EnergyAgent.Users

open EnergyAgent.Core EnergyAgent.Lib

inductive UserStatus
  | active | disabled
  deriving DecidableEq, Repr

/-- A row of `app_user`. -/
structure AppUser where
  userId : String
  username : String
  usernameNormalized : String
  displayName : String
  email : Option String
  role : ActorRole
  status : UserStatus
  passwordHash : String
  mustChangePassword : Bool
  tokenVersion : Nat
  failedLoginCount : Nat
  lockedUntil : Option Nat
  deriving DecidableEq, Repr

structure UserProfile where
  userId : String
  username : String
  displayName : String
  email : Option String
  role : ActorRole
  status : UserStatus
  mustChangePassword : Bool
  deriving DecidableEq, Repr

/-- `_profile`. -/
def AppUser.profile (model : AppUser) : UserProfile where
  userId := model.userId
  username := model.username
  displayName := model.displayName
  email := model.email
  role := model.role
  status := model.status
  mustChangePassword := model.mustChangePassword

/-- A refresh token: the claims that `issue_refresh` signs. -/
structure RefreshToken where
  sub : String
  sessionId : String
  familyId : String
  jti : String
  tokenVersion : Nat
  deriving DecidableEq, Repr

/-- A row of `auth_refresh_session`. -/
structure RefreshSession where
  sessionId : String
  userId : String
  tokenHash : RefreshToken
  tokenFamilyId : String
  jti : String
  rotatedFromSessionId : Option String
  expiresAt : Nat
  revokedAt : Option Nat
  revokeReason : Option String
  deriving DecidableEq, Repr

structure Tables where
  users : List AppUser
  sessions : List RefreshSession
  deriving DecidableEq, Repr

def Tables.user (s : Tables) (userId : String) : Option AppUser :=
  Table.get AppUser.userId s.users userId

def Tables.session (s : Tables) (sessionId : String) : Option RefreshSession :=
  Table.get RefreshSession.sessionId s.sessions sessionId

/-- The identifiers drawn for a new row. -/
structure NewIds where
  userId : String
  sessionId : String
  familyId : String
  jti : String
  deriving DecidableEq, Repr

/-- What a call takes from the environment. -/
structure CallInput where
  now : Nat
  ids : NewIds
  deriving DecidableEq, Repr

/-- The answer of `rotate`. The source answers `("", "")` for a rotation and the owner with the
family of the session for a token that was used before. -/
inductive RotateAnswer
  | refused
  | reused (userId familyId : String)
  | rotated (ids : NewIds)
  deriving DecidableEq, Repr

/-- What the repositories raise. -/
inductive RepositoryError
  | userUsernameExists | userEmailExists | userLastAdminProtected
  deriving DecidableEq, Repr

/-- The repository calls. The values of a new row are given as a function of the drawn ids. -/
inductive Op
  | byNormalizedUsername (username : String)
  | byId (userId : String)
  | profile (userId : String)
  | createUser (values : NewIds → AppUser)
  | updateProfile (userId : String) (displayName email : Option String) (emailSet : Bool)
      (role : Option ActorRole)
  | setStatus (userId : String) (status : UserStatus)
  | recordLoginFailure (userId : String)
  | recordLoginSuccess (userId : String)
  | replacePassword (userId passwordHash : String) (mustChangePassword : Bool)
  | incrementTokenVersion (userId : String)
  | createSession (values : NewIds → RefreshSession)
  | rotate (sessionId : String) (tokenHash : RefreshToken) (jti : String)
      (newValues : NewIds → RefreshSession)
  | revoke (sessionId reason : String)
  | revokeUser (userId reason : String)
  | revokeFamily (familyId reason : String)

abbrev Ans : Op → Type
  | .byNormalizedUsername _ => Option AppUser
  | .byId _ => Option AppUser
  | .profile _ => Option UserProfile
  | .createUser _ => Except RepositoryError UserProfile
  | .updateProfile .. => Except RepositoryError (Option (UserProfile × ActorRole))
  | .setStatus .. => Except RepositoryError (Option UserProfile)
  | .recordLoginFailure _ => Bool
  | .recordLoginSuccess _ => Option AppUser
  | .replacePassword .. => Option AppUser
  | .incrementTokenVersion _ => Unit
  | .createSession _ => NewIds
  | .rotate .. => RotateAnswer
  | .revoke .. => Unit
  | .revokeUser .. => Nat
  | .revokeFamily .. => Nat

/-! ## `UserRepository` -/

/-- The ids of the active administrators, as `update_profile` and `set_status` lock them. -/
def activeAdminIds (s : Tables) : List String :=
  (s.users.filter (fun u => u.role = .admin ∧ u.status = .active)).map (·.userId)

/-- The row is the last active administrator. -/
def lastAdmin (s : Tables) (model : AppUser) : Prop :=
  model.role = .admin ∧ model.status = .active ∧ (activeAdminIds s).length ≤ 1

instance (s : Tables) (model : AppUser) : Decidable (lastAdmin s model) :=
  inferInstanceAs (Decidable (_ ∧ _))

def writeUser (s : Tables) (userId : String) (f : AppUser → AppUser) : Tables :=
  { s with users := Table.update AppUser.userId s.users userId f }

/-- An email is taken when another user has it; `NULL` never is. -/
def emailTaken (s : Tables) (userId : String) (email : Option String) : Bool :=
  email.isSome && s.users.any (fun u => u.userId ≠ userId ∧ u.email = email)

def createUser (values : NewIds → AppUser) (x : CallInput) (s : Tables) :
    Option (Except RepositoryError UserProfile × Tables) :=
  let model := values x.ids
  if (s.user model.userId).isSome then none
  else if s.users.any (fun u => u.usernameNormalized = model.usernameNormalized) then
    some (.error .userUsernameExists, s)
  else if emailTaken s model.userId model.email then some (.error .userEmailExists, s)
  else some (.ok model.profile, { s with users := s.users ++ [model] })

/-- The columns `update_profile` sets on the row it holds. -/
def AppUser.edit (model : AppUser) (displayName email : Option String) (emailSet : Bool)
    (role : Option ActorRole) : AppUser :=
  let model := { model with
    displayName := displayName.getD model.displayName
    email := if emailSet then (if email = some "" then none else email) else model.email }
  match role with
  | none => model
  | some role =>
      { model with
        role := role
        tokenVersion := if role ≠ model.role then model.tokenVersion + 1 else model.tokenVersion }

def updateProfile (userId : String) (displayName email : Option String) (emailSet : Bool)
    (role : Option ActorRole) (s : Tables) :
    Except RepositoryError (Option (UserProfile × ActorRole)) × Tables :=
  match s.user userId with
  | none => (.ok none, s)
  | some model =>
      if (∃ r ∈ role, r ≠ .admin) ∧ lastAdmin s model then (.error .userLastAdminProtected, s)
      else
        let edited := model.edit displayName email emailSet role
        if emailTaken s userId edited.email then (.error .userEmailExists, s)
        else (.ok (some (edited.profile, model.role)),
          writeUser s userId (·.edit displayName email emailSet role))

/-- The columns `set_status` sets when the status changes. -/
def AppUser.withStatus (model : AppUser) (status : UserStatus) : AppUser :=
  if model.status = status then model
  else match status with
    | .disabled => { model with status := .disabled, tokenVersion := model.tokenVersion + 1 }
    | .active => { model with status := .active, failedLoginCount := 0, lockedUntil := none }

def setStatus (userId : String) (status : UserStatus) (s : Tables) :
    Except RepositoryError (Option UserProfile) × Tables :=
  match s.user userId with
  | none => (.ok none, s)
  | some model =>
      if status = .disabled ∧ lastAdmin s model then (.error .userLastAdminProtected, s)
      else (.ok (some (model.withStatus status).profile),
        writeUser s userId (·.withStatus status))

/-- Fifteen minutes, in the unit of the clock (microseconds). -/
def lockDuration : Nat := 15 * 60 * 1000000

/-- The columns `record_login_failure` sets. -/
def AppUser.failLogin (now : Nat) (model : AppUser) : AppUser :=
  { model with
    failedLoginCount := model.failedLoginCount + 1
    lockedUntil := if 5 ≤ model.failedLoginCount + 1 then some (now + lockDuration)
      else model.lockedUntil }

def recordLoginFailure (userId : String) (now : Nat) (s : Tables) : Bool × Tables :=
  match s.user userId with
  | none => (false, s)
  | some model => (5 ≤ model.failedLoginCount + 1, writeUser s userId (·.failLogin now))

/-- The columns `record_login_success` sets. -/
def AppUser.resetLogin (model : AppUser) : AppUser :=
  { model with failedLoginCount := 0, lockedUntil := none }

def recordLoginSuccess (userId : String) (s : Tables) : Option AppUser × Tables :=
  ((s.user userId).map (·.resetLogin), writeUser s userId (·.resetLogin))

/-- The columns `replace_password` sets. -/
def AppUser.withPassword (passwordHash : String) (mustChangePassword : Bool) (model : AppUser) :
    AppUser :=
  { model with
    passwordHash := passwordHash
    mustChangePassword := mustChangePassword
    tokenVersion := model.tokenVersion + 1 }

def replacePassword (userId passwordHash : String) (mustChangePassword : Bool) (s : Tables) :
    Option AppUser × Tables :=
  ((s.user userId).map (·.withPassword passwordHash mustChangePassword),
    writeUser s userId (·.withPassword passwordHash mustChangePassword))

def AppUser.bumpVersion (model : AppUser) : AppUser :=
  { model with tokenVersion := model.tokenVersion + 1 }

def incrementTokenVersion (userId : String) (s : Tables) : Tables :=
  writeUser s userId AppUser.bumpVersion

/-! ## `RefreshSessionRepository` -/

/-- The row is not yet in the table: its session id and token id are new. -/
def newSession (s : Tables) (row : RefreshSession) : Prop :=
  ∀ r ∈ s.sessions, r.sessionId ≠ row.sessionId ∧ r.jti ≠ row.jti

/-- No session has this family. -/
def newFamily (s : Tables) (familyId : String) : Prop :=
  ∀ r ∈ s.sessions, r.tokenFamilyId ≠ familyId

instance (s : Tables) (row : RefreshSession) : Decidable (newSession s row) :=
  inferInstanceAs (Decidable (∀ r ∈ s.sessions, _))

instance (s : Tables) (familyId : String) : Decidable (newFamily s familyId) :=
  inferInstanceAs (Decidable (∀ r ∈ s.sessions, _))

def createSession (values : NewIds → RefreshSession) (x : CallInput) (s : Tables) :
    Option (NewIds × Tables) :=
  if newSession s (values x.ids) ∧ newFamily s x.ids.familyId then
    some (x.ids, { s with sessions := s.sessions ++ [values x.ids] })
  else none

/-- Revoke a session that is not revoked yet. -/
def RefreshSession.revoke (now : Nat) (reason : String) (row : RefreshSession) : RefreshSession :=
  match row.revokedAt with
  | none => { row with revokedAt := some now, revokeReason := some reason }
  | some _ => row

def revokeRow (which : RefreshSession → Bool) (now : Nat) (reason : String) (row : RefreshSession) :
    RefreshSession :=
  if which row then row.revoke now reason else row

/-- `UPDATE auth_refresh_session SET revoked_at … WHERE <which> AND revoked_at IS NULL`. -/
def revokeWhere (which : RefreshSession → Bool) (now : Nat) (reason : String) (s : Tables) :
    Tables :=
  { s with sessions := s.sessions.map (revokeRow which now reason) }

/-- The number of rows such an update touches. -/
def liveCount (which : RefreshSession → Bool) (s : Tables) : Nat :=
  (s.sessions.filter (fun r => which r && r.revokedAt.isNone)).length

def rotate (sessionId : String) (tokenHash : RefreshToken) (jti : String)
    (newValues : NewIds → RefreshSession) (x : CallInput) (s : Tables) :
    Option (RotateAnswer × Tables) :=
  match s.session sessionId with
  | none => some (.refused, s)
  | some current =>
      if current.tokenHash ≠ tokenHash ∨ current.jti ≠ jti then some (.refused, s)
      else if current.revokedAt.isSome then some (.reused current.userId current.tokenFamilyId, s)
      else if current.expiresAt ≤ x.now then some (.refused, s)
      else if newSession s (newValues x.ids) then
        let revoked := revokeWhere (·.sessionId = sessionId) x.now "rotated" s
        some (.rotated x.ids, { revoked with sessions := revoked.sessions ++ [newValues x.ids] })
      else none

/-! ## The calls as one backend -/

def exec : (op : Op) → CallInput → Tables → Option (Ans op × Tables)
  | .byNormalizedUsername username, _, s =>
      some (s.users.find? (fun u => u.usernameNormalized = username), s)
  | .byId userId, _, s => some (s.user userId, s)
  | .profile userId, _, s => some ((s.user userId).map AppUser.profile, s)
  | .createUser values, x, s => createUser values x s
  | .updateProfile userId displayName email emailSet role, _, s =>
      some (updateProfile userId displayName email emailSet role s)
  | .setStatus userId status, _, s => some (setStatus userId status s)
  | .recordLoginFailure userId, x, s => some (recordLoginFailure userId x.now s)
  | .recordLoginSuccess userId, _, s => some (recordLoginSuccess userId s)
  | .replacePassword userId passwordHash mustChangePassword, _, s =>
      some (replacePassword userId passwordHash mustChangePassword s)
  | .incrementTokenVersion userId, _, s => some ((), incrementTokenVersion userId s)
  | .createSession values, x, s => createSession values x s
  | .rotate sessionId tokenHash jti newValues, x, s => rotate sessionId tokenHash jti newValues x s
  | .revoke sessionId reason, x, s =>
      some ((), revokeWhere (·.sessionId = sessionId) x.now reason s)
  | .revokeUser userId reason, x, s =>
      some (liveCount (·.userId = userId) s, revokeWhere (·.userId = userId) x.now reason s)
  | .revokeFamily familyId reason, x, s =>
      some (liveCount (·.tokenFamilyId = familyId) s,
        revokeWhere (·.tokenFamilyId = familyId) x.now reason s)

/-- The control database as the user services call it. -/
abbrev backend : Backend where
  Op := Op
  Ans := Ans
  Store := Tables
  Input := CallInput
  exec := exec

end EnergyAgent.Users
