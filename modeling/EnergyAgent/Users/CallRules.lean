import EnergyAgent.Users.Service

/-!
# What a repository call can do

A call rewrites the row of a user in one of a few ways (`UserEdit`) and the refresh sessions by
revoking some of them or by adding one (`SessionWrite`). `exec_effect` is the inversion lemma;
what the results on token families and on revocation need of the repositories is derived from it.
-/

namespace EnergyAgent.Users

open EnergyAgent.Core EnergyAgent.Lib

/-! ## Users -/

/-- How the call `op` may leave the row of a user. -/
inductive UserEdit (op : Op) (userId : String) (model : AppUser) : AppUser → Prop
  | keep : UserEdit op userId model model
  | edit (displayName email : Option String) (emailSet : Bool) (role : Option ActorRole)
      (hop : op = .updateProfile userId displayName email emailSet role) :
      UserEdit op userId model (model.edit displayName email emailSet role)
  | status (status : UserStatus) (hop : op = .setStatus userId status) :
      UserEdit op userId model (model.withStatus status)
  | fail (now : Nat) (hop : op = .recordLoginFailure userId) :
      UserEdit op userId model (model.failLogin now)
  | success (hop : op = .recordLoginSuccess userId) : UserEdit op userId model model.resetLogin
  | password (hash : String) (mustChange : Bool)
      (hop : op = .replacePassword userId hash mustChange) :
      UserEdit op userId model (model.withPassword hash mustChange)
  | bump (hop : op = .incrementTokenVersion userId) : UserEdit op userId model model.bumpVersion

@[simp] theorem edit_userId (model : AppUser) (displayName email : Option String) (emailSet : Bool)
    (role : Option ActorRole) :
    (model.edit displayName email emailSet role).userId = model.userId := by
  cases role <;> rfl

@[simp] theorem withStatus_userId (model : AppUser) (status : UserStatus) :
    (model.withStatus status).userId = model.userId := by
  unfold AppUser.withStatus
  split
  · rfl
  · cases status <;> rfl

/-- What `withStatus` does to the version: it rises exactly when an active user is disabled. -/
theorem withStatus_cases (model : AppUser) (status : UserStatus) :
    (model.withStatus status = model ∧ model.status = status) ∨
    (status = .disabled ∧ (model.withStatus status).tokenVersion = model.tokenVersion + 1) ∨
    (status = .active ∧ (model.withStatus status).tokenVersion = model.tokenVersion ∧
      (model.withStatus status).status = .active) := by
  unfold AppUser.withStatus
  split
  · next hsame => exact Or.inl ⟨rfl, hsame⟩
  · cases status
    · exact Or.inr (Or.inr ⟨rfl, rfl, rfl⟩)
    · exact Or.inr (Or.inl ⟨rfl, rfl⟩)

namespace UserEdit

variable {op : Op} {u : String} {model model' : AppUser}

theorem userId (h : UserEdit op u model model') : model'.userId = model.userId := by
  cases h with
  | edit | status => simp
  | keep | fail | success | password | bump => rfl

/-- No call lowers a token version. -/
theorem tokenVersion_le (h : UserEdit op u model model') :
    model.tokenVersion ≤ model'.tokenVersion := by
  cases h with
  | edit displayName email emailSet role hop =>
      cases role with
      | none => exact Nat.le_refl _
      | some role =>
          simp only [AppUser.edit]
          split <;> omega
  | status status hop =>
      rcases withStatus_cases model status with ⟨h, -⟩ | ⟨-, h⟩ | ⟨-, h, -⟩
      · exact Nat.le_of_eq (by rw [h])
      · omega
      · omega
  | keep | fail | success => exact Nat.le_refl _
  | password | bump => exact Nat.le_succ _

/-- A call that disables a user raises the token version. -/
theorem disabled (h : UserEdit op u model model') (hdis : model'.status = .disabled) :
    model.status = .disabled ∨ model.tokenVersion < model'.tokenVersion := by
  cases h with
  | edit displayName email emailSet role hop =>
      cases role <;> exact Or.inl hdis
  | status status hop =>
      rcases withStatus_cases model status with ⟨h, -⟩ | ⟨-, h⟩ | ⟨-, -, h⟩
      · rw [h] at hdis
        exact Or.inl hdis
      · exact Or.inr (by omega)
      · rw [h] at hdis
        cases hdis
  | keep | fail | success | password | bump => exact Or.inl hdis

end UserEdit

theorem user_writeUser_self {s : Tables} {u : String} {f : AppUser → AppUser} {model : AppUser}
    (hf : ∀ m, (f m).userId = m.userId) (hu : s.user u = some model) :
    (writeUser s u f).user u = some (f model) := by
  unfold Tables.user at hu
  unfold Tables.user writeUser
  rw [Table.get_update_self fun r hr => (hf r).trans hr, hu]
  rfl

theorem user_writeUser {op : Op} {s : Tables} {u userId : String} {f : AppUser → AppUser}
    {model : AppUser} (hf : ∀ m, UserEdit op u m (f m)) (hu : s.user userId = some model) :
    ∃ model', (writeUser s u f).user userId = some model' ∧ UserEdit op userId model model' := by
  by_cases huser : userId = u
  · subst huser
    exact ⟨f model, user_writeUser_self (fun m => (hf m).userId) hu, hf model⟩
  · refine ⟨model, ?_, .keep⟩
    unfold Tables.user at hu
    unfold Tables.user writeUser
    rw [Table.get_update_ne (fun r hr => (hf r).userId.trans hr) huser, hu]

/-! ## Refresh sessions -/

/-- The row is the one its token speaks of. -/
structure RefreshSession.Coherent (row : RefreshSession) : Prop where
  sessionId : row.tokenHash.sessionId = row.sessionId
  sub : row.tokenHash.sub = row.userId
  familyId : row.tokenHash.familyId = row.tokenFamilyId

/-- A call stores only rows that belong to their token: a login starts a family, a rotation goes on
with the family of the presented token. -/
def Op.StoresCoherent : Op → Prop
  | .createSession values => ∀ ids, (values ids).Coherent ∧ (values ids).tokenFamilyId = ids.familyId
  | .rotate _ tokenHash _ newValues =>
      ∀ ids, (newValues ids).Coherent ∧ (newValues ids).tokenFamilyId = tokenHash.familyId
  | _ => True

/-- What a call may do to the sessions. -/
inductive SessionWrite (s : Tables) : List RefreshSession → Prop
  | keep : SessionWrite s s.sessions
  | revoke (which : RefreshSession → Bool) (now : Nat) (reason : String) :
      SessionWrite s (revokeWhere which now reason s).sessions
  | create (row : RefreshSession) (hnew : newSession s row) (hfam : newFamily s row.tokenFamilyId)
      (hrow : row.Coherent) : SessionWrite s (s.sessions ++ [row])
  | rotate (current row : RefreshSession) (now : Nat) (hcurrent : current ∈ s.sessions)
      (hlive : current.revokedAt = none) (hnew : newSession s row) (hrow : row.Coherent)
      (hfam : row.tokenFamilyId = current.tokenHash.familyId) :
      SessionWrite s
        ((revokeWhere (·.sessionId = current.sessionId) now "rotated" s).sessions ++ [row])

/-- **What `rotate` answers and does.** -/
theorem rotate_cases {sessionId jti : String} {tokenHash : RefreshToken}
    {newValues : NewIds → RefreshSession} {x : CallInput} {s t : Tables} {a : RotateAnswer}
    (h : rotate sessionId tokenHash jti newValues x s = some (a, t)) :
    (a = .refused ∧ t = s) ∨
    (∃ current, s.session sessionId = some current ∧ current.tokenHash = tokenHash ∧
      current.revokedAt.isSome ∧ a = .reused current.userId current.tokenFamilyId ∧ t = s) ∨
    (∃ current, s.session sessionId = some current ∧ current.tokenHash = tokenHash ∧
      current.revokedAt = none ∧ newSession s (newValues x.ids) ∧ a = .rotated x.ids ∧
      t = { s with sessions := (revokeWhere (·.sessionId = sessionId) x.now "rotated" s).sessions ++
        [newValues x.ids] }) := by
  unfold rotate at h
  split at h
  · cases h
    exact Or.inl ⟨rfl, rfl⟩
  · next current hcurrent =>
      split at h
      · cases h
        exact Or.inl ⟨rfl, rfl⟩
      · next hmatch =>
          have htoken : current.tokenHash = tokenHash := by
            by_contra hne
            exact hmatch (Or.inl hne)
          split at h
          · next hrevoked =>
              cases h
              exact Or.inr (Or.inl ⟨current, hcurrent, htoken, hrevoked, rfl, rfl⟩)
          · next hlive =>
              split at h
              · cases h
                exact Or.inl ⟨rfl, rfl⟩
              · split at h
                · next hnew =>
                    cases h
                    exact Or.inr (Or.inr
                      ⟨current, hcurrent, htoken, by simpa using hlive, hnew, rfl, rfl⟩)
                · cases h

/-! ## All calls -/

/-- **What a call can do to the tables.** -/
inductive CallEffect (op : Op) (s : Tables) : Tables → Prop
  | keep : CallEffect op s s
  | write (u : String) (f : AppUser → AppUser) (hf : ∀ m, UserEdit op u m (f m)) :
      CallEffect op s (writeUser s u f)
  | add (model : AppUser) (hnew : s.user model.userId = none) :
      CallEffect op s { s with users := s.users ++ [model] }
  | revoke (which : RefreshSession → Bool) (now : Nat) (reason : String) :
      CallEffect op s (revokeWhere which now reason s)
  | create (values : NewIds → RefreshSession) (ids : NewIds) (hop : op = .createSession values)
      (hnew : newSession s (values ids)) (hfam : newFamily s ids.familyId) :
      CallEffect op s { s with sessions := s.sessions ++ [values ids] }
  | rotate (token : RefreshToken) (jti : String) (newValues : NewIds → RefreshSession)
      (current : RefreshSession) (ids : NewIds) (now : Nat)
      (hop : op = .rotate current.sessionId token jti newValues) (hcurrent : current ∈ s.sessions)
      (htoken : current.tokenHash = token) (hlive : current.revokedAt = none)
      (hnew : newSession s (newValues ids)) :
      CallEffect op s { s with sessions := (revokeWhere (·.sessionId = current.sessionId) now
        "rotated" s).sessions ++ [newValues ids] }

theorem exec_effect {op : Op} {x : CallInput} {s t : Tables} {a : Ans op}
    (h : exec op x s = some (a, t)) : CallEffect op s t := by
  cases op with
  | byNormalizedUsername | byId | profile =>
      cases h
      exact .keep
  | createUser values =>
      simp only [exec, createUser] at h
      split at h
      · cases h
      · next hnew =>
          split at h
          · cases h
            exact .keep
          · split at h
            · cases h
              exact .keep
            · cases h
              exact .add _ (by simpa using hnew)
  | updateProfile u displayName email emailSet role =>
      simp only [exec, updateProfile, Option.some.injEq] at h
      split at h
      · cases h
        exact .keep
      · split at h
        · cases h
          exact .keep
        · split at h
          · cases h
            exact .keep
          · cases h
            exact .write u _ fun m => .edit displayName email emailSet role rfl
  | setStatus u status =>
      simp only [exec, setStatus, Option.some.injEq] at h
      split at h
      · cases h
        exact .keep
      · split at h
        · cases h
          exact .keep
        · cases h
          exact .write u _ fun m => .status status rfl
  | recordLoginFailure u =>
      simp only [exec, recordLoginFailure, Option.some.injEq] at h
      split at h
      · cases h
        exact .keep
      · cases h
        exact .write u _ fun m => .fail x.now rfl
  | recordLoginSuccess u =>
      cases h
      exact .write u _ fun m => .success rfl
  | replacePassword u hash mustChange =>
      cases h
      exact .write u _ fun m => .password hash mustChange rfl
  | incrementTokenVersion u =>
      cases h
      exact .write u _ fun m => .bump rfl
  | createSession values =>
      simp only [exec, createSession] at h
      split at h
      · next hnew =>
          cases h
          exact .create values x.ids rfl hnew.1 hnew.2
      · cases h
  | rotate sessionId tokenHash jti newValues =>
      rcases rotate_cases h with ⟨-, rfl⟩ | ⟨_, -, -, -, -, rfl⟩ |
        ⟨current, hcurrent, htoken, hlive, hnew, -, rfl⟩
      · exact .keep
      · exact .keep
      · obtain ⟨hmem, hkey⟩ := Table.get_eq_some hcurrent
        subst hkey
        exact .rotate tokenHash jti newValues current x.ids x.now rfl hmem htoken hlive hnew
  | revoke | revokeUser | revokeFamily =>
      cases h
      exact .revoke _ _ _

/-- A user is never lost, and a call leaves its row in one of the listed ways. -/
theorem exec_user {op : Op} {x : CallInput} {s t : Tables} {a : Ans op} {userId : String}
    {model : AppUser} (h : exec op x s = some (a, t)) (hu : s.user userId = some model) :
    ∃ model', t.user userId = some model' ∧ UserEdit op userId model model' := by
  cases exec_effect h with
  | keep | revoke | create | rotate => exact ⟨model, hu, .keep⟩
  | write u f hf => exact user_writeUser hf hu
  | add model' hnew => exact ⟨model, Table.get_append_of_some hu, .keep⟩

/-- The user ids stay distinct. -/
theorem users_nodup {op : Op} {x : CallInput} {s t : Tables} {a : Ans op}
    (h : exec op x s = some (a, t)) (hs : (s.users.map AppUser.userId).Nodup) :
    (t.users.map AppUser.userId).Nodup := by
  cases exec_effect h with
  | keep | revoke | create | rotate => exact hs
  | write u f hf =>
      unfold writeUser
      rwa [Table.map_key_update fun r hr => (hf r).userId.trans hr]
  | add model hnew => exact Table.nodup_append hs hnew

theorem exec_sessions {op : Op} {x : CallInput} {s t : Tables} {a : Ans op}
    (hop : op.StoresCoherent) (h : exec op x s = some (a, t)) : SessionWrite s t.sessions := by
  cases exec_effect h with
  | keep | write | add => exact .keep
  | revoke which now reason => exact .revoke which now reason
  | create values ids heq hnew hfam =>
      subst heq
      obtain ⟨hrow, hid⟩ := hop ids
      exact .create _ hnew (by rw [hid]; exact hfam) hrow
  | rotate token jti newValues current ids now heq hcurrent htoken hlive hnew =>
      subst heq
      obtain ⟨hrow, hfam⟩ := hop ids
      exact .rotate current _ now hcurrent hlive hnew hrow (by rw [hfam, htoken])

/-! ## The checks of a new password make no call -/

theorem validatePassword_cases (codec : Codec) (password username : String) :
    validatePassword codec password username = .raise .authNewPasswordInvalid ∨
    validatePassword codec password username = .ret () := by
  simp only [validatePassword, Proc.raiseIf]
  split
  · exact Or.inl rfl
  · simp only [Proc.ret_bind]
    split
    · exact Or.inl rfl
    · exact Or.inr rfl

theorem hashPassword_cases (codec : Codec) (password username : String) :
    hashPassword codec password username = .raise .authNewPasswordInvalid ∨
    hashPassword codec password username = .ret (codec.hash password) := by
  unfold hashPassword
  rcases validatePassword_cases codec password username with h | h <;> rw [h]
  · exact Or.inl rfl
  · exact Or.inr rfl

/-! ## The programs store coherent rows only -/

theorem sessionRow_coherent (settings : AuthSettings) (token : RefreshToken)
    (rotatedFrom : Option String) (now : Nat) :
    (sessionRow settings token rotatedFrom now).Coherent := ⟨rfl, rfl, rfl⟩

section uses

variable {α : Type} {codec : Codec} {settings : AuthSettings}

theorem uses_ask {op : Op} (hop : op.StoresCoherent) : (ask op).Uses Op.StoresCoherent :=
  ⟨hop, fun _ _ => trivial⟩

theorem uses_orRaise (e : AuthError) (o : Option α) : (orRaise e o).Uses Op.StoresCoherent := by
  cases o <;> exact trivial

theorem uses_liftRepository (r : Except RepositoryError α) :
    (liftRepository r).Uses Op.StoresCoherent := by
  cases r <;> exact trivial

theorem uses_currentUser (userId : String) : (currentUser userId).Uses Op.StoresCoherent :=
  .bind (uses_ask trivial) fun _ => uses_orRaise _ _

theorem uses_validatePassword (password username : String) :
    (validatePassword codec password username).Uses Op.StoresCoherent :=
  .bind (Proc.uses_raiseIf _ _) fun _ => Proc.uses_raiseIf _ _

theorem uses_hashPassword (password username : String) :
    (hashPassword codec password username).Uses Op.StoresCoherent :=
  .bind (uses_validatePassword password username) fun _ => trivial

theorem uses_issuePair (user : AppUser) (now : Nat) :
    (issuePair settings user now).Uses Op.StoresCoherent :=
  .bind (uses_ask fun _ => ⟨sessionRow_coherent settings _ _ _, rfl⟩) fun _ =>
    .bind (uses_currentUser _) fun _ => trivial

theorem uses_login (username password : String) (limited : Bool) (now : Nat) :
    (login codec settings username password limited now).Uses Op.StoresCoherent := by
  refine .bind (Proc.uses_raiseIf _ _) fun _ => .bind (uses_ask trivial) fun _ =>
    .bind (uses_orRaise _ _) fun user => .bind (Proc.uses_raiseIf _ _) fun _ => ?_
  split
  · exact .bind (uses_ask trivial) fun _ => trivial
  · split
    · exact trivial
    · exact .bind (uses_ask trivial) fun _ => .bind (uses_orRaise _ _) fun _ => uses_issuePair _ _

theorem uses_refreshClaims (claims : RefreshToken) (now : Nat) :
    (refreshClaims settings claims now).Uses Op.StoresCoherent := by
  refine .bind (uses_ask trivial) fun _ => .bind (uses_orRaise _ _) fun user =>
    .bind (Proc.uses_raiseIf _ _) fun _ => Proc.Uses.bind ?_ fun answer => ?_
  · exact uses_ask fun _ => ⟨sessionRow_coherent settings _ _ _, rfl⟩
  · cases answer with
    | refused => exact trivial
    | reused => exact .bind (uses_ask trivial) fun _ => .bind (uses_ask trivial) fun _ => trivial
    | rotated => exact .bind (uses_currentUser _) fun _ => trivial

theorem uses_changePassword (actor : ActorContext) (currentPassword newPassword : String)
    (now : Nat) :
    (changePassword codec settings actor currentPassword newPassword now).Uses
      Op.StoresCoherent :=
  .bind (uses_ask trivial) fun _ => .bind (uses_orRaise _ _) fun _ =>
    .bind (Proc.uses_raiseIf _ _) fun _ => .bind (uses_validatePassword _ _) fun _ =>
    .bind (Proc.uses_raiseIf _ _) fun _ => .bind (uses_hashPassword _ _) fun _ =>
    .bind (uses_ask trivial) fun _ => .bind (uses_orRaise _ _) fun _ =>
    .bind (uses_ask trivial) fun _ => uses_issuePair _ _

/-- Every request only ever stores coherent rows. -/
theorem uses_serve (r : Request) : (serve codec settings r).Uses Op.StoresCoherent := by
  cases r with
  | login username password limited now =>
      exact .bind (uses_login username password limited now) fun _ => trivial
  | authenticateAccess token =>
      refine Proc.Uses.bind ?_ fun _ => trivial
      cases token with
      | claims claims =>
          exact .bind (uses_ask trivial) fun _ => .bind (uses_orRaise _ _) fun _ =>
            .bind (Proc.uses_raiseIf _ _) fun _ => .bind (uses_currentUser _) fun _ => trivial
      | expired | invalid => exact trivial
  | refresh token limited now =>
      refine Proc.Uses.bind (.bind (Proc.uses_raiseIf _ _) fun _ => ?_) fun _ => trivial
      cases token with
      | claims claims => exact uses_refreshClaims claims now
      | expired | invalid => exact trivial
  | changePassword actor currentPassword newPassword now =>
      exact .bind (uses_changePassword actor currentPassword newPassword now) fun _ => trivial
  | logout actor token =>
      refine Proc.Uses.bind ?_ fun _ => trivial
      cases token with
      | claims claims =>
          simp only [logout]
          split
          · exact uses_ask trivial
          · exact trivial
      | expired | invalid => exact trivial
  | logoutAll actor =>
      exact .bind (.bind (uses_ask trivial) fun _ => uses_ask trivial) fun _ => trivial
  | get userId => exact .bind (uses_currentUser userId) fun _ => trivial
  | create payload =>
      exact .bind (.bind (Proc.uses_raiseIf _ _) fun _ => .bind (uses_hashPassword _ _) fun _ =>
        .bind (uses_ask trivial) fun _ => uses_liftRepository _) fun _ => trivial
  | patch userId payload actor =>
      refine Proc.Uses.bind (.bind (uses_currentUser _) fun _ => .bind (Proc.uses_raiseIf _ _) fun _ =>
        .bind (Proc.uses_raiseIf _ _) fun _ => .bind (uses_ask trivial) fun _ =>
        .bind (uses_liftRepository _) fun _ => .bind (uses_orRaise _ _) fun found => ?_)
        fun _ => trivial
      obtain ⟨profile, oldRole⟩ := found
      simp only
      split
      · exact .bind (uses_ask trivial) fun _ => trivial
      · exact trivial
  | disable userId actor =>
      exact .bind (.bind (Proc.uses_raiseIf _ _) fun _ => .bind (uses_currentUser _) fun _ =>
        .bind (uses_ask trivial) fun _ => .bind (uses_liftRepository _) fun _ =>
        .bind (uses_orRaise _ _) fun _ => .bind (uses_ask trivial) fun _ => trivial)
        fun _ => trivial
  | enable userId =>
      exact .bind (.bind (uses_ask trivial) fun _ => .bind (uses_liftRepository _) fun _ =>
        uses_orRaise _ _) fun _ => trivial
  | resetPassword userId password =>
      exact .bind (.bind (uses_currentUser _) fun _ => .bind (uses_hashPassword _ _) fun _ =>
        .bind (uses_ask trivial) fun _ => .bind (uses_orRaise _ _) fun _ =>
        .bind (uses_ask trivial) fun _ => uses_currentUser _) fun _ => trivial
  | revokeSessions userId =>
      exact .bind (.bind (uses_currentUser _) fun _ => .bind (uses_ask trivial) fun _ =>
        .bind (uses_ask trivial) fun _ => uses_currentUser _) fun _ => trivial

end uses

end EnergyAgent.Users
