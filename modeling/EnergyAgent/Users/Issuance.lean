import EnergyAgent.Lib.Precedence
import EnergyAgent.Users.Families

/-!
# Which request has got which token

Every refresh token that a request returns is one that it has had stored, and no two requests have had
the same one stored. When a refresh raises `AuthRefreshReused`, its session had been revoked before; and
when it was revoked by a rotation, that rotation belongs to another refresh with the same token.
-/

namespace EnergyAgent.Users

open EnergyAgent.Core EnergyAgent.Lib

/-! ## The calls of a request -/

/-- The refresh token that is to be rotated. -/
def Request.presented : Request → Option RefreshToken
  | .refresh (.claims token) _ _ => some token
  | _ => none

/-- A call that only the administration of users makes. -/
def administrative : Op → Bool
  | .createUser _ | .updateProfile _ _ _ _ _ | .setStatus _ _ => true
  | .replacePassword _ _ mustChangePassword => mustChangePassword
  | .revokeUser _ reason => reason ∈ ["role_changed", "disabled", "password_reset", "admin_revoked"]
  | _ => false

/-- The requests of a user on its own account. -/
def ofOwnAccount : Request → Bool
  | .login _ _ _ _ | .refresh _ _ _ | .changePassword _ _ _ _ | .logout _ _ | .logoutAll _
  | .get _ => true
  | _ => false

/-- The reason that the call revokes sessions for. -/
def Op.reason : Op → Option String
  | .revoke _ reason | .revokeUser _ reason | .revokeFamily _ reason => some reason
  | _ => none

/-- The row that the call stores. -/
def Op.stored : Op → Option (NewIds → RefreshSession)
  | .createSession values | .rotate _ _ _ values => some values
  | _ => none

/-- What all calls of a request have in common. -/
structure MayCall (r : Request) (op : Op) : Prop where
  administrative : administrative op = true → ofOwnAccount r = false
  rotates : ∀ sessionId token jti values, op = .rotate sessionId token jti values →
    r.presented = some token
  reason : op.reason ≠ some "rotated"
  stored : ∀ values, op.stored = some values → ∀ ids, (values ids).revokeReason = none

section calls

variable {r : Request} {α : Type}

theorem mayCall_ask {op : Op} (h : MayCall r op) : (ask op).Uses (MayCall r) := ⟨h, fun _ _ => trivial⟩

/-- Neither administrative, nor a revocation, nor a new row. -/
theorem mayCall_plain {op : Op} (hadmin : administrative op = false) (hreason : op.reason = none)
    (hstored : op.stored = none) : (ask op).Uses (MayCall r) := by
  refine mayCall_ask ⟨fun h => ?_, fun _ _ _ _ h => ?_, by simp [hreason], fun _ h => ?_⟩
  · simp [hadmin] at h
  · simp [h, Op.stored] at hstored
  · simp [hstored] at h

/-- A call of the administration. -/
theorem mayCall_admin {op : Op} (hr : ofOwnAccount r = false) (hreason : op.reason ≠ some "rotated")
    (hstored : op.stored = none) : (ask op).Uses (MayCall r) := by
  refine mayCall_ask ⟨fun _ => hr, fun _ _ _ _ h => ?_, hreason, fun _ h => ?_⟩
  · simp [h, Op.stored] at hstored
  · simp [hstored] at h

/-- A revocation by the user. -/
theorem mayCall_revokes {op : Op} {reason : String} (hadmin : administrative op = false)
    (hop : op.reason = some reason) (hreason : reason ≠ "rotated") (hstored : op.stored = none) :
    (ask op).Uses (MayCall r) := by
  refine mayCall_ask ⟨fun h => ?_, fun _ _ _ _ h => ?_, by simpa [hop] using hreason, fun _ h => ?_⟩
  · simp [hadmin] at h
  · simp [h, Op.stored] at hstored
  · simp [hstored] at h

/-- A new session that starts a family. -/
theorem mayCall_create {values : NewIds → RefreshSession}
    (h : ∀ ids, (values ids).revokeReason = none) :
    (ask (.createSession values)).Uses (MayCall r) := by
  refine mayCall_ask ⟨fun hop => ?_, fun _ _ _ _ hop => ?_, by simp [Op.reason], fun _ hop => ?_⟩
  · simp [administrative] at hop
  · cases hop
  · cases hop
    exact h

/-- The rotation of the presented token. -/
theorem mayCall_rotate {sessionId jti : String} {token : RefreshToken}
    {values : NewIds → RefreshSession} (hr : r.presented = some token)
    (h : ∀ ids, (values ids).revokeReason = none) :
    (ask (.rotate sessionId token jti values)).Uses (MayCall r) := by
  refine mayCall_ask ⟨fun hop => ?_, fun _ _ _ _ hop => ?_, by simp [Op.reason], fun _ hop => ?_⟩
  · simp [administrative] at hop
  · cases hop
    exact hr
  · cases hop
    exact h

theorem mayCall_orRaise (e : AuthError) (o : Option α) : (orRaise e o).Uses (MayCall r) := by
  cases o <;> exact trivial

theorem mayCall_liftRepository (o : Except RepositoryError α) :
    (liftRepository o).Uses (MayCall r) := by
  cases o <;> exact trivial

theorem mayCall_currentUser (userId : String) : (currentUser userId).Uses (MayCall r) :=
  .bind (mayCall_plain rfl rfl rfl) fun _ => mayCall_orRaise _ _

theorem mayCall_hashPassword (codec : Codec) (password username : String) :
    (hashPassword codec password username).Uses (MayCall r) :=
  .bind (.bind (Proc.uses_raiseIf _ _) fun _ => Proc.uses_raiseIf _ _) fun _ => trivial

theorem mayCall_issuePair (settings : AuthSettings) (user : AppUser) (now : Nat) :
    (issuePair settings user now).Uses (MayCall r) :=
  .bind (mayCall_create fun _ => rfl) fun _ => .bind (mayCall_currentUser _) fun _ => trivial

end calls

/-- **Only refreshes rotate, and only their own token**; only the administration administers. -/
theorem mayCall_serve (codec : Codec) (settings : AuthSettings) (r : Request) :
    (serve codec settings r).Uses (MayCall r) := by
  cases r with
  | login username password limited now =>
      refine Proc.Uses.bind (.bind (Proc.uses_raiseIf _ _) fun _ =>
        .bind (mayCall_plain rfl rfl rfl) fun _ => .bind (mayCall_orRaise _ _) fun user =>
        .bind (Proc.uses_raiseIf _ _) fun _ => ?_) fun _ => trivial
      split
      · exact .bind (mayCall_plain rfl rfl rfl) fun _ => trivial
      · split
        · exact trivial
        · exact .bind (mayCall_plain rfl rfl rfl) fun _ => .bind (mayCall_orRaise _ _) fun _ =>
            mayCall_issuePair _ _ _
  | authenticateAccess token =>
      refine Proc.Uses.bind ?_ fun _ => trivial
      cases token with
      | claims claims =>
          exact .bind (mayCall_plain rfl rfl rfl) fun _ => .bind (mayCall_orRaise _ _) fun _ =>
            .bind (Proc.uses_raiseIf _ _) fun _ => .bind (mayCall_currentUser _) fun _ => trivial
      | expired | invalid => exact trivial
  | refresh token limited now =>
      refine Proc.Uses.bind (.bind (Proc.uses_raiseIf _ _) fun _ => ?_) fun _ => trivial
      cases token with
      | expired | invalid => exact trivial
      | claims claims =>
          refine .bind (mayCall_plain rfl rfl rfl) fun _ => .bind (mayCall_orRaise _ _) fun user =>
            .bind (Proc.uses_raiseIf _ _) fun _ => .bind (mayCall_rotate rfl fun _ => rfl) fun answer => ?_
          cases answer with
          | refused => exact trivial
          | reused =>
              exact .bind (mayCall_revokes rfl rfl (by decide) rfl) fun _ =>
                .bind (mayCall_plain rfl rfl rfl) fun _ => trivial
          | rotated => exact .bind (mayCall_currentUser _) fun _ => trivial
  | changePassword actor currentPassword newPassword now =>
      exact .bind (.bind (mayCall_plain rfl rfl rfl) fun _ => .bind (mayCall_orRaise _ _) fun _ =>
        .bind (Proc.uses_raiseIf _ _) fun _ =>
        .bind (.bind (Proc.uses_raiseIf _ _) fun _ => Proc.uses_raiseIf _ _) fun _ =>
        .bind (Proc.uses_raiseIf _ _) fun _ => .bind (mayCall_hashPassword _ _ _) fun _ =>
        .bind (mayCall_plain rfl rfl rfl) fun _ => .bind (mayCall_orRaise _ _) fun _ =>
        .bind (mayCall_revokes rfl rfl (by decide) rfl) fun _ => mayCall_issuePair _ _ _) fun _ => trivial
  | logout actor token =>
      refine Proc.Uses.bind ?_ fun _ => trivial
      cases token with
      | expired | invalid => exact trivial
      | claims claims =>
          simp only [logout]
          split
          · exact mayCall_revokes rfl rfl (by decide) rfl
          · exact trivial
  | logoutAll actor =>
      exact .bind (.bind (mayCall_revokes rfl rfl (by decide) rfl) fun _ =>
        mayCall_plain rfl rfl rfl) fun _ => trivial
  | get userId => exact .bind (mayCall_currentUser userId) fun _ => trivial
  | create payload =>
      exact .bind (.bind (Proc.uses_raiseIf _ _) fun _ => .bind (mayCall_hashPassword _ _ _) fun _ =>
        .bind (mayCall_admin rfl (by simp [Op.reason]) rfl) fun _ => mayCall_liftRepository _) fun _ => trivial
  | patch userId payload actor =>
      refine Proc.Uses.bind (.bind (mayCall_currentUser _) fun _ => .bind (Proc.uses_raiseIf _ _) fun _ =>
        .bind (Proc.uses_raiseIf _ _) fun _ => .bind (mayCall_admin rfl (by simp [Op.reason]) rfl) fun _ =>
        .bind (mayCall_liftRepository _) fun _ => .bind (mayCall_orRaise _ _) fun found => ?_)
        fun _ => trivial
      obtain ⟨profile, oldRole⟩ := found
      simp only
      split
      · exact .bind (mayCall_admin rfl (by simp [Op.reason]) rfl) fun _ => trivial
      · exact trivial
  | disable userId actor =>
      exact .bind (.bind (Proc.uses_raiseIf _ _) fun _ => .bind (mayCall_currentUser _) fun _ =>
        .bind (mayCall_admin rfl (by simp [Op.reason]) rfl) fun _ => .bind (mayCall_liftRepository _) fun _ =>
        .bind (mayCall_orRaise _ _) fun _ =>
        .bind (mayCall_admin rfl (by simp [Op.reason]) rfl) fun _ => trivial) fun _ => trivial
  | enable userId =>
      exact .bind (.bind (mayCall_admin rfl (by simp [Op.reason]) rfl) fun _ =>
        .bind (mayCall_liftRepository _) fun _ => mayCall_orRaise _ _) fun _ => trivial
  | resetPassword userId password =>
      exact .bind (.bind (mayCall_currentUser _) fun _ => .bind (mayCall_hashPassword _ _ _) fun _ =>
        .bind (mayCall_admin rfl (by simp [Op.reason]) rfl) fun _ => .bind (mayCall_orRaise _ _) fun _ =>
        .bind (mayCall_admin rfl (by simp [Op.reason]) rfl) fun _ => mayCall_currentUser _)
        fun _ => trivial
  | revokeSessions userId =>
      exact .bind (.bind (mayCall_currentUser _) fun _ =>
        .bind (mayCall_admin rfl (by simp [Op.reason]) rfl) fun _ =>
        .bind (mayCall_plain rfl rfl rfl) fun _ => mayCall_currentUser _) fun _ => trivial

/-! ## How a request ends -/

/-- The refresh token that an answered call has had stored. -/
def issuedBy : Exchange backend → Option RefreshToken
  | ⟨.createSession values, ids⟩ => some (values ids).tokenHash
  | ⟨.rotate _ _ _ values, .rotated ids⟩ => some (values ids).tokenHash
  | _ => none

/-- The refresh token that an answered call has replaced. -/
def replacedBy : Exchange backend → Option RefreshToken
  | ⟨.rotate _ token _ _, .rotated _⟩ => some token
  | _ => none

/-- The refresh token that an answered call has found used before. -/
def reusedBy : Exchange backend → Option RefreshToken
  | ⟨.rotate _ token _ _, .reused _ _⟩ => some token
  | _ => none

/-- What the calls of a request show at its end: the token that it returns has been stored for it, and
when it raises `AuthRefreshReused` it has found its token used before, and has replaced none. -/
def Accounts (r : Request) (past : List (Exchange backend)) : Except AuthError Reply → Prop
  | .ok (.tokens reply) => ∃ x ∈ past, issuedBy x = some reply.refreshToken
  | .error .authRefreshReused => ∀ token, r.presented = some token →
      (∃ x ∈ past, reusedBy x = some token) ∧ ∀ x ∈ past, replacedBy x = none
  | _ => True

/-- The same of the programs that return tokens. -/
def Grants (r : Request) (past : List (Exchange backend)) (result : Except AuthError TokenResponse) :
    Prop :=
  Accounts r past (result.map .tokens)

section ends

variable {r : Request} {past : List (Exchange backend)} {α : Type}

/-- Without a token, nothing is asked of an exception. -/
theorem accounts_error (h : r.presented = none) (e : AuthError) : Accounts r past (.error e) := by
  cases e with
  | authRefreshReused =>
      intro token htoken
      rw [h] at htoken
      cases htoken
  | _ => exact trivial

theorem ends_tokens {x : Call TokenResponse} (hx : x.Ends (Grants r) past) :
    (x >>= fun t => Proc.ret (.tokens t)).Ends (Accounts r) past :=
  hx.bind (fun _ _ h => h) fun _ _ h => h

theorem ends_other {x : Call α} {reply : α → Reply} (hr : r.presented = none)
    (hreply : ∀ past a, Accounts r past (.ok (reply a))) :
    (x >>= fun a => Proc.ret (reply a)).Ends (Accounts r) past :=
  x.ends_true.bind (fun past a _ => hreply past a) fun _ e _ => accounts_error hr e

theorem ends_then {x : Call α} {f : α → Call TokenResponse} (hr : r.presented = none)
    (hf : ∀ past a, (f a).Ends (Grants r) past) : (x >>= f).Ends (Grants r) past :=
  x.ends_true.bind (fun past a _ => hf past a) fun _ e _ => accounts_error hr e

/-- The profile of the answer is read when the token is stored. -/
theorem ends_profile {token : RefreshToken} {userId : String} {access : AccessToken}
    (h : ∃ x ∈ past, issuedBy x = some token) :
    (currentUser userId >>= fun user => (Proc.ret ⟨access, token, user⟩ : Call TokenResponse)).Ends
      (Grants r) past := by
  intro answer _
  obtain ⟨x, hx, hissued⟩ := h
  cases answer with
  | none => exact trivial
  | some user => exact ⟨x, List.mem_append_left _ hx, hissued⟩

theorem ends_issuePair (settings : AuthSettings) (user : AppUser) (now : Nat) :
    (issuePair settings user now).Ends (Grants r) past := by
  intro ids _
  exact ends_profile ⟨_, List.mem_append_right _ (List.mem_singleton_self _), rfl⟩

theorem ends_refreshClaims (settings : AuthSettings) {token : RefreshToken} (now : Nat)
    (hr : r.presented = some token) : (refreshClaims settings token now).Ends (Grants r) [] := by
  intro found _
  cases found with
  | none => exact trivial
  | some user =>
      refine Proc.ends_raiseIf_bind (fun _ => trivial) fun _ answer _ => ?_
      cases answer with
      | refused => exact trivial
      | reused =>
          -- two more calls, and neither is a rotation
          intro _ _ _ _ token' htoken'
          cases hr.symm.trans htoken'
          refine ⟨⟨_, List.mem_append_left _ (List.mem_append_left _
            (List.mem_append_right _ (List.mem_singleton_self _))), rfl⟩, fun x hx => ?_⟩
          simp only [List.nil_append, List.cons_append, List.mem_cons, List.not_mem_nil, or_false] at hx
          rcases hx with rfl | rfl | rfl | rfl <;> rfl
      | rotated ids =>
          exact ends_profile ⟨_, List.mem_append_right _ (List.mem_singleton_self _), rfl⟩

theorem ends_serve (codec : Codec) (settings : AuthSettings) (r : Request) :
    (serve codec settings r).Ends (Accounts r) [] := by
  cases r with
  | login username password limited now =>
      refine ends_tokens (ends_then rfl fun _ _ => ends_then rfl fun _ _ => ends_then rfl fun _ user =>
        ends_then rfl fun _ _ => ?_)
      split
      · exact ends_then rfl fun _ _ => accounts_error rfl _
      · split
        · exact trivial
        · exact ends_then rfl fun _ _ => ends_then rfl fun _ _ => ends_issuePair _ _ _
  | refresh token limited now =>
      refine ends_tokens (Proc.ends_raiseIf_bind (fun _ => trivial) fun _ => ?_)
      cases token with
      | claims token => exact ends_refreshClaims settings now rfl
      | expired | invalid => exact trivial
  | changePassword actor currentPassword newPassword now =>
      exact ends_tokens (ends_then rfl fun _ _ => ends_then rfl fun _ _ => ends_then rfl fun _ _ =>
        ends_then rfl fun _ _ => ends_then rfl fun _ _ => ends_then rfl fun _ _ =>
        ends_then rfl fun _ _ => ends_then rfl fun _ _ => ends_then rfl fun _ _ =>
        ends_issuePair _ _ _)
  | authenticateAccess | logout | logoutAll | get | create | patch | disable | enable
  | resetPassword | revokeSessions => exact ends_other rfl fun _ _ => trivial

end ends

/-! ## The tokens that are stored -/

/-- The request and the token of a call that has had one stored. -/
def issue (e : Event backend Request) : Option (Nat × RefreshToken) :=
  (issuedBy e.exchange).map fun token => (e.task, token)

def issues (history : List (Event backend Request)) : List (Nat × RefreshToken) :=
  history.filterMap issue

theorem issues_append (h h' : List (Event backend Request)) : issues (h ++ h') = issues h ++ issues h' :=
  List.filterMap_append

/-- A row of the session with this token. -/
def Stored (s : Tables) (token : RefreshToken) (row : RefreshSession) : Prop :=
  s.session token.sessionId = some row ∧ row.tokenHash = token

/-- A stored token is new. -/
theorem issuedBy_eq_some {op : Op} {x : CallInput} {s t : Tables} {a : Ans op} {token : RefreshToken}
    (hop : op.StoresCoherent) (hexec : exec op x s = some (a, t)) (h : issuedBy ⟨op, a⟩ = some token) :
    s.session token.sessionId = none ∧ ∃ row, Stored t token row := by
  unfold issuedBy at h
  split at h
  · next values ids heq =>
      cases heq
      simp only [exec, createSession] at hexec
      split at hexec
      · next hnew =>
          cases hexec
          cases h
          have hid := (hop x.ids).1.sessionId
          have hnone : s.session (values x.ids).tokenHash.sessionId = none := by
            rw [hid]
            exact Table.get_eq_none.mpr fun r hr => (hnew.1 r hr).1
          refine ⟨hnone, values x.ids, ?_, rfl⟩
          rw [hid] at hnone ⊢
          exact Table.get_append_self hnone
      · cases hexec
  · next sessionId token' jti values ids heq =>
      cases heq
      cases h
      rcases rotate_cases hexec with ⟨hno, -⟩ | ⟨_, -, -, -, hno, -⟩ |
        ⟨current, hcurrent, -, -, hnew, hans, rfl⟩
      · cases hno
      · cases hno
      · cases hans
        have hid := (hop x.ids).1.sessionId
        have hnew' := newSession_revokeWhere hnew (·.sessionId = sessionId) x.now "rotated"
          (revokeRow_jti _ _ _)
        refine ⟨?_, values x.ids, ?_, rfl⟩
        · rw [hid]
          exact Table.get_eq_none.mpr fun r hr => (hnew r hr).1
        · show Table.get _ _ _ = _
          rw [hid]
          exact Table.get_append_self (Table.get_eq_none.mpr fun r hr => (hnew' r hr).1)
  · cases h

/-- A token found used before has a revoked row. -/
theorem reusedBy_eq_some {op : Op} {x : CallInput} {s t : Tables} {a : Ans op} {token : RefreshToken}
    (hinv : FamilyInvariant s) (hexec : exec op x s = some (a, t)) (h : reusedBy ⟨op, a⟩ = some token) :
    ∃ row, Stored s token row ∧ row.revokedAt ≠ none := by
  unfold reusedBy at h
  split at h
  · next sessionId token' jti values userId familyId heq =>
      cases heq
      cases h
      rcases rotate_cases hexec with ⟨hno, -⟩ | ⟨current, hcurrent, htoken, hrevoked, -, rfl⟩ |
        ⟨_, -, -, -, -, hno, -⟩
      · cases hno
      · obtain ⟨hmem, hkey⟩ := Table.get_eq_some hcurrent
        have hid : token.sessionId = sessionId := by
          rw [← htoken, (hinv.coherent current hmem).sessionId, hkey]
        refine ⟨current, ⟨by rw [hid, hcurrent], htoken⟩, fun hnone => ?_⟩
        simp [hnone] at hrevoked
      · cases hno
  · cases h

/-- A revocation changes the reason of the rows that it revokes, and of no other. -/
theorem revokeRow_reason {which : RefreshSession → Bool} {now : Nat} {reason : String}
    {row : RefreshSession} {given : String}
    (h : (revokeRow which now reason row).revokeReason = some given) :
    row.revokeReason = some given ∨ (which row = true ∧ reason = given) := by
  unfold revokeRow at h
  split at h
  · next hwhich =>
      unfold RefreshSession.revoke at h
      split at h
      · exact Or.inr ⟨hwhich, Option.some.inj h⟩
      · exact Or.inl h
  · exact Or.inl h

/-- A call that neither revokes nor stores a session leaves them all. -/
theorem sessions_eq {op : Op} {x : CallInput} {s t : Tables} {a : Ans op} (hreason : op.reason = none)
    (hstored : op.stored = none) (hexec : exec op x s = some (a, t)) : t.sessions = s.sessions := by
  cases op with
  | createSession | rotate => cases hstored
  | revoke | revokeUser | revokeFamily => cases hreason
  | createUser values =>
      simp only [exec, createUser] at hexec
      grind
  | updateProfile userId displayName email emailSet role =>
      rw [show t = (updateProfile userId displayName email emailSet role s).2 from
        (congrArg Prod.snd (Option.some.inj hexec)).symm, updateProfile]
      split
      · rfl
      · split
        · rfl
        · dsimp only
          split <;> rfl
  | setStatus userId status =>
      rw [show t = (setStatus userId status s).2 from
        (congrArg Prod.snd (Option.some.inj hexec)).symm, setStatus]
      split
      · rfl
      · split <;> rfl
  | recordLoginFailure userId =>
      rw [show t = (recordLoginFailure userId x.now s).2 from
        (congrArg Prod.snd (Option.some.inj hexec)).symm, recordLoginFailure]
      split <;> rfl
  | byNormalizedUsername | byId | profile | recordLoginSuccess | replacePassword
  | incrementTokenVersion =>
      cases hexec
      rfl

/-- A row that a rotation has revoked, at this call or before. -/
theorem rotated_row {r : Request} {op : Op} {x : CallInput} {s t : Tables} {a : Ans op}
    {row : RefreshSession} (hinv : FamilyInvariant s) (hop : MayCall r op)
    (hexec : exec op x s = some (a, t)) (hrow : row ∈ t.sessions)
    (hreason : row.revokeReason = some "rotated") :
    (∃ row' ∈ s.sessions, row'.tokenHash = row.tokenHash ∧ row'.revokeReason = some "rotated") ∨
      replacedBy ⟨op, a⟩ = some row.tokenHash := by
  have hrevoke : ∀ {which : RefreshSession → Bool} {now : Nat} {reason : String}, reason ≠ "rotated" →
      row ∈ (revokeWhere which now reason s).sessions →
      ∃ row' ∈ s.sessions, row'.tokenHash = row.tokenHash ∧ row'.revokeReason = some "rotated" := by
    intro which now reason hne hmem
    obtain ⟨row', hrow', rfl⟩ := List.mem_map.mp hmem
    rcases revokeRow_reason hreason with hbefore | ⟨-, heq⟩
    · exact ⟨row', hrow', ((kept_revokeRow which now reason row').tokenHash).symm, hbefore⟩
    · exact absurd heq hne
  have hkeep : row ∈ s.sessions →
      ∃ row' ∈ s.sessions, row'.tokenHash = row.tokenHash ∧ row'.revokeReason = some "rotated" :=
    fun hmem => ⟨row, hmem, rfl, hreason⟩
  cases op with
  | revoke sessionId reason | revokeUser userId reason | revokeFamily familyId reason =>
      cases hexec
      exact Or.inl (hrevoke (fun heq => hop.reason (by rw [heq]; rfl)) hrow)
  | createSession values =>
      simp only [exec, createSession] at hexec
      split at hexec
      · cases hexec
        rcases List.mem_append.mp hrow with hold | hnew
        · exact Or.inl (hkeep hold)
        · rw [List.mem_singleton.mp hnew, hop.stored values rfl] at hreason
          cases hreason
      · cases hexec
  | rotate sessionId token jti values =>
      rcases rotate_cases hexec with ⟨-, rfl⟩ | ⟨_, -, -, -, -, rfl⟩ |
        ⟨current, hcurrent, htoken, -, -, rfl, rfl⟩
      · exact Or.inl (hkeep hrow)
      · exact Or.inl (hkeep hrow)
      · rcases List.mem_append.mp hrow with hold | hnew
        · obtain ⟨row', hrow', rfl⟩ := List.mem_map.mp hold
          have hhash := (kept_revokeRow (·.sessionId = sessionId) x.now "rotated" row').tokenHash
          rcases revokeRow_reason hreason with hbefore | ⟨hwhich, -⟩
          · exact Or.inl ⟨row', hrow', hhash.symm, hbefore⟩
          · -- the one row of the session that the token is for
            have hget := Table.get_of_mem hinv.nodup hrow'
            rw [show row'.sessionId = sessionId by simpa using hwhich] at hget
            cases hcurrent.symm.trans hget
            refine Or.inr ?_
            rw [hhash, htoken]
            rfl
        · rw [List.mem_singleton.mp hnew, hop.stored values rfl] at hreason
          cases hreason
  | byNormalizedUsername | byId | profile | recordLoginSuccess | replacePassword
  | incrementTokenVersion | createUser | updateProfile | setStatus | recordLoginFailure =>
      rw [sessions_eq rfl rfl hexec] at hrow
      exact Or.inl (hkeep hrow)

/-! ## All interleavings -/

/-- The tables agree with what the requests have heard of tokens. -/
structure IssueKeeps (c : Config backend Request) : Prop where
  families : FamilyKeeps c
  issued : ∀ q ∈ issues c.history, ∃ row, Stored c.store q.2 row
  once : ((issues c.history).map Prod.snd).Nodup
  /-- A row that a rotation has revoked has its rotation on record. -/
  rotated : ∀ row ∈ c.store.sessions, row.revokeReason = some "rotated" →
    ∃ i, (i, row.tokenHash) ∈ rotations c.history
  reused : ∀ e ∈ c.history, ∀ token, reusedBy e.exchange = some token →
    ∃ row, Stored c.store token row ∧ row.revokedAt ≠ none

theorem Later.stored {c d : Config backend Request} (h : Later c d) {token : RefreshToken}
    {row : RefreshSession} (hrow : Stored c.store token row) :
    ∃ row', Stored d.store token row' ∧ row.Kept row' := by
  obtain ⟨row', hrow', hkept⟩ := h.kept _ row hrow.1
  exact ⟨row', ⟨hrow', by rw [hkept.tokenHash, hrow.2]⟩, hkept⟩

theorem mem_rotations {history : List (Event backend Request)} {i : Nat} {token : RefreshToken} :
    (i, token) ∈ rotations history ↔
      ∃ e ∈ history, e.task = i ∧ replacedBy e.exchange = some token := by
  simp only [rotations, List.mem_filterMap]
  refine exists_congr fun e => and_congr_right fun _ => ?_
  obtain ⟨j, r, op, a⟩ := e
  cases op with
  | rotate sessionId token' jti values => cases a <;> simp [rotatedBy, replacedBy, Event.exchange]
  | _ => simp [rotatedBy, replacedBy, Event.exchange]

/-- **The step lemma.** -/
theorem issueKeeps_call {c d : Config backend Request} {i : Nat} {r : Request} {op : Op} {x : CallInput}
    {a : Ans op} (hop : MayCall r op ∧ op.StoresCoherent) (hc : IssueKeeps c)
    (h : c.exec i r op x = some (a, d)) : IssueKeeps d := by
  obtain ⟨hexec, hhistory⟩ := Config.exec_eq_some h
  obtain ⟨hfamilies, hlater⟩ := call_keeps hop.2 hc.families h
  have hissues : issues d.history = issues c.history ++ issues [⟨i, r, op, a⟩] := by
    rw [hhistory, issues_append]
  have hlast : ∀ q ∈ issues [⟨i, r, op, a⟩],
      c.store.session q.2.sessionId = none ∧ ∃ row, Stored d.store q.2 row := by
    intro q hq
    obtain ⟨e, he, hissue⟩ := List.mem_filterMap.mp hq
    rw [List.mem_singleton.mp he] at hissue
    obtain ⟨token, htoken, rfl⟩ := Option.map_eq_some_iff.mp hissue
    exact issuedBy_eq_some hop.2 hexec htoken
  refine ⟨hfamilies, ?_, ?_, ?_, ?_⟩
  · intro q hq
    rw [hissues] at hq
    rcases List.mem_append.mp hq with hold | hnew
    · obtain ⟨row, hrow⟩ := hc.issued q hold
      obtain ⟨row', hrow', -⟩ := hlater.stored hrow
      exact ⟨row', hrow'⟩
    · exact (hlast q hnew).2
  · -- the session of a token stored now is new, those of the others have their rows
    rw [hissues, List.map_append, List.nodup_append]
    refine ⟨hc.once, ?_, ?_⟩
    · cases hissue : issue ⟨i, r, op, a⟩ <;> simp [issues, hissue]
    · intro t ht t' ht' heq
      obtain ⟨q, hq, rfl⟩ := List.mem_map.mp ht
      obtain ⟨q', hq', rfl⟩ := List.mem_map.mp ht'
      obtain ⟨row, hrow, -⟩ := hc.issued q hq
      rw [heq, (hlast q' hq').1] at hrow
      cases hrow
  · intro row hrow hreason
    rw [hhistory, rotations_append]
    rcases rotated_row hc.families.store hop.1 hexec hrow hreason with ⟨row', hrow', hhash, hbefore⟩ | hnow
    · obtain ⟨j, hj⟩ := hc.rotated row' hrow' hbefore
      exact ⟨j, List.mem_append_left _ (hhash ▸ hj)⟩
    · refine ⟨i, List.mem_append_right _ ?_⟩
      exact mem_rotations.mpr ⟨_, List.mem_singleton_self _, rfl, hnow⟩
  · intro e he token htoken
    rw [hhistory] at he
    suffices hbefore : ∃ row, Stored c.store token row ∧ row.revokedAt ≠ none by
      obtain ⟨row, hrow, hrevoked⟩ := hbefore
      obtain ⟨row', hrow', hkept⟩ := hlater.stored hrow
      exact ⟨row', hrow', by rwa [hkept.revokedAt hrevoked]⟩
    rcases List.mem_append.mp he with hold | hnew
    · exact hc.reused e hold token htoken
    · rw [List.mem_singleton.mp hnew] at htoken
      exact reusedBy_eq_some hc.families.store hexec htoken

section runs

variable {codec : Codec} {settings : AuthSettings} {p : UserPool}

theorem issueKeeps_of_reachable (h : (system codec settings).Reachable p) : IssueKeeps p.config := by
  unfold system at h
  refine Pool.keeps_of_reachable (fun r => (mayCall_serve codec settings r).and (uses_serve r)) ?_
    (fun _ _ _ _ _ _ _ hop hc hexec => issueKeeps_call hop hc hexec) h
  rintro s ⟨-, hnone⟩
  refine ⟨⟨⟨?_, ?_, ?_⟩, ?_, ?_⟩, ?_, ?_, ?_, ?_⟩ <;> simp [hnone, rotations, issues]

theorem accounts_of_reachable (h : (system codec settings).Reachable p) :
    Pool.Ending Accounts p := Pool.ends_of_reachable (ends_serve codec settings) h

/-- Request `i` has returned this refresh token. -/
def Returned (p : UserPool) (i : Nat) (token : RefreshToken) : Prop :=
  ∃ r reply, p.tasks[i]? = some (Task.mk r (.ret (.tokens reply))) ∧ reply.refreshToken = token

/-- Request `i` is a refresh of this token. -/
def Presents (p : UserPool) (i : Nat) (token : RefreshToken) : Prop :=
  ∃ r rest, p.tasks[i]? = some (Task.mk r rest) ∧ r.presented = some token

/-- A returned token has been stored for its request. -/
theorem Returned.issued (h : (system codec settings).Reachable p) {i : Nat} {token : RefreshToken}
    (hreturned : Returned p i token) : (i, token) ∈ issues p.config.history := by
  obtain ⟨r, reply, htask, rfl⟩ := hreturned
  obtain ⟨x, hx, hissued⟩ := (accounts_of_reachable h).ends i r _ htask
  obtain ⟨e, he, rfl⟩ := List.mem_map.mp hx
  obtain ⟨hmem, htaskEq⟩ := List.mem_filter.mp he
  refine List.mem_filterMap.mpr ⟨e, hmem, ?_⟩
  rw [issue, hissued, ← of_decide_eq_true htaskEq]
  rfl

/-- No two requests return the same token. -/
theorem Returned.unique (h : (system codec settings).Reachable p) {i j : Nat} {token : RefreshToken}
    (hi : Returned p i token) (hj : Returned p j token) : i = j :=
  congrArg Prod.fst (List.inj_on_of_nodup_map (issueKeeps_of_reachable h).once (hi.issued h) (hj.issued h)
    rfl)

/-- A rotation on record belongs to a refresh of the token. -/
theorem presents_of_rotation (h : (system codec settings).Reachable p) {i : Nat} {token : RefreshToken}
    (hi : (i, token) ∈ rotations p.config.history) : Presents p i token := by
  obtain ⟨e, he, rfl, hreplaced⟩ := mem_rotations.mp hi
  obtain ⟨rest, hrest⟩ := (accounts_of_reachable h).made e he
  refine ⟨e.request, rest, hrest, ?_⟩
  have hop := Pool.used_of_reachable (mayCall_serve codec settings) h e he
  obtain ⟨j, r, op, a⟩ := e
  cases op with
  | rotate sessionId token' jti values =>
      cases a with
      | rotated ids =>
          cases hreplaced
          exact hop.rotates _ _ _ _ rfl
      | _ => cases hreplaced
  | _ => cases hreplaced

/-- **What a reuse means**: the session of the token is revoked, and if it was by a rotation, the
rotation is that of another refresh with the same token. -/
theorem reuse_explained (h : (system codec settings).Reachable p) {j : Nat} {token : RefreshToken}
    (hreuse : ReuseRaised p j token) : ∃ row, Stored p.config.store token row ∧ row.revokedAt ≠ none ∧
      (row.revokeReason = some "rotated" → ∃ k ≠ j, Presents p k token ∧
        (k, token) ∈ rotations p.config.history) := by
  obtain ⟨limited, now, htask⟩ := hreuse
  have hkeeps := issueKeeps_of_reachable h
  obtain ⟨⟨x, hx, hreused⟩, hnone⟩ := (accounts_of_reachable h).ends j _ _ htask token rfl
  obtain ⟨e, he, rfl⟩ := List.mem_map.mp hx
  obtain ⟨row, hrow, hrevoked⟩ := hkeeps.reused e (List.mem_filter.mp he).1 token hreused
  refine ⟨row, hrow, hrevoked, fun hreason => ?_⟩
  obtain ⟨k, hk⟩ := hkeeps.rotated row (Table.get_eq_some hrow.1).1 hreason
  rw [hrow.2] at hk
  refine ⟨k, ?_, presents_of_rotation h hk, hk⟩
  -- request `j` itself has replaced no token
  rintro rfl
  obtain ⟨e', he', hown, hreplaced⟩ := mem_rotations.mp hk
  have hmem : e'.exchange ∈ p.config.heard k :=
    List.mem_map_of_mem (List.mem_filter.mpr ⟨he', by simpa using hown⟩)
  rw [hnone _ hmem] at hreplaced
  cases hreplaced

/-- **Every refresh token has one owner.** In every state that any interleaving of requests reaches: a
token that a request has returned has its row, and no other request has returned it; and a refresh that
has raised `AuthRefreshReused` finds the session of its token revoked, by a rotation only if that
rotation is the one of another refresh with the same token. -/
theorem tokens_accounted (h : (system codec settings).Reachable p) :
    (∀ i token, Returned p i token → ∃ row, Stored p.config.store token row) ∧
    (∀ i j token, Returned p i token → Returned p j token → i = j) ∧
    ∀ j token, ReuseRaised p j token → ∃ row, Stored p.config.store token row ∧ row.revokedAt ≠ none ∧
      (row.revokeReason = some "rotated" → ∃ k ≠ j, Presents p k token ∧
        (k, token) ∈ rotations p.config.history) := by
  refine ⟨fun i token hi => ?_, fun i j token hi hj => hi.unique h hj, fun j token => reuse_explained h⟩
  exact (issueKeeps_of_reachable h).issued _ (hi.issued h)

/-- The token of the login, shown twice. -/
theorem tokens_accounted_after_reuse : Returned reusePool 0 sampleToken ∧
    ReuseRaised reusePool 2 sampleToken ∧ ∃ row, Stored reusePool.config.store sampleToken row ∧
      row.revokedAt ≠ none ∧ (row.revokeReason = some "rotated" → ∃ k ≠ 2,
        Presents reusePool k sampleToken ∧ (k, sampleToken) ∈ rotations reusePool.config.history) := by
  have hp : (system sampleCodec sampleSettings).Reachable reusePool :=
    TransitionSystem.Reachable.of_run (.init samplePool_init) (Option.some_get rfl).symm
  have hreuse : ReuseRaised reusePool 2 sampleToken := ⟨false, 1, rfl⟩
  exact ⟨⟨_, _, rfl, rfl⟩, hreuse, (tokens_accounted hp).2.2 2 sampleToken hreuse⟩

end runs

end EnergyAgent.Users
