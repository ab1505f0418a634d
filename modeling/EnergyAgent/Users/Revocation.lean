import EnergyAgent.Users.CallRules

/-!
# What a revocation is worth

A revoking operation raises the token version of the user (or finds it raised, when the user is
disabled already), so a token that carries an older version is refused from then on. `Outdated`
says so of a request and the version its tokens carry. `login` and `change_password` take the
version from a second read of the row, after the credential was checked; `Quiet` is the condition
under which nothing revokes between the two reads.
-/

namespace EnergyAgent.Users

open EnergyAgent.Core EnergyAgent.Lib

/-! ## Revoking commits -/

/-- The user whose tokens the commit revokes: the update of a reset or changed password, of a
disabled account, of a new role, or of the version itself (`logout_all`, `revoke_sessions` and the
detection of a reused refresh token). -/
def revokes : Event backend Request → Option String
  | ⟨_, _, .setStatus userId .disabled, .ok (some _)⟩ => some userId
  | ⟨_, _, .replacePassword userId _ _, some _⟩ => some userId
  | ⟨_, _, .updateProfile userId _ _ _ (some role), .ok (some (_, oldRole))⟩ =>
      if role ≠ oldRole then some userId else none
  | ⟨_, _, .incrementTokenVersion userId, _⟩ => some userId
  | _ => none

/-- Some other request `j` revoked the tokens of the user after request `i` had begun to read. The
first call of a request that issues tokens is the one that checks its credential. -/
def RevokedBy (history : List (Event backend Request)) (i j : Nat) (userId : String) : Prop :=
  ∃ h₁ e h₂, history = h₁ ++ e :: h₂ ∧ (∃ e' ∈ h₁, e'.task = i) ∧ e.task = j ∧ j ≠ i ∧
    revokes e = some userId

def RevokedSince (history : List (Event backend Request)) (i : Nat) (userId : String) : Prop :=
  ∃ j, RevokedBy history i j userId

theorem revokedBy_append {history : List (Event backend Request)} {e : Event backend Request} {i j : Nat}
    {userId : String} (h : RevokedBy (history ++ [e]) i j userId) :
    RevokedBy history i j userId ∨ (e.task = j ∧ j ≠ i ∧ revokes e = some userId) := by
  obtain ⟨h₁, e₁, h₂, heq, hbegun, htask, hne, hrev⟩ := h
  rcases List.eq_nil_or_concat h₂ with rfl | ⟨h₃, e₃, rfl⟩
  · obtain ⟨-, hlast⟩ := List.append_inj' heq rfl
    cases hlast
    exact Or.inr ⟨htask, hne, hrev⟩
  · rw [List.concat_eq_append, ← List.cons_append, ← List.append_assoc] at heq
    obtain ⟨hinit, -⟩ := List.append_inj' heq rfl
    exact Or.inl ⟨h₁, e₁, h₃, hinit, hbegun, htask, hne, hrev⟩

theorem not_revokedSince_of_new {history : List (Event backend Request)} {i : Nat} {userId : String}
    (h : ∀ e ∈ history, e.task ≠ i) : ¬ RevokedSince history i userId := by
  rintro ⟨j, h₁, e, h₂, rfl, ⟨e', he', htask⟩, -⟩
  exact h e' (List.mem_append_left _ he') htask

/-- A revoking commit raises the version, or the user is disabled already. -/
theorem revokes_raises {op : Op} {x : CallInput} {s t : Tables} {a : Ans op} {i : Nat}
    {r : Request} {userId : String} {m m' : AppUser} (h : exec op x s = some (a, t))
    (hrev : revokes ⟨i, r, op, a⟩ = some userId) (hm : s.user userId = some m)
    (hm' : t.user userId = some m') :
    m.tokenVersion < m'.tokenVersion ∨ m.status = .disabled := by
  unfold revokes at hrev
  split at hrev
  · next u profile heq =>
      cases heq
      cases hrev
      simp only [exec, setStatus, hm, Option.some.injEq] at h
      split at h
      · cases h
      · cases h
        rw [user_writeUser_self (fun _ => withStatus_userId _ _) hm] at hm'
        cases hm'
        rcases withStatus_cases m .disabled with ⟨-, hdis⟩ | ⟨-, hraise⟩ | ⟨hno, -⟩
        · exact Or.inr hdis
        · exact Or.inl (by omega)
        · cases hno
  · next u hash mustChange model heq =>
      cases heq
      cases hrev
      have hstore : t = writeUser s userId (·.withPassword hash mustChange) :=
        (Prod.mk.inj (Option.some.inj h)).2.symm
      rw [hstore, user_writeUser_self (f := (·.withPassword hash mustChange)) (fun _ => rfl) hm] at hm'
      cases hm'
      exact Or.inl (Nat.lt_succ_self _)
  · next u displayName email emailSet role profile oldRole heq =>
      cases heq
      split at hrev
      · next hrole =>
          cases hrev
          simp only [exec, updateProfile, hm, Option.some.injEq] at h
          split at h
          · cases h
          · split at h
            · cases h
            · cases h
              rw [user_writeUser_self (fun _ => edit_userId ..) hm] at hm'
              cases hm'
              simp [AppUser.edit, hrole]
      · cases hrev
  · next u heq =>
      cases heq
      cases hrev
      have hstore : t = writeUser s userId AppUser.bumpVersion :=
        (Prod.mk.inj (Option.some.inj h)).2.symm
      rw [hstore, user_writeUser_self (f := AppUser.bumpVersion) (fun _ => rfl) hm] at hm'
      cases hm'
      exact Or.inl (Nat.lt_succ_self _)
  · cases hrev

/-- A user is disabled by a revoking commit only. -/
theorem disabled_revokes {op : Op} {x : CallInput} {s t : Tables} {a : Ans op} (i : Nat)
    (r : Request) {userId : String} {m m' : AppUser} (h : exec op x s = some (a, t))
    (hm : s.user userId = some m) (hm' : t.user userId = some m') (hact : m.status = .active)
    (hdis : m'.status = .disabled) : revokes ⟨i, r, op, a⟩ = some userId := by
  obtain ⟨m₁, hm₁, hedit⟩ := exec_user h hm
  rw [hm'] at hm₁
  cases hm₁
  have hsame : m'.status = m.status → revokes ⟨i, r, op, a⟩ = some userId := fun heq => by
    rw [heq, hact] at hdis
    cases hdis
  cases hedit with
  | keep => exact hsame rfl
  | edit displayName email emailSet role hop => cases role <;> exact hsame rfl
  | fail now hop => exact hsame rfl
  | success hop => exact hsame rfl
  | password hash mustChange hop => exact hsame rfl
  | bump hop => exact hsame rfl
  | status status hop =>
      subst hop
      cases status with
      | active =>
          rcases withStatus_cases m .active with ⟨heq, -⟩ | ⟨hno, -⟩ | ⟨-, -, hst⟩
          · exact hsame (by rw [heq])
          · cases hno
          · rw [hst] at hdis
            cases hdis
      | disabled =>
          simp only [exec, setStatus, hm, Option.some.injEq] at h
          split at h
          · cases h
            rw [hm] at hm'
            exact hsame (by rw [← Option.some.inj hm'])
          · cases h
            rfl

/-! ## Outdated tokens -/

/-- Tokens of version `v` that request `i` issues, or is about to issue, to the user: whoever
revoked since the credential was checked has raised the version above `v`. -/
structure Outdated (c : Config backend Request) (i : Nat) (userId : String) (v : Nat) : Prop where
  user : ∃ m, c.store.user userId = some m ∧ v ≤ m.tokenVersion ∧
    (m.status = .disabled ∨ RevokedSince c.history i userId → v < m.tokenVersion)

/-- Request `i` has checked the credential of an active user, and nothing was revoked since. -/
structure Checked (c : Config backend Request) (i : Nat) (userId : String) : Prop where
  user : ∃ m, c.store.user userId = some m ∧ m.status = .active
  since : ¬ RevokedSince c.history i userId

/-- The call reads the row that the tokens of a login or of a changed password are issued for. -/
def Rereads (userId : String) : Op → Prop
  | .recordLoginSuccess u => u = userId
  | .replacePassword u _ mustChange => u = userId ∧ mustChange = false
  | _ => False

theorem outdated_call {c d : Config backend Request} {i j : Nat} {r : Request} {op : Op} {x : CallInput} {a : Ans op}
    {userId : String} {v : Nat} (h : c.exec j r op x = some (a, d)) (ho : Outdated c i userId v) :
    Outdated d i userId v := by
  obtain ⟨hexec, hhist⟩ := Config.exec_eq_some h
  obtain ⟨m, hm, hle, hlt⟩ := ho.user
  obtain ⟨m', hm', hedit⟩ := exec_user hexec hm
  have hmono := hedit.tokenVersion_le
  refine ⟨m', hm', Nat.le_trans hle hmono, ?_⟩
  rintro (hdis | ⟨k, hrev⟩)
  · rcases hedit.disabled hdis with hold | hraise
    · exact Nat.lt_of_lt_of_le (hlt (Or.inl hold)) hmono
    · omega
  · rw [hhist] at hrev
    rcases revokedBy_append hrev with hold | ⟨-, -, hnew⟩
    · exact Nat.lt_of_lt_of_le (hlt (Or.inr ⟨k, hold⟩)) hmono
    · rcases revokes_raises hexec hnew hm hm' with hraise | hdis
      · omega
      · exact Nat.lt_of_lt_of_le (hlt (Or.inl hdis)) hmono

theorem checked_call {c d : Config backend Request} {i j : Nat} {r : Request} {op : Op} {x : CallInput} {a : Ans op}
    {userId : String} (h : c.exec j r op x = some (a, d))
    (hquiet : revokes ⟨j, r, op, a⟩ ≠ some userId) (hc : Checked c i userId) :
    Checked d i userId := by
  obtain ⟨hexec, hhist⟩ := Config.exec_eq_some h
  obtain ⟨m, hm, hact⟩ := hc.user
  obtain ⟨m', hm', -⟩ := exec_user hexec hm
  refine ⟨⟨m', hm', ?_⟩, ?_⟩
  · cases hst : m'.status with
    | active => rfl
    | disabled => exact absurd (disabled_revokes j r hexec hm hm' hact hst) hquiet
  · rintro ⟨k, hrev⟩
    rw [hhist] at hrev
    rcases revokedBy_append hrev with hold | ⟨-, -, hnew⟩
    · exact hc.since ⟨k, hold⟩
    · exact hquiet hnew

/-! ## The requests that issue tokens -/

section issue

variable {codec : Codec} {settings : AuthSettings}

/-- A change of password that passes its check looks at an active user. -/
def ChecksActive (codec : Codec) : Request → Op → Config backend Request → Prop
  | .changePassword actor currentPassword _ _, .byId userId, c => userId = actor.actorId →
      ∀ user, c.store.user userId = some user →
      codec.verifyPassword currentPassword user.passwordHash = true → user.status = .active
  | _, _, _ => True

/-- What request `i` counts on between its calls. -/
structure Undisturbed (i : Nat) (head : Option Op) (c d : Config backend Request) : Prop where
  outdated : ∀ userId v, Outdated c i userId v → Outdated d i userId v
  checked : ∀ userId op, head = some op → Rereads userId op → Checked c i userId →
    Checked d i userId
  unborn : (∀ e ∈ c.history, e.task ≠ i) → ∀ e ∈ d.history, e.task ≠ i

/-- The discipline under which a revocation is final. -/
def revocationDiscipline (codec : Codec) : Discipline backend Request where
  keeps c := (c.store.users.map AppUser.userId).Nodup
  guar _ _ _ := True
  rely := Undisturbed
  may := ChecksActive codec
  refl _ _ _ := ⟨fun _ _ h => h, fun _ _ _ _ h => h, fun h => h⟩
  trans _ _ _ _ _ h h' := ⟨fun u v ho => h'.outdated u v (h.outdated u v ho),
    fun u op hop hr hc => h'.checked u op hop hr (h.checked u op hop hr hc),
    fun hn => h'.unborn (h.unborn hn)⟩

/-- The tokens of a response are outdated by every later revocation. -/
def Issues (i : Nat) (response : TokenResponse) (c : Config backend Request) : Prop :=
  response.refreshToken.sub = response.accessToken.sub ∧
  response.refreshToken.tokenVersion = response.accessToken.tokenVersion ∧
  Outdated c i response.accessToken.sub response.accessToken.tokenVersion

def IssuesOk (i : Nat) : Except AuthError TokenResponse → Config backend Request → Prop
  | .ok response, c => Issues i response c
  | .error _, _ => True

variable {i : Nat} {r : Request} {c d : Config backend Request}

theorem issue_raise {α : Type} {e : AuthError} {post : Except AuthError α → Config backend Request → Prop}
    (h : ∀ d, post (.error e) d) :
    (Proc.raise e : Call α).Safe (revocationDiscipline codec) i r post c :=
  fun d _ _ => h d

theorem issue_ask {α : Type} (op : Op) {f : Ans op → Call α}
    {post : Except AuthError α → Config backend Request → Prop}
    (h : ∀ d x a e, Undisturbed i (some op) c d → (d.store.users.map AppUser.userId).Nodup →
      ChecksActive codec r op d → d.exec i r op x = some (a, e) →
      (f a).Safe (revocationDiscipline codec) i r post e) :
    (ask op >>= f).Safe (revocationDiscipline codec) i r post c :=
  Proc.Safe.ask (fun _ _ _ _ hk _ hexec => ⟨users_nodup (Config.exec_eq_some hexec).1 hk, trivial⟩)
    fun d x a e hrely hk hmay hexec _ _ => h d x a e hrely hk hmay hexec

/-- A call of request `i` itself is no revocation by another one. -/
theorem not_revokedSince_own {op : Op} {x : CallInput} {a : Ans op} {userId : String}
    (h : c.exec i r op x = some (a, d)) (hc : ¬ RevokedSince c.history i userId) :
    ¬ RevokedSince d.history i userId := by
  rintro ⟨j, hrev⟩
  rw [(Config.exec_eq_some h).2] at hrev
  rcases revokedBy_append hrev with hold | ⟨htask, hne, -⟩
  · exact hc ⟨j, hold⟩
  · exact hne htask.symm

theorem safe_issuePair {user : AppUser} (now : Nat)
    (ho : Outdated c i user.userId user.tokenVersion) :
    (issuePair settings user now).Safe (revocationDiscipline codec) i r (IssuesOk i) c := by
  refine issue_ask _ fun d x ids e hrely _ _ hexec => ?_
  have he := outdated_call hexec (hrely.outdated _ _ ho)
  refine issue_ask (.profile user.userId) fun d' x' profile e' hrely' _ _ hexec' => ?_
  have he' := outdated_call hexec' (hrely'.outdated _ _ he)
  cases profile with
  | none => exact issue_raise fun _ => trivial
  | some profile => exact fun d'' hd _ => ⟨rfl, rfl, hd.outdated _ _ he'⟩

/-- The row that a rewriting call answers with is the row it leaves. -/
theorem outdated_reread {op : Op} {x : CallInput} {a : Ans op} {f : AppUser → AppUser}
    {userId : String} (hf : ∀ m, (f m).userId = m.userId) (hst : ∀ m, (f m).status = m.status)
    (hexec : c.exec i r op x = some (a, d)) (hd : d.store = writeUser c.store userId f)
    (hc : Checked c i userId) :
    ∃ m, c.store.user userId = some m ∧ Outdated d i (f m).userId (f m).tokenVersion := by
  obtain ⟨m, hm, hact⟩ := hc.user
  have hid : (f m).userId = userId := by rw [hf, (Table.get_eq_some hm).2]
  refine ⟨m, hm, ⟨f m, ?_, Nat.le_refl _, ?_⟩⟩
  · rw [hid, hd]
    exact user_writeUser_self hf hm
  · rintro (hdis | hrev)
    · rw [hst, hact] at hdis
      cases hdis
    · rw [hid] at hrev
      exact absurd hrev (not_revokedSince_own hexec hc.since)

/-- Right after its first call, a request has seen no revocation. -/
theorem checked_first {op : Op} {x : CallInput} {a : Ans op} {user : AppUser}
    (hunborn : ∀ e ∈ c.history, e.task ≠ i) (hexec : c.exec i r op x = some (a, d))
    (hread : d.store.user user.userId = some user) (hact : user.status = .active) :
    Checked d i user.userId :=
  ⟨⟨user, hread, hact⟩, not_revokedSince_own hexec (not_revokedSince_of_new hunborn)⟩

theorem safe_login (username password : String) (limited : Bool) (now : Nat)
    (hunborn : ∀ e ∈ c.history, e.task ≠ i) :
    (login codec settings username password limited now).Safe (revocationDiscipline codec) i r
      (IssuesOk i) c := by
  simp only [login, Proc.raiseIf]
  split
  · exact issue_raise fun _ => trivial
  · refine issue_ask _ fun d x found e hrely hnodup _ hexec => ?_
    obtain ⟨hread, -⟩ := Config.exec_eq_some hexec
    cases found with
    | none => exact issue_raise fun _ => trivial
    | some user =>
        simp only [exec, Option.some.injEq, Prod.mk.injEq] at hread
        have huser : e.store.user user.userId = some user := by
          rw [← hread.2]
          exact Table.get_of_mem hnodup (List.mem_of_find?_eq_some hread.1)
        simp only [orRaise, Proc.ret_bind]
        split
        · exact issue_raise fun _ => trivial
        · simp only [Proc.ret_bind]
          split
          · exact issue_ask _ fun _ _ _ _ _ _ _ _ => issue_raise fun _ => trivial
          · split
            · exact issue_raise fun _ => trivial
            · next hact =>
                have hchecked := checked_first (hrely.unborn hunborn) hexec huser (not_not.mp hact)
                refine issue_ask _ fun d' x' reread e' hrely' _ _ hexec' => ?_
                obtain ⟨hread', -⟩ := Config.exec_eq_some hexec'
                obtain ⟨hans, hstore⟩ := Prod.mk.inj (Option.some.inj hread')
                obtain ⟨m, hm, ho⟩ := outdated_reread (f := AppUser.resetLogin) (fun _ => rfl)
                  (fun _ => rfl) hexec' hstore.symm (hrely'.checked _ _ rfl rfl hchecked)
                rw [← hans, hm]
                exact safe_issuePair now ho

theorem safe_refreshClaims (token : RefreshToken) (now : Nat)
    (hunborn : ∀ e ∈ c.history, e.task ≠ i) :
    (refreshClaims settings token now).Safe (revocationDiscipline codec) i r (IssuesOk i) c := by
  refine issue_ask _ fun d x found e hrely _ _ hexec => ?_
  obtain ⟨hread, -⟩ := Config.exec_eq_some hexec
  cases found with
  | none => exact issue_raise fun _ => trivial
  | some user =>
      obtain ⟨hans, hstore⟩ := Prod.mk.inj (Option.some.inj hread)
      have hid := (Table.get_eq_some hans).2
      have huser : e.store.user user.userId = some user := by
        rw [← hstore, hid]
        exact hans
      simp only [orRaise, Proc.ret_bind, Proc.raiseIf]
      split
      · exact issue_raise fun _ => trivial
      · next hvalid =>
          have hact : user.status = .active := by
            by_contra hne
            exact hvalid (Or.inl hne)
          have hchecked := checked_first (hrely.unborn hunborn) hexec huser hact
          have ho : Outdated e i user.userId user.tokenVersion := by
            refine ⟨user, huser, Nat.le_refl _, ?_⟩
            rintro (hdis | hrev)
            · rw [hact] at hdis
              cases hdis
            · exact absurd hrev hchecked.since
          simp only [Proc.ret_bind]
          refine issue_ask _ fun d' x' answer e' hrely' _ _ hexec' => ?_
          have ho' := outdated_call hexec' (hrely'.outdated _ _ ho)
          cases answer with
          | refused => exact issue_raise fun _ => trivial
          | reused =>
              exact issue_ask _ fun _ _ _ _ _ _ _ _ => issue_ask _ fun _ _ _ _ _ _ _ _ =>
                issue_raise fun _ => trivial
          | rotated ids =>
              refine issue_ask (.profile user.userId)
                fun d₁ x₁ profile e₁ hrely₁ _ _ hexec₁ => ?_
              have ho₁ := outdated_call hexec₁ (hrely₁.outdated _ _ ho')
              cases profile with
              | none => exact issue_raise fun _ => trivial
              | some profile => exact fun d₂ hd _ => ⟨rfl, rfl, hd.outdated _ _ ho₁⟩

theorem safe_changePassword (actor : ActorContext) (currentPassword newPassword : String)
    (now : Nat) (hunborn : ∀ e ∈ c.history, e.task ≠ i)
    (hr : r = .changePassword actor currentPassword newPassword now) :
    (changePassword codec settings actor currentPassword newPassword now).Safe
      (revocationDiscipline codec) i r (IssuesOk i) c := by
  subst hr
  refine issue_ask _ fun d x found e hrely _ hmay hexec => ?_
  obtain ⟨hread, -⟩ := Config.exec_eq_some hexec
  cases found with
  | none => exact issue_raise fun _ => trivial
  | some user =>
      obtain ⟨hans, hstore⟩ := Prod.mk.inj (Option.some.inj hread)
      have hid := (Table.get_eq_some hans).2
      have huser : e.store.user user.userId = some user := by
        rw [← hstore, hid]
        exact hans
      simp only [orRaise, Proc.ret_bind, Proc.raiseIf]
      split
      · exact issue_raise fun _ => trivial
      · next hverify =>
          have hact : user.status = .active := hmay rfl user hans (by simpa using hverify)
          have hchecked := checked_first (hrely.unborn hunborn) hexec huser hact
          simp only [Proc.ret_bind]
          rcases validatePassword_cases codec newPassword user.username with h | h <;> rw [h]
          · exact issue_raise fun _ => trivial
          · simp only [Proc.ret_bind]
            split
            · exact issue_raise fun _ => trivial
            · simp only [Proc.ret_bind]
              rcases hashPassword_cases codec newPassword user.username with h | h <;> rw [h]
              · exact issue_raise fun _ => trivial
              · simp only [Proc.ret_bind]
                refine issue_ask _ fun d' x' updated e' hrely' _ _ hexec' => ?_
                obtain ⟨hread', -⟩ := Config.exec_eq_some hexec'
                obtain ⟨hans', hstore'⟩ := Prod.mk.inj (Option.some.inj hread')
                obtain ⟨m, hm, ho⟩ := outdated_reread
                  (f := AppUser.withPassword (codec.hash newPassword) false) (fun _ => rfl)
                  (fun _ => rfl) hexec' hstore'.symm
                  (hrely'.checked user.userId _ rfl ⟨rfl, rfl⟩ hchecked)
                rw [← hans', hm]
                refine issue_ask _ fun d₁ x₁ count e₁ hrely₁ _ _ hexec₁ => ?_
                exact safe_issuePair now (outdated_call hexec₁ (hrely₁.outdated _ _ ho))

/-- The reply of a request carries tokens only as `Issues` says. -/
def RepliesIssued (i : Nat) (_ : Request) : Except AuthError Reply → Config backend Request → Prop
  | .ok (.tokens response), c => Issues i response c
  | _, _ => True

/-- A request that issues no token has nothing to show. -/
theorem safe_other {α : Type} (x : Call α) (reply : α → Reply)
    (hreply : ∀ a d, RepliesIssued i r (.ok (reply a)) d)
    (hc : (c.store.users.map AppUser.userId).Nodup) :
    (x >>= fun a => Proc.ret (reply a)).Safe (revocationDiscipline codec) i r
      (RepliesIssued i r) c := by
  refine Proc.Safe.bind (?_ : Proc.Safe _ i r (fun _ _ => True) _ c) hc
    (fun a d _ _ e _ _ => hreply a e)
    (fun _ _ _ _ => trivial)
  exact Proc.Safe.of_uses (Proc.uses_true x)
    (fun _ _ _ _ _ _ hk _ hexec => ⟨users_nodup (Config.exec_eq_some hexec).1 hk, trivial⟩)
    (fun _ _ _ => trivial)

theorem safe_issue {x : Call TokenResponse} (hc : (c.store.users.map AppUser.userId).Nodup)
    (hx : x.Safe (revocationDiscipline codec) i r (IssuesOk i) c) :
    (x >>= fun t => Proc.ret (.tokens t)).Safe (revocationDiscipline codec) i r
      (RepliesIssued i r) c := by
  refine Proc.Safe.bind hx hc ?_ (fun _ _ _ _ => trivial)
  intro response d _ h e hd _
  exact ⟨h.1, h.2.1, hd.outdated _ _ h.2.2⟩

theorem safe_serve (r : Request) (hc : (c.store.users.map AppUser.userId).Nodup)
    (hunborn : ∀ e ∈ c.history, e.task ≠ i) :
    (serve codec settings r).Safe (revocationDiscipline codec) i r (RepliesIssued i r) c := by
  cases r with
  | login username password limited now =>
      exact safe_issue hc (safe_login username password limited now hunborn)
  | refresh token limited now =>
      refine safe_issue hc ?_
      simp only [refresh, Proc.raiseIf]
      split
      · exact issue_raise fun _ => trivial
      · cases token with
        | claims token => exact safe_refreshClaims token now hunborn
        | expired | invalid => exact issue_raise fun _ => trivial
  | changePassword actor currentPassword newPassword now =>
      exact safe_issue hc (safe_changePassword actor currentPassword newPassword now hunborn rfl)
  | authenticateAccess | logout | logoutAll | get | create | patch | disable | enable
  | resetPassword | revokeSessions => exact safe_other _ _ (fun _ _ => trivial) hc

end issue

/-! ## Finality -/

/-- **Revocation is final**, as a property of one state: tokens whose issuing request checked its
credential before another, completed request revoked the tokens of their user are refused. -/
def RevocationFinal (settings : AuthSettings) (p : UserPool) : Prop :=
  ∀ i j request response t now,
    p.tasks[i]? = some (Task.mk request (.ret (.tokens response))) →
    p.tasks[j]? = some t → t.rest.finished →
    RevokedBy p.config.history i j response.accessToken.sub →
    (authenticateAccess (.claims response.accessToken)).RefusedIn p.config.store
      .authTokenInvalid ∧
    (refresh settings (.claims response.refreshToken) false now).RefusedIn p.config.store
      .authRefreshInvalid

/-- Nothing revokes the tokens of a user while another request is between the check of this user's
credential and its second read of the row, and a change of password looks at an active user. -/
def Quiet (codec : Codec) (p : UserPool) : UserMove → Prop
  | .start _ => True
  | .step i x => ∀ r op k, p.tasks[i]? = some (Task.mk r (.call op k)) →
      ChecksActive codec r op p.config ∧
      ∀ a c userId, p.config.exec i r op x = some (a, c) → revokes ⟨i, r, op, a⟩ = some userId →
        ∀ (j : Nat) t op', j ≠ i → p.tasks[j]? = some t → t.rest.head = some op' →
          ¬ Rereads userId op'

section runs

variable {codec : Codec} {settings : AuthSettings} {p : UserPool}

/-- A quiet call is one that every other request counts on. -/
theorem undisturbed_call {c d : Config backend Request} {i j : Nat} {r : Request} {op : Op} {x : CallInput} {a : Ans op}
    {head : Option Op} (hij : j ≠ i) (hexec : c.exec i r op x = some (a, d))
    (hquiet : ∀ userId op', revokes ⟨i, r, op, a⟩ = some userId → head = some op' →
      ¬ Rereads userId op') : Undisturbed j head c d where
  outdated _ _ ho := outdated_call hexec ho
  checked userId op' hop hreads hc :=
    checked_call hexec (fun hrev => hquiet userId op' hrev hop hreads) hc
  unborn hnone e he := by
    rw [(Config.exec_eq_some hexec).2] at he
    rcases List.mem_append.mp he with hold | hlast
    · exact hnone e hold
    · rw [List.mem_singleton.mp hlast]
      exact hij.symm

theorem revocation_safe (h : (system codec settings).ReachableVia (Quiet codec) p) :
    Pool.AllSafe (revocationDiscipline codec) RepliesIssued p := by
  unfold system at h
  refine Pool.safe_of_reachable (R := revocationDiscipline codec) ?_ ?_ ?_ ?_ h
  · exact fun s hs => hs.1
  · exact fun i r c hc hunborn => safe_serve r hc hunborn
  · exact fun p i x r op k _ hok htask => (hok r op k htask).1
  · intro p i x r op k a c _ hok htask hexec _ _ j t hj ht
    exact undisturbed_call hj hexec fun userId op' hrev hhead =>
      (hok r op k htask).2 a c userId hexec hrev j t op' hj ht hhead

/-- A token of an older version is refused. -/
theorem refused_of_older {s : Tables} {response : TokenResponse} {m : AppUser} (now : Nat)
    (hsub : response.refreshToken.sub = response.accessToken.sub)
    (hversion : response.refreshToken.tokenVersion = response.accessToken.tokenVersion)
    (hm : s.user response.accessToken.sub = some m)
    (hlt : response.accessToken.tokenVersion < m.tokenVersion) :
    (authenticateAccess (.claims response.accessToken)).RefusedIn s .authTokenInvalid ∧
    (refresh settings (.claims response.refreshToken) false now).RefusedIn s
      .authRefreshInvalid := by
  constructor
  · refine ⟨_, _, rfl, ?_⟩
    intro x a t hexec
    obtain ⟨rfl, -⟩ := Prod.mk.inj (Option.some.inj hexec)
    rw [hm]
    have hne : m.tokenVersion ≠ response.accessToken.tokenVersion := by omega
    simp [Proc.bind, orRaise, Proc.raiseIf, hne]
  · refine ⟨_, _, rfl, ?_⟩
    intro x a t hexec
    obtain ⟨rfl, -⟩ := Prod.mk.inj (Option.some.inj hexec)
    rw [hsub, hm]
    have hne : m.tokenVersion ≠ response.refreshToken.tokenVersion := by omega
    simp [Proc.bind, orRaise, Proc.raiseIf, hne]

/-- **Under the condition `Quiet`, a revocation is final** in every state that the interleavings of
the requests reach. -/
theorem revocation_final (h : (system codec settings).ReachableVia (Quiet codec) p) :
    RevocationFinal settings p := by
  intro i j request response t now hi _ _ hrev
  obtain ⟨hsub, hversion, ho⟩ : Issues i response p.config := (revocation_safe h).post_ret hi
  obtain ⟨m, hm, -, hlt⟩ := ho.user
  exact refused_of_older now hsub hversion hm (hlt (Or.inr ⟨j, hrev⟩))

/-- All other requests have finished, and the one that moves is no change of password. -/
def aloneCheck (p : UserPool) : UserMove → Bool
  | .start _ => true
  | .step i _ =>
      (p.tasks.zipIdx.all fun (t, j) => j == i || t.rest.head.isNone) &&
      (match p.tasks[i]? with
        | some ⟨.changePassword .., _⟩ => false
        | _ => true)

theorem quiet_of_alone (codec : Codec) (p : UserPool) (m : UserMove)
    (h : aloneCheck p m = true) : Quiet codec p m := by
  cases m with
  | start r => exact trivial
  | step i x =>
      simp only [aloneCheck, Bool.and_eq_true, List.all_eq_true] at h
      intro r op k htask
      refine ⟨?_, ?_⟩
      · rw [htask] at h
        cases r with
        | changePassword => cases h.2
        | _ => exact trivial
      · intro a c userId _ _ j t op' hj ht hhead
        have := h.1 (t, j) (List.mk_mem_zipIdx_iff_getElem?.mpr ht)
        simp [hj, hhead] at this

/-- A login, and then a reset of the password. -/
def resetMoves : List UserMove :=
  [.start (.login "ann" "first-secret" false 1)] ++
    calls 0 4 (sampleInput "session-1" "family-1" "jti-1") ++
  [.start (.resetPassword "user-1" "second-secret")] ++
    calls 1 4 (sampleInput "session-2" "family-2" "jti-2")

def resetPool : UserPool :=
  ((system sampleCodec sampleSettings).runChecked aloneCheck samplePool resetMoves).get rfl

theorem reset_revokes_login :
    (system sampleCodec sampleSettings).ReachableVia (Quiet sampleCodec) resetPool ∧
    RevokedBy resetPool.config.history 0 1 "user-1" ∧
    (authenticateAccess (.claims ⟨"user-1", "ann", .operator, 1⟩)).RefusedIn resetPool.config.store
      .authTokenInvalid := by
  have hreach : (system sampleCodec sampleSettings).ReachableVia (Quiet sampleCodec) resetPool :=
    TransitionSystem.ReachableVia.of_runChecked (quiet_of_alone sampleCodec)
      (.init samplePool_init) (Option.some_get rfl).symm
  have hrev : RevokedBy resetPool.config.history 0 1 "user-1" :=
    ⟨resetPool.config.history.take 5, _, resetPool.config.history.drop 6, rfl,
      ⟨_, List.mem_cons_self, rfl⟩, rfl, by decide, rfl⟩
  exact ⟨hreach, hrev, (revocation_final hreach 0 1 _
    ⟨⟨"user-1", "ann", .operator, 1⟩, sampleToken, sampleUser.profile⟩ _ 1 rfl rfl rfl hrev).1⟩

/-- A login that has checked its credential is overtaken by a reset of the password. -/
def overtakenMoves : List UserMove :=
  [.start (.login "ann" "first-secret" false 1), .start (.resetPassword "user-1" "second-secret")] ++
    calls 0 1 (sampleInput "session-1" "family-1" "jti-1") ++
    calls 1 4 (sampleInput "session-2" "family-2" "jti-2") ++
    calls 0 3 (sampleInput "session-1" "family-1" "jti-1")

def overtakenPool : UserPool :=
  ((system sampleCodec sampleSettings).run samplePool overtakenMoves).get rfl

/-- The tokens of the overtaken login carry the version of the reset. -/
def overtakenResponse : TokenResponse :=
  ⟨⟨"user-1", "ann", .operator, 2⟩, ⟨"user-1", "session-1", "family-1", "jti-1", 2⟩,
    { sampleUser.profile with mustChangePassword := true }⟩

/-- They are accepted after the reset has completed, although the password they were issued for
is no longer valid. -/
theorem login_outlives_reset :
    ¬ ∀ p, (system sampleCodec sampleSettings).Reachable p → RevocationFinal sampleSettings p := by
  intro hall
  have hreach : (system sampleCodec sampleSettings).Reachable overtakenPool :=
    TransitionSystem.Reachable.of_run (.init samplePool_init) (Option.some_get rfl).symm
  have hrev : RevokedBy overtakenPool.config.history 0 1 "user-1" :=
    ⟨overtakenPool.config.history.take 2, _, overtakenPool.config.history.drop 3, rfl,
      ⟨_, List.mem_cons_self, rfl⟩, rfl, by decide, rfl⟩
  obtain ⟨⟨op, k, hcall, hrefused⟩, -⟩ := hall _ hreach 0 1 _ overtakenResponse _ 1 rfl rfl rfl hrev
  cases hcall
  have hanswer := hrefused (sampleInput "" "" "") _ _ rfl
  cases hanswer

end runs

end EnergyAgent.Users
