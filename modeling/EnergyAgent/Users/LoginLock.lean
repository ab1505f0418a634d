import EnergyAgent.Users.CallRules

/-!
# The lock of an account

Five failed attempts lock an account for fifteen minutes. `login` checks the lock on the row it has read
before it verifies the password, and `record_login_success` does not look at the lock again. The lock
holds as long as no attempt that has passed the check with the right password is under way when another
attempt sets it (`Unrivalled`).
-/

namespace EnergyAgent.Users

open EnergyAgent.Core EnergyAgent.Lib

/-! ## Attempts to log in to one account -/

section attempts

variable (codec : Codec) (settings : AuthSettings) (account : String)

/-- A login to the account, with the rate limit off. -/
def Request.Attempts : Request → Prop
  | .login username _ limited _ => codec.normalizeUsername username = account ∧ limited = false
  | _ => False

instance (r : Request) : Decidable (r.Attempts codec account) := by
  cases r <;> unfold Request.Attempts <;> infer_instance

/-- What a login has read from the clock lies between its first call and the others. -/
def readsClock (task : Task backend Request AuthError Reply) (now : Nat) : Bool :=
  match task with
  | ⟨.login _ _ _ reading, .call (.byNormalizedUsername _) _⟩ => now ≤ reading
  | ⟨.login _ _ _ reading, _⟩ => reading ≤ now
  | _ => true

/-- The pool with the time of the last call. -/
structure Attempted where
  time : Nat
  pool : UserPool

/-- All interleavings of attempts to log in to the account, under a clock that does not go
backwards. -/
def attempts : TransitionSystem Attempted UserMove where
  init s := (s.pool.config.store.users.map AppUser.userId).Nodup ∧
    (s.pool.config.store.users.map AppUser.usernameNormalized).Nodup ∧
    s.pool.config.history = [] ∧ s.pool.tasks = []
  step s m :=
    match m with
    | .start r =>
        if r.Attempts codec account then
          ((system codec settings).step s.pool m).map fun pool => ⟨s.time, pool⟩
        else none
    | .step i x =>
        if s.time ≤ x.now ∧ ∀ task ∈ s.pool.tasks[i]?, readsClock task x.now then
          ((system codec settings).step s.pool m).map fun pool => ⟨x.now, pool⟩
        else none

end attempts

/-- The call of an attempt that has passed its checks. -/
def Op.Succeeds : Op → Prop
  | .recordLoginSuccess _ | .createSession _ | .profile _ => True
  | _ => False

/-- The call sets the lock of an account. -/
def Op.Locks (s : Tables) : Op → Prop
  | .recordLoginFailure userId => ∃ model, s.user userId = some model ∧ 5 ≤ model.failedLoginCount + 1
  | _ => False

/-- When an attempt sets the lock, no other attempt that has passed the lock check with the right
password is under way. -/
def Unrivalled (s : Attempted) : UserMove → Prop
  | .start _ => True
  | .step i _ => ∀ r (op : Op) k, s.pool.tasks[i]? = some ⟨r, .call op k⟩ →
      op.Locks s.pool.config.store → ∀ (j : Nat) r' (op' : Op) k',
        s.pool.tasks[j]? = some ⟨r', .call op' k'⟩ → ¬ op'.Succeeds

/-! ## What is left of an attempt -/

section rest

variable {codec : Codec} {settings : AuthSettings}

/-- The part of `login` behind the lookup. -/
def loginFound (codec : Codec) (settings : AuthSettings) (password : String) (now : Nat)
    (found : Option AppUser) : Call Reply :=
  (orRaise .authInvalidCredentials found >>= fun user =>
    Proc.raiseIf (∃ t ∈ user.lockedUntil, now < t) .authAccountLocked >>= fun _ =>
      if codec.verifyPassword password user.passwordHash = false then
        ask (.recordLoginFailure user.userId) >>= fun locked : Bool =>
          .raise (if locked = true then .authAccountLocked else .authInvalidCredentials)
      else if user.status ≠ .active then .raise .authInvalidCredentials
      else
        ask (.recordLoginSuccess user.userId) >>= fun found =>
          orRaise .assertionError found >>= fun user => issuePair settings user now) >>=
  fun t => .ret (.tokens t)

theorem serve_login (username password : String) (now : Nat) :
    serve codec settings (.login username password false now) =
      (ask (.byNormalizedUsername (codec.normalizeUsername username)) >>=
        loginFound codec settings password now : Call Reply) := by
  rfl

/-- What is left after the check may only reset this user's lock. -/
def Op.SucceedsFor (userId : String) (op : Op) : Prop :=
  op = .recordLoginSuccess userId ∨ (∃ values, op = .createSession values) ∨ ∃ u, op = .profile u

/-- An attempt that has been refused its password. -/
def Failing (userId : String) (rest : Call Reply) : Prop :=
  ∃ k, rest = .call (.recordLoginFailure userId) k ∧ ∀ a, ∃ e, k a = .raise e

/-- An attempt that has passed its checks. -/
def Passing (userId : String) (rest : Call Reply) : Prop :=
  ∃ k, rest = .call (.recordLoginSuccess userId) k ∧
    ∀ a, backend.Answers (.recordLoginSuccess userId) a → (k a).Uses (Op.SucceedsFor userId)

/-- **What the check of the row decides.** -/
theorem loginFound_cases (password : String) (now : Nat) (found : Option AppUser) :
    (∃ e, loginFound codec settings password now found = .raise e) ∨
    ∃ user, found = some user ∧ (∀ t ∈ user.lockedUntil, t ≤ now) ∧
      (Failing user.userId (loginFound codec settings password now found) ∨
        Passing user.userId (loginFound codec settings password now found)) := by
  cases found with
  | none => exact Or.inl ⟨_, rfl⟩
  | some user =>
      by_cases hlocked : ∃ t ∈ user.lockedUntil, now < t
      · left
        simp only [loginFound, orRaise, Proc.ret_bind, Proc.raiseIf, if_pos hlocked, Proc.raise_bind]
        exact ⟨_, rfl⟩
      have hpassed : ∀ t ∈ user.lockedUntil, t ≤ now := by
        intro t ht
        by_contra hlt
        exact hlocked ⟨t, ht, Nat.lt_of_not_le hlt⟩
      by_cases hvalid : codec.verifyPassword password user.passwordHash = false
      · right
        refine ⟨user, rfl, hpassed, Or.inl ?_⟩
        simp only [loginFound, orRaise, Proc.ret_bind, Proc.raiseIf, if_neg hlocked, if_pos hvalid]
        exact ⟨_, rfl, fun a => ⟨_, rfl⟩⟩
      by_cases hactive : user.status ≠ .active
      · left
        simp only [loginFound, orRaise, Proc.ret_bind, Proc.raiseIf, if_neg hlocked, if_neg hvalid,
          if_pos hactive]
        exact ⟨_, rfl⟩
      · right
        refine ⟨user, rfl, hpassed, Or.inr ?_⟩
        simp only [loginFound, orRaise, Proc.ret_bind, Proc.raiseIf, if_neg hlocked, if_neg hvalid,
          if_neg hactive]
        refine ⟨_, rfl, fun a _ => ?_⟩
        cases a with
        | none => trivial
        | some user' =>
            refine ⟨Or.inr (Or.inl ⟨_, rfl⟩), fun ids _ => ⟨Or.inr (Or.inr ⟨_, rfl⟩), fun a _ => ?_⟩⟩
            cases a <;> trivial

end rest

/-! ## What a call of an attempt does to a row -/

section row

/-- The calls of a login. -/
def Op.OfLogin : Op → Prop
  | .byNormalizedUsername _ | .recordLoginFailure _ | .recordLoginSuccess _ | .createSession _
  | .profile _ => True
  | _ => False

/-- How the call leaves the row of a user. -/
def Op.onRow (now : Nat) (userId : String) : Op → AppUser → AppUser
  | .recordLoginFailure u, model => if u = userId then model.failLogin now else model
  | .recordLoginSuccess u, model => if u = userId then model.resetLogin else model
  | _, model => model

variable {op : Op} {x : CallInput} {s t : Tables} {a : Ans op}

theorem user_writeUser_eq (f : AppUser → AppUser) (hf : ∀ m, (f m).userId = m.userId)
    (u userId : String) : (writeUser s u f).user userId =
      (s.user userId).map fun model => if u = userId then f model else model := by
  unfold Tables.user writeUser
  by_cases huser : u = userId
  · subst huser
    rw [Table.get_update_self fun r hr => (hf r).trans hr]
    simp
  · rw [Table.get_update_ne (fun r hr => (hf r).trans hr) (Ne.symm huser)]
    simp [huser]

theorem names_writeUser (f : AppUser → AppUser)
    (hf : ∀ m, (f m).usernameNormalized = m.usernameNormalized) (u : String) :
    (writeUser s u f).users.map AppUser.usernameNormalized =
      s.users.map AppUser.usernameNormalized := by
  unfold writeUser Table.update
  rw [List.map_map]
  apply List.map_congr_left
  intro r _
  show (if r.userId = u then f r else r).usernameNormalized = r.usernameNormalized
  split
  · exact hf r
  · rfl

/-- **What a call of a login does to the rows.** -/
theorem exec_row (hop : op.OfLogin) (hexec : exec op x s = some (a, t)) :
    (∀ userId, t.user userId = (s.user userId).map (op.onRow x.now userId)) ∧
      t.users.map AppUser.usernameNormalized = s.users.map AppUser.usernameNormalized := by
  have hsame : t.users = s.users → (∀ model userId, op.onRow x.now userId model = model) →
      (∀ userId, t.user userId = (s.user userId).map (op.onRow x.now userId)) ∧
      t.users.map AppUser.usernameNormalized = s.users.map AppUser.usernameNormalized := by
    intro husers hid
    refine ⟨fun userId => ?_, by rw [husers]⟩
    have hmap : op.onRow x.now userId = id := funext fun model => hid model userId
    rw [hmap, Option.map_id]
    unfold Tables.user
    rw [husers]
    rfl
  cases op with
  | byNormalizedUsername | profile =>
      cases hexec
      exact hsame rfl fun _ _ => rfl
  | createSession values =>
      simp only [exec, createSession] at hexec
      split at hexec
      · cases hexec
        exact hsame rfl fun _ _ => rfl
      · cases hexec
  | recordLoginSuccess u =>
      cases hexec
      exact ⟨user_writeUser_eq AppUser.resetLogin (fun _ => rfl) u,
        names_writeUser AppUser.resetLogin (fun _ => rfl) u⟩
  | recordLoginFailure u =>
      simp only [exec, recordLoginFailure, Option.some.injEq] at hexec
      split at hexec
      · next hnone =>
          cases hexec
          refine ⟨fun userId => ?_, rfl⟩
          by_cases huser : u = userId
          · subst huser
            rw [hnone]
            rfl
          · have hmap : (Op.recordLoginFailure u).onRow x.now userId = id :=
              funext fun model => if_neg huser
            rw [hmap, Option.map_id]
            rfl
      · cases hexec
        exact ⟨user_writeUser_eq (AppUser.failLogin x.now) (fun _ => rfl) u,
          names_writeUser (AppUser.failLogin x.now) (fun _ => rfl) u⟩
  | _ => exact hop.elim

/-- Two rows with one name are one row. -/
theorem user_unique (hs : (s.users.map AppUser.usernameNormalized).Nodup) {u u' : String}
    {model model' : AppUser} (hu : s.user u = some model) (hu' : s.user u' = some model')
    (hname : model.usernameNormalized = model'.usernameNormalized) : u = u' := by
  obtain ⟨hmem, rfl⟩ := Table.get_eq_some hu
  obtain ⟨hmem', rfl⟩ := Table.get_eq_some hu'
  rw [List.inj_on_of_nodup_map hs hmem hmem' hname]

theorem onRow_name (op : Op) (now : Nat) (userId : String) (model : AppUser) :
    (op.onRow now userId model).usernameNormalized = model.usernameNormalized := by
  cases op with
  | recordLoginFailure u | recordLoginSuccess u =>
      simp only [Op.onRow]
      split <;> rfl
  | _ => rfl

/-- What a call leaves of a lock: it stands as it was, is gone, or has been set by this call. -/
theorem onRow_lock {op : Op} {now t : Nat} {userId : String} {model : AppUser}
    (h : (op.onRow now userId model).lockedUntil = some t) : model.lockedUntil = some t ∨
      (op = .recordLoginFailure userId ∧ 5 ≤ model.failedLoginCount + 1 ∧ t = now + lockDuration) := by
  cases op with
  | recordLoginFailure u =>
      simp only [Op.onRow] at h
      split at h
      · next huser =>
          subst huser
          simp only [AppUser.failLogin] at h
          split at h
          · next hcount => exact Or.inr ⟨rfl, hcount, (Option.some.inj h).symm⟩
          · exact Or.inl h
      · exact Or.inl h
  | recordLoginSuccess u =>
      simp only [Op.onRow] at h
      split at h
      · cases h
      · exact Or.inl h
  | _ => exact Or.inl h

end row

/-! ## The invariant -/

section invariant

variable (codec : Codec) (settings : AuthSettings) (account : String)

/-- Every lock of the user ends by the time `t`. -/
def LockedBy (tables : Tables) (userId : String) (t : Nat) : Prop :=
  ∀ model T, tables.user userId = some model → model.lockedUntil = some T → T ≤ t

/-- The user is the one of the account. -/
def HasAccount (tables : Tables) (userId : String) : Prop :=
  ∃ model, tables.user userId = some model ∧ model.usernameNormalized = account

/-- An attempt: before its first call; refused its password; past the check, which the lock that there
was has passed; at its end. -/
inductive Attempt (tables : Tables) (time : Nat) : Task backend Request AuthError Reply → Prop
  | arrived (username password : String) (now : Nat)
      (haccount : codec.normalizeUsername username = account) :
      Attempt tables time ⟨.login username password false now,
        serve codec settings (.login username password false now)⟩
  | failing (username password : String) (now : Nat) (userId : String) (rest : Call Reply)
      (hrow : HasAccount account tables userId) (hrest : Failing userId rest)
      (hlock : LockedBy tables userId (max now (time + lockDuration))) :
      Attempt tables time ⟨.login username password false now, rest⟩
  | passed (username password : String) (now : Nat) (userId : String) (op : Op)
      (k : Ans op → Call Reply) (hrow : HasAccount account tables userId)
      (hop : op.SucceedsFor userId)
      (hrest : ∀ a, backend.Answers op a → (k a).Uses (Op.SucceedsFor userId))
      (hlock : LockedBy tables userId now) :
      Attempt tables time ⟨.login username password false now, .call op k⟩
  | ended (r : Request) (rest : Call Reply) (hend : rest.finished) : Attempt tables time ⟨r, rest⟩

/-- The ids and the names are distinct, and every task is an attempt. -/
structure Attempting (s : Attempted) : Prop where
  ids : (s.pool.config.store.users.map AppUser.userId).Nodup
  names : (s.pool.config.store.users.map AppUser.usernameNormalized).Nodup
  attempt : ∀ (i : Nat) task, s.pool.tasks[i]? = some task →
    Attempt codec settings account s.pool.config.store s.time task

end invariant

section step

variable {codec : Codec} {settings : AuthSettings} {account : String} {s t : Tables} {op : Op}
  {x : CallInput} {a : Ans op} {time : Nat}

theorem HasAccount.exec {userId : String} (h : HasAccount account s userId) (hop : op.OfLogin)
    (hexec : exec op x s = some (a, t)) : HasAccount account t userId := by
  obtain ⟨model, hu, hname⟩ := h
  refine ⟨op.onRow x.now userId model, ?_, (onRow_name op x.now userId model).trans hname⟩
  rw [(exec_row hop hexec).1, hu]
  rfl

/-- A lock that is there after the call was there before, or this call has set it. -/
theorem LockedBy.exec {userId : String} {bound : Nat} (h : LockedBy s userId bound)
    (hop : op.OfLogin) (hexec : exec op x s = some (a, t))
    (hset : op.Locks s → op = .recordLoginFailure userId → x.now + lockDuration ≤ bound) :
    LockedBy t userId bound := by
  intro model' T hu' hT
  rw [(exec_row hop hexec).1] at hu'
  obtain ⟨model, hu, rfl⟩ := Option.map_eq_some_iff.mp hu'
  rcases onRow_lock hT with hold | ⟨rfl, hcount, rfl⟩
  · exact h model T hu hold
  · exact hset ⟨model, hu, hcount⟩ rfl

theorem LockedBy.mono {userId : String} {bound bound' : Nat} (h : LockedBy s userId bound)
    (hle : bound ≤ bound') : LockedBy s userId bound' :=
  fun model T hu hT => Nat.le_trans (h model T hu hT) hle

theorem Op.SucceedsFor.succeeds {userId : String} (h : op.SucceedsFor userId) : op.Succeeds := by
  rcases h with rfl | ⟨_, rfl⟩ | ⟨_, rfl⟩ <;> trivial

theorem Op.SucceedsFor.ofLogin {userId : String} (h : op.SucceedsFor userId) : op.OfLogin := by
  rcases h with rfl | ⟨_, rfl⟩ | ⟨_, rfl⟩ <;> trivial

/-- A call of one attempt leaves the others attempts, if it does not set the lock while one of them has
passed the check. -/
theorem Attempt.other {task : Task backend Request AuthError Reply}
    (h : Attempt codec settings account s time task) (hop : op.OfLogin)
    (hexec : exec op x s = some (a, t)) (htime : time ≤ x.now)
    (hrival : op.Locks s → ∀ r op' k, task = ⟨r, .call op' k⟩ → ¬ op'.Succeeds) :
    Attempt codec settings account t x.now task := by
  cases h with
  | arrived username password now haccount => exact .arrived username password now haccount
  | failing username password now userId rest hrow hrest hlock =>
      refine .failing username password now userId rest (hrow.exec hop hexec) hrest ?_
      refine (hlock.mono ?_).exec hop hexec fun _ _ => Nat.le_max_right _ _
      omega
  | passed username password now userId op' k hrow hop' hrest hlock =>
      refine .passed username password now userId op' k (hrow.exec hop hexec) hop' hrest ?_
      exact hlock.exec hop hexec fun hlocks _ => absurd (Op.SucceedsFor.succeeds hop') (hrival hlocks _ _ _ rfl)
  | ended r rest hend => exact .ended r rest hend

/-- An attempt that only goes on with its success, or has ended. -/
theorem attempt_of_uses {username password : String} {now : Nat} {userId : String}
    {rest : Call Reply} (hrow : HasAccount account t userId)
    (hrest : rest.Uses (Op.SucceedsFor userId)) (hlock : LockedBy t userId now) :
    Attempt codec settings account t time ⟨.login username password false now, rest⟩ := by
  cases rest with
  | ret | raise => exact .ended _ _ rfl
  | call op k => exact .passed username password now userId op k hrow hrest.1 hrest.2 hlock

/-- What the lookup finds is the row of the account. -/
theorem lookup_row (hids : (s.users.map AppUser.userId).Nodup) {user : AppUser}
    (h : s.users.find? (fun u => u.usernameNormalized = account) = some user) :
    s.user user.userId = some user ∧ user.usernameNormalized = account := by
  refine ⟨Table.get_of_mem hids (List.mem_of_find?_eq_some h), ?_⟩
  simpa using List.find?_some h

end step

/-! ## One call -/

section own

variable {codec : Codec} {settings : AuthSettings} {account : String} {s t : Tables} {op : Op}
  {x : CallInput} {a : Ans op} {time : Nat} {r : Request} {k : Ans op → Call Reply}

/-- The calls of an attempt are those of a login. -/
theorem Attempt.ofLogin (h : Attempt codec settings account s time ⟨r, .call op k⟩) :
    op.OfLogin := by
  generalize htask : (⟨r, .call op k⟩ : Task backend Request AuthError Reply) = task at h
  cases h with
  | arrived username password now haccount =>
      rw [serve_login] at htask
      cases htask
      trivial
  | failing username password now userId rest hrow hrest hlock =>
      obtain ⟨k', rfl, -⟩ := hrest
      cases htask
      trivial
  | passed username password now userId op' k' hrow hop hrest hlock =>
      cases htask
      exact Op.SucceedsFor.ofLogin hop
  | ended r' rest hend =>
      cases htask
      cases hend

/-- **An attempt stays one** through its own call. -/
theorem Attempt.own (h : Attempt codec settings account s time ⟨r, .call op k⟩)
    (hids : (s.users.map AppUser.userId).Nodup) (hexec : exec op x s = some (a, t)) :
    Attempt codec settings account t x.now ⟨r, k a⟩ := by
  have hop := h.ofLogin
  generalize htask : (⟨r, .call op k⟩ : Task backend Request AuthError Reply) = task at h
  cases h with
  | arrived username password now haccount =>
      rw [serve_login, haccount] at htask
      cases htask
      cases hexec
      rcases loginFound_cases password now (s.users.find? fun u => u.usernameNormalized = account) with
        ⟨e, he⟩ | ⟨user, hfound, hpassed, hrest⟩
      · show Attempt codec settings account s x.now
          ⟨_, loginFound codec settings password now _⟩
        rw [he]
        exact .ended _ _ rfl
      · obtain ⟨hu, hname⟩ := lookup_row hids hfound
        have hlock : LockedBy s user.userId now := by
          intro model T hmodel hT
          rw [hu] at hmodel
          cases hmodel
          exact hpassed T hT
        rcases hrest with hfailing | ⟨k', hk', huses⟩
        · apply Attempt.failing username password now user.userId _ ⟨user, hu, hname⟩ hfailing
          exact hlock.mono (Nat.le_max_left _ _)
        · show Attempt codec settings account s x.now
            ⟨_, loginFound codec settings password now _⟩
          rw [hk']
          exact .passed username password now user.userId _ k' ⟨user, hu, hname⟩ (Or.inl rfl) huses
            hlock
  | failing username password now userId rest hrow hrest hlock =>
      obtain ⟨k', rfl, hraise⟩ := hrest
      cases htask
      obtain ⟨e, he⟩ := hraise a
      rw [he]
      exact .ended _ _ rfl
  | passed username password now userId op' k' hrow hop' hrest hlock =>
      cases htask
      apply attempt_of_uses (hrow.exec hop hexec) (hrest a ⟨x, s, t, hexec⟩)
      refine hlock.exec hop hexec fun _ heq => ?_
      subst heq
      rcases hop' with hop' | ⟨_, hop'⟩ | ⟨_, hop'⟩ <;> cases hop'
  | ended r' rest hend =>
      cases htask
      cases hend

/-- **A lock stands** through the calls of the attempts: a call before its end neither resets it nor ends
an attempt with tokens. -/
theorem Attempt.locked (h : Attempt codec settings account s time ⟨r, .call op k⟩)
    (hnames : (s.users.map AppUser.usernameNormalized).Nodup) (hexec : exec op x s = some (a, t))
    (htime : time ≤ x.now) (hclock : readsClock ⟨r, .call op k⟩ x.now = true) {u : String}
    {model : AppUser} {T : Nat} (hu : s.user u = some model)
    (hname : model.usernameNormalized = account) (hT : model.lockedUntil = some T)
    (hlt : x.now < T) :
    (∃ model', t.user u = some model' ∧ (∃ T', model'.lockedUntil = some T' ∧ T ≤ T') ∧
      model.failedLoginCount ≤ model'.failedLoginCount) ∧ ∀ reply, k a ≠ .ret reply := by
  have hop := h.ofLogin
  have hrow := (exec_row hop hexec).1 u
  rw [hu] at hrow
  generalize htask : (⟨r, .call op k⟩ : Task backend Request AuthError Reply) = task at h
  cases h with
  | arrived username password now haccount =>
      rw [serve_login, haccount] at htask
      cases htask
      refine ⟨⟨model, hrow, ⟨T, hT, Nat.le_refl T⟩, Nat.le_refl _⟩, fun reply hret => ?_⟩
      replace hret : loginFound codec settings password now a = .ret reply := hret
      rcases loginFound_cases password now a with ⟨e, he⟩ |
        ⟨user, -, -, ⟨k', hk', -⟩ | ⟨k', hk', -⟩⟩
      · cases he.symm.trans hret
      · cases hk'.symm.trans hret
      · cases hk'.symm.trans hret
  | failing username password now userId rest hrow' hrest hlock =>
      obtain ⟨k', rfl, hraise⟩ := hrest
      cases htask
      obtain ⟨model', hu', hname'⟩ := hrow'
      obtain rfl := user_unique hnames hu' hu (hname'.trans hname.symm)
      obtain ⟨e, he⟩ := hraise a
      refine ⟨⟨_, hrow, ?_, ?_⟩, fun reply hret => by cases he.symm.trans hret⟩
      · simp only [Op.onRow, if_true, AppUser.failLogin]
        split
        · refine ⟨_, rfl, ?_⟩
          have hbound := hlock model T hu hT
          have hreading : now ≤ x.now := of_decide_eq_true hclock
          omega
        · exact ⟨T, hT, Nat.le_refl T⟩
      · simp only [Op.onRow, if_true, AppUser.failLogin]
        exact Nat.le_succ _
  | passed username password now userId op' k' hrow' hop' hrest hlock =>
      cases htask
      obtain ⟨model', hu', hname'⟩ := hrow'
      obtain rfl := user_unique hnames hu' hu (hname'.trans hname.symm)
      have hbound := hlock model T hu hT
      have hreading : now ≤ x.now := by
        rcases hop' with rfl | ⟨_, rfl⟩ | ⟨_, rfl⟩ <;> exact of_decide_eq_true hclock
      omega
  | ended r' rest hend =>
      cases htask
      cases hend

end own

/-! ## Every interleaving -/

section runs

variable {codec : Codec} {settings : AuthSettings} {account : String} {s s' : Attempted}

/-- **What one step of the attempts does.** -/
theorem attempts_step {m : UserMove} (h : (attempts codec settings account).step s m = some s') :
    (∃ r, m = .start r ∧ r.Attempts codec account ∧
      s' = ⟨s.time, { s.pool with tasks := s.pool.tasks ++ [⟨r, serve codec settings r⟩] }⟩) ∨
    (∃ i x r op k a c, m = .step i x ∧ s.time ≤ x.now ∧
      s.pool.tasks[i]? = some ⟨r, .call op k⟩ ∧ readsClock ⟨r, .call op k⟩ x.now = true ∧
      s.pool.config.exec i r op x = some (a, c) ∧
      s' = ⟨x.now, ⟨c, s.pool.tasks.set i ⟨r, k a⟩⟩⟩) := by
  cases m with
  | start r =>
      simp only [attempts] at h
      split at h
      · next hattempts =>
          obtain ⟨pool, hpool, rfl⟩ := Option.map_eq_some_iff.mp h
          cases hpool
          exact Or.inl ⟨r, rfl, hattempts, rfl⟩
      · cases h
  | step i x =>
      simp only [attempts] at h
      split at h
      · next hclock =>
          obtain ⟨pool, hpool, rfl⟩ := Option.map_eq_some_iff.mp h
          rcases Pool.step_cases hpool with ⟨_, hmove, -⟩ | ⟨j, y, r, op, k, a, c, hmove, htask, hexec, rfl⟩
          · cases hmove
          · cases hmove
            exact Or.inr ⟨i, x, r, op, k, a, c, rfl, hclock.1, htask, hclock.2 _ htask, hexec, rfl⟩
      · cases h

theorem attempting_of_reachable
    (h : (attempts codec settings account).ReachableVia Unrivalled s) :
    Attempting codec settings account s := by
  refine h.invariant ?_ ?_
  · rintro s ⟨hids, hnames, -, htasks⟩
    refine ⟨hids, hnames, fun i task htask => ?_⟩
    simp [htasks] at htask
  · intro s m s' hs hok hstep
    rcases attempts_step hstep with
      ⟨r, rfl, hattempts, rfl⟩ | ⟨i, x, r, op, k, a, c, rfl, htime, htask, -, hexec, rfl⟩
    · refine ⟨hs.ids, hs.names, fun j task htask => ?_⟩
      rcases Pool.task_start htask with hold | ⟨-, rfl⟩
      · exact hs.attempt j task hold
      · cases r with
        | login username password limited now =>
            obtain ⟨haccount, rfl⟩ := hattempts
            exact .arrived username password now haccount
        | _ => exact hattempts.elim
    · obtain ⟨hstore, -⟩ := Config.exec_eq_some hexec
      have hattempt := hs.attempt i _ htask
      have hop := hattempt.ofLogin
      refine ⟨users_nodup hstore hs.ids, ?_, fun j task hj => ?_⟩
      · show (c.store.users.map AppUser.usernameNormalized).Nodup
        rw [(exec_row hop hstore).2]
        exact hs.names
      · rcases Pool.task_step hj with ⟨-, rfl⟩ | ⟨hne, hold⟩
        · exact hattempt.own hs.ids hstore
        · refine (hs.attempt j task hold).other hop hstore htime fun hlocks r' op' k' heq => ?_
          subst heq
          exact hok r op k htask hlocks j r' op' k' hold

end runs

/-! ## Two runs -/

def readAt (now : Nat) : CallInput := ⟨now, ⟨"user-2", "session-1", "family-1", "jti-1"⟩⟩

def wrongAttempt : Request := .login "ann" "guess" false 1

/-- Five attempts with a wrong password, all of which look at the row first, and one with the right
password that reads the clock at `now`. -/
def sixAttempts (now : Nat) : List UserMove :=
  List.replicate 5 (.start wrongAttempt) ++ [.start (.login "ann" "first-secret" false now)]

def stepsAt (now : Nat) (steps : List Nat) : List UserMove := steps.map fun i => .step i (readAt now)

def sampleAttempts : TransitionSystem Attempted UserMove := attempts sampleCodec sampleSettings "ann"

theorem sampleAttempts_init : sampleAttempts.init ⟨0, samplePool⟩ := ⟨by decide, by decide, rfl, rfl⟩

instance (op : Op) : Decidable op.Succeeds := by
  cases op <;> unfold Op.Succeeds <;> infer_instance

/-- Nobody has passed the check when a failure is recorded. -/
def checkUnrivalled (s : Attempted) : UserMove → Bool
  | .start _ => true
  | .step i _ =>
      match s.pool.tasks[i]? with
      | some ⟨_, .call (.recordLoginFailure _) _⟩ => s.pool.tasks.all fun task =>
          match task.rest with
          | .call op _ => ! decide (Op.Succeeds op)
          | _ => true
      | _ => true

theorem unrivalled_of_check (s : Attempted) (m : UserMove) (h : checkUnrivalled s m = true) :
    Unrivalled s m := by
  cases m with
  | start r => trivial
  | step i x =>
      intro r op k htask hlocks j r' op' k' hj
      cases op with
      | recordLoginFailure u =>
          simp only [checkUnrivalled, htask] at h
          have hall := List.all_eq_true.mp h _ (List.mem_of_getElem? hj)
          simpa using hall
      | _ => exact hlocks.elim

/-- The right password comes while the lock stands. -/
def lockedMoves : List UserMove :=
  sixAttempts 3 ++ stepsAt 1 [0, 1, 2, 3, 4] ++ stepsAt 2 [0, 1, 2, 3, 4]

def lockedAttempts : Attempted :=
  (sampleAttempts.runChecked checkUnrivalled ⟨0, samplePool⟩ lockedMoves).get (by decide +kernel)

def refusedAttempt : Attempted :=
  (sampleAttempts.step lockedAttempts (.step 5 (readAt 3))).get (by decide +kernel)

/-- The right password has passed the check before the lock is set. -/
def rivalMoves : List UserMove :=
  sixAttempts 1 ++ stepsAt 1 [5, 0, 1, 2, 3, 4] ++ stepsAt 2 [0, 1, 2, 3, 4]

def rivalAttempts : Attempted :=
  (sampleAttempts.run ⟨0, samplePool⟩ rivalMoves).get (by decide +kernel)

def rivalSucceeds : Attempted :=
  (sampleAttempts.step rivalAttempts (.step 5 (readAt 3))).get (by decide +kernel)

end EnergyAgent.Users
