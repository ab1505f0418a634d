import EnergyAgent.Users.CallRules
import Mathlib.Data.List.Perm.Subperm

/-!
# There is always an active administrator

Only two calls can take an active administrator away, `update_profile` and `set_status`
(`UserEdit.administers`). Both count the active administrators in the transaction that writes the row,
and refuse when the row is the last of them; they refuse nothing else for that reason.
-/

namespace EnergyAgent.Users

open EnergyAgent.Core EnergyAgent.Lib

/-- An active administrator. -/
def AppUser.Administers (model : AppUser) : Prop := model.role = .admin ∧ model.status = .active

/-- The user ids are distinct, and one of the users is an active administrator. -/
structure Administered (s : Tables) : Prop where
  nodup : (s.users.map AppUser.userId).Nodup
  admin : ∃ u ∈ s.users, u.Administers

section call

variable {op : Op} {x : CallInput} {s t : Tables} {a : Ans op} {userId : String}

theorem mem_activeAdminIds :
    userId ∈ activeAdminIds s ↔ ∃ u ∈ s.users, u.Administers ∧ u.userId = userId := by
  simp only [activeAdminIds, List.mem_map, List.mem_filter, AppUser.Administers, decide_eq_true_eq,
    and_assoc]

/-- **What takes an administrator away**: another role, or the status `disabled`. -/
theorem UserEdit.administers {model model' : AppUser} (h : UserEdit op userId model model')
    (hadmin : model.Administers) : model'.Administers ∨
      (∃ displayName email emailSet role,
        op = .updateProfile userId displayName email emailSet (some role) ∧ role ≠ .admin) ∨
      op = .setStatus userId .disabled := by
  cases h with
  | edit displayName email emailSet role hop =>
      cases role with
      | none => exact Or.inl hadmin
      | some role =>
          by_cases hrole : role = .admin
          · left
            exact ⟨hrole, hadmin.2⟩
          · right
            left
            exact ⟨displayName, email, emailSet, role, hop, hrole⟩
  | status status hop =>
      cases status with
      | active =>
          left
          have hsame : model.withStatus .active = model := if_pos hadmin.2
          rw [hsame]
          exact hadmin
      | disabled => exact Or.inr (Or.inr hop)
  | keep | fail | success | password | bump => exact Or.inl hadmin

/-- The last administrator is not taken away. -/
theorem lastAdmin_kept {model : AppUser} (hu : s.user userId = some model) (hlast : lastAdmin s model)
    (hexec : exec op x s = some (a, t))
    (hop : (∃ displayName email emailSet role,
        op = .updateProfile userId displayName email emailSet (some role) ∧ role ≠ .admin) ∨
      op = .setStatus userId .disabled) : t = s := by
  rcases hop with ⟨displayName, email, emailSet, role, rfl, hrole⟩ | rfl
  · simp only [exec, updateProfile, hu, Option.some.injEq] at hexec
    rw [if_pos ⟨⟨role, rfl, hrole⟩, hlast⟩] at hexec
    exact (congrArg Prod.snd hexec).symm
  · simp only [exec, setStatus, hu, Option.some.injEq] at hexec
    rw [if_pos ⟨trivial, hlast⟩] at hexec
    exact (congrArg Prod.snd hexec).symm

/-- Besides an administrator who is not the last there is another one. -/
theorem exists_other {model : AppUser} (hs : (s.users.map AppUser.userId).Nodup)
    (hadmin : model.Administers) (hlast : ¬ lastAdmin s model) :
    ∃ other ∈ s.users, other.Administers ∧ other.userId ≠ model.userId := by
  by_contra hnone
  push Not at hnone
  apply hlast
  refine ⟨hadmin.1, hadmin.2, ?_⟩
  have hall : ∀ id ∈ activeAdminIds s, id = model.userId := by
    intro id hid
    obtain ⟨u, hu, hadmin', rfl⟩ := mem_activeAdminIds.mp hid
    exact hnone u hu hadmin'
  have hnodup : (activeAdminIds s).Nodup := hs.sublist (List.filter_sublist.map _)
  have hsub : activeAdminIds s ⊆ [model.userId] := by
    intro id hid
    exact List.mem_singleton.mpr (hall id hid)
  exact (List.subperm_of_subset hnodup hsub).length_le

/-- **Every call leaves an active administrator.** -/
theorem exec_administered (h : Administered s) (hexec : exec op x s = some (a, t)) :
    Administered t := by
  obtain ⟨u, hu, hadmin⟩ := h.admin
  have hget : s.user u.userId = some u := Table.get_of_mem h.nodup hu
  obtain ⟨u', hu', hedit⟩ := exec_user hexec hget
  refine ⟨users_nodup hexec h.nodup, ?_⟩
  rcases hedit.administers hadmin with hstill | hop
  · exact ⟨u', (Table.get_eq_some hu').1, hstill⟩
  by_cases hlast : lastAdmin s u
  · rw [lastAdmin_kept hget hlast hexec hop]
    exact h.admin
  -- the call is about `u`, so it leaves the other administrator
  obtain ⟨other, hmem, hother, hne⟩ := exists_other h.nodup hadmin hlast
  obtain ⟨other', hother', hedit'⟩ := exec_user hexec (Table.get_of_mem h.nodup hmem)
  refine ⟨other', (Table.get_eq_some hother').1, ?_⟩
  rcases hedit'.administers hother with hstill | ⟨_, _, _, _, hop', -⟩ | hop'
  · exact hstill
  · rcases hop with ⟨_, _, _, _, rfl, -⟩ | rfl
    · exact absurd (Op.updateProfile.inj hop').1.symm hne
    · cases hop'
  · rcases hop with ⟨_, _, _, _, rfl, -⟩ | rfl
    · cases hop'
    · exact absurd (Op.setStatus.inj hop').1.symm hne

end call

/-! ## What is refused -/

/-- The write that a request asks for on a row. -/
def Request.removal : Request → Option (String × (AppUser → AppUser))
  | .patch userId payload _ => some (userId, fun model => model.edit
      ((Text.truthy payload.displayName).map Text.strip) (payload.email.join.map Text.strip)
      payload.email.isSome payload.role)
  | .disable userId _ => some (userId, fun model => model.withStatus .disabled)
  | _ => none

/-- The call refuses this write to protect the last administrator. -/
def Op.Refuses (userId : String) (write : AppUser → AppUser) : (op : Op) → Ans op → Prop
  | .updateProfile u displayName email emailSet role, a =>
      u = userId ∧ write = (fun model => model.edit displayName email emailSet role) ∧
        a = .error .userLastAdminProtected
  | .setStatus u status, a =>
      u = userId ∧ write = (fun model => model.withStatus status) ∧
        a = .error .userLastAdminProtected
  | _, _ => False

section refusal

variable {op : Op} {x : CallInput} {s t : Tables} {a : Ans op} {userId : String}
  {write : AppUser → AppUser}

/-- What the guard of the two calls says. -/
theorem refuses_cases (hexec : exec op x s = some (a, t)) (h : op.Refuses userId write a) :
    (∃ model, s.user userId = some model ∧ lastAdmin s model) ∧
      ∀ model, ¬ (write model).Administers := by
  cases op with
  | updateProfile u displayName email emailSet role =>
      obtain ⟨rfl, rfl, rfl⟩ := h
      simp only [exec, updateProfile, Option.some.injEq] at hexec
      split at hexec
      · cases hexec
      · next model hu =>
          split at hexec
          · next hguard =>
              obtain ⟨⟨role, rfl, hrole⟩, hlast⟩ := hguard
              exact ⟨⟨model, hu, hlast⟩, fun _ hadmin => hrole hadmin.1⟩
          · split at hexec <;> cases hexec
  | setStatus u status =>
      obtain ⟨rfl, rfl, rfl⟩ := h
      simp only [exec, setStatus, Option.some.injEq] at hexec
      split at hexec
      · cases hexec
      · next model hu =>
          split at hexec
          · next hguard =>
              obtain ⟨rfl, hlast⟩ := hguard
              refine ⟨⟨model, hu, hlast⟩, fun model' hadmin => ?_⟩
              have hdisabled : (model'.withStatus .disabled).status = .disabled := by
                unfold AppUser.withStatus
                split
                · assumption
                · rfl
              exact absurd (hadmin.2.symm.trans hdisabled) (by decide)
          · cases hexec
  | _ => exact h.elim

/-- **Only what would remove the last administrator is refused.** -/
theorem refused_last (hexec : exec op x s = some (a, t)) (h : op.Refuses userId write a) :
    activeAdminIds s = [userId] ∧ activeAdminIds (writeUser s userId write) = [] := by
  obtain ⟨⟨model, hu, hrole, hstatus, hlength⟩, hwrite⟩ := refuses_cases hexec h
  obtain ⟨hmem, hkey⟩ := Table.get_eq_some hu
  have hadmin : userId ∈ activeAdminIds s :=
    mem_activeAdminIds.mpr ⟨model, hmem, ⟨hrole, hstatus⟩, hkey⟩
  have hone : activeAdminIds s = [userId] := by
    match hids : activeAdminIds s, hlength with
    | [id], _ =>
        rw [hids] at hadmin
        rw [List.mem_singleton.mp hadmin]
    | [], _ =>
        rw [hids] at hadmin
        cases hadmin
  refine ⟨hone, List.eq_nil_iff_forall_not_mem.mpr fun id hid => ?_⟩
  obtain ⟨u, hu', hadmin', -⟩ := mem_activeAdminIds.mp hid
  obtain ⟨row, hrow, rfl⟩ := List.mem_map.mp hu'
  split at hadmin'
  · exact hwrite row hadmin'
  · next hne =>
      have hmem' : row.userId ∈ activeAdminIds s := mem_activeAdminIds.mpr ⟨row, hrow, hadmin', rfl⟩
      rw [hone] at hmem'
      exact hne (List.mem_singleton.mp hmem')

end refusal

/-! ## The programs -/

/-- A call of the request refuses its write to protect the last administrator. -/
def Request.Refused (r : Request) (op : Op) (a : Ans op) : Prop :=
  ∃ userId write, r.removal = some (userId, write) ∧ op.Refuses userId write a

section programs

variable {α β : Type} {codec : Codec} {settings : AuthSettings}
  {cause : (op : Op) → Ans op → Prop}

/-- The program raises `userLastAdminProtected` only upon an answer of which `cause` holds. -/
abbrev Protects (cause : (op : Op) → Ans op → Prop) (p : Call α) : Prop :=
  p.RaisesUpon .userLastAdminProtected cause

theorem protects_ask (op : Op) : Protects cause (ask op) := fun _ _ => Or.inr trivial

/-- A call, and what follows it. -/
theorem protects_call {op : Op} {f : Ans op → Call α} (h : ∀ a, backend.Answers op a →
      (cause op a ∧ f a = .raise .userLastAdminProtected) ∨ Protects cause (f a)) :
    Protects cause (ask op >>= f) := h

theorem protects_orRaise {e : AuthError} (o : Option α)
    (he : e ≠ .userLastAdminProtected) : Protects cause (orRaise e o) := by
  cases o with
  | none => exact he
  | some a => trivial

theorem protects_raiseIf (c : Prop) [Decidable c] {e : AuthError}
    (he : e ≠ .userLastAdminProtected) : Protects cause (Proc.raiseIf c e) := by
  unfold Proc.raiseIf
  split
  · exact he
  · trivial

theorem protects_lift {answer : Except RepositoryError α}
    (h : answer ≠ .error .userLastAdminProtected) : Protects cause (liftRepository answer) := by
  cases answer with
  | ok a => trivial
  | error e =>
      cases e with
      | userLastAdminProtected => exact absurd rfl h
      | _ => exact AuthError.noConfusion

theorem protects_currentUser (userId : String) : Protects cause (currentUser userId) :=
  .bind (protects_ask _) fun _ => protects_orRaise _ (by decide)

theorem protects_hashPassword (password username : String) :
    Protects cause (hashPassword codec password username) := by
  rcases hashPassword_cases codec password username with h | h <;> rw [h]
  · exact AuthError.noConfusion
  · trivial

theorem protects_issuePair (user : AppUser) (now : Nat) :
    Protects cause (issuePair settings user now) :=
  .bind (protects_ask _) fun _ => .bind (protects_currentUser _) fun _ => trivial

theorem protects_login (username password : String) (limited : Bool) (now : Nat) :
    Protects cause (login codec settings username password limited now) := by
  refine .bind (protects_raiseIf _ (by decide)) fun _ => .bind (protects_ask _) fun _ =>
    .bind (protects_orRaise _ (by decide)) fun user =>
    .bind (protects_raiseIf _ (by decide)) fun _ => ?_
  split
  · refine .bind (protects_ask _) fun locked => ?_
    cases locked <;> exact AuthError.noConfusion
  · split
    · exact AuthError.noConfusion
    · exact .bind (protects_ask _) fun _ => .bind (protects_orRaise _ (by decide)) fun _ =>
        protects_issuePair _ _

theorem protects_refreshClaims (claims : RefreshToken) (now : Nat) :
    Protects cause (refreshClaims settings claims now) := by
  refine .bind (protects_ask _) fun _ => .bind (protects_orRaise _ (by decide)) fun user =>
    .bind (protects_raiseIf _ (by decide)) fun _ => .bind (protects_ask _) fun answer => ?_
  cases answer with
  | refused => exact AuthError.noConfusion
  | reused => exact .bind (protects_ask _) fun _ => .bind (protects_ask _) fun _ =>
      AuthError.noConfusion
  | rotated => exact .bind (protects_currentUser _) fun _ => trivial

theorem protects_changePassword (actor : ActorContext) (currentPassword newPassword : String)
    (now : Nat) :
    Protects cause (changePassword codec settings actor currentPassword newPassword now) := by
  refine .bind (protects_ask _) fun _ => .bind (protects_orRaise _ (by decide)) fun user =>
    .bind (protects_raiseIf _ (by decide)) fun _ => ?_
  rcases validatePassword_cases codec newPassword user.username with h | h <;> rw [h]
  · exact AuthError.noConfusion
  · simp only [Proc.ret_bind]
    exact .bind (protects_raiseIf _ (by decide)) fun _ => .bind (protects_hashPassword _ _) fun _ =>
      .bind (protects_ask _) fun _ => .bind (protects_orRaise _ (by decide)) fun _ =>
      .bind (protects_ask _) fun _ => protects_issuePair _ _

/-- `create` and `enable` are never refused to protect the last administrator. -/
theorem protects_create (payload : UserCreateRequest) :
    Protects cause (create codec payload) := by
  refine .bind (protects_raiseIf _ (by decide)) fun _ =>
    .bind (protects_hashPassword _ _) fun _ => protects_call fun a ha => Or.inr (protects_lift ?_)
  rintro rfl
  obtain ⟨x, s, t, hexec⟩ := ha
  simp only [exec, createUser] at hexec
  repeat (split at hexec; · cases hexec)
  cases hexec

theorem protects_enable (userId : String) : Protects cause (enable userId) := by
  refine protects_call fun a ha => Or.inr ?_
  refine Proc.RaisesUpon.bind (protects_lift ?_) fun _ => protects_orRaise _ (by decide)
  rintro rfl
  obtain ⟨x, s, t, hexec⟩ := ha
  simp only [exec, setStatus, Option.some.injEq] at hexec
  split at hexec
  · cases hexec
  · split at hexec
    · next hguard => exact absurd hguard.1 (by decide)
    · cases hexec

theorem protects_patch (userId : String) (payload : UserPatchRequest) (actor : ActorContext) :
    Protects (Request.patch userId payload actor).Refused (patch userId payload actor) := by
  refine .bind (protects_currentUser _) fun _ => .bind (protects_raiseIf _ (by decide)) fun _ =>
    .bind (protects_raiseIf _ (by decide)) fun _ => protects_call fun a _ => ?_
  by_cases hlast : a = .error .userLastAdminProtected
  · subst hlast
    exact Or.inl ⟨⟨userId, _, rfl, rfl, rfl, rfl⟩, rfl⟩
  · refine Or.inr (.bind (protects_lift hlast) fun _ => .bind (protects_orRaise _ (by decide)) ?_)
    rintro ⟨profile, oldRole⟩
    simp only
    split
    · exact .bind (protects_ask _) fun _ => trivial
    · trivial

theorem protects_disable (userId : String) (actor : ActorContext) :
    Protects (Request.disable userId actor).Refused (disable userId actor) := by
  refine .bind (protects_raiseIf _ (by decide)) fun _ => .bind (protects_currentUser _) fun _ =>
    protects_call fun a _ => ?_
  by_cases hlast : a = .error .userLastAdminProtected
  · subst hlast
    exact Or.inl ⟨⟨userId, _, rfl, rfl, rfl, rfl⟩, rfl⟩
  · exact Or.inr (.bind (protects_lift hlast) fun _ => .bind (protects_orRaise _ (by decide))
      fun _ => .bind (protects_ask _) fun _ => trivial)

theorem protects_serve (r : Request) : Protects r.Refused (serve codec settings r) := by
  cases r with
  | login username password limited now =>
      exact .bind (protects_login username password limited now) fun _ => trivial
  | authenticateAccess token =>
      refine Proc.RaisesUpon.bind ?_ fun _ => trivial
      cases token with
      | claims claims =>
          exact .bind (protects_ask _) fun _ => .bind (protects_orRaise _ (by decide)) fun _ =>
            .bind (protects_raiseIf _ (by decide)) fun _ => .bind (protects_currentUser _)
            fun _ => trivial
      | expired | invalid => exact AuthError.noConfusion
  | refresh token limited now =>
      refine Proc.RaisesUpon.bind (.bind (protects_raiseIf _ (by decide)) fun _ => ?_)
        fun _ => trivial
      cases token with
      | claims claims => exact protects_refreshClaims claims now
      | expired | invalid => exact AuthError.noConfusion
  | changePassword actor currentPassword newPassword now =>
      exact .bind (protects_changePassword actor currentPassword newPassword now) fun _ => trivial
  | logout actor token =>
      refine Proc.RaisesUpon.bind ?_ fun _ => trivial
      cases token with
      | claims claims =>
          simp only [logout]
          split
          · exact protects_ask _
          · trivial
      | expired | invalid => trivial
  | logoutAll actor =>
      exact .bind (.bind (protects_ask _) fun _ => protects_ask _) fun _ => trivial
  | get userId => exact .bind (protects_currentUser userId) fun _ => trivial
  | create payload => exact .bind (protects_create payload) fun _ => trivial
  | patch userId payload actor => exact .bind (protects_patch userId payload actor) fun _ => trivial
  | disable userId actor => exact .bind (protects_disable userId actor) fun _ => trivial
  | enable userId => exact .bind (protects_enable userId) fun _ => trivial
  | resetPassword userId password =>
      exact .bind (.bind (protects_currentUser _) fun _ => .bind (protects_hashPassword _ _) fun _ =>
        .bind (protects_ask _) fun _ => .bind (protects_orRaise _ (by decide)) fun _ =>
        .bind (protects_ask _) fun _ => protects_currentUser _) fun _ => trivial
  | revokeSessions userId =>
      exact .bind (.bind (protects_currentUser _) fun _ => .bind (protects_ask _) fun _ =>
        .bind (protects_ask _) fun _ => protects_currentUser _) fun _ => trivial

end programs

/-! ## Every run -/

section runs

variable (codec : Codec) (settings : AuthSettings)

/-- All interleavings of the requests, from any tables with an active administrator. -/
def administration : TransitionSystem UserPool UserMove :=
  Pool.system Administered (serve codec settings)

variable {codec settings} {p : UserPool}

theorem administered_of_reachable (h : (administration codec settings).Reachable p) :
    Administered p.config.store := by
  refine h.invariant (I := fun p : UserPool => Administered p.config.store) ?_ ?_
  · rintro p ⟨hinit, -, -⟩
    exact hinit
  · intro p m q hp _ hstep
    rcases Pool.step_cases hstep with ⟨r, rfl, rfl⟩ | ⟨i, x, r, op, k, a, c, rfl, -, hexec, rfl⟩
    · exact hp
    · exact exec_administered hp (Config.exec_eq_some hexec).1

/-- **There is always an active administrator**, whatever the requests do at the same time; and a
request that ends with `userLastAdminProtected` would have removed the last one. -/
theorem active_admin_remains (h : (administration codec settings).Reachable p) :
    (∃ u ∈ p.config.store.users, u.role = .admin ∧ u.status = .active) ∧
    ∀ i x q r, (administration codec settings).step p (.step i x) = some q →
      q.tasks[i]? = some ⟨r, .raise .userLastAdminProtected⟩ →
      ∃ userId write, r.removal = some (userId, write) ∧
        activeAdminIds p.config.store = [userId] ∧
        activeAdminIds (writeUser p.config.store userId write) = [] := by
  refine ⟨(administered_of_reachable h).admin, fun i x q r hstep hraised => ?_⟩
  obtain ⟨op, a, hexec, userId, write, hremoval, hrefuses⟩ :=
    Pool.step_raises protects_serve h hstep hraised
  exact ⟨userId, write, hremoval, refused_last hexec hrefuses⟩

end runs

/-! ## A request that is refused -/

def soleAdmin : AppUser := { sampleUser with role := .admin }

def soleAdminPool : UserPool := ⟨⟨⟨[soleAdmin], []⟩, []⟩, []⟩

def disableAdmin : Request := .disable "user-1" ⟨"user-2", .admin⟩

def sampleCall : UserMove := .step 0 (sampleInput "session-1" "family-1" "jti-1")

/-- The only administrator, and a request to disable it, before its second call. -/
def disabling : UserPool :=
  ((administration sampleCodec sampleSettings).run soleAdminPool
    [.start disableAdmin, sampleCall]).get (by decide +kernel)

/-- Its second call is refused. -/
def refused : UserPool :=
  ((administration sampleCodec sampleSettings).step disabling sampleCall).get (by decide +kernel)

theorem disabling_refused :
    (∃ u ∈ disabling.config.store.users, u.role = .admin ∧ u.status = .active) ∧
    ∃ userId write, disableAdmin.removal = some (userId, write) ∧
      activeAdminIds disabling.config.store = [userId] ∧
      activeAdminIds (writeUser disabling.config.store userId write) = [] := by
  have hinit : (administration sampleCodec sampleSettings).init soleAdminPool :=
    ⟨⟨by decide, soleAdmin, List.mem_singleton_self _, rfl, rfl⟩, rfl, rfl⟩
  have hrun : (administration sampleCodec sampleSettings).run soleAdminPool
      [.start disableAdmin, sampleCall] = some disabling := (Option.some_get _).symm
  have hreached := TransitionSystem.Reachable.of_run (.init hinit) hrun
  have hstep : (administration sampleCodec sampleSettings).step disabling sampleCall =
      some refused := (Option.some_get _).symm
  have hraised : refused.tasks[0]? = some ⟨disableAdmin, .raise .userLastAdminProtected⟩ := rfl
  have h := active_admin_remains hreached
  exact ⟨h.1, h.2 0 _ refused disableAdmin hstep hraised⟩

end EnergyAgent.Users
